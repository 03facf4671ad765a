import Mathlib.Data.List.Basic
import ScillaLayout.Layout.Lines
import ScillaLayout.Proofs.Editing.Checked
import ScillaLayout.Proofs.Layout.Gap

/-!
# Rules for lines by index

The rules for lines as loops that move an index over a list while they put tokens in and take them out. Each loop comes
to an end without a fault and leaves what the rule says (`removeLeading_eq`, `collapseBlank_eq`, `clearBlank_eq`,
`stripTrailing_eq`, `trimEnd_eq`, `normalize_eq`).

The lemma about a loop speaks of a cursor anywhere in the list: the part before it is done, and the loop does to the
part behind it what the rule does. It is an induction on that part, with the lemma about one turn as its step.
-/

namespace ScillaLayout.Editing

open Checked (pred loop loop_done loop_turn)
open Sequence

/-! ## Loops -/

/-- Drops blanks and line breaks before the first other token. -/
def removeLeading (ts : Sequence) : Checked Sequence :=
  loop (fun ts => return (ts.peek? 0).any (·.isSpace)) (·.removeAt 0) ts

/-- The list, the index, and how many line breaks stand before it since the last token that is no space. -/
structure BlankRun where
  tokens : Sequence
  index : Nat
  breaks : Nat

/-- The token at the index. A third line break goes, with the blanks before it. -/
def BlankRun.turn (s : BlankRun) : Checked BlankRun := do
  let t ← s.tokens.read s.index
  if t.isNewline then
    if 2 < s.breaks + 1 then
      let start ← s.tokens.blanksStart s.index
      return ⟨← s.tokens.removeRun start (s.index + 1 - start), start, s.breaks + 1⟩
    else return ⟨s.tokens, s.index + 1, s.breaks + 1⟩
  else if t.isWhitespace then return ⟨s.tokens, s.index + 1, s.breaks⟩
  else return ⟨s.tokens, s.index + 1, 0⟩

/-- Goes over the list to its end. -/
def BlankRun.run (s : BlankRun) : Checked Sequence :=
  return (← loop (fun s => return s.index < s.tokens.length) BlankRun.turn s).tokens

/-- Keeps at most one blank line. -/
def collapseBlank (ts : Sequence) : Checked Sequence := BlankRun.run ⟨ts, 0, 0⟩

/-- Whether index `i` starts a line. -/
def startsLine (ts : Sequence) (i : Nat) : Checked Bool := do
  if i = 0 then return true else return (← ts.read (← pred i)).isNewline

/-- The token at index `i`. A blank that is all of its line goes. -/
def clearBlankTurn (ts : Sequence) (i : Nat) : Checked (Sequence × Nat) := do
  let starts ← startsLine ts i
  let ends := (ts.peek? (i + 1)).all fun t => t.kind == .newline || t.kind == .eof
  if (← ts.read i).kind == .whitespace && starts && ends then return (← ts.removeAt i, i) else return (ts, i + 1)

/-- Empties lines that hold nothing but one blank. -/
def clearBlank (ts : Sequence) : Checked Sequence := ts.scan clearBlankTurn 0

/-- The token at index `i`. Before a line break the blanks go. -/
def stripTrailingTurn (ts : Sequence) (i : Nat) : Checked (Sequence × Nat) := do
  if (← ts.read i).isNewline then
    let (ts, i) ← ts.dropBefore (·.isWhitespace) i
    return (ts, i + 1)
  else return (ts, i + 1)

/-- Drops the blanks before line breaks. -/
def stripTrailing (ts : Sequence) : Checked Sequence := ts.scan stripTrailingTurn 0

/-- The index of the end mark, or of the end if there is no end mark. -/
def documentEnd (ts : Sequence) : Checked Nat :=
  match ts.getLast? with
  | some last => if last.kind == .eof then pred ts.length else return ts.length
  | none => return ts.length

/-- Drops blanks and line breaks before index `i`, and puts one line break there if the options ask for it. -/
def trimBefore (o : Options) (ts : Sequence) (i : Nat) : Checked Sequence := do
  let (ts, i) ← ts.dropBefore (·.isSpace) i
  if o.endWithNewline && 0 < i then ts.insertAt i o.newlineToken else return ts

/-- Drops blanks and line breaks at the end of the document. -/
def trimEnd (o : Options) (ts : Sequence) : Checked Sequence := do trimBefore o ts (← documentEnd ts)

/-- The token at index `i`. A line break is written as the options want it. -/
def normalizeTurn (o : Options) (ts : Sequence) (i : Nat) : Checked (Sequence × Nat) := do
  let t ← ts.read i
  if t.kind ≠ .newline || t.text = o.newline then return (ts, i + 1)
  else return ((ts.setText? i o.newline).getD ts, i + 1)

/-- Writes all line breaks as the options want them. -/
def normalize (o : Options) (ts : Sequence) : Checked Sequence := ts.scan (normalizeTurn o) 0

/-! ## The start of the document -/

theorem removeLeading_eq (ts : Sequence) : removeLeading ts = pure (Lines.removeLeading ts) := by
  rw [removeLeading, Lines.removeLeading]
  induction ts with
  | nil => exact loop_done rfl
  | cons t ts ih =>
    have hpeek : Sequence.peek? (t :: ts) 0 = some t := rfl
    have hremove : Sequence.removeAt (t :: ts) 0 = pure ts := removeAt_followedBy [] (t :: ts) (n := 0) (by simp)
    cases ht : t.isSpace with
    | true =>
      rw [loop_turn ts (by simp [hpeek, ht]) hremove, List.dropWhile_cons_of_pos ht]
      exact ih
    | false => rw [loop_done (by simp [hpeek, ht]), List.dropWhile_cons_of_neg (by simp [ht])]

/-! ## Blank lines -/

/-- The blanks before the cursor can be counted to what is behind it. -/
theorem followedBy_blanks (out : Before) (rest : List Token) : out.followedBy rest =
    Before.followedBy out.trimmed ((out.takeWhile (·.isWhitespace)).reverse ++ rest) := by
  rw [Before.followedBy, Before.followedBy, ← List.append_assoc, ← List.reverse_append, Before.trimmed,
    List.takeWhile_append_dropWhile]

theorem length_trimmed (out : Before) :
    out.length = out.trimmed.length + (out.takeWhile (·.isWhitespace)).reverse.length := by
  have hlength := congrArg List.length (List.takeWhile_append_dropWhile (p := (·.isWhitespace)) (l := out))
  rw [List.length_append] at hlength
  rw [Before.trimmed, List.length_reverse, ← hlength, Nat.add_comm]

/-- No blank is left before the cursor. -/
theorem trimmed_trimmed (out : Before) :
    out.trimmed.trimmed = out.trimmed ∧ out.trimmed.takeWhile (·.isWhitespace) = [] := by
  induction out with
  | nil => exact ⟨rfl, rfl⟩
  | cons u out ih =>
    cases hu : u.isWhitespace with
    | true => simpa [Before.trimmed, hu] using ih
    | false => simp [Before.trimmed, hu]

/-- A third line break and the blanks before it are one run of tokens. -/
theorem removeRun_blanks (out : Before) (t : Token) (rest : List Token) :
    (out.followedBy (t :: rest)).removeRun out.trimmed.length (out.length + 1 - out.trimmed.length) =
      pure (Before.followedBy out.trimmed rest) := by
  have hrun := removeRun_here out.trimmed ((out.takeWhile (·.isWhitespace)).reverse ++ [t]) rest
  rw [List.append_assoc, List.singleton_append, ← followedBy_blanks, List.length_append] at hrun
  rw [← hrun]
  congr 1
  have hlength := length_trimmed out
  rw [List.length_singleton]
  omega

namespace BlankRun

/-- The state of the loop at a cursor. -/
def of (out : Before) (rest : List Token) (breaks : Nat) : BlankRun := ⟨out.followedBy rest, out.length, breaks⟩

/-- One turn: a third line break goes with the blanks before it, any other token stays. -/
theorem turn_of (out : Before) (t : Token) (rest : List Token) (breaks : Nat) :
    (of out (t :: rest) breaks).turn = pure
      (if t.isNewline then
        if 2 ≤ breaks then of out.trimmed rest (breaks + 1) else of (t :: out) rest (breaks + 1)
      else of (t :: out) rest (if t.isWhitespace then breaks else 0)) := by
  simp only [turn, of, read_here, blanksStart_here, removeRun_blanks, pure_bind, cons_followedBy, List.length_cons]
  have hmany : 2 < breaks + 1 ↔ 2 ≤ breaks := by omega
  simp only [hmany]
  split
  · split <;> rfl
  · split <;> rfl

theorem run_end (out : Before) (breaks : Nat) : (of out [] breaks).run = pure out.reverse := by
  rw [run, loop_done (by simp [of]), pure_bind]
  exact congrArg pure (followedBy_nil out)

theorem run_turn (out : Before) (t : Token) (rest : List Token) (breaks : Nat) :
    (of out (t :: rest) breaks).run =
      (if t.isNewline then
        if 2 ≤ breaks then of out.trimmed rest (breaks + 1) else of (t :: out) rest (breaks + 1)
      else of (t :: out) rest (if t.isWhitespace then breaks else 0)).run := by
  rw [run, loop_turn _ (by simp [of]) (turn_of out t rest breaks), run]

/-- The blanks before the cursor are those that the rule holds back. -/
theorem run_of (out : Before) (rest : List Token) (breaks : Nat) :
    (of out rest breaks).run = pure (Before.followedBy out.trimmed
      (Lines.collapseBlankFrom breaks (out.takeWhile (·.isWhitespace)).reverse rest)) := by
  induction rest generalizing breaks out with
  | nil => rw [run_end, Lines.collapseBlankFrom, ← followedBy_nil, followedBy_blanks, List.append_nil]
  | cons t rest ih =>
    -- behind a token that is no blank nothing is held back
    have hsolid : ∀ breaks, t.isWhitespace = false → (of (t :: out) rest breaks).run =
        pure (Before.followedBy out.trimmed ((out.takeWhile (·.isWhitespace)).reverse ++
          t :: Lines.collapseBlankFrom breaks [] rest)) := by
      intro breaks ht
      rw [ih, ← followedBy_blanks, ← cons_followedBy]
      simp [Before.trimmed, ht]
    rw [run_turn, Lines.collapseBlankFrom]
    by_cases hn : t.isNewline = true
    · rw [if_pos hn, if_pos hn]
      by_cases hmany : 2 ≤ breaks
      · obtain ⟨htrim, htake⟩ := trimmed_trimmed out
        rw [if_pos hmany, if_pos hmany, ih, htrim, htake]
        rfl
      · rw [if_neg hmany, if_neg hmany, hsolid _ (isWhitespace_of_isNewline hn)]
    · rw [if_neg hn, if_neg hn]
      by_cases ht : t.isWhitespace = true
      · rw [if_pos ht, if_pos ht, ih]
        simp [Before.trimmed, ht]
      · rw [if_neg ht, if_neg ht, hsolid 0 (by simpa using ht)]

end BlankRun

theorem collapseBlank_eq (ts : Sequence) : collapseBlank ts = pure (Lines.collapseBlank ts) := BlankRun.run_of [] ts 0

theorem startsLine_here (out : Before) (rest : List Token) :
    startsLine (out.followedBy rest) out.length = pure (out.head?.all (·.isNewline)) := by
  cases out with
  | nil => rfl
  | cons u out => simp [startsLine, cons_followedBy]

theorem clearBlankTurn_here (out : Before) (t : Token) (rest : List Token) :
    clearBlankTurn (out.followedBy (t :: rest)) out.length = pure
      (if t.kind == .whitespace && out.head?.all (·.isNewline) && Lines.endsLine rest then
        (out.followedBy rest, out.length)
      else (Before.followedBy (t :: out) rest, out.length + 1)) := by
  have hends : (rest.head?.all fun t => t.kind == .newline || t.kind == .eof) = Lines.endsLine rest := by
    cases rest <;> rfl
  simp only [clearBlankTurn, read_here, startsLine_here, peek?_next, pure_bind, hends, removeAt_here, cons_followedBy]
  split <;> rfl

theorem clearBlank_here (out : Before) (rest : List Token) : (out.followedBy rest).scan clearBlankTurn out.length =
    pure (out.followedBy (Lines.clearBlankFrom (out.head?.all (·.isNewline)) rest)) := by
  induction rest generalizing out with
  | nil => rw [scan_end, Lines.clearBlankFrom, followedBy_nil]
  | cons t rest ih =>
    have hturn := clearBlankTurn_here out t rest
    rw [Lines.clearBlankFrom]
    split at hturn
    · next hblank => rw [scan_turn hturn, ih, if_pos hblank]
    · next hblank =>
      rw [scan_turn hturn, if_neg hblank, ← cons_followedBy]
      exact ih (t :: out)

theorem clearBlank_eq (ts : Sequence) : clearBlank ts = pure (Lines.clearBlank ts) := clearBlank_here [] ts

/-! ## The ends of lines -/

theorem stripTrailingTurn_here (out : Before) (t : Token) (rest : List Token) :
    stripTrailingTurn (out.followedBy (t :: rest)) out.length =
      pure (Before.followedBy (Lines.stripStep out t) rest, (Lines.stripStep out t).length) := by
  rw [stripTrailingTurn, read_here, pure_bind, Lines.stripStep, dropBefore_here, pure_bind]
  split
  · rw [cons_followedBy, List.length_cons]
    rfl
  · rw [cons_followedBy, List.length_cons]

theorem stripTrailing_here (out : Before) (rest : List Token) :
    (out.followedBy rest).scan stripTrailingTurn out.length = pure (rest.foldl Lines.stripStep out).reverse := by
  induction rest generalizing out with
  | nil => exact scan_end _ out
  | cons t rest ih => rw [scan_turn (stripTrailingTurn_here out t rest), List.foldl_cons, ih]

theorem stripTrailing_eq (ts : Sequence) : stripTrailing ts = pure (Lines.stripTrailing ts) := stripTrailing_here [] ts

/-! ## The end of the document -/

theorem trimBefore_here (o : Options) (out : Before) (rest : List Token) :
    trimBefore o (out.followedBy rest) out.length = pure (Lines.trimBody o out.reverse ++ rest) := by
  rw [trimBefore, dropBefore_here, Lines.trimBody, List.reverse_reverse]
  cases out.dropWhile (·.isSpace) with
  | nil => simp [Before.followedBy]
  | cons last before =>
    have hpositive : 0 < (last :: before).length := by simp
    simp only [pure_bind, hpositive, decide_true, Bool.and_true, insertAt_here]
    split <;> simp [Before.followedBy]

theorem trimEnd_eq (o : Options) (ts : Sequence) : trimEnd o ts = pure (Lines.trimEnd o ts) := by
  have hwhole : trimBefore o ts ts.length = pure (Lines.trimBody o ts) := by
    have hend := trimBefore_here o ts.reverse []
    rwa [Before.followedBy, List.reverse_reverse, List.append_nil, List.append_nil, List.length_reverse] at hend
  rw [trimEnd, documentEnd, Lines.trimEnd]
  cases hlast : ts.getLast? with
  | none =>
    rw [List.getLast?_eq_none_iff] at hlast
    subst hlast
    rw [pure_bind]
    exact hwhole
  | some last =>
    have hts := List.dropLast_append_getLast? last hlast
    cases hk : last.kind == .eof with
    | true =>
      have hbody := trimBefore_here o ts.dropLast.reverse [last]
      rw [Before.followedBy, List.reverse_reverse, hts, List.length_reverse] at hbody
      have hlength : ts.length = ts.dropLast.length + 1 := by
        rw [← List.length_singleton (a := last), ← List.length_append, hts]
      simp only [hk, if_true]
      rw [hlength, Checked.pred_succ, pure_bind, hbody]
    | false => simp [hk, hwhole]

/-! ## The spelling of line breaks -/

theorem normalizeTurn_here (o : Options) (out : Before) (t : Token) (rest : List Token) :
    normalizeTurn o (out.followedBy (t :: rest)) out.length =
      pure (Before.followedBy ((if t.isNewline then t.withText o.newline else t) :: out) rest, out.length + 1) := by
  rw [normalizeTurn, read_here, pure_bind, setText?_here, Option.getD_some, cons_followedBy]
  by_cases hn : t.kind = .newline
  · by_cases htext : t.text = o.newline
    · simp [Token.isNewline, hn, htext, withText_of_text htext]
    · simp [Token.isNewline, hn, htext]
  · simp [Token.isNewline, hn]

theorem normalize_here (o : Options) (out : Before) (rest : List Token) :
    (out.followedBy rest).scan (normalizeTurn o) out.length = pure (out.followedBy (Lines.normalize o rest)) := by
  induction rest generalizing out with
  | nil => rw [scan_end, Lines.normalize, List.map_nil, followedBy_nil]
  | cons t rest ih =>
    rw [scan_turn (normalizeTurn_here o out t rest), Lines.normalize, List.map_cons, ← cons_followedBy]
    exact ih _

theorem normalize_eq (o : Options) (ts : Sequence) : normalize o ts = pure (Lines.normalize o ts) :=
  normalize_here o [] ts

end ScillaLayout.Editing
