import ScillaLayout.Layout.Spacing
import ScillaLayout.Proofs.Editing.Checked
import ScillaLayout.Proofs.Layout.Finish

/-!
# Rules for blanks within lines by index

The rules for blanks within lines as loops that move an index over a list. Each loop comes to an end without a fault and
leaves what the rule says (`collapse_eq`, `spaceOperators_eq`, `tighten_eq`).

An operator gets the space behind it before the loop comes to the token behind, so that `spaceOperators_here` is about a
list in which the operator before the cursor already has its space (`spaced`).
-/

namespace ScillaLayout.Editing

open Checked (pred loop_done)
open Sequence

/-! ## Loops -/

/-- The token at index `i`. A blank becomes one space, unless it starts a line or follows a comment. -/
def collapseTurn (ts : Sequence) (i : Nat) : Checked (Sequence × Nat) := do
  let t ← ts.read i
  if t.kind ≠ .whitespace || t.text = " " then return (ts, i + 1)
  else
    let prev := (← ts.read (← pred i)).kind
    if prev = .newline || prev = .comment then return (ts, i + 1)
    else return ((ts.setText? i " ").getD ts, i + 1)

/-- Shrinks runs of blanks to one space. The first token is left out. -/
def collapse (ts : Sequence) : Checked Sequence := ts.scan collapseTurn 1

/-- Makes the blank at index `i` one space. -/
def setSpace (ts : Sequence) (i : Nat) : Sequence :=
  match ts.peek? i with
  | some t => if t.text ≠ " " then (ts.setText? i " ").getD ts else ts
  | none => ts

/-- Puts one space before the operator at index `i`, unless it starts a line. -/
def spaceBefore (ts : Sequence) (i : Nat) : Checked (Sequence × Nat) := do
  if ← ts.isFirstOnLine i then return (ts, i)
  else
    let j ← pred i
    if (← ts.read j).kind == .whitespace then return (setSpace ts j, i)
    else return (← ts.insertAt i .space, i + 1)

/-- Puts one space behind the operator at index `i`, unless it ends a line. -/
def spaceBehind (ts : Sequence) (i : Nat) : Checked Sequence :=
  match ts.peek? (i + 1) with
  | some next =>
    if next.kind == .whitespace then return setSpace ts (i + 1)
    else if next.kind == .newline || next.kind == .eof then return ts
    else ts.insertBehind i .space
  | none => return ts

/-- The token at index `i`. An operator gets its spaces. -/
def operatorTurn (ts : Sequence) (i : Nat) : Checked (Sequence × Nat) := do
  if Spacing.isOperator (← ts.read i).kind then
    let (ts, i) ← spaceBefore ts i
    return (← spaceBehind ts i, i + 1)
  else return (ts, i + 1)

/-- Puts one space on both sides of operators. -/
def spaceOperators (ts : Sequence) : Checked Sequence := ts.scan operatorTurn 0

/-- Takes out a blank before the token of kind `k` at index `i` if it allows none. -/
def tightenBefore (ts : Sequence) (i : Nat) (k : Kind) : Checked (Sequence × Nat) := do
  if Spacing.hugsPrevious k && 0 < i then
    let j ← pred i
    if (← ts.read j).kind == .whitespace then
      if ← ts.isFirstOnLine i then return (ts, i) else return (← ts.removeAt j, j)
    else return (ts, i)
  else return (ts, i)

/-- Takes out a blank behind the token of kind `k` at index `i` if it allows none. -/
def tightenBehind (ts : Sequence) (i : Nat) (k : Kind) : Checked Sequence := do
  if Spacing.hugsNext k && (ts.peek? (i + 1)).any (·.kind == .whitespace) then ts.removeAt (i + 1) else return ts

/-- The token at index `i`. -/
def tightenTurn (ts : Sequence) (i : Nat) : Checked (Sequence × Nat) := do
  let k := (← ts.read i).kind
  let (ts, i) ← tightenBefore ts i k
  return (← tightenBehind ts i k, i + 1)

/-- Takes out blanks before and behind punctuation. -/
def tighten (ts : Sequence) : Checked Sequence := ts.scan tightenTurn 0

/-! ## Runs of blanks -/

theorem collapseTurn_here (prev : Token) (out : Before) (t : Token) (rest : List Token) :
    collapseTurn (Before.followedBy (prev :: out) (t :: rest)) (prev :: out).length =
      pure (Before.followedBy (Spacing.collapsed prev.kind t :: prev :: out) rest, (prev :: out).length + 1) := by
  have hprev : (Before.followedBy (prev :: out) (t :: rest)).read out.length = pure prev := by
    rw [cons_followedBy, read_here]
  rw [collapseTurn, read_here, pure_bind, setText?_here, Option.getD_some, List.length_cons, Checked.pred_succ,
    pure_bind, hprev, pure_bind, Spacing.collapsed]
  simp only [cons_followedBy]
  by_cases hk : t.kind = .whitespace
  · by_cases htext : t.text = " "
    · simp [hk, htext, withText_of_text htext]
    · by_cases hprevious : prev.kind = .newline ∨ prev.kind = .comment
      · obtain hp | hp := hprevious <;> simp [hk, htext, hp]
      · obtain ⟨hn, hc⟩ := not_or.1 hprevious
        simp [hk, htext, hn, hc]
  · simp [hk]

theorem collapsed_kind (prev : Kind) (t : Token) : (Spacing.collapsed prev t).kind = t.kind := by
  rw [Spacing.collapsed]
  split <;> rfl

theorem collapse_here (prev : Token) (out : Before) (rest : List Token) :
    (Before.followedBy (prev :: out) rest).scan collapseTurn (prev :: out).length =
      pure (Before.followedBy (prev :: out) (Spacing.collapseAfter prev.kind rest)) := by
  induction rest generalizing prev out with
  | nil => rw [scan_end, Spacing.collapseAfter, followedBy_nil]
  | cons t rest ih =>
    have hnext := ih (Spacing.collapsed prev.kind t) (prev :: out)
    rw [collapsed_kind] at hnext
    rw [scan_turn (collapseTurn_here prev out t rest), Spacing.collapseAfter, ← cons_followedBy]
    exact hnext

theorem collapse_eq (ts : Sequence) : collapse ts = pure (Spacing.collapse ts) := by
  cases ts with
  | nil =>
    rw [collapse, scan, loop_done (by simp), pure_bind]
    rfl
  | cons t ts => exact collapse_here t [] ts

/-! ## Operators -/

/-- What stands behind an operator, with one space in front unless the line ends there. -/
def spaced : List Token → List Token
  | [] => []
  | next :: rest =>
    if next.kind == .whitespace then next.withText " " :: rest
    else if next.kind == .newline || next.kind == .eof then next :: rest
    else .space :: next :: rest

theorem setSpace_eq (ts : Sequence) (i : Nat) : setSpace ts i = (ts.setText? i " ").getD ts := by
  rw [setSpace, peek?, setText?]
  cases hi : ts[i]? with
  | none => rfl
  | some t =>
    by_cases ht : t.text = " "
    · obtain ⟨hlt, hget⟩ := List.getElem?_eq_some_iff.1 hi
      have hsame : ts.set i t = ts := by rw [← hget, List.set_getElem_self]
      simp [ht, withText_of_text ht, hsame]
    · simp [ht]

theorem spaceBefore_here (out : Before) (rest : List Token) : spaceBefore (out.followedBy rest) out.length =
    pure (Before.followedBy (Spacing.beforeOperator out) rest, (Spacing.beforeOperator out).length) := by
  unfold Spacing.beforeOperator
  rw [spaceBefore, isFirstOnLine_here, pure_bind]
  cases hstart : out.isLineStart with
  | true => rfl
  | false =>
    cases out with
    | nil => simp at hstart
    | cons u out =>
      by_cases hu : u.kind = .whitespace
      · simp [cons_followedBy, setSpace_eq, hu]
      · have hinsert : (Before.followedBy (u :: out) rest).insertAt (u :: out).length .space =
          pure (Before.followedBy (.space :: u :: out) rest) := insertAt_here
        simp only [cons_followedBy, List.length_cons] at hinsert
        simp [cons_followedBy, hu, hinsert]

theorem spaceBehind_here (out : Before) (t : Token) (rest : List Token) :
    spaceBehind (out.followedBy (t :: rest)) out.length = pure (out.followedBy (t :: spaced rest)) := by
  unfold spaceBehind spaced
  rw [peek?_next]
  cases rest with
  | nil => rfl
  | cons next rest =>
    have hset : setSpace (out.followedBy (t :: next :: rest)) (out.length + 1) =
        out.followedBy (t :: next.withText " " :: rest) := by
      rw [setSpace_eq, ← cons_followedBy, ← List.length_cons (a := t), setText?_here, cons_followedBy]
      rfl
    simp only [List.head?_cons, hset, insertBehind_here]
    split
    · rfl
    split <;> rfl

theorem operatorTurn_here (out : Before) (t : Token) (rest : List Token) :
    operatorTurn (out.followedBy (t :: rest)) out.length = pure
      (if Spacing.isOperator t.kind then
        (Before.followedBy (t :: Spacing.beforeOperator out) (spaced rest), (t :: Spacing.beforeOperator out).length)
      else (Before.followedBy (t :: out) rest, (t :: out).length)) := by
  simp only [operatorTurn, read_here, pure_bind, spaceBefore_here, spaceBehind_here, cons_followedBy, List.length_cons]
  split <;> rfl

/-- A turn at a token that is no operator writes the token. -/
theorem scan_operatorTurn (out : Before) {t : Token} (ht : Spacing.isOperator t.kind = false) (rest : List Token) :
    (out.followedBy (t :: rest)).scan operatorTurn out.length =
      (Before.followedBy (t :: out) rest).scan operatorTurn (t :: out).length := by
  have hturn := operatorTurn_here out t rest
  rw [ht, if_neg (by simp)] at hturn
  exact scan_turn hturn

/-- A token that does not stand behind an operator. -/
theorem operatorStep_plain {out : Before} (hout : out.head?.any (Spacing.isOperator ·.kind) = false) (t : Token) :
    Spacing.operatorStep out t = t :: if Spacing.isOperator t.kind then Spacing.beforeOperator out else out := by
  have hafter : Spacing.afterOperator out t = out := by
    cases out with
    | nil => rfl
    | cons last out =>
      rw [List.head?_cons, Option.any_some] at hout
      simp [Spacing.afterOperator, hout]
  rw [Spacing.operatorStep, hafter, hout]
  cases Spacing.isOperator t.kind <;> simp

/-- The end of a line behind an operator. -/
theorem operatorStep_end {t : Token} (ht : t.kind = .newline ∨ t.kind = .eof) (last : Token) (out : Before) :
    Spacing.operatorStep (last :: out) t = t :: last :: out := by
  obtain hk | hk := ht <;> simp [Spacing.operatorStep, Spacing.afterOperator, Spacing.isOperator, hk]

/-- A token that gets a space behind an operator is visited as if the space had always been there. -/
theorem operatorStep_spaced {last t : Token} (hlast : Spacing.isOperator last.kind = true) (hw : t.kind ≠ .whitespace)
    (ht : ¬(t.kind = .newline ∨ t.kind = .eof)) (out : Before) : Spacing.operatorStep (last :: out) t =
      t :: if Spacing.isOperator t.kind then Spacing.beforeOperator (.space :: last :: out)
        else .space :: last :: out := by
  obtain ⟨hn, he⟩ := not_or.1 ht
  have hafter : Spacing.afterOperator (last :: out) t = .space :: last :: out := by
    simp [Spacing.afterOperator, hlast, hw, hn, he]
  cases htop : Spacing.isOperator t.kind <;> simp [Spacing.operatorStep, htop, hw, hafter]

theorem spaceOperators_here (out : Before) (rest : List Token) :
    (out.followedBy (if out.head?.any (Spacing.isOperator ·.kind) then spaced rest else rest)).scan operatorTurn
      out.length = pure (rest.foldl Spacing.operatorStep out).reverse := by
  induction rest generalizing out with
  | nil =>
    have hnil : (if out.head?.any (Spacing.isOperator ·.kind) then spaced [] else []) = [] := by simp [spaced]
    rw [hnil]
    exact scan_end operatorTurn out
  | cons t rest ih =>
    -- the loop from `t` on, when `t` has got what it needs before it
    have hturn : ∀ out : Before, (out.followedBy (t :: rest)).scan operatorTurn out.length =
        pure (rest.foldl Spacing.operatorStep
          (t :: if Spacing.isOperator t.kind then Spacing.beforeOperator out else out)).reverse := by
      intro out
      cases ht : Spacing.isOperator t.kind with
      | true =>
        have hvisit := operatorTurn_here out t rest
        have hnext := ih (t :: Spacing.beforeOperator out)
        rw [ht, if_pos rfl] at hvisit
        rw [List.head?_cons, Option.any_some, ht, if_pos rfl] at hnext
        rw [scan_turn hvisit, hnext, if_pos rfl]
      | false =>
        have hnext := ih (t :: out)
        rw [List.head?_cons, Option.any_some, ht, if_neg (by simp)] at hnext
        rw [scan_operatorTurn out ht, hnext, if_neg (by simp)]
    rw [List.foldl_cons]
    cases hop : out.head?.any (Spacing.isOperator ·.kind) with
    | false => rw [if_neg (by simp), hturn, operatorStep_plain hop]
    | true =>
      cases out with
      | nil => simp at hop
      | cons last out =>
        have hlast : Spacing.isOperator last.kind = true := by simpa using hop
        rw [if_pos rfl, spaced]
        by_cases hw : t.kind = .whitespace
        · have htop : Spacing.isOperator (t.withText " ").kind = false := by rw [Token.withText_kind, hw]; rfl
          have hnext := ih (t.withText " " :: last :: out)
          rw [List.head?_cons, Option.any_some, htop, if_neg (by simp)] at hnext
          rw [if_pos (by simp [hw]), scan_operatorTurn _ htop, hnext, Spacing.operatorStep_blank hw, if_pos hlast]
        rw [if_neg (by simpa using hw)]
        by_cases hend : t.kind = .newline ∨ t.kind = .eof
        · have htop : Spacing.isOperator t.kind = false := by obtain hk | hk := hend <;> rw [hk] <;> rfl
          rw [if_pos (by simpa using hend), hturn, operatorStep_end hend, htop, if_neg (by simp)]
        · have hspace : Spacing.isOperator Token.space.kind = false := rfl
          rw [if_neg (by simpa using hend), scan_operatorTurn _ hspace, hturn, operatorStep_spaced hlast hw hend]

theorem spaceOperators_eq (ts : Sequence) : spaceOperators ts = pure (Spacing.spaceOperators ts) :=
  spaceOperators_here [] ts

/-! ## Punctuation -/

theorem tightenBefore_here (out : Before) (rest : List Token) (k : Kind) :
    tightenBefore (out.followedBy rest) out.length k =
      pure (Before.followedBy (if Spacing.hugsPrevious k then Spacing.beforeHugging out else out) rest,
        (if Spacing.hugsPrevious k then Spacing.beforeHugging out else out).length) := by
  rw [tightenBefore]
  cases hk : Spacing.hugsPrevious k with
  | false => rfl
  | true =>
    cases out with
    | nil => rfl
    | cons u out =>
      have hstart : (Before.followedBy (u :: out) rest).isFirstOnLine (u :: out).length =
        pure (Before.isLineStart (u :: out)) := isFirstOnLine_here
      rw [cons_followedBy, List.length_cons] at hstart
      by_cases hu : u.kind = .whitespace
      · cases hl : Before.isLineStart (u :: out) <;>
          simp [cons_followedBy, Spacing.beforeHugging, hu, hstart, hl]
      · simp [cons_followedBy, Spacing.beforeHugging, hu]

theorem tightenBehind_here (out : Before) (t : Token) (rest : List Token) (k : Kind) :
    tightenBehind (out.followedBy (t :: rest)) out.length k = pure (out.followedBy (t ::
      if Spacing.hugsNext k && rest.head?.any (·.kind == .whitespace) then rest.tail else rest)) := by
  rw [tightenBehind, peek?_next]
  cases rest with
  | nil => simp
  | cons next rest =>
    rw [removeAt_next]
    cases hk : Spacing.hugsNext k <;> cases hnext : next.kind == .whitespace <;> simp [hnext]

theorem tightenTurn_here (out : Before) (t : Token) (rest : List Token) :
    tightenTurn (out.followedBy (t :: rest)) out.length = pure
      (Before.followedBy (t :: if Spacing.hugsPrevious t.kind then Spacing.beforeHugging out else out)
        (if Spacing.hugsNext t.kind && rest.head?.any (·.kind == .whitespace) then rest.tail else rest),
      (t :: if Spacing.hugsPrevious t.kind then Spacing.beforeHugging out else out).length) := by
  simp only [tightenTurn, read_here, pure_bind, tightenBefore_here, tightenBehind_here, cons_followedBy,
    List.length_cons]

theorem tighten_here (out : Before) (rest : List Token) :
    (out.followedBy rest).scan tightenTurn out.length = pure (Spacing.tightenFrom out rest).reverse := by
  fun_induction Spacing.tightenFrom out rest with
  | case1 out => exact scan_end tightenTurn out
  | case2 out t =>
    rw [scan_turn (tightenTurn_here out t []), List.tail_nil, ite_self]
    exact scan_end tightenTurn _
  | case3 out t next ts out' h ih =>
    rw [scan_turn (tightenTurn_here out t (next :: ts)), List.head?_cons, Option.any_some, if_pos h]
    exact ih
  | case4 out t next ts out' h ih =>
    rw [scan_turn (tightenTurn_here out t (next :: ts)), List.head?_cons, Option.any_some, if_neg h]
    exact ih

theorem tighten_eq (ts : Sequence) : tighten ts = pure (Spacing.tighten ts) := tighten_here [] ts

end ScillaLayout.Editing
