import Mathlib.Data.List.TakeWhile
import Mathlib.Data.PFun
import ScillaLayout.Layout.Block
import ScillaLayout.Token.Sequence

/-!
# Editing with checks

Edits and look-ups by index, and the stack of open blocks taken block by block, with everything that can go wrong. An
edit in `Checked` can end with a result, end with a fault, or not end at all: a loop is the fixed point of a partial
function, so nothing is assumed about its coming to an end.

`Before.followedBy out rest` is a list with a cursor between `out` and `rest`. Each operation has one lemma that says
what it does at the cursor, where all indices are in range. `Sequence.scan` is a loop over the indices of a list, with
one lemma for a turn of it and one for its end.
-/

namespace ScillaLayout

/-- What can go wrong in an edit. -/
inductive Fault where
  /-- A token or a block is read where there is none. -/
  | index
  /-- A token is put in behind the end. -/
  | insertion
  /-- A token is taken out where there is none. -/
  | removal
  /-- An index falls below zero. -/
  | underflow
  /-- A block is closed where none is open. -/
  | emptyStack
  deriving DecidableEq, Repr

/-- An edit: `Part.some (.ok a)` ends with `a`, `Part.some (.error f)` with a fault, and `Part.none` does not end. -/
abbrev Checked := ExceptT Fault Part

namespace Checked

/-- A value that has to be there. -/
def of {α : Type} (fault : Fault) : Option α → Checked α
  | some a => pure a
  | none => throw fault

@[simp] theorem of_some {α : Type} (fault : Fault) (a : α) : of fault (some a) = pure a := rfl

/-- The index before `i`. -/
def pred : Nat → Checked Nat
  | 0 => throw .underflow
  | i + 1 => pure i

@[simp] theorem pred_succ (i : Nat) : pred (i + 1) = pure i := rfl

section Loop

variable {σ : Type} {more : σ → Checked Bool} {turn : σ → Checked σ} {s : σ}

/-- What a loop does in state `s`: it ends with a state or a fault, or it goes on with a state. -/
def loopStep (more : σ → Checked Bool) (turn : σ → Checked σ) (s : σ) : Part (Except Fault σ ⊕ σ) :=
  (do if ← more s then return .inr (← turn s) else return .inl s : Checked (σ ⊕ σ)).run.map fun
    | .ok (.inl s) => .inl (.ok s)
    | .ok (.inr s) => .inr s
    | .error fault => .inl (.error fault)

/-- A loop: the state goes through `turn` as long as `more` says so. -/
def loop (more : σ → Checked Bool) (turn : σ → Checked σ) (s : σ) : Checked σ :=
  .mk (PFun.fix (loopStep more turn) s)

theorem loop_done (hmore : more s = pure false) : loop more turn s = pure s := by
  have hstop : loopStep more turn s = Part.some (.inl (.ok s)) := by
    simp only [loopStep, hmore, pure_bind]
    exact Part.map_some _ _
  refine Part.eq_some_iff.2 (PFun.fix_stop ?_)
  rw [hstop]
  exact Part.mem_some _

theorem loop_turn (s' : σ) (hmore : more s = pure true) (hturn : turn s = pure s') :
    loop more turn s = loop more turn s' := by
  have hgo : loopStep more turn s = Part.some (.inr s') := by
    simp only [loopStep, hmore, pure_bind, hturn]
    exact Part.map_some _ _
  refine PFun.fix_fwd_eq ?_
  rw [hgo]
  exact Part.mem_some _

end Loop

end Checked

open Checked (pred loop loop_done loop_turn)

/-! ## Tokens by index -/

namespace Sequence

/-- The token at index `i`. -/
def read (ts : Sequence) (i : Nat) : Checked Token := .of .index ts[i]?

/-- The token at index `i`, if there is one. -/
def peek? (ts : Sequence) (i : Nat) : Option Token := ts[i]?

/-- `t` in front of index `i`. -/
def insertAt (ts : Sequence) (i : Nat) (t : Token) : Checked Sequence := .of .insertion (ts.insert? i t)

/-- `t` right behind index `i`. -/
def insertBehind (ts : Sequence) (i : Nat) (t : Token) : Checked Sequence := .of .insertion (ts.insertAfter? i t)

/-- The list without the token at index `i`. -/
def removeAt (ts : Sequence) (i : Nat) : Checked Sequence := .of .removal ((ts.remove? i).map (·.2))

/-- What stands before index `i`, nearest first. Looking back reads every index below `i`. -/
def lookBack (ts : Sequence) (i : Nat) : Checked Before := .of .index (ts.before? i)

/-- The token that `look` finds before index `i`: its index is found first, then it is read there. -/
def tokenBefore (look : Before → Before) (ts : Sequence) (i : Nat) : Checked (Option Token) := do
  match (look (← ts.lookBack i)).index? with
  | some j => return some (← ts.read j)
  | none => return none

/-- Whether only blanks stand between index `i` and the start of its line. -/
def isFirstOnLine (ts : Sequence) (i : Nat) : Checked Bool := return (← ts.lookBack i).isLineStart

/-- The index of the first token on the line that holds index `i`. -/
def lineStart (ts : Sequence) (i : Nat) : Checked Nat := .of .index (ts.lineStart? i)

/-- Cells between the start of the line and index `i`. -/
def widthBefore (ts : Sequence) (i : Nat) : Checked Nat := do
  let start ← ts.lineStart i
  if start ≤ i ∧ i ≤ ts.length then
    return ((ts.take i).drop start).foldl (fun width t => Text.cellWidth t.text + width) 0
  else throw .index

/-- Takes out the tokens before index `i` as long as `p` holds of them, and says where index `i` is then. -/
def dropBefore (p : Token → Bool) (ts : Sequence) (i : Nat) : Checked (Sequence × Nat) :=
  loop (fun (ts, i) => do if 0 < i then return p (← ts.read (← pred i)) else return false)
    (fun (ts, i) => do
      let j ← pred i
      return (← ts.removeAt j, j))
    (ts, i)

/-- Takes out the tokens behind index `i` as long as `p` holds of them. -/
def dropBehind (p : Token → Bool) (ts : Sequence) (i : Nat) : Checked Sequence :=
  loop (fun ts => return (ts.peek? (i + 1)).any p) (·.removeAt (i + 1)) ts

/-- Goes back over the blanks before index `i`. -/
def blanksStart (ts : Sequence) (i : Nat) : Checked Nat :=
  loop (fun i => do if 0 < i then return (← ts.read (← pred i)).isWhitespace else return false) pred i

/-- Takes out `n` tokens from index `i` on. -/
def removeRun (ts : Sequence) (i : Nat) : Nat → Checked Sequence
  | 0 => return ts
  | n + 1 => do removeRun (← ts.removeAt i) i n

/-- Goes over a list from index `i` to its end. A turn edits the list at an index and says where to go on. -/
def scan (turn : Sequence → Nat → Checked (Sequence × Nat)) (ts : Sequence) (i : Nat) : Checked Sequence := do
  let (ts, _) ← loop (fun (ts, i) => return i < ts.length) (fun (ts, i) => turn ts i) (ts, i)
  return ts

end Sequence

/-! ## At the cursor -/

/-- The tokens `out`, nearest first, and then `rest`: a list with a cursor in between. -/
def Before.followedBy (out : Before) (rest : List Token) : Sequence := out.reverse ++ rest

namespace Sequence

variable {out : Before} {rest : List Token} {t u : Token}

theorem nil_followedBy (rest : List Token) : Before.followedBy [] rest = rest := rfl

theorem followedBy_nil (out : Before) : out.followedBy [] = out.reverse := List.append_nil _

theorem cons_followedBy (u : Token) (out : Before) (rest : List Token) :
    Before.followedBy (u :: out) rest = out.followedBy (u :: rest) := by
  simp [Before.followedBy]

@[simp] theorem length_followedBy : (out.followedBy rest).length = out.length + rest.length := by
  simp [Before.followedBy]

theorem scan_end (turn : Sequence → Nat → Checked (Sequence × Nat)) (out : Before) :
    (out.followedBy []).scan turn out.length = pure out.reverse := by
  rw [scan, loop_done (by simp), pure_bind, followedBy_nil]

theorem scan_turn {turn : Sequence → Nat → Checked (Sequence × Nat)} {ts : Sequence} {i : Nat}
    (hturn : turn (out.followedBy (t :: rest)) out.length = pure (ts, i)) :
    (out.followedBy (t :: rest)).scan turn out.length = ts.scan turn i := by
  rw [scan, loop_turn (ts, i) (by simp) hturn, scan]

theorem getElem?_followedBy (out : Before) (rest : List Token) (n : Nat) :
    (out.followedBy rest)[out.length + n]? = rest[n]? := by
  rw [Before.followedBy, List.getElem?_append_right (by simp)]
  simp

theorem insertIdx_followedBy (out : Before) (rest : List Token) (n : Nat) (t : Token) :
    (out.followedBy rest).insertIdx (out.length + n) t = out.followedBy (rest.insertIdx n t) := by
  induction out generalizing rest n with
  | nil => simp [nil_followedBy]
  | cons u out ih =>
    rw [cons_followedBy, cons_followedBy, List.length_cons, Nat.add_right_comm, Nat.add_assoc, ih,
      List.insertIdx_succ_cons]

@[simp] theorem read_here : (out.followedBy (t :: rest)).read out.length = pure t := by
  have hhere := getElem?_followedBy out (t :: rest) 0
  rw [Nat.add_zero] at hhere
  rw [read, hhere]
  rfl

@[simp] theorem insertAt_here :
    (out.followedBy rest).insertAt out.length t = pure (Before.followedBy (t :: out) rest) := by
  have hidx := insertIdx_followedBy out rest 0 t
  rw [Nat.add_zero, List.insertIdx_zero] at hidx
  rw [insertAt, insert?, if_pos (by simp), hidx, cons_followedBy]
  rfl

@[simp] theorem insertBehind_here :
    (out.followedBy (t :: rest)).insertBehind out.length u = pure (out.followedBy (t :: u :: rest)) := by
  rw [insertBehind, insertAfter?, if_pos (by simp), insertIdx_followedBy]
  rfl

theorem removeAt_followedBy (out : Before) (rest : List Token) {n : Nat} (hn : n < rest.length) :
    (out.followedBy rest).removeAt (out.length + n) = pure (out.followedBy (rest.eraseIdx n)) := by
  have hthere := getElem?_followedBy out rest n
  rw [List.getElem?_eq_getElem hn] at hthere
  rw [removeAt, remove?, hthere, Before.followedBy, List.eraseIdx_append_of_length_le (by simp)]
  simp [Before.followedBy]

@[simp] theorem removeAt_here :
    (out.followedBy (t :: rest)).removeAt out.length = pure (out.followedBy rest) :=
  removeAt_followedBy out (t :: rest) (n := 0) (by simp)

@[simp] theorem removeAt_next :
    (out.followedBy (t :: u :: rest)).removeAt (out.length + 1) = pure (out.followedBy (t :: rest)) :=
  removeAt_followedBy out (t :: u :: rest) (n := 1) (by simp)

@[simp] theorem peek?_next : (out.followedBy (t :: rest)).peek? (out.length + 1) = rest.head? := by
  rw [peek?, getElem?_followedBy, List.getElem?_cons_succ, List.head?_eq_getElem?]

@[simp] theorem set_here : (out.followedBy (t :: rest)).set out.length u = out.followedBy (u :: rest) := by
  simp [Before.followedBy]

@[simp] theorem setText?_here (text : String) :
    (out.followedBy (t :: rest)).setText? out.length text = some (out.followedBy (t.withText text :: rest)) := by
  have hhere := getElem?_followedBy out (t :: rest) 0
  rw [Nat.add_zero] at hhere
  rw [setText?, hhere]
  simp

/-- The text that a token has already changes nothing. -/
theorem withText_of_text {text : String} (ht : t.text = text) : t.withText text = t := by
  rw [← ht]
  rfl

@[simp] theorem lookBack_here : (out.followedBy rest).lookBack out.length = pure out := by
  simp [lookBack, before?, Before.followedBy]

@[simp] theorem isFirstOnLine_here : (out.followedBy rest).isFirstOnLine out.length = pure out.isLineStart := by
  simp [isFirstOnLine]

/-- What is found before the cursor can be read. -/
theorem tokenBefore_here {look : Before → Before} (hlook : look out <:+ out) :
    (out.followedBy rest).tokenBefore look out.length = pure (look out).head? := by
  obtain ⟨above, hout⟩ := hlook
  cases hfound : look out with
  | nil => simp [tokenBefore, hfound, Before.index?]
  | cons t below =>
    rw [hfound] at hout
    have hsplit : out.followedBy rest = Before.followedBy below (t :: (above.reverse ++ rest)) := by
      simp [Before.followedBy, ← hout]
    have hread : (out.followedBy rest).read below.length = pure t := by rw [hsplit, read_here]
    simp [tokenBefore, hfound, Before.index?, hread]

theorem lineStart_here (out : Before) (rest : List Token) :
    (out.followedBy rest).lineStart out.length = pure (out.dropWhile (!·.isNewline)).length := by
  have hbefore : (out.followedBy rest).before? out.length = some out := by simp [before?, Before.followedBy]
  have hlength := congrArg List.length (List.takeWhile_append_dropWhile (p := (!·.isNewline)) (l := out))
  rw [List.length_append] at hlength
  rw [lineStart, lineStart?, hbefore, Option.map_some, Before.line, Checked.of_some]
  congr 1
  omega

theorem widthBefore_here (out : Before) (rest : List Token) :
    (out.followedBy rest).widthBefore out.length = pure out.lineWidth := by
  have htake : (out.followedBy rest).take out.length = out.reverse := by simp [Before.followedBy]
  have hcut : out.reverse = (out.dropWhile (!·.isNewline)).reverse ++ (out.takeWhile (!·.isNewline)).reverse := by
    rw [← List.reverse_append, List.takeWhile_append_dropWhile]
  have hslice : ((out.followedBy rest).take out.length).drop (out.dropWhile (!·.isNewline)).length =
      (out.takeWhile (!·.isNewline)).reverse := by
    rw [htake, hcut, ← List.length_reverse, List.drop_left]
  have hle : (out.dropWhile (!·.isNewline)).length ≤ out.length := (List.dropWhile_suffix _).length_le
  rw [widthBefore, lineStart_here, pure_bind, if_pos ⟨hle, by simp⟩, hslice, List.foldl_reverse, Before.lineWidth,
    Before.line]
  rfl

theorem nextCode?_here (out : Before) (t : Token) (rest : List Token) :
    (out.followedBy (t :: rest)).nextCode? out.length = (rest.findIdx? (·.isCode)).map (out.length + 1 + ·) := by
  have hdrop : (out.followedBy (t :: rest)).drop (out.length + 1) = rest := by
    rw [← cons_followedBy, Before.followedBy, ← List.length_cons (a := t), ← List.length_reverse, List.drop_left]
  rw [nextCode?, nextIndex?, hdrop]

theorem dropBefore_here (p : Token → Bool) (out : Before) (rest : List Token) :
    (out.followedBy rest).dropBefore p out.length =
      pure (Before.followedBy (out.dropWhile p) rest, (out.dropWhile p).length) := by
  induction out with
  | nil => exact loop_done (by simp)
  | cons u out ih =>
    rw [dropBefore, cons_followedBy]
    cases hp : p u with
    | true =>
      rw [loop_turn (Before.followedBy out rest, out.length) (by simp [hp]) (by simp), List.dropWhile_cons_of_pos hp]
      exact ih
    | false =>
      rw [loop_done (by simp [hp]), List.dropWhile_cons_of_neg (by simp [hp]), cons_followedBy]

theorem dropBehind_here (p : Token → Bool) (out : Before) (t : Token) (rest : List Token) :
    (out.followedBy (t :: rest)).dropBehind p out.length = pure (out.followedBy (t :: rest.dropWhile p)) := by
  induction rest with
  | nil => exact loop_done (by simp)
  | cons u rest ih =>
    rw [dropBehind]
    cases hp : p u with
    | true =>
      rw [loop_turn (out.followedBy (t :: rest)) (by simp [hp]) (by simp), List.dropWhile_cons_of_pos hp]
      exact ih
    | false => rw [loop_done (by simp [hp]), List.dropWhile_cons_of_neg (by simp [hp])]

theorem blanksStart_here (out : Before) (rest : List Token) :
    (out.followedBy rest).blanksStart out.length = pure out.trimmed.length := by
  induction out generalizing rest with
  | nil => exact loop_done (by simp)
  | cons u out ih =>
    rw [blanksStart, cons_followedBy]
    cases hu : u.isWhitespace with
    | true =>
      rw [loop_turn out.length (by simp [hu]) (by simp), Before.trimmed, List.dropWhile_cons_of_pos hu]
      exact ih (u :: rest)
    | false => rw [loop_done (by simp [hu]), Before.trimmed, List.dropWhile_cons_of_neg (by simp [hu])]

theorem removeRun_here (out : Before) (xs rest : List Token) :
    (out.followedBy (xs ++ rest)).removeRun out.length xs.length = pure (out.followedBy rest) := by
  induction xs with
  | nil => rfl
  | cons x xs ih => simp [removeRun, ih]

end Sequence

/-! ## Blocks one by one -/

namespace Stack

/-- The innermost block, and the stack without it. -/
def pop : Stack → Checked (Block × Stack)
  | b :: s => pure (b, s)
  | [] => throw .emptyStack

@[simp] theorem pop_cons (b : Block) (s : Stack) : pop (b :: s) = pure (b, s) := rfl

/-- Pops up to and with the first block for which `p` holds, or everything. The state says whether it was found. -/
def popThrough (p : Block → Bool) (s : Stack) : Checked Stack := do
  let (s, _) ← loop (fun (s, found) => return !s.isEmpty && !found)
    (fun (s, _) => do
      let (b, s) ← s.pop
      return (s, p b))
    (s, false)
  return s

/-- Pops until `depth` blocks are left. -/
def popTo (depth : Nat) (s : Stack) : Checked Stack :=
  loop (fun s => return depth < s.length) (fun s => return (← s.pop).2) s

/-- The innermost block gives way to `b`. -/
def popReplace (b : Block) (s : Stack) : Checked Stack := do
  if s.isEmpty then return b :: s
  else
    let (_, s) ← s.pop
    return b :: s

/-- Pops the innermost block if it is `opener`, and says whether it was. -/
def popBracket (opener : Block) (s : Stack) : Checked (Bool × Stack) := do
  if s.top? ≠ some opener then return (false, s)
  else
    let (_, s) ← s.pop
    return (true, s)

/-- The number of blocks below the innermost one for which `p` holds. -/
def depthOf? (p : Block → Bool) (s : Stack) : Option Nat := (s.findIdx? p).map (s.length - 1 - ·)

/-- The block that has `depth` blocks below it. -/
def blockAt (s : Stack) (depth : Nat) : Checked Block := .of .index s.reverse[depth]?

/-- Pops the sibling before a new alternative and all above it, unless a bound stands nearer. -/
def popAlternative (s : Stack) : Checked Stack := do
  match s.depthOf? boundsAlternative with
  | none => return s
  | some depth => if (← s.blockAt depth) ≠ .bar then return s else s.popTo depth

theorem popThrough_eq (p : Block → Bool) (s : Stack) : s.popThrough p = pure (s.dropThrough p) := by
  rw [popThrough]
  induction s with
  | nil =>
    rw [loop_done (by simp)]
    exact pure_bind _ _
  | cons b s ih =>
    rw [loop_turn (s, p b) (by simp) (by simp)]
    cases hp : p b with
    | true =>
      rw [loop_done (by simp), pure_bind]
      simp [hp, dropThrough]
    | false => simpa [hp, dropThrough] using ih

theorem popTo_append (above below : Stack) : popTo below.length (above ++ below) = pure below := by
  induction above with
  | nil => exact loop_done (by simp)
  | cons b above ih =>
    have hmore : below.length < (b :: above ++ below).length := by
      rw [List.length_append, List.length_cons]
      omega
    rw [popTo, loop_turn (above ++ below) (by simp only [hmore, decide_true]) (by simp)]
    exact ih

theorem popReplace_eq (b : Block) (s : Stack) : s.popReplace b = pure (s.move (.replaceTop b)) := by
  cases s <;> simp [popReplace, move]

theorem popBracket_eq (opener : Block) (s : Stack) :
    s.popBracket opener = pure (decide (s.top? = some opener), s.closeBracket opener) := by
  cases s with
  | nil => simp [popBracket, closeBracket, top?]
  | cons b s => by_cases hb : b = opener <;> simp [popBracket, closeBracket, top?, hb]

theorem depthOf?_append {p : Block → Bool} {above : Stack} (ha : ∀ a ∈ above, p a = false) {b : Block}
    (hb : p b = true) (below : Stack) : depthOf? p (above ++ b :: below) = some below.length := by
  have hidx : (above ++ b :: below).findIdx? p = some above.length := by
    have hnone : above.findIdx? p = none := by simpa [List.findIdx?_eq_none_iff] using ha
    simp [List.findIdx?_append, List.findIdx?_cons, hnone, hb]
  simp [depthOf?, hidx]

theorem blockAt_append (above : Stack) (b : Block) (below : Stack) :
    blockAt (above ++ b :: below) below.length = pure b := by
  simp [blockAt]

theorem popAlternative_eq (s : Stack) : s.popAlternative = pure s.closeAlternative := by
  have hcut := List.takeWhile_append_dropWhile (p := (!boundsAlternative ·)) (l := s)
  have habove : ∀ a ∈ s.takeWhile (!boundsAlternative ·), boundsAlternative a = false := fun a ha => by
    simpa using List.mem_takeWhile_imp ha
  cases hdrop : s.dropWhile (!boundsAlternative ·) with
  | nil =>
    rw [hdrop, List.append_nil] at hcut
    have hnone : s.depthOf? boundsAlternative = none := by
      rw [hcut] at habove
      simpa [depthOf?, List.findIdx?_eq_none_iff] using habove
    simp [popAlternative, closeAlternative, hnone, hdrop]
  | cons b below =>
    have hb : boundsAlternative b = true := by
      have hhead := List.head?_dropWhile_not (!boundsAlternative ·) s
      simpa [hdrop] using hhead
    rw [hdrop] at hcut
    have hdepth : s.depthOf? boundsAlternative = some below.length := by
      rw [← hcut]
      exact depthOf?_append habove hb below
    have hblock : s.blockAt below.length = pure b := by
      rw [← hcut]
      exact blockAt_append _ b below
    have hpop : s.popTo below.length = pure below := by
      have hpopped := popTo_append (s.takeWhile (!boundsAlternative ·) ++ [b]) below
      rwa [List.append_assoc, List.singleton_append, hcut] at hpopped
    by_cases hbar : b = .bar
    · subst hbar
      simp [popAlternative, closeAlternative, hdepth, hblock, hpop, hdrop]
    · simp [popAlternative, closeAlternative, hdepth, hblock, hdrop, hbar]

end Stack

end ScillaLayout
