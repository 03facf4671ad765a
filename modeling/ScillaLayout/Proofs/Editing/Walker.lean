import ScillaLayout.Proofs.Editing.Checked
import ScillaLayout.Proofs.Layout.State

/-!
# Indentation by index

The walk over the tokens as a loop that edits the list in place: it looks back and ahead by index, puts line breaks and
indentation in, takes blanks out and closes blocks one by one. The loop comes to an end without a fault and leaves what
the fold over the tokens writes (`indentLines_eq`).

A `Cursor` is the state of the loop. `Cursor.of w rest` is the loop when the walk has come to `w` and `rest` is still
ahead, and each part of a visit has a lemma that it takes `Cursor.of` to `Cursor.of`. The place of a field keyword is
the one index that the loop keeps while it edits; that it stays in range is the invariant `Walk.Placed`. What the loop
reports is left out: a report changes nothing and cannot fail.
-/

namespace ScillaLayout.Walk

/-! ## The place of a field keyword -/

variable {o : Options} {w v : Walk}

/-- Where a field keyword is noted, there is a token that is no space. -/
def Placed (w : Walk) : Prop :=
  ∀ k, w.field = some k → ∃ t below, t.isSpace = false ∧ t :: below <:+ w.out ∧ below.length = k

/-- The note stays right as long as what has been written stays. -/
theorem Placed.keeps (h : w.Placed) (hout : w.out.Keeps v.out) (hfield : v.field = w.field ∨ v.field = none) :
    v.Placed := by
  intro k hk
  rcases hfield with hfield | hfield
  · obtain ⟨t, below, ht, hplace, hlength⟩ := h k (hfield.symm.trans hk)
    exact ⟨t, below, ht, hout t below ht hplace, hlength⟩
  · rw [hfield] at hk
    cases hk

/-- The note when a code token has been entered: as before, or deleted. -/
theorem entered_field (o : Options) (w : Walk) (k : Kind) :
    (w.entered o k).1.field = w.field ∨ (w.entered o k).1.field = none := by
  rw [entered, (enter_frame k).2.2.2, (breakLine_frame w k).2.1]
  split
  · exact .inr rfl
  · exact .inl rfl

theorem Placed.code (h : w.Placed) {t : Token} (ht : t.isCode = true) : (w.code o t).Placed := by
  obtain ⟨hout, -, -, hfield⟩ := code_frame o w t
  have hkeeps : w.out.Keeps (w.code o t).out := by
    rw [hout]
    exact (keeps_ahead o w t.kind).trans (Before.keeps_cons _ _)
  split at hfield
  · intro k hk
    refine ⟨t, w.ahead o t.kind, Kind.isSpace_eq_false_of_isCode ht, hout ▸ List.suffix_rfl, ?_⟩
    exact Option.some.inj (hfield.symm.trans hk)
  · exact h.keeps hkeeps (hfield ▸ entered_field o w t.kind)

theorem Placed.stepsTo (h : w.Placed) {t : Token} (hstep : StepsTo o w t v) (hout : w.out.Keeps v.out) :
    v.Placed := by
  cases hstep with
  | code ht => exact h.code ht
  | outside _ _ hfield => exact h.keeps hout (.inl hfield)
  | inside _ _ hfield => exact h.keeps hout (.inl hfield)
  | closing _ _ hfield => exact h.keeps hout (.inl hfield)

theorem Placed.step (h : w.Placed) (t : Token) : (w.step o t).Placed :=
  h.stepsTo (Walk.stepsTo o w t) (keeps_step o w t)

end ScillaLayout.Walk

namespace ScillaLayout.Editing

open Checked (loop loop_done loop_turn)
open Sequence

/-! ## The loop -/

/-- The list, the index that the loop has come to, and the state of the walk. -/
structure Cursor where
  tokens : Sequence
  index : Nat := 0
  stack : Stack := []
  /-- Index of the keyword of the field that is being declared. -/
  field : Option Nat := none
  /-- Number of blocks open below the outermost address clause, inside of one. -/
  clause : Option Nat := none

namespace Cursor

/-- One index further. -/
def next (c : Cursor) : Cursor := { c with index := c.index + 1 }

/-- Whether a line that ends with a token of kind `last` completes a binding or a type alternative. -/
def completes (c : Cursor) (last : Kind) : Bool :=
  match c.stack.base? with
  | some .letIn => last.isValue
  | some .typeDecl => last.endsAlternative
  | _ => false

/-- Closes what the line that ends at the index completes. -/
def endOfLine (c : Cursor) : Checked Cursor := do
  match ← c.tokens.tokenBefore Before.onLine c.index with
  | some last =>
    if c.completes last.kind then return { c with stack := ← c.stack.popThrough (· = .bar) } else return c
  | none => return c

/-- Takes out the blanks before the token. -/
def trim (c : Cursor) : Checked Cursor := do
  let (tokens, index) ← c.tokens.dropBefore (·.isWhitespace) c.index
  return { c with tokens, index }

/-- Puts `t` before the token and stays with the token. -/
def put (c : Cursor) (t : Token) : Checked Cursor := do
  return { c with tokens := ← c.tokens.insertAt c.index t, index := c.index + 1 }

/-- A line break. Inside an address clause it becomes one space, together with the blanks around it. -/
def visitNewline (c : Cursor) : Checked Cursor := do
  match c.clause with
  | none => c.endOfLine
  | some _ =>
    let c ← c.trim
    let tokens ← c.tokens.dropBehind (·.isWhitespace) c.index
    return { c with tokens := tokens.set c.index .space }

/-- Whether the nearest token that is no space is the address type `ByStr20`. -/
def followsAddressType (c : Cursor) : Checked Bool :=
  return (← c.tokens.tokenBefore Before.nonSpace c.index).any fun t => t.kind == .bystrType && t.text == "ByStr20"

/-- A code token inside an address clause. -/
def visitInline (c : Cursor) (base : Nat) (k : Kind) : Checked Cursor := do
  match k with
  | .kwWith => if ← c.followsAddressType then return { c with stack := .withArms :: c.stack } else return c
  | .kwEnd =>
    let stack ← c.stack.popThrough Block.isEndTarget
    return { c with stack, clause := if stack.length ≤ base then none else some base }
  | _ => return c

/-- Whether a line break goes before a code token that is not the first of its line. -/
def breaksBefore (c : Cursor) (k : Kind) : Checked Bool := do
  if k.startsLine then return true
  else return (← c.tokens.tokenBefore Before.codeOnLine c.index).any (·.kind == .kwIn)

/-- Puts a line break before the token and goes on to the token. -/
def breakLine (o : Options) (c : Cursor) : Checked Cursor := do
  let c ← { c with tokens := ← c.tokens.insertAt c.index o.newlineToken }.endOfLine
  return c.next

/-- Puts a line break before a code token that has to start a line and does not yet. -/
def startLine (o : Options) (c : Cursor) (k : Kind) : Checked Cursor := do
  if ← c.tokens.isFirstOnLine c.index then return c
  else if ← c.breaksBefore k then c.breakLine o
  else return c

/-- Closes all blocks and ends the field. -/
def reset (c : Cursor) : Cursor := { c with stack := [], field := none }

/-- Whether a `let` starts a declaration of its own; `previous` is the code token before it. -/
def isFreshLet (c : Cursor) (previous : Option Token) : Bool :=
  match c.stack.base? with
  | some .typeDecl => true
  | some .letIn => !previous.any (·.kind.continuesBinding)
  | _ => false

/-- A `let`. The code token before it is looked up in any case. -/
def enterLet (c : Cursor) : Checked (Cursor × Walk.Effect) := do
  let fresh := c.isFreshLet (← c.tokens.tokenBefore Before.code c.index)
  let c := if fresh then c.reset else c
  return (c, if c.stack.top? = some .letIn then .dedenting 1 else .opening .letIn)

/-- A closing bracket. -/
def enterCloser (c : Cursor) (opener : Block) : Checked (Cursor × Walk.Effect) := do
  let (closed, stack) ← c.stack.popBracket opener
  return ({ c with stack }, if closed then {} else .dedenting 1)

/-- A `with` outside of address clauses. -/
def enterWith (c : Cursor) : Checked (Cursor × Walk.Effect) := do
  if ← c.followsAddressType then return (c, { opens := some .withArms, opensClause := true })
  else if c.stack.top? = some .matchArms then
    return ({ c with stack := ← c.stack.popReplace .withArms }, {})
  else return (c, {})

/-- Functions that follow each other directly share one level. -/
def functionEffect (c : Cursor) (b : Block) : Walk.Effect :=
  if c.stack.top? = some b then .dedenting 1 else .opening b

/-- What a code token does to the open blocks, before and after its line is indented. -/
def enter (o : Options) (c : Cursor) (k : Kind) : Checked (Cursor × Walk.Effect) := do
  match k with
  | .kwImport | .kwLibrary | .kwScillaVersion | .kwContract => return (c.reset, {})
  | .kwTransition => return (c.reset, .opening .transition)
  | .kwProcedure => return (c.reset, .opening .procedure)
  | .kwType => return (c.reset, .opening .typeDecl)
  | .kwField => return (c.reset, .opening .field)
  | .kwMatch => return (c, .opening .matchArms)
  | .kwFun => return (c, c.functionEffect .funBody)
  | .kwTfun => return (c, c.functionEffect .tfunBody)
  | .kwLet => c.enterLet
  | .bar =>
    return ({ c with stack := ← c.stack.popAlternative },
      { dedent := if o.indentAlternatives then 0 else 1, opens := some .bar })
  | .kwWith => c.enterWith
  | .kwEnd => return ({ c with stack := ← c.stack.popThrough Block.isEndTarget }, {})
  | .kwIn => return (c, if c.stack.top? = some .letIn then .dedenting 1 else {})
  | .lparen => return (c, .opening .paren)
  | .lbrace => return (c, .opening .brace)
  | .lsqb => return (c, .opening .bracket)
  | .rparen => c.enterCloser .paren
  | .rbrace => c.enterCloser .brace
  | .rsqb => c.enterCloser .bracket
  | _ => return (c, {})

/-- Cells before the name of the field whose keyword stands at index `keyword`. -/
def namePadding (c : Cursor) (keyword : Nat) : Checked Nat := do
  match c.tokens.nextCode? keyword with
  | some name =>
    if name < c.index then
      if (← c.tokens.read name).kind.namesField then
        if (← c.tokens.lineStart name) = (← c.tokens.lineStart keyword) then c.tokens.widthBefore name else return 0
      else return 0
    else return 0
  | none => return 0

/-- Cells by which lines of a field declaration are moved under its name. -/
def padding (c : Cursor) : Checked Nat :=
  if Block.field ∈ c.stack then
    match c.field with
    | some keyword => c.namePadding keyword
    | none => return 0
  else return 0

/-- Replaces the blanks before the token by the indentation of its line. -/
def indent (o : Options) (c : Cursor) (dedent : Nat) : Checked Cursor := do
  let c ← c.trim
  let text := Walk.indentText o (← c.padding) (c.stack.units - dedent)
  if text.isEmpty then return c else c.put (.synthetic .indent text)

/-- Indents the line if the token is its first. -/
def indentLine (o : Options) (c : Cursor) (dedent : Nat) : Checked Cursor := do
  if ← c.tokens.isFirstOnLine c.index then c.indent o dedent else return c

/-- Opens a block, and notes where a field declaration starts. -/
def openBlock (c : Cursor) (b : Block) : Cursor :=
  { c with field := if b = .field then some c.index else c.field, stack := b :: c.stack }

/-- A code token. -/
def visitCode (o : Options) (c : Cursor) (k : Kind) : Checked Cursor := do
  match c.clause with
  | some base => c.visitInline base k
  | none =>
    let c ← c.startLine o k
    let (c, effect) ← c.enter o k
    let c ← c.indentLine o effect.dedent
    let c := if effect.opensClause then { c with clause := some c.stack.length } else c
    match effect.opens with
    | some b => return c.openBlock b
    | none => return c

/-- The token at the index; the index moves with it. -/
def visit (o : Options) (c : Cursor) : Checked Cursor := do
  let t ← c.tokens.read c.index
  if t.isNewline then c.visitNewline else if t.isCode then c.visitCode o t.kind else return c

/-- The walk from the index to the end. -/
def run (o : Options) (c : Cursor) : Checked Sequence :=
  return (← loop (fun c => return c.index < c.tokens.length) (fun c => return (← c.visit o).next) c).tokens

/-! ## One visit -/

/-- The loop when the walk has come to `w` and `rest` is ahead. -/
def of (w : Walk) (rest : List Token) : Cursor where
  tokens := w.out.followedBy rest
  index := w.out.length
  stack := w.stack
  field := w.field
  clause := w.clause

variable {o : Options} {w : Walk} {t : Token} {rest : List Token}

theorem next_of : (of w (t :: rest)).next = of (w.write t) rest := by
  simp [next, of, Walk.write, cons_followedBy]

theorem trim_of (w : Walk) (rest : List Token) : (of w rest).trim = pure (of { w with out := w.out.trimmed } rest) := by
  simp [trim, of, dropBefore_here, Before.trimmed]

theorem put_of (w : Walk) (t : Token) (rest : List Token) : (of w rest).put t = pure (of (w.write t) rest) := by
  simp [put, of, Walk.write]

theorem endOfLine_of (w : Walk) (rest : List Token) : (of w rest).endOfLine = pure (of w.endLine rest) := by
  have hlook : (of w rest).tokens.tokenBefore Before.onLine (of w rest).index = pure w.out.onLine.head? :=
    tokenBefore_here (Before.seek_suffix _ _ _)
  unfold Walk.endLine
  rw [endOfLine, hlook, pure_bind]
  cases w.out.onLine with
  | nil => rfl
  | cons last before =>
    have hcompletes : (of w rest).completes last.kind = w.completes last.kind := rfl
    simp only [List.head?_cons, hcompletes]
    split
    · rw [Stack.popThrough_eq, pure_bind]
      rfl
    · rfl

theorem visitNewline_clause {base : Nat} (hc : w.clause = some base) (t : Token) (rest : List Token) :
    (of w (t :: rest)).visitNewline =
      pure (of { w with out := w.out.trimmed } (.space :: rest.dropWhile (·.isWhitespace))) := by
  have hclause : (of w (t :: rest)).clause = some base := hc
  have hdrop : (of { w with out := w.out.trimmed } (t :: rest)).tokens.dropBehind (·.isWhitespace)
      (of { w with out := w.out.trimmed } (t :: rest)).index =
    pure (Before.followedBy w.out.trimmed (t :: rest.dropWhile (·.isWhitespace))) := dropBehind_here _ _ t rest
  rw [visitNewline, hclause]
  simp only [trim_of, pure_bind, hdrop]
  simp [of]

theorem followsAddressType_of (w : Walk) (rest : List Token) :
    (of w rest).followsAddressType = pure w.out.followsAddressType := by
  have hlook : (of w rest).tokens.tokenBefore Before.nonSpace (of w rest).index = pure w.out.nonSpace.head? :=
    tokenBefore_here (Before.seek_suffix _ _ _)
  rw [followsAddressType, hlook, pure_bind]
  rfl

theorem visitInline_of (w : Walk) (base : Nat) (t : Token) (rest : List Token) : ∃ v : Walk,
    (of w (t :: rest)).visitInline base t.kind = pure (of v (t :: rest)) ∧ w.inlineCode base t = v.write t := by
  unfold visitInline Walk.inlineCode
  rw [followsAddressType_of]
  generalize t.kind = k
  cases k with
  | kwWith =>
    refine ⟨if w.out.followsAddressType then w.move (.push .withArms) else w, ?_, rfl⟩
    simp only [pure_bind]
    split <;> rfl
  | kwEnd =>
    refine ⟨_, ?_, rfl⟩
    simp only [Stack.popThrough_eq, pure_bind]
    rfl
  | _ => exact ⟨w, rfl, rfl⟩

theorem breaksBefore_of (w : Walk) (k : Kind) (rest : List Token) :
    (of w rest).breaksBefore k = pure (w.breaksBefore k) := by
  have hlook : (of w rest).tokens.tokenBefore Before.codeOnLine (of w rest).index = pure w.out.codeOnLine.head? :=
    tokenBefore_here (Before.seek_suffix _ _ _)
  rw [breaksBefore, Walk.breaksBefore, hlook, pure_bind]
  cases k.startsLine <;> rfl

theorem breakLine_of (o : Options) (w : Walk) (rest : List Token) :
    (of w rest).breakLine o = pure (of (w.endLine.write o.newlineToken) rest) := by
  have hinsert : (of w rest).tokens.insertAt (of w rest).index o.newlineToken =
      pure (of w (o.newlineToken :: rest)).tokens := by
    simp [of, cons_followedBy]
  have hbroken : { of w rest with tokens := (of w (o.newlineToken :: rest)).tokens } =
    of w (o.newlineToken :: rest) := rfl
  rw [breakLine, hinsert, pure_bind, hbroken, endOfLine_of, pure_bind, next_of]

theorem isFirstOnLine_of (w : Walk) (rest : List Token) :
    (of w rest).tokens.isFirstOnLine (of w rest).index = pure w.out.isLineStart := isFirstOnLine_here

theorem startLine_of (o : Options) (w : Walk) (k : Kind) (rest : List Token) :
    (of w rest).startLine o k = pure (of (w.breakLine o k) rest) := by
  rw [startLine, isFirstOnLine_of, pure_bind, breaksBefore_of, pure_bind, breakLine_of, Walk.breakLine]
  cases w.out.isLineStart <;> cases w.breaksBefore k <;> rfl

theorem enterLet_of (w : Walk) (rest : List Token) :
    (of w rest).enterLet = pure (of w.enterLet.1 rest, w.enterLet.2) := by
  have hlook : (of w rest).tokens.tokenBefore Before.code (of w rest).index = pure w.out.code.head? :=
    tokenBefore_here (Before.seek_suffix _ _ _)
  have hfresh : (of w rest).isFreshLet w.out.code.head? = w.isFreshLet := rfl
  rw [enterLet, Walk.enterLet, hlook, pure_bind, hfresh]
  cases w.isFreshLet <;> rfl

theorem enterCloser_of (w : Walk) (opener : Block) (rest : List Token) :
    (of w rest).enterCloser opener = pure (of (w.enterCloser opener).1 rest, (w.enterCloser opener).2) := by
  have hpop : (of w rest).stack.popBracket opener =
    pure (decide (w.stack.top? = some opener), w.stack.closeBracket opener) := Stack.popBracket_eq opener w.stack
  rw [enterCloser, Walk.enterCloser, hpop, pure_bind]
  by_cases htop : w.stack.top? = some opener <;> simp [htop, of, Walk.move, Stack.move]

theorem enterWith_of (w : Walk) (rest : List Token) :
    (of w rest).enterWith = pure (of w.enterWith.1 rest, w.enterWith.2) := by
  have htop : (of w rest).stack.top? = w.stack.top? := rfl
  rw [enterWith, Walk.enterWith, followsAddressType_of, pure_bind, htop, Stack.popReplace_eq, pure_bind]
  split
  · rfl
  split <;> rfl

theorem enter_of (o : Options) (w : Walk) (k : Kind) (rest : List Token) :
    (of w rest).enter o k = pure (of (w.enter o k).1 rest, (w.enter o k).2) := by
  cases k with
  | kwLet => exact enterLet_of w rest
  | kwWith => exact enterWith_of w rest
  | rparen | rbrace | rsqb => exact enterCloser_of w _ rest
  | bar =>
    have hpop : (of w rest).stack.popAlternative = pure w.stack.closeAlternative := Stack.popAlternative_eq w.stack
    rw [enter, hpop, pure_bind]
    rfl
  | kwEnd =>
    have hpop : (of w rest).stack.popThrough Block.isEndTarget = pure w.stack.closeBlock :=
      Stack.popThrough_eq _ w.stack
    rw [enter, hpop, pure_bind]
    rfl
  | _ => rfl

/-! ## The name of a field -/

/-- Lines that start at the same index are the same. -/
theorem lineStart_eq_iff {keyword : Token} (hk : keyword.isNewline = false) (gap : List Token) (below : Before) :
    ((gap.reverse ++ keyword :: below).dropWhile (!·.isNewline)).length = (below.dropWhile (!·.isNewline)).length ↔
      gap.all (!·.isNewline) = true := by
  have hshort : (below.dropWhile (!·.isNewline)).length ≤ below.length := (List.dropWhile_suffix _).length_le
  rw [List.dropWhile_append]
  by_cases hgap : gap.all (!·.isNewline) = true
  · have hnil : gap.reverse.dropWhile (!·.isNewline) = [] := by simpa [List.dropWhile_eq_nil_iff] using hgap
    simp [hnil, hk, hgap]
  · have hcons : gap.reverse.dropWhile (!·.isNewline) ≠ [] := by simpa [List.dropWhile_eq_nil_iff] using hgap
    rw [if_neg (by simpa using hcons), List.length_append, List.length_cons]
    exact iff_of_false (by omega) hgap

/-- The first code token behind the keyword is before the index. -/
theorem namePadding_found {c : Cursor} {keyword name : Token} {gap more : List Token} {below : Before}
    (hk : keyword.isNewline = false) (hgap : ∀ t ∈ gap, t.isCode = false) (hname : name.isCode = true)
    (htokens : c.tokens = below.followedBy (keyword :: (gap ++ name :: more)))
    (hindex : below.length + 1 + gap.length < c.index) :
    c.namePadding below.length = pure (if name.kind.namesField && gap.all (!·.isNewline) then
      Before.lineWidth (gap.reverse ++ keyword :: below) else 0) := by
  have hfind : (gap ++ name :: more).findIdx? (·.isCode) = some gap.length := by
    have hnone : gap.findIdx? (·.isCode) = none := by simpa [List.findIdx?_eq_none_iff] using hgap
    simp [List.findIdx?_append, List.findIdx?_cons, hnone, hname]
  -- the same list with the cursor at the name
  have hcursor : c.tokens = Before.followedBy (gap.reverse ++ keyword :: below) (name :: more) := by
    simp [htokens, Before.followedBy]
  have hplace : below.length + 1 + gap.length = (gap.reverse ++ keyword :: below).length := by
    simp
    omega
  have hread : c.tokens.read (below.length + 1 + gap.length) = pure name := by rw [hcursor, hplace, read_here]
  have hstart : c.tokens.lineStart (below.length + 1 + gap.length) =
      pure ((gap.reverse ++ keyword :: below).dropWhile (!·.isNewline)).length := by
    rw [hcursor, hplace, lineStart_here]
  have hkeyword : c.tokens.lineStart below.length = pure (below.dropWhile (!·.isNewline)).length := by
    rw [htokens, lineStart_here]
  have hwidth : c.tokens.widthBefore (below.length + 1 + gap.length) =
      pure (Before.lineWidth (gap.reverse ++ keyword :: below)) := by
    rw [hcursor, hplace, widthBefore_here]
  have hnext : c.tokens.nextCode? below.length = some (below.length + 1 + gap.length) := by
    rw [htokens, nextCode?_here, hfind, Option.map_some]
  rw [namePadding, hnext]
  simp only [hindex, if_true, hread, pure_bind, hstart, hkeyword, hwidth, lineStart_eq_iff hk]
  cases name.kind.namesField <;> cases gap.all (!·.isNewline) <;> rfl

/-- No code token stands between the keyword and the index. -/
theorem namePadding_missing {c : Cursor} {keyword : Token} {gap more : List Token} {below : Before}
    (hgap : ∀ t ∈ gap, t.isCode = false) (htokens : c.tokens = below.followedBy (keyword :: (gap ++ more)))
    (hindex : c.index ≤ below.length + 1 + gap.length) : c.namePadding below.length = pure 0 := by
  have hnone : gap.findIdx? (·.isCode) = none := by simpa [List.findIdx?_eq_none_iff] using hgap
  rw [namePadding, htokens, nextCode?_here, List.findIdx?_append, hnone, Option.none_or]
  cases more.findIdx? (·.isCode) with
  | none => rfl
  | some n =>
    have hbehind : ¬below.length + 1 + (n + gap.length) < c.index := by omega
    simp [hbehind]

theorem namePadding_of {keyword : Token} {above below : Before} (hk : keyword.isNewline = false)
    (hout : w.out = above ++ keyword :: below) (rest : List Token) :
    (of w rest).namePadding below.length = pure (Walk.fieldPadding w.out below.length) := by
  have hlength : (above ++ keyword :: below).length - (below.length + 1) = above.length := by simp
  have htokens : (of w rest).tokens = Before.followedBy below (keyword :: (above.reverse ++ rest)) := by
    simp [of, hout, Before.followedBy]
  have hindex : (of w rest).index = below.length + 1 + above.reverse.length := by
    show w.out.length = _
    rw [hout, List.length_append, List.length_cons, List.length_reverse]
    omega
  have hcut := List.takeWhile_append_dropWhile (p := (!·.isCode)) (l := above.reverse)
  have hgap : ∀ t ∈ above.reverse.takeWhile (!·.isCode), t.isCode = false := fun t ht => by
    simpa using List.mem_takeWhile_imp ht
  simp only [Walk.fieldPadding, hout, hlength, List.take_left, List.drop_left]
  cases hname : above.reverse.dropWhile (!·.isCode) with
  | nil =>
    rw [hname, List.append_nil] at hcut
    rw [hcut] at hgap
    exact namePadding_missing hgap htokens hindex.le
  | cons name more =>
    have hcode : name.isCode = true := by
      have hhead := List.head?_dropWhile_not (!·.isCode) above.reverse
      simpa [hname] using hhead
    rw [hname] at hcut
    rw [← hcut, List.append_assoc, List.cons_append] at htokens
    rw [← hcut, List.length_append, List.length_cons] at hindex
    exact namePadding_found hk hgap hcode htokens (by omega)

/-! ## A code token -/

theorem padding_of (h : w.Placed) (rest : List Token) : (of w rest).padding = pure w.padding := by
  have hstack : (of w rest).stack = w.stack := rfl
  have hfield : (of w rest).field = w.field := rfl
  rw [padding, Walk.padding, hstack, hfield]
  split
  · cases hk : w.field with
    | none => rfl
    | some k =>
      obtain ⟨t, below, ht, ⟨above, hout⟩, rfl⟩ := h k hk
      rw [isSpace_eq, Bool.or_eq_false_iff] at ht
      exact namePadding_of ht.2 hout.symm rest
  · rfl

theorem indent_of (h : w.Placed) (dedent : Nat) (rest : List Token) :
    (of w rest).indent o dedent = pure (of (w.indent o dedent) rest) := by
  have hplaced : Walk.Placed { w with out := w.out.trimmed } := h.keeps (Before.keeps_trimmed w.out) (.inl rfl)
  have hstack : (of { w with out := w.out.trimmed } rest).stack = w.stack := rfl
  rw [indent, trim_of, pure_bind, padding_of hplaced, pure_bind, hstack]
  simp only [Walk.indent, put_of]
  split <;> rfl

theorem indentLine_of (h : w.Placed) (dedent : Nat) (rest : List Token) : (of w rest).indentLine o dedent =
    pure (of (if w.out.isLineStart then w.indent o dedent else w) rest) := by
  rw [indentLine, isFirstOnLine_of, pure_bind, indent_of h]
  cases w.out.isLineStart <;> rfl

theorem visitCode_of (h : w.Placed) (hc : w.clause = none) (t : Token) (rest : List Token) : ∃ v : Walk,
    (of w (t :: rest)).visitCode o t.kind = pure (of v (t :: rest)) ∧ w.code o t = v.write t := by
  have hclause : (of w (t :: rest)).clause = none := hc
  have hplaced : (w.entered o t.kind).1.Placed := h.keeps (w.keeps_entered o t.kind) (w.entered_field o t.kind)
  rw [visitCode, hclause]
  simp only [startLine_of, enter_of, pure_bind, Walk.code]
  rw [Walk.entered] at hplaced
  generalize (w.breakLine o t.kind).enter o t.kind = entered at hplaced
  obtain ⟨v, dedent, opens, opensClause⟩ := entered
  simp only [indentLine_of hplaced, pure_bind]
  generalize (if v.out.isLineStart then v.indent o dedent else v) = v
  cases opens <;> cases opensClause <;> exact ⟨_, rfl, rfl⟩

/-! ## The whole walk -/

/-- What is still ahead: blanks behind a joined line break are gone already. -/
def ahead (w : Walk) (rest : List Token) : List Token := if w.joined then rest.dropWhile (·.isWhitespace) else rest

/-- A blank behind a joined line break changes nothing. -/
theorem step_joined (hj : w.joined = true) (ht : t.isWhitespace = true) : w.step o t = w := by
  rw [Walk.step, isNewline_of_isWhitespace ht, if_neg (by simp), isCode_of_isWhitespace ht, if_neg (by simp),
    Walk.trivia, hj, ht, Bool.and_self, if_pos rfl]

/-- **One turn of the loop** is one step of the walk. -/
theorem visit_of (h : w.Placed) (ht : ¬(w.joined && t.isWhitespace) = true) (rest : List Token) : ∃ c,
    (of w (t :: rest)).visit o = pure c ∧ c.next = of (w.step o t) (ahead (w.step o t) rest) := by
  have hread : (of w (t :: rest)).tokens.read (of w (t :: rest)).index = pure t := read_here
  -- a visit that comes to `v` at the token, when the walk writes the token to `v`
  have hwritten : ∀ v : Walk, w.step o t = v.write t →
      (of v (t :: rest)).next = of (w.step o t) (ahead (w.step o t) rest) := by
    intro v hv
    rw [hv, next_of]
    rfl
  rw [visit, hread, pure_bind]
  by_cases hn : t.isNewline = true
  · rw [if_pos hn]
    cases hc : w.clause with
    | none =>
      have hclause : (of w (t :: rest)).clause = none := hc
      refine ⟨_, ?_, hwritten w.endLine (by simp [Walk.step, Walk.newline, hn, hc])⟩
      rw [visitNewline, hclause]
      exact endOfLine_of w (t :: rest)
    | some base =>
      have hstep : w.step o t = { w with out := .space :: w.out.trimmed, joined := true } := by
        simp [Walk.step, Walk.newline, hn, hc]
      refine ⟨_, visitNewline_clause hc t rest, ?_⟩
      rw [next_of, hstep]
      rfl
  rw [if_neg hn]
  by_cases hcode : t.isCode = true
  · rw [if_pos hcode]
    cases hc : w.clause with
    | none =>
      obtain ⟨v, hvisit, hv⟩ := visitCode_of (o := o) h hc t rest
      exact ⟨_, hvisit, hwritten v (by simp [Walk.step, hn, hcode, hc, hv])⟩
    | some base =>
      obtain ⟨v, hvisit, hv⟩ := visitInline_of w base t rest
      have hclause : (of w (t :: rest)).clause = some base := hc
      refine ⟨_, ?_, hwritten v (by simp [Walk.step, hn, hcode, hc, hv])⟩
      rw [visitCode, hclause]
      exact hvisit
  · rw [if_neg hcode]
    refine ⟨_, rfl, hwritten w ?_⟩
    rw [Walk.step, if_neg hn, if_neg hcode, Walk.trivia, if_neg ht]

theorem run_of (h : w.Placed) (rest : List Token) :
    run o (of w (ahead w rest)) = pure (rest.foldl (Walk.step o) w).tokens := by
  induction rest generalizing w with
  | nil =>
    have hahead : ahead w [] = [] := by simp [ahead]
    rw [hahead, run, loop_done (by simp [of]), pure_bind]
    exact congrArg pure (followedBy_nil w.out)
  | cons t rest ih =>
    by_cases ht : (w.joined && t.isWhitespace) = true
    · obtain ⟨hj, hw⟩ := Bool.and_eq_true_iff.1 ht
      have hahead : ahead w (t :: rest) = ahead w rest := by simp [ahead, hj, hw]
      rw [hahead, List.foldl_cons, step_joined hj hw, ih h]
    · have hahead : ahead w (t :: rest) = t :: rest := by
        rw [Bool.and_eq_true_iff, not_and] at ht
        unfold ahead
        split
        · next hj => rw [List.dropWhile_cons_of_neg (ht hj)]
        · rfl
      obtain ⟨c, hvisit, hnext⟩ := visit_of (o := o) h ht rest
      rw [hahead, run, loop_turn c.next (by simp [of]) (by rw [hvisit, pure_bind]), hnext, List.foldl_cons]
      exact ih (h.step t)

end Cursor

/-- **The walk by index** never fails, and leaves what the fold over the tokens writes. -/
theorem indentLines_eq (o : Options) (ts : Sequence) : Cursor.run o { tokens := ts } = pure (indentLines o ts) := by
  have hplaced : Walk.Placed {} := by
    intro k hk
    cases hk
  exact Cursor.run_of hplaced ts

end ScillaLayout.Editing
