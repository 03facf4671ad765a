import ScillaLayout.Proofs.Layout.Sight

/-!
# The walk from cell to cell

Between two cells the walk has written up to a token that is no space. `Walk.visit` takes it over one more cell: the gap
before the token becomes `Walk.gapOut`, and the blocks change as `Walk.entry` says (`Walk.visit_out`,
`Walk.visit_code`, `Walk.visit_inline`, `Walk.visit_trivia`). None of this looks at the text in between.
-/

namespace ScillaLayout

namespace Walk

variable {o : Options} {w w' : Walk}

/-! ## What a code token does to the blocks -/

/-- Whether a code token of kind `k` closes all blocks. -/
def clears (w : Walk) (k : Kind) : Bool := k.isTopLevel || k == .kwLet && w.isFreshLet

theorem isFreshLet_eq (w : Walk) : w.isFreshLet =
    match w.stack.base? with
    | some .typeDecl => true
    | some .letIn => !w.out.sight.code.any Kind.continuesBinding
    | _ => false := by
  cases h : w.stack.base? with
  | none => simp [isFreshLet, h]
  | some b => cases b <;> simp [isFreshLet, h, Before.sight, Option.any_map]

@[simp] theorem move_out (m : Stack.Move) : (w.move m).out = w.out := rfl

@[simp] theorem move_field (m : Stack.Move) : (w.move m).field = w.field := rfl

@[simp] theorem move_clause (m : Stack.Move) : (w.move m).clause = w.clause := rfl

@[simp] theorem move_joined (m : Stack.Move) : (w.move m).joined = w.joined := rfl

@[simp] theorem move_stack (m : Stack.Move) : (w.move m).stack = w.stack.move m := rfl

/-- Entering a code token changes only the blocks and the field. -/
theorem enter_frame (k : Kind) : (w.enter o k).1.out = w.out ∧ (w.enter o k).1.clause = w.clause ∧
    (w.enter o k).1.joined = w.joined ∧ (w.enter o k).1.field = if w.clears k then none else w.field := by
  cases k with
  | kwLet =>
    by_cases hf : w.isFreshLet = true <;> simp [enter, enterLet, clears, Kind.isTopLevel, hf, reset]
  | kwWith =>
    simp only [enter, enterWith, clears]
    split
    · exact ⟨rfl, rfl, rfl, rfl⟩
    · split <;> exact ⟨rfl, rfl, rfl, rfl⟩
  | _ => exact ⟨rfl, rfl, rfl, rfl⟩

/-- Entering a code token depends on the open blocks and on what is seen. -/
theorem enter_congr (hs : w.stack = w'.stack) (ha : w.out.sight.address = w'.out.sight.address)
    (hc : w.out.sight.code = w'.out.sight.code) (k : Kind) :
    (w.enter o k).1.stack = (w'.enter o k).1.stack ∧ (w.enter o k).2 = (w'.enter o k).2 ∧
      w.clears k = w'.clears k := by
  have ha' : w.out.followsAddressType = w'.out.followsAddressType := ha
  have hf : w.isFreshLet = w'.isFreshLet := by rw [isFreshLet_eq, isFreshLet_eq, hs, hc]
  suffices h : (w.enter o k).1.stack = (w'.enter o k).1.stack ∧ (w.enter o k).2 = (w'.enter o k).2 from
    ⟨h.1, h.2, by simp only [clears, hf]⟩
  cases k with
  | kwLet => by_cases h : w'.isFreshLet = true <;> simp [enter, enterLet, reset, hs, hf, h]
  | kwWith =>
    simp only [enter, enterWith, ha', hs]
    split
    · simp [hs]
    · split <;> simp [hs]
  | _ => simp [enter, enterDeclaration, enterFunction, enterCloser, reset, hs]

/-- The walk with `out` written. -/
def withOut (w : Walk) (out : Before) : Walk := { w with out }

@[simp] theorem withOut_out (out : Before) : (w.withOut out).out = out := rfl

@[simp] theorem withOut_stack (out : Before) : (w.withOut out).stack = w.stack := rfl

@[simp] theorem withOut_field (out : Before) : (w.withOut out).field = w.field := rfl

@[simp] theorem withOut_clause (out : Before) : (w.withOut out).clause = w.clause := rfl

@[simp] theorem withOut_withOut (out out' : Before) : (w.withOut out).withOut out' = w.withOut out' := rfl

@[simp] theorem withOut_self (w : Walk) : w.withOut w.out = w := rfl

theorem write_eq (t : Token) (hj : w.joined = false) : w.write t = w.withOut (t :: w.out) := by
  simp only [write, withOut, hj]

theorem write_withOut (t : Token) (out : Before) (hj : w.joined = false) :
    (w.withOut out).write t = w.withOut (t :: out) := by
  simp only [write, withOut, hj]

/-- What is entered is what `entry` says, whatever spaces stand in between. -/
theorem enter_withOut {ts : List Token} (hts : ∀ t ∈ ts, t.isSpace = true) (w : Walk) (k : Kind) :
    ((w.withOut (ts.reverse ++ w.out)).enter o k).1.stack = (w.enter o k).1.stack ∧
      ((w.withOut (ts.reverse ++ w.out)).enter o k).2 = (w.enter o k).2 ∧
      ((w.withOut (ts.reverse ++ w.out)).enter o k).1.field = (w.enter o k).1.field := by
  obtain ⟨haddr, hcode⟩ := Sight.foldl_push_spaces hts w.out.sight
  rw [← Before.sight_append] at haddr hcode
  have hblocks : (w.withOut (ts.reverse ++ w.out)).stack = w.stack := rfl
  obtain ⟨hstack, heff, hclears⟩ := enter_congr (o := o) hblocks haddr hcode k
  refine ⟨hstack, heff, ?_⟩
  rw [(enter_frame k).2.2.2, (enter_frame k).2.2.2, hclears]
  rfl

/-- Where no block is open, none is open before the token's line is indented. -/
theorem enter_nil (hs : w.stack = []) (k : Kind) : (w.enter o k).1.stack = [] := by
  cases k with
  | kwLet => by_cases h : w.isFreshLet = true <;> simp [enter, enterLet, reset, hs, h, Stack.move]
  | kwWith =>
    simp only [enter, enterWith, hs]
    split
    · exact hs
    · split
      · next h => simp [Stack.top?] at h
      · exact hs
  | _ => simp [enter, enterDeclaration, enterFunction, enterCloser, reset, hs, Stack.move, Stack.closeAlternative,
      Stack.closeBlock, Stack.closeBracket, Stack.dropThrough, Stack.top?]

/-- Only the keyword of a field declaration opens one. -/
theorem enter_opens_field {k : Kind} : (w.enter o k).2.opens = some .field ↔ k = .kwField := by
  cases k with
  | kwField => simp [enter, enterDeclaration, Effect.opening]
  | kwLet =>
    by_cases htop : (if w.isFreshLet then w.reset else w).stack.top? = some .letIn <;>
      simp [enter, enterLet, htop, Effect.opening, Effect.dedenting]
  | kwWith =>
    simp only [enter, enterWith]
    split
    · simp
    · split <;> simp
  | kwFun | kwTfun =>
    simp only [enter, enterFunction]
    split <;> simp [Effect.opening, Effect.dedenting]
  | kwIn =>
    simp only [enter]
    split <;> simp [Effect.dedenting]
  | rparen | rbrace | rsqb =>
    simp only [enter, enterCloser]
    split <;> simp [Effect.dedenting]
  | _ => simp [enter, enterDeclaration, Effect.opening]

/-! ## The end of a line -/

/-- Ending a line changes only the blocks. -/
theorem endLine_frame (w : Walk) : w.endLine.out = w.out ∧ w.endLine.clause = w.clause ∧
    w.endLine.joined = w.joined ∧ w.endLine.field = w.field := by
  unfold endLine
  split
  · split <;> exact ⟨rfl, rfl, rfl, rfl⟩
  · exact ⟨rfl, rfl, rfl, rfl⟩

/-- The blocks after a line depend on the blocks before and on its last token. -/
theorem endLine_stack_congr (hs : w.stack = w'.stack) (hl : w.out.sight.lineLast = w'.out.sight.lineLast) :
    w.endLine.stack = w'.endLine.stack := by
  have hc : ∀ k, w.completes k = w'.completes k := fun k => by simp only [completes, hs]
  simp only [Before.sight] at hl
  unfold endLine
  cases h : w.out.onLine with
  | nil => cases h' : w'.out.onLine <;> simp_all
  | cons t b =>
    cases h' : w'.out.onLine with
    | nil => simp_all
    | cons t' b' =>
      have hk : t.kind = t'.kind := by simpa [h, h'] using hl
      by_cases hcomp : w'.completes t'.kind = true <;> simp [hc, hk, hcomp, hs]

theorem onLine_blanks {bs : List Token} (hbs : ∀ b ∈ bs, b.isWhitespace = true) (out : Before) :
    Before.onLine (bs ++ out) = out.onLine := by
  induction bs with
  | nil => rfl
  | cons b bs ih =>
    have hb := hbs b List.mem_cons_self
    rw [← ih fun c hc => hbs c (List.mem_cons_of_mem _ hc)]
    simp [Before.onLine, Before.seek, hb, isNewline_of_isWhitespace hb]

/-- Blanks behind the line do not matter. -/
theorem endLine_blanks {bs : List Token} (hbs : ∀ b ∈ bs, b.isWhitespace = true) (w : Walk) :
    (w.withOut (bs ++ w.out)).endLine = w.endLine.withOut (bs ++ w.out) := by
  unfold endLine
  simp only [withOut_out, onLine_blanks hbs]
  split
  · next last _ _ =>
    have hcomp : (w.withOut (bs ++ w.out)).completes last.kind = w.completes last.kind := rfl
    rw [hcomp]
    split <;> rfl
  · rfl

theorem endLine_of_lineStart (h : w.out.sight.lineLast = none) : w.endLine = w := by
  unfold endLine
  cases hl : w.out.onLine with
  | nil => rfl
  | cons t b => simp [Before.sight, hl] at h

/-! ## The gap of a cell -/

/-- The walk between two cells: what has been written ends with a token that is no space. -/
structure Ready (w : Walk) : Prop where
  joined : w.joined = false
  last : ∀ t ∈ w.out.head?, t.isSpace = false
  field : ∀ k ∈ w.field, k < w.out.length
  fresh : w.out = [] → w.stack = [] ∧ w.clause = none ∧ w.field = none

theorem ready_start : Ready {} := ⟨rfl, by simp, by simp, fun _ => ⟨rfl, rfl, rfl⟩⟩

/-- Between cells a line starts only at the start of the document. -/
theorem Ready.isLineStart (hw : w.Ready) : w.out.isLineStart = true ↔ w.out = [] := by
  cases hout : w.out with
  | nil => simp
  | cons t out => simp [Before.isLineStart_cons (hw.last t (by simp [hout]))]

theorem trimmed_broken {g : Gap} (hg : g.Proper) (hb : g.breaks ≠ []) (out : Before) :
    Before.trimmed (g.tokens.reverse ++ out) = ({ g with lead := none } : Gap).tokens.reverse ++ out := by
  have hbreaks : Before.trimmed (g.breaks.reverse ++ (g.trail.toList ++ out)) =
      g.breaks.reverse ++ (g.trail.toList ++ out) := by
    obtain ⟨n, ns, hr, hn⟩ := hg.reverse_breaks hb
    rw [hr]
    simp [Before.trimmed, isWhitespace_of_isNewline hn]
  rw [Gap.tokens_reverse, Gap.tokens_reverse]
  cases hl : g.lead with
  | none => simpa using hbreaks
  | some b => simpa [Before.trimmed, hg.lead b hl] using hbreaks

/-- Whether the token of a cell starts a line: the gap breaks the line, or the token asks for a line of its own. -/
def breaksAt (w : Walk) (g : Gap) (t : Token) : Bool :=
  w.clause.isNone && (!g.breaks.isEmpty || t.isCode && !w.out.isLineStart && w.breaksBefore t.kind)

/-- Inside of an address clause no token starts a line. -/
theorem clause_of_breaksAt {g : Gap} {t : Token} (h : w.breaksAt g t = true) : w.clause = none := by
  rw [breaksAt, Bool.and_eq_true, Option.isNone_iff_eq_none] at h
  exact h.1

/-- The blocks when the code token of a cell has been entered, and what it does once its line is indented. -/
def entry (o : Options) (w : Walk) (g : Gap) (t : Token) : Walk × Effect :=
  (if w.breaksAt g t then w.endLine else w).enter o t.kind

/-- Neither ending the line nor entering the token writes anything, and no field starts there. -/
theorem entry_frame (w : Walk) (g : Gap) (t : Token) : (w.entry o g t).1.out = w.out ∧
    (w.entry o g t).1.clause = w.clause ∧ (w.entry o g t).1.joined = w.joined ∧
    ∀ k ∈ (w.entry o g t).1.field, k ∈ w.field := by
  have hfield : ∀ v : Walk, ∀ k ∈ (v.enter o t.kind).1.field, k ∈ v.field := fun v k hk => by
    rw [(enter_frame t.kind).2.2.2] at hk
    split at hk
    · cases hk
    · exact hk
  unfold entry
  split
  · obtain ⟨hout, hclause, hjoin, hkeep⟩ := endLine_frame w
    obtain ⟨hout', hclause', hjoin', -⟩ := enter_frame (o := o) (w := w.endLine) t.kind
    exact ⟨hout'.trans hout, hclause'.trans hclause, hjoin'.trans hjoin, fun k hk => hkeep ▸ hfield _ k hk⟩
  · obtain ⟨hout, hclause, hjoin, -⟩ := enter_frame (o := o) (w := w) t.kind
    exact ⟨hout, hclause, hjoin, hfield w⟩

/-- A token that always starts a line does, unless it is the first. -/
theorem Ready.out_of_not_breaksAt (hw : w.Ready) (hc : w.clause = none) {g : Gap} {t : Token} (ht : t.isCode = true)
    (hk : t.kind.startsLine = true) (hb : ¬w.breaksAt g t = true) : w.out = [] := by
  rw [← hw.isLineStart]
  have hb' : g.breaks = [] ∧ w.out.isLineStart = true := by simpa [breaksAt, hc, ht, breaksBefore, hk] using hb
  exact hb'.2

/-- The open blocks behind a code token inside an address clause. -/
def inlineStack (w : Walk) (k : Kind) : Stack :=
  match k with
  | .kwWith => if w.out.sight.address then .withArms :: w.stack else w.stack
  | .kwEnd => w.stack.closeBlock
  | _ => w.stack

/-- The address clause behind a code token inside of it. -/
def inlineClause (w : Walk) (base : Nat) (k : Kind) : Option Nat :=
  match k with
  | .kwEnd => if w.stack.closeBlock.length ≤ base then none else some base
  | _ => some base

theorem inlineStack_other {k : Kind} (hwith : k ≠ .kwWith) (hend : k ≠ .kwEnd) : w.inlineStack k = w.stack := by
  unfold inlineStack
  split
  · exact absurd rfl hwith
  · exact absurd rfl hend
  · rfl

theorem inlineClause_other {k : Kind} (hend : k ≠ .kwEnd) {base : Nat} : w.inlineClause base k = some base := by
  unfold inlineClause
  split
  · exact absurd rfl hend
  · rfl

variable [Text.Measure]

theorem step_blank {b : Token} (hb : b.isWhitespace = true) (hj : w.joined = false) :
    w.step o b = w.withOut (b :: w.out) := by
  simp only [step, isNewline_of_isWhitespace hb, isCode_of_isWhitespace hb, trivia, hj, Bool.false_eq_true, if_false,
    Bool.false_and]
  exact write_eq b hj

theorem step_newline {n : Token} (hn : n.isNewline = true) (hc : w.clause = none) (hj : w.joined = false) :
    w.step o n = w.endLine.withOut (n :: w.out) := by
  obtain ⟨hout, -, hjoin, -⟩ := endLine_frame w
  simp only [step, hn, newline, hc, if_true]
  rw [write_eq n (hjoin.trans hj), hout]

theorem foldl_blank {b : Option Token} (hb : ∀ x ∈ b, x.isWhitespace = true) (hj : w.joined = false) :
    b.toList.foldl (step o) w = w.withOut (b.toList ++ w.out) := by
  cases b with
  | none => rfl
  | some b => exact step_blank (hb b rfl) hj

/-- Line breaks end the line once. -/
theorem foldl_breaks {ns : List Token} (hns : ∀ n ∈ ns, n.isNewline = true) (hc : w.clause = none)
    (hj : w.joined = false) :
    ns.foldl (step o) w = (if ns = [] then w else w.endLine).withOut (ns.reverse ++ w.out) := by
  induction ns generalizing w with
  | nil => rfl
  | cons n ns ih =>
    have hn := hns n List.mem_cons_self
    obtain ⟨-, hclause, hjoin, -⟩ := endLine_frame w
    rw [List.foldl_cons, step_newline hn hc hj, ih (w := w.endLine.withOut (n :: w.out))
      (fun m hm => hns m (List.mem_cons_of_mem _ hm)) (hclause.trans hc) (hjoin.trans hj)]
    -- behind the first line break nothing is left on the line
    have hstart : (w.endLine.withOut (n :: w.out)).endLine = w.endLine.withOut (n :: w.out) :=
      endLine_of_lineStart (by simp [Before.sight_cons, hn, Sight.newline])
    simp [hstart]

/-- A gap outside of address clauses stays as it is, and ends the line if it breaks it. -/
theorem foldl_gap {g : Gap} (hg : g.Proper) (hc : w.clause = none) (hj : w.joined = false) :
    g.tokens.foldl (step o) w = (if g.breaks = [] then w else w.endLine).withOut (g.tokens.reverse ++ w.out) := by
  have htrail : ∀ b ∈ g.trail, b.isWhitespace = true := fun b hb => isWhitespace_of_kind (hg.trail b hb)
  obtain ⟨-, hclause, hjoin, -⟩ := endLine_frame w
  rw [Gap.tokens_reverse, Gap.tokens, List.foldl_append, List.foldl_append, foldl_blank htrail hj,
    foldl_breaks (w := w.withOut (g.trail.toList ++ w.out)) hg.breaks hc hj, endLine_blanks (by simpa using htrail)]
  by_cases hb : g.breaks = []
  · simp [hb, hg.inline hb]
  · have hjoin' : ∀ out, (w.endLine.withOut out).joined = false := fun _ => hjoin.trans hj
    simp only [if_neg hb, withOut_withOut, withOut_out]
    rw [foldl_blank hg.lead (hjoin' _)]
    simp

/-- Line breaks inside an address clause become one space together with the blanks around them. -/
theorem foldl_breaks_inline {ns : List Token} (hns : ∀ n ∈ ns, n.isNewline = true) (hne : ns ≠ []) {base : Nat}
    (hc : w.clause = some base) {out : Before} (hw : w.out.trimmed = out) (hout : Before.trimmed out = out) :
    ns.foldl (step o) w = { w with out := .space :: out, joined := true } := by
  induction ns generalizing w with
  | nil => exact absurd rfl hne
  | cons n ns ih =>
    have hn := hns n List.mem_cons_self
    have hstep : w.step o n = { w with out := .space :: out, joined := true } := by
      simp only [step, hn, newline, hc, if_true, hw]
    rw [List.foldl_cons, hstep]
    by_cases hnil : ns = []
    · subst hnil; rfl
    · have hspace : Before.trimmed (.space :: out) = out := hout
      exact ih (w := { w with out := .space :: out, joined := true })
        (fun m hm => hns m (List.mem_cons_of_mem _ hm)) hnil hc hspace

/-- A gap inside an address clause is written on one line. -/
theorem foldl_gap_inline {g : Gap} (hg : g.Proper) (hw : w.Ready) {base : Nat} (hc : w.clause = some base) :
    g.tokens.foldl (step o) w =
      if g.breaks = [] then w.withOut (g.tokens.reverse ++ w.out)
      else { w with out := .space :: w.out, joined := true } := by
  have htrail : ∀ b ∈ g.trail, b.isWhitespace = true := fun b hb => isWhitespace_of_kind (hg.trail b hb)
  rw [Gap.tokens_reverse, Gap.tokens, List.foldl_append, List.foldl_append, foldl_blank htrail hw.joined]
  by_cases hb : g.breaks = []
  · simp [hb, hg.inline hb]
  · rw [if_neg hb, foldl_breaks_inline (w := w.withOut (g.trail.toList ++ w.out)) hg.breaks hb hc
      (Before.trimmed_blank hw.last htrail) (Before.trimmed_blank (u := none) hw.last (by simp))]
    cases hl : g.lead with
    | none => rfl
    | some b =>
      -- the blank behind the joined line break is dropped
      have hbw := hg.lead b hl
      simp only [Option.toList_some, List.foldl_cons, List.foldl_nil, step, isNewline_of_isWhitespace hbw,
        isCode_of_isWhitespace hbw, trivia, hbw, Bool.and_self, if_true, Bool.false_eq_true, if_false]
      rfl

/-! ## Indentation -/

/-- The indentation of a line that starts here. -/
def indentation (o : Options) (w : Walk) (dedent : Nat) : Option Token :=
  let text := indentText o w.padding (w.stack.units - dedent)
  if text.isEmpty then none else some (.synthetic .indent text)

theorem indent_eq (hj : w.joined = false) (dedent : Nat) : w.indent o dedent =
    w.withOut (((w.withOut w.out.trimmed).indentation o dedent).toList ++ w.out.trimmed) := by
  show (if (indentText o (w.withOut w.out.trimmed).padding (w.stack.units - dedent)).isEmpty = true then
    w.withOut w.out.trimmed else (w.withOut w.out.trimmed).write _) = _
  by_cases h : (indentText o (w.withOut w.out.trimmed).padding (w.stack.units - dedent)).isEmpty = true
  · simp only [indentation, withOut_stack, h, if_true]; rfl
  · simp only [indentation, withOut_stack, h, Bool.false_eq_true, if_false]; exact write_eq _ hj

theorem mark_append (ts : List Token) (hf : ∀ k ∈ w.field, k < w.out.length) :
    (w.withOut (ts.reverse ++ w.out)).mark = ts.foldl Mark.push w.mark := by
  unfold mark
  cases hk : w.field with
  | none => simp [hk]
  | some k => simp [hk, markAt_append ts (hf k hk)]

theorem padding_congr (hs : w.stack = w'.stack) (hm : w.mark.width = w'.mark.width) : w.padding = w'.padding := by
  rw [padding_eq, padding_eq, hs, hm]

theorem indentation_congr (hs : w.stack = w'.stack) (hm : w.mark.width = w'.mark.width) (dedent : Nat) :
    w.indentation o dedent = w'.indentation o dedent := by
  simp only [indentation, hs, padding_congr hs hm]

/-- Spaces before a place do not change the indentation there. -/
theorem indentation_spaces {ts : List Token} (hts : ∀ t ∈ ts, t.isSpace = true) (hf : ∀ k ∈ w.field, k < w.out.length)
    (dedent : Nat) : (w.withOut (ts.reverse ++ w.out)).indentation o dedent = w.indentation o dedent := by
  refine indentation_congr (withOut_stack _) ?_ dedent
  rw [mark_append ts hf, Mark.width_foldl fun t ht => isCode_of_isSpace (hts t ht)]

/-- Nothing is indented where no block is open. -/
theorem indentation_nil (hs : w.stack = []) (dedent : Nat) : w.indentation o dedent = none := by
  have hpad : w.padding = 0 := by simp [padding_eq, hs]
  simp only [indentation, hpad, hs, Stack.units, List.filter_nil, List.length_nil, Nat.zero_sub]
  exact if_pos rfl

/-! ## One cell -/

/-- The gap that the walk writes before the token of a cell. -/
def gapOut (o : Options) (w : Walk) (g : Gap) (t : Token) : Gap :=
  if w.clause.isSome then if g.breaks = [] then g else { trail := some .space }
  else if t.isCode && w.breaksAt g t then
    { g.broken o with lead := (w.entry o g t).1.indentation o (w.entry o g t).2.dedent }
  else g

theorem indentation_isWhitespace (w : Walk) (dedent : Nat) : ∀ b ∈ w.indentation o dedent, b.isWhitespace = true := by
  intro b hb
  simp only [indentation] at hb
  split at hb
  · cases hb
  · obtain rfl := Option.some.inj hb
    rfl

/-- The walk writes gaps in tidy form, with a line break where the token starts a line. -/
theorem gapOut_proper {g : Gap} (hg : g.Proper) (t : Token) :
    (w.gapOut o g t).Proper ∧ ((w.gapOut o g t).breaks = [] ↔ ¬w.breaksAt g t = true) := by
  have hbroken := hg.broken (o := o)
  cases hc : w.clause with
  | some base =>
    have hbreak : ¬w.breaksAt g t = true := by simp [breaksAt, hc]
    by_cases hb : g.breaks = []
    · simpa [gapOut, hc, hb, hbreak] using hg
    · have hspace : Gap.Proper { trail := some .space } := ⟨by simp, by simp, by simp, by simp, fun _ => rfl⟩
      simpa [gapOut, hc, hb, hbreak] using hspace
  | none =>
    by_cases hbreak : (t.isCode && w.breaksAt g t) = true
    · have hgap : w.gapOut o g t =
          { g.broken o with lead := (w.entry o g t).1.indentation o (w.entry o g t).2.dedent } := by
        simp [gapOut, hc, hbreak]
      rw [hgap]
      refine ⟨⟨hbroken.trail, hbroken.breaks, indentation_isWhitespace _ _, hbroken.few, ?_⟩, ?_⟩
      · exact fun h => absurd h (Gap.broken_breaks g)
      · exact iff_of_false (Gap.broken_breaks g) (not_not_intro (Bool.and_eq_true _ _ ▸ hbreak).2)
    · have hgap : w.gapOut o g t = g := by simp [gapOut, hc, hbreak]
      rw [hgap]
      cases hcode : t.isCode with
      | false => exact ⟨hg, by simp [breaksAt, hc, hcode]⟩
      | true =>
        have hline : ¬w.breaksAt g t = true := by simpa [hcode] using hbreak
        refine ⟨hg, iff_of_true ?_ hline⟩
        by_cases hb : g.breaks = []
        · exact hb
        · exact absurd (by simp [breaksAt, hc, hb]) hline

/-- What is seen behind the gap that is written. -/
theorem gapOut_sight {g : Gap} (hg : g.Proper) (t : Token) : Before.sight ((w.gapOut o g t).tokens.reverse ++ w.out) =
    if w.breaksAt g t then w.out.sight.newline else w.out.sight := by
  obtain ⟨hproper, hbreaks⟩ := gapOut_proper (o := o) (w := w) hg t
  rw [hproper.sight]
  by_cases hb : w.breaksAt g t = true
  · rw [if_pos hb, if_neg fun h => hbreaks.1 h hb]
  · rw [if_neg hb, if_pos (hbreaks.2 hb)]

/-- The walk over one more cell. -/
def visit (o : Options) (w : Walk) (c : Cell) : Walk := (c.gap.tokens ++ [c.token]).foldl (step o) w

/-- Before the token is entered, the line is ended and a missing line break is put in. -/
theorem foldl_gap_breakLine {g : Gap} (hg : g.Proper) (hw : w.Ready) (hc : w.clause = none) {t : Token}
    (ht : t.isCode = true) : (g.tokens.foldl (step o) w).breakLine o t.kind =
      if w.breaksAt g t then w.endLine.withOut ((g.broken o).tokens.reverse ++ w.out)
      else w.withOut (g.tokens.reverse ++ w.out) := by
  obtain ⟨-, -, hjoin, -⟩ := endLine_frame w
  have hsight := hg.sight w.out
  rw [foldl_gap hg hc hw.joined]
  by_cases hb : g.breaks = []
  · -- the gap is on one line: what is seen before it is seen behind it
    rw [if_pos hb] at hsight ⊢
    have hblank : ∀ b ∈ g.tokens.reverse, b.isWhitespace = true := by
      simpa [Gap.tokens, hb, hg.inline hb] using fun b hb => isWhitespace_of_kind (hg.trail b hb)
    have hcond : (!(w.withOut (g.tokens.reverse ++ w.out)).out.isLineStart &&
        (w.withOut (g.tokens.reverse ++ w.out)).breaksBefore t.kind) = w.breaksAt g t := by
      simp only [breaksAt, breaksBefore, Before.isLineStart_eq, Before.followsIn_eq, withOut_out, hsight, hc, ht, hb]
      simp
    rw [breakLine, hcond]
    split
    · rw [endLine_blanks hblank, write_withOut _ _ (hjoin.trans hw.joined)]
      simp [Gap.broken, Gap.tokens_reverse, hb, hg.inline hb]
    · rfl
  · have hbreak : w.breaksAt g t = true := by simp [breaksAt, hc, hb]
    rw [if_neg hb] at hsight ⊢
    rw [hbreak, if_pos rfl, breakLine, if_neg]
    · simp [Gap.broken, hb]
    · simp [Before.isLineStart_eq, hsight, Sight.newline]

/-- Entering the token behind the gap does what `entry` says. -/
theorem enter_breakLine {g : Gap} (hg : g.Proper) (hw : w.Ready) (hc : w.clause = none) {t : Token}
    (ht : t.isCode = true) :
    ∃ v, ((g.tokens.foldl (step o) w).breakLine o t.kind).enter o t.kind = (v, (w.entry o g t).2) ∧
      v.out = (if w.breaksAt g t then g.broken o else g).tokens.reverse ++ w.out ∧
      v.stack = (w.entry o g t).1.stack ∧ v.field = (w.entry o g t).1.field ∧ v.clause = none ∧ v.joined = false := by
  have hline : ∀ (v : Walk) (ts : List Token), (∀ t ∈ ts, t.isSpace = true) → v.clause = none → v.joined = false →
      ∃ v', (v.withOut (ts.reverse ++ v.out)).enter o t.kind = (v', (v.enter o t.kind).2) ∧
        v'.out = ts.reverse ++ v.out ∧ v'.stack = (v.enter o t.kind).1.stack ∧
        v'.field = (v.enter o t.kind).1.field ∧ v'.clause = none ∧ v'.joined = false := by
    intro v ts hts hclause hjoin
    obtain ⟨hout, hclause', hjoin', -⟩ := enter_frame (o := o) (w := v.withOut (ts.reverse ++ v.out)) t.kind
    obtain ⟨hstack, heff, hfield⟩ := enter_withOut (o := o) hts v t.kind
    exact ⟨_, by rw [← heff], hout, hstack, hfield, hclause'.trans hclause, hjoin'.trans hjoin⟩
  obtain ⟨hout, hclause, hjoin, -⟩ := endLine_frame w
  rw [foldl_gap_breakLine hg hw hc ht, entry]
  split
  · rw [← hout]
    exact hline w.endLine _ hg.broken.isSpace (hclause.trans hc) (hjoin.trans hw.joined)
  · exact hline w _ hg.isSpace hc hw.joined

/-- Where the line of the token is indented, its gap is `gapOut`. -/
theorem enter_indent {g : Gap} (hg : g.Proper) (hw : w.Ready) (hc : w.clause = none) (hfresh : w.out = [] → g = .empty)
    {t : Token} (ht : t.isCode = true) {v : Walk}
    (hout : v.out = (if w.breaksAt g t then g.broken o else g).tokens.reverse ++ w.out)
    (hstack : v.stack = (w.entry o g t).1.stack) (hfield : v.field = (w.entry o g t).1.field)
    (hjoin : v.joined = false) :
    (if v.out.isLineStart then v.indent o (w.entry o g t).2.dedent else v) =
      v.withOut ((w.gapOut o g t).tokens.reverse ++ w.out) := by
  obtain ⟨heout, -, -, hefield⟩ := entry_frame (o := o) w g t
  by_cases hb : w.breaksAt g t = true
  · have hstart : v.out.isLineStart = true := by
      rw [hout, if_pos hb, Before.isLineStart_eq, hg.broken.sight, if_neg (Gap.broken_breaks g)]
      rfl
    have htrim : v.out.trimmed = ({ g.broken o with lead := none } : Gap).tokens.reverse ++ w.out := by
      rw [hout, if_pos hb, trimmed_broken hg.broken (Gap.broken_breaks g)]
    -- the line breaks written so far do not move the line
    have hindent : (v.withOut v.out.trimmed).indentation o (w.entry o g t).2.dedent =
        (w.entry o g t).1.indentation o (w.entry o g t).2.dedent := by
      have hmark : ∀ out, (v.withOut out).mark = ((w.entry o g t).1.withOut out).mark := fun out => by
        simp only [mark, withOut_field, withOut_out, hfield]
      have hspaces := indentation_spaces (o := o) (w := (w.entry o g t).1) (hg.broken (o := o)).unindented.isSpace
        (fun k hk => heout ▸ hw.field k (hefield k hk)) (w.entry o g t).2.dedent
      rw [heout] at hspaces
      rw [htrim, ← hspaces]
      exact indentation_congr (by simp only [withOut_stack, hstack]) (by rw [hmark]) _
    rw [if_pos hstart, indent_eq hjoin, hindent, htrim]
    simp [gapOut, hc, ht, hb, Gap.tokens_reverse]
  · have hgap : w.gapOut o g t = g := by simp [gapOut, hc, hb]
    rw [if_neg hb] at hout
    have hbreaks : g.breaks = [] := by
      by_cases hne : g.breaks = []
      · exact hne
      · exact absurd (by simp [breaksAt, hc, hne]) hb
    rw [hgap, ← hout, withOut_self]
    by_cases hnil : w.out = []
    · -- at the start of the document no block is open
      have hnone : (v.withOut v.out.trimmed).indentation o (w.entry o g t).2.dedent = none := by
        refine indentation_nil ?_ _
        rw [withOut_stack, hstack, entry, if_neg hb, enter_nil (hw.fresh hnil).1]
      have htrim : v.out.trimmed = v.out := by rw [hout, hfresh hnil, hnil]; rfl
      rw [indent_eq hjoin, hnone, htrim]
      simp
    · have hstart : v.out.isLineStart = false := by
        rw [hout, Before.isLineStart_eq, hg.sight, if_pos hbreaks, ← Before.isLineStart_eq, ← Bool.not_eq_true,
          hw.isLineStart]
        exact hnil
      rw [hstart, if_neg (by simp)]

/-- A code token outside of address clauses. -/
theorem visit_code {g : Gap} (hg : g.Proper) (hw : w.Ready) (hc : w.clause = none) (hfresh : w.out = [] → g = .empty)
    {t : Token} (ht : t.isCode = true) :
    (w.visit o ⟨g, t⟩).out = t :: ((w.gapOut o g t).tokens.reverse ++ w.out) ∧
    (w.visit o ⟨g, t⟩).stack = (w.entry o g t).2.opens.toList ++ (w.entry o g t).1.stack ∧
    (w.visit o ⟨g, t⟩).clause =
      (if (w.entry o g t).2.opensClause then some (w.entry o g t).1.stack.length else none) ∧
    (w.visit o ⟨g, t⟩).field =
      (if (w.entry o g t).2.opens = some .field then some ((w.gapOut o g t).tokens.reverse ++ w.out).length
       else (w.entry o g t).1.field) ∧
    (w.visit o ⟨g, t⟩).joined = false := by
  obtain ⟨v, henter, hout, hstack, hfield, hclause, hjoin⟩ := enter_breakLine (o := o) hg hw hc ht
  have hgap := enter_indent hg hw hc hfresh ht hout hstack hfield hjoin
  have hclause' : (g.tokens.foldl (step o) w).clause = none := by
    rw [foldl_gap hg hc hw.joined, withOut_clause]
    split
    · exact hc
    · exact (endLine_frame w).2.1.trans hc
  have hvisit : w.visit o ⟨g, t⟩ = (g.tokens.foldl (step o) w).code o t := by
    rw [visit, List.foldl_append, List.foldl_cons, List.foldl_nil, step, isNewline_of_isCode ht, ht, hclause']
    rfl
  rw [hvisit, code]
  simp only [henter, hgap]
  cases hopens : (w.entry o g t).2.opens with
  | none => cases hoc : (w.entry o g t).2.opensClause <;> simp [write, hstack, hfield, hclause]
  | some b =>
    cases hoc : (w.entry o g t).2.opensClause <;>
      by_cases hb : b = .field <;> simp [write, openBlock, Stack.move, hb, hstack, hfield, hclause]

/-- A gap inside an address clause is `gapOut`. -/
theorem foldl_gapOut_inline {g : Gap} (hg : g.Proper) (hw : w.Ready) {base : Nat} (hc : w.clause = some base)
    (t : Token) :
    ∃ j, g.tokens.foldl (step o) w =
      { w with out := (w.gapOut o g t).tokens.reverse ++ w.out, joined := j } := by
  rw [foldl_gap_inline hg hw hc]
  by_cases hb : g.breaks = []
  · exact ⟨w.joined, by simp [gapOut, hc, hb, withOut]⟩
  · exact ⟨true, by simp [gapOut, hc, hb, Gap.tokens]⟩

/-- A code token inside an address clause. -/
theorem visit_inline {g : Gap} (hg : g.Proper) (hw : w.Ready) {base : Nat} (hc : w.clause = some base)
    {t : Token} (ht : t.isCode = true) :
    (w.visit o ⟨g, t⟩).out = t :: ((w.gapOut o g t).tokens.reverse ++ w.out) ∧
    (w.visit o ⟨g, t⟩).stack = w.inlineStack t.kind ∧
    (w.visit o ⟨g, t⟩).clause = w.inlineClause base t.kind ∧
    (w.visit o ⟨g, t⟩).field = w.field ∧ (w.visit o ⟨g, t⟩).joined = false := by
  obtain ⟨j, hfold⟩ := foldl_gapOut_inline (o := o) hg hw hc t
  have haddr : Before.followsAddressType ((w.gapOut o g t).tokens.reverse ++ w.out) = w.out.sight.address :=
    congrArg Sight.address ((gapOut_sight hg t).trans (if_neg (by simp [breaksAt, hc])))
  have hvisit : w.visit o ⟨g, t⟩ =
      inlineCode { w with out := (w.gapOut o g t).tokens.reverse ++ w.out, joined := j } base t := by
    rw [visit, List.foldl_append, List.foldl_cons, List.foldl_nil, hfold, step, isNewline_of_isCode ht, ht]
    simp only [hc]
    rfl
  rw [hvisit, inlineCode]
  split
  · next hk =>
    simp only [inlineStack, inlineClause, hk, haddr]
    cases w.out.sight.address <;> simp [write, hc, Stack.move]
  · next hk =>
    simp only [inlineStack, inlineClause, hk]
    exact ⟨rfl, rfl, rfl, rfl, rfl⟩
  · next hwith hend =>
    rw [inlineStack_other hwith hend, inlineClause_other hend]
    exact ⟨rfl, rfl, hc, rfl, rfl⟩

/-- A comment or the end mark. -/
theorem visit_trivia {g : Gap} (hg : g.Proper) (hw : w.Ready) {t : Token} (ht : t.isCode = false)
    (hs : t.isSpace = false) :
    (w.visit o ⟨g, t⟩).out = t :: ((w.gapOut o g t).tokens.reverse ++ w.out) ∧
    (w.visit o ⟨g, t⟩).stack = (if w.breaksAt g t then w.endLine else w).stack ∧
    (w.visit o ⟨g, t⟩).clause = w.clause ∧
    (w.visit o ⟨g, t⟩).field = w.field ∧ (w.visit o ⟨g, t⟩).joined = false := by
  rw [isSpace_eq, Bool.or_eq_false_iff] at hs
  have hvisit : w.visit o ⟨g, t⟩ = (g.tokens.foldl (step o) w).write t := by
    rw [visit, List.foldl_append, List.foldl_cons, List.foldl_nil, step, hs.2, ht]
    simp [trivia, hs.1]
  rw [hvisit]
  cases hc : w.clause with
  | none =>
    obtain ⟨-, hclause, -, hfield⟩ := endLine_frame w
    have hgap : w.gapOut o g t = g := by simp [gapOut, hc, ht]
    rw [foldl_gap hg hc hw.joined, hgap]
    by_cases hb : g.breaks = [] <;> simp [breaksAt, hc, ht, hb, write, hclause, hfield]
  | some base =>
    obtain ⟨j, hfold⟩ := foldl_gapOut_inline (o := o) hg hw hc t
    rw [hfold]
    simp [write, breaksAt, hc]

/-! ## What is kept from cell to cell -/

/-- What stands before a cell: at the start of the document there is no gap. -/
structure Fits (w : Walk) (c : Cell) : Prop where
  gap : c.gap.Proper
  token : c.token.isSpace = false
  fresh : w.out = [] → c.gap = .empty

/-- The walk writes the token behind the gap that `gapOut` says. -/
theorem visit_out {c : Cell} (hw : w.Ready) (hf : w.Fits c) :
    (w.visit o c).out = c.token :: ((w.gapOut o c.gap c.token).tokens.reverse ++ w.out) := by
  by_cases ht : c.token.isCode = true
  · cases hc : w.clause with
    | none => exact (visit_code hf.gap hw hc hf.fresh ht).1
    | some base => exact (visit_inline hf.gap hw hc ht).1
  · exact (visit_trivia hf.gap hw (by simpa using ht) hf.token).1

theorem Ready.visit {c : Cell} (hw : w.Ready) (hf : w.Fits c) : (w.visit o c).Ready := by
  have hout := visit_out (o := o) hw hf
  have hlast : ∀ t ∈ (w.visit o c).out.head?, t.isSpace = false := by
    rw [hout]
    simpa using hf.token
  have hfield : ∀ k ∈ w.field, k < (w.visit o c).out.length := fun k hk => by
    have := hw.field k hk
    rw [hout, List.length_cons, List.length_append]
    omega
  have hfresh : (w.visit o c).out ≠ [] := by simp [hout]
  by_cases ht : c.token.isCode = true
  · cases hc : w.clause with
    | none =>
      obtain ⟨-, -, -, hfield', hjoin⟩ := visit_code (o := o) hf.gap hw hc hf.fresh ht
      refine ⟨hjoin, hlast, fun k hk => ?_, fun h => absurd h hfresh⟩
      rw [hfield'] at hk
      split at hk
      · obtain rfl := Option.some.inj hk
        rw [hout, List.length_cons]
        exact Nat.lt_succ_self _
      · exact hfield k ((entry_frame w c.gap c.token).2.2.2 k hk)
    | some base =>
      obtain ⟨-, -, -, hfield', hjoin⟩ := visit_inline (o := o) hf.gap hw hc ht
      exact ⟨hjoin, hlast, fun k hk => hfield k (hfield' ▸ hk), fun h => absurd h hfresh⟩
  · obtain ⟨-, -, -, hfield', hjoin⟩ := visit_trivia (o := o) hf.gap hw (by simpa using ht) hf.token
    exact ⟨hjoin, hlast, fun k hk => hfield k (hfield' ▸ hk), fun h => absurd h hfresh⟩

/-- The width of a line that starts with a token. -/
theorem lineWidth_first {t : Token} (ht : t.isNewline = false) {out : Before} (hline : out.line = []) :
    Before.lineWidth (t :: out) = Text.Measure.width t.text := by
  have hcons : Before.line (t :: out) = t :: out.line := List.takeWhile_cons_of_pos (by simp [ht])
  simp [Before.lineWidth, hcons, hline]

/-- The keyword of a field declaration starts a line that is not indented. -/
theorem lineWidth_field {c : Cell} (hw : w.Ready) (hf : w.Fits c) (hc : w.clause = none)
    (hk : c.token.kind = .kwField) :
    Before.lineWidth (w.visit o c).out = Text.Measure.width c.token.text := by
  have ht : c.token.isCode = true := by simp [Token.isCode, hk, Kind.isCode]
  have hnil : (w.entry o c.gap c.token).1.stack = [] := by simp [entry, hk, enter, enterDeclaration, reset, Stack.move]
  rw [visit_out hw hf]
  refine lineWidth_first (isNewline_of_isCode ht) ?_
  by_cases hb : w.breaksAt c.gap c.token = true
  · have hgap : w.gapOut o c.gap c.token = { c.gap.broken o with lead := none } := by
      simp [gapOut, hc, ht, hb, indentation_nil hnil]
    obtain ⟨n, ns, hr, hn⟩ := (hf.gap.broken (o := o)).reverse_breaks (Gap.broken_breaks _)
    rw [hgap, Gap.tokens_reverse, hr]
    simp [Before.line, hn]
  · have hout : w.out = [] := hw.out_of_not_breaksAt hc ht (by rw [hk]; rfl) hb
    have hgap : w.gapOut o c.gap c.token = c.gap := by simp [gapOut, hc, hb]
    rw [hf.fresh hout] at hgap
    rw [hf.fresh hout, hgap, hout]
    rfl

end Walk

end ScillaLayout
