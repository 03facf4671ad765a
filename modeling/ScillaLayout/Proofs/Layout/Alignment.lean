import ScillaLayout.Layout.Format
import ScillaLayout.Proofs.Layout.Blocks

/-!
# Where alternatives stand

Every alternative starts a line. The alternatives of one `match` start with the same margin, as long as nothing closes
more than the arm before them and nothing stays open behind it (`arms_align`). Under anything but a binding or a type
declaration nothing can; there, a line that ends like a complete value closes its arm, and more with every such line
(`arms_apart`).

What carries the proof is that between two alternatives of a block the first one stays on the same blocks, or the end of
a line has closed it and it is known how many were left (`Walk.InArmOf`), and that the name of a field is fixed before
the block starts (`InMatch.mark_since`).
-/

namespace ScillaLayout

/-! ## Margins -/

/-- What stands in front of a line. -/
structure Margin where
  /-- Cells up to the name of a field. -/
  padding : Nat
  /-- Indentation units. -/
  units : Nat
  deriving DecidableEq, Repr

/-- The indentation that a margin asks for. -/
def Margin.tokens (o : Options) (m : Margin) : List Token :=
  let text := Walk.indentText o m.padding m.units
  if text.isEmpty then [] else [.synthetic .indent text]

namespace Before

/-- Without its blanks, the start of a line is the end of the line before. -/
theorem head?_trimmed {b : Before} (h : b.isLineStart = true) : ∀ t ∈ b.trimmed.head?, t.isNewline = true := by
  induction b with
  | nil => intro t ht; cases ht
  | cons u b ih =>
    cases hu : u.isWhitespace with
    | true =>
      have hstart : isLineStart b = true := by
        rw [isLineStart_eq, sight_cons, Sight.push_blank hu, ← isLineStart_eq] at h
        exact h
      have htrim : trimmed (u :: b) = trimmed b := by simp [trimmed, hu]
      rw [htrim]
      exact ih hstart
    | false =>
      have htrim : trimmed (u :: b) = u :: b := by simp [trimmed, hu]
      intro t ht
      obtain rfl : u = t := by simpa [htrim] using ht
      cases hn : u.isNewline with
      | true => rfl
      | false => simp [isLineStart, onLine, seek, hu, hn] at h

end Before

namespace Walk

variable {o : Options} {w : Walk}

/-- The margin of a line that starts with a code token of kind `k`, outside of clauses. -/
def margin (o : Options) (w : Walk) (k : Kind) : Margin where
  padding := ((w.entered o k).1.withOut (w.entered o k).1.out.trimmed).padding
  units := (w.entered o k).1.stack.units - (w.entered o k).2.dedent

theorem isCode_of_startsLine {t : Token} (hk : t.kind.startsLine = true) : t.isCode = true := by
  rw [Token.isCode]
  generalize t.kind = k at hk ⊢
  cases k with
  | kwImport | kwLibrary | kwScillaVersion | kwContract | kwTransition | kwProcedure | kwType | kwField => rfl
  | kwMatch | kwFun | kwTfun | kwLet | bar | kwEnd => rfl
  | _ => cases hk

theorem entered_isLineStart {k : Kind} (hk : k.startsLine = true) : (w.entered o k).1.out.isLineStart = true := by
  rw [entered, (enter_frame k).1, breakLine]
  cases hstart : w.out.isLineStart with
  | true => simpa using hstart
  | false =>
    simp only [Bool.not_false, breaksBefore, hk, Bool.true_or, Bool.and_self, if_true]
    rfl

/-- A token that starts a line stands behind its margin. -/
theorem ahead_of_lineStart {k : Kind} (hstart : (w.entered o k).1.out.isLineStart = true) :
    w.ahead o k = (w.margin o k).tokens o ++ (w.entered o k).1.out.trimmed := by
  simp only [ahead, hstart, if_true, Margin.tokens]
  show (if (indentText o (w.margin o k).padding (w.margin o k).units).isEmpty then _ else _ : Walk).out = _
  split <;> rfl

theorem keeps_foldl (o : Options) (w : Walk) (ts : List Token) : w.out.Keeps (ts.foldl (step o) w).out := by
  induction ts generalizing w with
  | nil => exact .refl _
  | cons t ts ih => exact (keeps_step o w t).trans (ih _)

theorem run_append [Text.Measure] (o : Options) (ts us : List Token) :
    run o (ts ++ us) = us.foldl (step o) (run o ts) := by
  simp [run]

/-- In what the walk over `ts` writes, the token `t` that comes behind `before` starts a line with the given margin. -/
structure Starts (o : Options) (ts before : List Token) (t : Token) (m : Margin) : Prop where
  margin : (run o before).margin o t.kind = m
  written : ∃ line : Before, (∀ u ∈ line.head?, u.isNewline = true) ∧ solid line.reverse = solid before ∧
    t :: (m.tokens o ++ line) <:+ (run o ts).out

theorem starts_of_lineStart {before : List Token} {t : Token} (hc : (run o before).clause = none)
    (hcode : t.isCode = true) (hstart : ((run o before).entered o t.kind).1.out.isLineStart = true)
    (behind : List Token) : Starts o (before ++ t :: behind) before t ((run o before).margin o t.kind) := by
  have hspace : t.isSpace = false := Kind.isSpace_eq_false_of_isCode hcode
  have hout : (run o (before ++ [t])).out = t :: (run o before).ahead o t.kind := by
    rw [run_concat, step_code hc hcode]
    exact (code_frame o _ t).1
  refine ⟨rfl, ((run o before).entered o t.kind).1.out.trimmed, Before.head?_trimmed hstart, ?_, ?_⟩
  · rw [solid_reverse, solid_trimmed, entered, (enter_frame t.kind).1, solid_breakLine, ← solid_reverse]
    exact solid_tokens_run o before
  · rw [List.append_cons, run_append, ← ahead_of_lineStart hstart]
    exact keeps_foldl o _ behind t _ hspace ⟨[], hout.symm⟩

theorem starts_of_startsLine {before : List Token} {t : Token} (hc : (run o before).clause = none)
    (hk : t.kind.startsLine = true) (behind : List Token) :
    Starts o (before ++ t :: behind) before t ((run o before).margin o t.kind) :=
  starts_of_lineStart hc (isCode_of_startsLine hk) (entered_isLineStart hk) behind

end Walk

/-! ## Inside of a block -/

/-- The tokens `inside` stand in the block that the token `m` opens behind the tokens `before`: it is a `match` outside
of address clauses, its `end` is not among them, and neither is the keyword of a top-level declaration outside of
clauses. -/
structure InMatch (before : List Token) (m : Token) (inside : List Token) : Prop where
  keyword : m.kind = .kwMatch
  outside : clauseDepth before = 0
  stays : BlockCount.stays { depth := 1 } inside = true

instance (before : List Token) (m : Token) (inside : List Token) : Decidable (InMatch before m inside) :=
  decidable_of_iff (m.kind = .kwMatch ∧ clauseDepth before = 0 ∧ BlockCount.stays { depth := 1 } inside = true)
    ⟨fun h => ⟨h.1, h.2.1, h.2.2⟩, fun h => ⟨h.keyword, h.outside, h.stays⟩⟩

/-- The blocks that are open behind tokens inside of a block, from that block on. -/
def countInside (inside : List Token) : BlockCount := inside.foldl BlockCount.push { depth := 1 }

theorem clauses_countInside (inside : List Token) :
    (countInside inside).clauses = inside.foldl ClauseCount.push {} := by
  have hfold : ∀ n : BlockCount,
      (inside.foldl BlockCount.push n).clauses = inside.foldl ClauseCount.push n.clauses := by
    induction inside with
    | nil => intro n; rfl
    | cons t inside ih => intro n; exact ih (n.push t)
  exact hfold _

/-- Inside of a block no field declaration starts. -/
theorem Walk.field_of_step {o : Options} {w : Walk} {n : BlockCount} {t : Token} (hcount : w.Clauses n.clauses)
    (hstay : n.stays [t] = true) (hfield : Block.field ∈ (w.step o t).stack) :
    Block.field ∈ w.stack ∧ (w.step o t).field = w.field := by
  obtain ⟨-, htop, -⟩ := BlockCount.stays_cons hstay
  obtain ⟨hk, -⟩ | hbefore := (stepsTo o w t).field hfield
  · cases hc : w.clause with
    | none =>
      have hzero := hcount.outside hc
      rw [hk] at htop
      cases htop hzero
    | some base =>
      have hcode : t.isCode = true := by simp [Token.isCode, hk, Kind.isCode]
      obtain ⟨hstack, -, hkept⟩ := step_inline (o := o) hc hcode
      rw [hstack, inlineStack_other (by simp [hk]) (by simp [hk])] at hfield
      exact ⟨hfield, hkept⟩
  · exact hbefore

namespace InMatch

variable {o : Options} {before front behind : List Token} {m t : Token}

theorem left (h : InMatch before m (front ++ behind)) : InMatch before m front := by
  have hstays := h.stays
  rw [BlockCount.stays_append, Bool.and_eq_true] at hstays
  exact ⟨h.keyword, h.outside, hstays.1⟩

theorem stays_right (h : InMatch before m (front ++ behind)) : (countInside front).stays behind = true := by
  have hstays := h.stays
  rw [BlockCount.stays_append, Bool.and_eq_true] at hstays
  exact hstays.2

theorem isCode (h : InMatch before m front) : m.isCode = true := by simp [Token.isCode, h.keyword, Kind.isCode]

/-- The walk is inside of the clauses that are counted from the block on. -/
theorem clauses (h : InMatch before m front) :
    (Walk.run o (before ++ m :: front)).Clauses (countInside front).clauses := by
  have hrun := Walk.clauses_run o (before ++ m :: front)
  have hstart : (before.foldl ClauseCount.push {}).push m = {} := by
    have hs : m.isSpace = false := Kind.isSpace_eq_false_of_isCode h.isCode
    rw [ClauseCount.push_other hs (by simp [h.keyword]) (by simp [h.keyword])]
    have haddress : m.isAddressType = false := by simp [Token.isAddressType, h.keyword]
    rw [show (before.foldl ClauseCount.push {}).depth = 0 from h.outside, haddress]
  rw [List.foldl_append, List.foldl_cons, hstart] at hrun
  rw [clauses_countInside]
  exact hrun

theorem clause_eq_none (h : InMatch before m front) (hdirect : (countInside front).isDirect = true) :
    (Walk.run o (before ++ m :: front)).clause = none := by
  simp only [BlockCount.isDirect, Bool.and_eq_true, decide_eq_true_eq] at hdirect
  exact h.clauses.clause_eq_none hdirect.2

theorem run_start (h : InMatch before m front) :
    Walk.run o (before ++ [m]) = (Walk.run o before).code o m := by
  rw [Walk.run_concat]
  exact Walk.step_code ((Walk.clauses_run o before).clause_eq_none h.outside) h.isCode

/-! ### The field around a block -/

/-- A field declaration that is open inside of a block is the one around it. -/
theorem field_since (h : InMatch before m front) (hfield : Block.field ∈ (Walk.run o (before ++ m :: front)).stack) :
    Block.field ∈ (Walk.run o (before ++ [m])).stack ∧
      (Walk.run o (before ++ m :: front)).field = (Walk.run o (before ++ [m])).field := by
  induction front using List.reverseRecOn with
  | nil => exact ⟨hfield, rfl⟩
  | append_singleton front t ih =>
    have hrun : Walk.run o (before ++ m :: (front ++ [t])) = (Walk.run o (before ++ m :: front)).step o t := by
      rw [← List.cons_append, ← List.append_assoc, Walk.run_concat]
    rw [hrun] at hfield ⊢
    obtain ⟨hbefore, hkept⟩ := Walk.field_of_step h.left.clauses h.stays_right hfield
    obtain ⟨hstart, hsame⟩ := ih h.left hbefore
    exact ⟨hstart, hkept.trans hsame⟩

end InMatch

/-- A code token fixes the mark. -/
theorem Mark.foldl_push_code {t : Token} (ht : t.isCode = true) (m : Mark) (ts : List Token) :
    ts.foldl Mark.push (m.push t) = m.push t := by
  cases m with
  | none => exact Mark.foldl_none ts
  | seeking n =>
    simp only [Mark.push, isNewline_of_isCode ht, ht, Bool.false_eq_true, if_false, if_true]
    exact Mark.foldl_fixed ts _
  | fixed n => exact Mark.foldl_fixed ts n

namespace Walk

variable {o : Options} {w : Walk}

/-- Behind a code token the mark of a keyword before it is what it was. -/
theorem markAt_of_suffix {t : Token} (ht : t.isCode = true) {below out : Before} (hout : t :: below <:+ out)
    {keyword : Nat} (hk : keyword < below.length) : markAt out keyword = (markAt below keyword).push t := by
  obtain ⟨above, rfl⟩ := hout
  have hsplit := markAt_append (t :: above.reverse) hk
  rw [List.foldl_cons, Mark.foldl_push_code ht] at hsplit
  simpa using hsplit

/-- The keyword of an open field declaration stands before a token that has been written since. -/
theorem field_lt {before : List Token} {m : Token} {below : Before} (hm : m.kind ≠ .kwField)
    (hout : (run o (before ++ [m])).out = m :: below) (hfield : Block.field ∈ (run o (before ++ [m])).stack) :
    ∃ k, (run o (before ++ [m])).field = some k ∧ k < below.length := by
  obtain ⟨front, t, behind, under, hts, hplace, hopened⟩ := exists_opened hfield
  refine ⟨under.length, hplace, ?_⟩
  have hsuffix := hopened.place
  rw [← hts, hout, List.suffix_cons_iff] at hsuffix
  rcases hsuffix with heq | hsuffix
  · obtain ⟨rfl, -⟩ := List.cons.inj heq
    exact absurd hopened.keyword hm
  · exact hsuffix.length_le

theorem entered_bar (o : Options) (w : Walk) :
    (w.entered o .bar).1.stack = (w.breakLine o .bar).stack.closeAlternative ∧
    (w.entered o .bar).1.field = w.field ∧
    (w.entered o .bar).2 = { dedent := if o.indentAlternatives then 0 else 1, opens := some .bar } :=
  ⟨rfl, (breakLine_frame w .bar).2.1, rfl⟩

/-- An alternative stands on blocks that were open before it. -/
theorem entered_bar_suffix (o : Options) (w : Walk) : (w.entered o .bar).1.stack <:+ w.stack := by
  rw [(entered_bar o w).1]
  exact (Stack.closeAlternative_suffix _).trans (breakLine_frame w .bar).2.2

/-- The blocks behind an alternative. -/
theorem step_bar_stack {t : Token} (hc : w.clause = none) (hk : t.kind = .bar) :
    (w.step o t).stack = .bar :: (w.entered o .bar).1.stack := by
  have hcode : t.isCode = true := by simp [Token.isCode, hk, Kind.isCode]
  rw [step_code hc hcode, (code_frame o w t).2.1, hk, (entered_bar o w).2.2]
  rfl

end Walk

namespace InMatch

variable {o : Options} {before front : List Token} {m : Token}

theorem written (h : InMatch before m front) :
    (Walk.run o (before ++ [m])).out = m :: (Walk.run o before).ahead o m.kind := by
  rw [h.run_start]
  exact (Walk.code_frame o _ m).1

/-- What stands before a block stays there. -/
theorem suffix_entered (h : InMatch before m front) : m :: (Walk.run o before).ahead o m.kind <:+
    ((Walk.run o (before ++ m :: front)).entered o .bar).1.out.trimmed := by
  have hspace : m.isSpace = false := Kind.isSpace_eq_false_of_isCode h.isCode
  refine Before.keeps_trimmed _ m _ hspace (Walk.keeps_entered o _ .bar m _ hspace ?_)
  rw [List.append_cons, Walk.run_append]
  exact Walk.keeps_foldl o _ front m _ hspace ⟨[], h.written.symm⟩

/-- **The name of a field is fixed** before the block starts, and with it the mark under which its lines stand. -/
theorem mark_since (h : InMatch before m front)
    (hfield : Block.field ∈ ((Walk.run o (before ++ m :: front)).entered o .bar).1.stack) :
    (((Walk.run o (before ++ m :: front)).entered o .bar).1.withOut
      ((Walk.run o (before ++ m :: front)).entered o .bar).1.out.trimmed).mark = (Walk.run o (before ++ [m])).mark := by
  have hopen : Block.field ∈ (Walk.run o (before ++ m :: front)).stack :=
    (Walk.entered_bar_suffix o _).subset hfield
  obtain ⟨hstart, hsame⟩ := h.field_since hopen
  obtain ⟨keyword, hplace, hlt⟩ := Walk.field_lt (by simp [h.keyword]) h.written hstart
  have hkept : ((Walk.run o (before ++ m :: front)).entered o .bar).1.field = some keyword := by
    rw [(Walk.entered_bar o _).2.1, hsame, hplace]
  have hsuffix : m :: (Walk.run o before).ahead o m.kind <:+ (Walk.run o (before ++ [m])).out := ⟨[], h.written.symm⟩
  rw [Walk.mark, Walk.mark, Walk.withOut_field, hkept, hplace, Option.map_some, Option.map_some, Walk.withOut_out,
    Walk.markAt_of_suffix h.isCode h.suffix_entered hlt, Walk.markAt_of_suffix h.isCode hsuffix hlt]

/-- The margin of an alternative depends on the blocks that it stands on. -/
theorem margin_bar (h : InMatch before m front) : (Walk.run o (before ++ m :: front)).margin o .bar =
    ⟨if Block.field ∈ ((Walk.run o (before ++ m :: front)).entered o .bar).1.stack then
        (Walk.run o (before ++ [m])).mark.width else 0,
      ((Walk.run o (before ++ m :: front)).entered o .bar).1.stack.units - if o.indentAlternatives then 0 else 1⟩ := by
  rw [Walk.margin, Walk.padding_eq, Walk.withOut_stack, (Walk.entered_bar o _).2.2, Margin.mk.injEq]
  refine ⟨?_, rfl⟩
  by_cases hfield : Block.field ∈ ((Walk.run o (before ++ m :: front)).entered o .bar).1.stack
  · rw [if_pos hfield, if_pos hfield, h.mark_since hfield]
  · rw [if_neg hfield, if_neg hfield]

end InMatch

/-! ## Between two alternatives -/

namespace Stack

variable {below s : Stack}

/-- Lines that stand on the blocks `s` and on the blocks `s'` are indented alike. -/
structure Alike (s s' : Stack) : Prop where
  units : s.units = s'.units
  field : Block.field ∈ s ↔ Block.field ∈ s'

theorem Alike.refl (s : Stack) : Alike s s := ⟨rfl, Iff.rfl⟩

/-- Where no field is being declared, every block asks for a unit. -/
theorem units_of_not_field (h : Block.field ∉ s) : s.units = s.length := by
  have hall : ∀ b ∈ s, decide (b ≠ .field) = true := by
    intro b hb
    rw [decide_eq_true_iff]
    rintro rfl
    exact h hb
  rw [units, List.filter_eq_self.2 hall]

/-- A field declaration is the outermost block. -/
theorem WellNested.base?_field (h : s.WellNested) (hfield : Block.field ∈ s) : s.base? = some .field := by
  obtain ⟨above, below, rfl⟩ := List.append_of_mem hfield
  obtain rfl : below = [] := h.mayOpenOn.declaration rfl
  simp [base?]

/-- An alternative without a block for `end` above it is the nearest bound. -/
theorem WellNested.not_bounds {above : Stack} (h : WellNested (above ++ .bar :: below))
    (hcount : above.countP Block.isEndTarget = 0) : ∀ b ∈ above, boundsAlternative b = false := by
  have hend : ∀ b ∈ above, b.isEndTarget = false := by simpa [List.countP_eq_zero] using hcount
  have htype : Block.typeDecl ∉ above := by
    intro hmem
    obtain ⟨a, c, rfl⟩ := List.append_of_mem hmem
    rw [List.append_assoc] at h
    have hnil := h.mayOpenOn.declaration rfl
    simp at hnil
  intro b hb
  have hbar : b ≠ .bar := by
    rintro rfl
    obtain ⟨a, c, rfl⟩ := List.append_of_mem hb
    rw [List.append_assoc] at h
    obtain ⟨d, hd, hbound⟩ := h.mayOpenOn.alternative rfl c below rfl
    have hd' : d ∈ a ++ .bar :: c := by simp [hd]
    simp only [Block.isArmBound, hend d hd', Bool.false_or, decide_eq_true_eq] at hbound
    exact htype (hbound ▸ hd')
  have hne : b ≠ .typeDecl := fun heq => htype (heq ▸ hb)
  simp [boundsAlternative, hbar, hne, hend b hb]

/-- Directly in the arm of an alternative, that alternative is what closes. -/
theorem Above.closes (h : Above [.bar] below 1 s) (hs : s.WellNested) :
    s.closeAlternative = below ∧ s.closeThroughBar = below := by
  obtain ⟨above, p, hp, rfl, hcount⟩ := h
  obtain rfl : p = .bar := List.mem_singleton.1 hp
  exact close_bar (hs.not_bounds (by omega)) below

/-- The blocks below an alternative are in no arm of their own. -/
theorem Above.closeAlternative_below {n : Nat} (h : Above [.bar] below n s) (hs : s.WellNested) :
    below.closeAlternative = below := by
  obtain ⟨above, p, hp, rfl, -⟩ := h
  obtain rfl : p = .bar := List.mem_singleton.1 hp
  exact closeAlternative_of_not_inArm (not_inArm_of_mayOpenOn hs.mayOpenOn)

end Stack

namespace Walk

variable {o : Options} {w : Walk}

/-- Whether an arm that is open stays open at `t`, or is closed alone: where the end of a line closes blocks it does so
in an arm, and no binding closes all blocks. -/
def keepsArm (o : Options) (w : Walk) (t : Token) : Bool :=
  (!w.closesAt t || w.stack.inArm) && (w.clause.isSome || t.kind != .kwLet || !(w.breakLine o t.kind).isFreshLet)

/-- Number of blocks that are left open where the end of a line closes an arm of the outermost block of the count. -/
def leaves? (w : Walk) (n : BlockCount) (t : Token) : Option Nat :=
  if w.closesAt t && n.isDirect then some (w.blocksAt t).length else none

/-- What is left of the arm behind `t`, when `left` was before it. An alternative of the block starts another arm. -/
def leftBehind (w : Walk) (n : BlockCount) (left : Option Nat) (t : Token) : Option Nat :=
  if n.isDirect && t.kind == .bar then none else left.or (w.leaves? n t)

/-- Whether the alternatives of a block keep their places up to the end of the tokens, from an arm of the block on. An
open arm is kept open or is closed alone. Where the end of a line has closed it, `left` blocks were left open, and the
next alternative of the block stands on as many, so that nothing stays open behind the closed arm. -/
def keepsArms (o : Options) : Walk → BlockCount → Option Nat → List Token → Bool
  | _, _, _, [] => true
  | w, n, left, t :: ts =>
    (left.isSome || w.keepsArm o t) &&
    (!(n.isDirect && t.kind == .bar) || left.all (· == (w.entered o .bar).1.stack.length)) &&
    keepsArms o (w.step o t) (n.push t) (w.leftBehind n left t) ts

variable {n : BlockCount} {left : Option Nat} {t : Token} {ts : List Token}

theorem keepsArm_iff : w.keepsArm o t = true ↔ (w.closesAt t = true → w.stack.inArm = true) ∧
    (w.clause = none → t.kind = .kwLet → (w.breakLine o t.kind).isFreshLet = false) := by
  cases hc : w.clause <;> simp [keepsArm, hc, Bool.or_eq_true, or_iff_not_imp_left]

theorem keepsArms_cons (h : keepsArms o w n left (t :: ts) = true) :
    (left = none → w.keepsArm o t = true) ∧
    (n.isDirect = true → t.kind = .bar → ∀ k ∈ left, k = (w.entered o .bar).1.stack.length) ∧
    keepsArms o (w.step o t) (n.push t) (w.leftBehind n left t) ts = true := by
  rw [keepsArms, Bool.and_eq_true, Bool.and_eq_true] at h
  obtain ⟨⟨harm, hbar⟩, hrest⟩ := h
  refine ⟨fun hleft => by simpa [hleft] using harm, fun hdirect hk k hleft => ?_, hrest⟩
  simpa [hdirect, hk, Option.mem_def.1 hleft] using hbar

theorem pivots_bar : Stack.Pivots [.bar] := ⟨by simp [Stack.boundsAlternative], by simp⟩

/-- Where the end of a line closes blocks, no field is being declared. -/
theorem not_field_of_closesAt (hw : w.stack.WellNested) (h : w.closesAt t = true) : Block.field ∉ w.stack := by
  intro hfield
  simp [closesAt, completes, hw.base?_field hfield] at h

/-- Lines end outside of clauses, so that what is in no block but the outermost of the count is directly in it. -/
theorem isDirect_of_closesAt (hcount : w.Clauses n.clauses) (h : w.closesAt t = true) (htotal : n.total = 1) :
    n.isDirect = true := by
  simp only [closesAt, endsLineAt, Bool.and_eq_true, Option.isNone_iff_eq_none] at h
  have hzero := hcount.outside h.1.1
  rw [BlockCount.total] at htotal
  rw [BlockCount.isDirect_iff]
  omega

/-- Behind an alternative that is indented like one on `below`: the alternative is open, or the end of a line has closed
it and left as many blocks as it stood on. -/
inductive InArmOf (below : Stack) (n : BlockCount) (w : Walk) : Option Nat → Prop
  | opened {base : Stack} (halike : below.Alike base) (habove : Stack.Above [.bar] base n.total w.stack) :
    InArmOf below n w none
  | closed {left : Nat} (hunits : below.units = left) (hbelow : Block.field ∉ below) (hfield : Block.field ∉ w.stack) :
    InArmOf below n w (some left)

namespace InArmOf

variable {below base : Stack}

/-- An alternative takes the place of the one before. -/
theorem entered_bar (h : InArmOf below n w left) (hw : w.stack.WellNested) (hc : w.clause = none)
    (hdirect : n.isDirect = true) (hk : t.kind = .bar)
    (hleft : ∀ k ∈ left, k = (w.entered o .bar).1.stack.length) : below.Alike (w.entered o .bar).1.stack := by
  cases h with
  | @opened base halike habove =>
    rw [BlockCount.total_of_isDirect hdirect] at habove
    obtain ⟨halternative, hbar⟩ := habove.closes hw
    have hcode : t.isCode = true := by simp [Token.isCode, hk, Kind.isCode]
    have hbase : (w.entered o .bar).1.stack = base := by
      rw [(Walk.entered_bar o w).1, ← hk, breakLine_stack hc hcode, blocksAt]
      split
      · rw [hbar]
        exact habove.closeAlternative_below hw
      · exact halternative
    rwa [hbase]
  | closed hunits hbelow hfield =>
    have hentered : Block.field ∉ (w.entered o .bar).1.stack := fun hmem =>
      hfield ((entered_bar_suffix o w).subset hmem)
    refine ⟨?_, iff_of_false hbelow hentered⟩
    rw [hunits, hleft _ rfl, Stack.units_of_not_field hentered]

/-- **One token** in an open arm. -/
theorem step_opened (halike : below.Alike base) (habove : Stack.Above [.bar] base n.total w.stack)
    (hw : w.stack.WellNested) (hcount : w.Clauses n.clauses) (hstay : n.stays [t] = true)
    (hkeeps : w.keepsArm o t = true) : InArmOf below (n.push t) (w.step o t) (w.leaves? n t) := by
  obtain ⟨hclose, hlet⟩ := keepsArm_iff.1 hkeeps
  -- the arm stays open where what is closed at the token is above it
  have hopened : Stack.Above [.bar] base n.total (w.blocksAt t) → InArmOf below (n.push t) (w.step o t) none :=
    fun habove => .opened halike (habove.step pivots_bar hcount hstay hlet)
  cases hc : w.closesAt t with
  | false =>
    have hblocks : w.blocksAt t = w.stack := by simp [blocksAt, hc]
    simpa [leaves?, hc] using hopened (hblocks.symm ▸ habove)
  | true =>
    cases hdirect : n.isDirect with
    | true =>
      -- the arm itself is closed
      have hfield := not_field_of_closesAt hw hc
      have hnone : Block.field ∉ base := fun hmem => hfield (habove.suffix.subset hmem)
      rw [BlockCount.total_of_isDirect hdirect] at habove
      have hblocks : w.blocksAt t = base := by simp [blocksAt, hc, (habove.closes hw).2]
      have hleaves : w.leaves? n t = some base.length := by simp [leaves?, hc, hdirect, hblocks]
      rw [hleaves]
      refine .closed ?_ (mt halike.field.1 hnone) fun hmem => hfield (field_of_step hcount hstay hmem).1
      rw [halike.units, Stack.units_of_not_field hnone]
    | false =>
      have hblocks : w.blocksAt t = w.stack.closeAlternative := by
        simp [blocksAt, hc, Stack.closeThroughBar_of_inArm (hclose hc)]
      have hnone : w.leaves? n t = none := by simp [leaves?, hdirect]
      rw [hnone]
      obtain habove | ⟨-, htotal, -⟩ := habove.closeArm pivots_bar (hclose hc)
      · exact hopened (hblocks.symm ▸ habove)
      · exact absurd (isDirect_of_closesAt hcount hc htotal) (by simp [hdirect])

/-- **One token** between two alternatives. -/
theorem step (h : InArmOf below n w left) (hw : w.stack.WellNested) (hcount : w.Clauses n.clauses)
    (hstay : n.stays [t] = true) (hkeeps : keepsArms o w n left (t :: ts) = true) :
    InArmOf below (n.push t) (w.step o t) (w.leftBehind n left t) := by
  obtain ⟨harm, hbar, -⟩ := keepsArms_cons hkeeps
  by_cases hnext : n.isDirect = true ∧ t.kind = .bar
  · obtain ⟨hdirect, hk⟩ := hnext
    have hc := hcount.clause_eq_none (BlockCount.isDirect_iff.1 hdirect).2
    have hleft : w.leftBehind n left t = none := by simp [leftBehind, hdirect, hk]
    have htotal : (n.push t).total = 1 := by
      rw [BlockCount.total_push_other (by simp [hk]) (by simp [hk]) (by simp [hk]),
        BlockCount.total_of_isDirect hdirect]
    rw [hleft]
    refine .opened (h.entered_bar hw hc hdirect hk (hbar hdirect hk)) ?_
    rw [htotal, step_bar_stack hc hk]
    exact Stack.above_start List.mem_cons_self _
  · have hleft : w.leftBehind n left t = left.or (w.leaves? n t) := by
      rw [leftBehind, if_neg (by simpa using hnext)]
    rw [hleft]
    cases h with
    | opened halike habove => exact step_opened halike habove hw hcount hstay (harm rfl)
    | closed hunits hbelow hfield =>
      exact .closed hunits hbelow fun hmem => hfield (field_of_step hcount hstay hmem).1

/-- **All tokens** between two alternatives. -/
theorem foldl (h : InArmOf below n w left) (hw : w.stack.WellNested) (hcount : w.Clauses n.clauses)
    (hstay : n.stays ts = true) (hkeeps : keepsArms o w n left (ts ++ [t]) = true) :
    ∃ left', InArmOf below (ts.foldl BlockCount.push n) (ts.foldl (Walk.step o) w) left' ∧
      keepsArms o (ts.foldl (Walk.step o) w) (ts.foldl BlockCount.push n) left' [t] = true := by
  induction ts generalizing w n left with
  | nil => exact ⟨left, h, hkeeps⟩
  | cons u ts ih =>
    obtain ⟨-, -, hrest⟩ := BlockCount.stays_cons hstay
    obtain ⟨-, -, hkeeps'⟩ := keepsArms_cons hkeeps
    exact ih (h.step hw hcount (BlockCount.stays_head hstay) hkeeps) ((stepsTo o w u).wellNested hw) (hcount.step u)
      hrest hkeeps'

end InArmOf

/-! ## Blocks that keep their arms -/

/-- On calm blocks every arm of a block is kept open. -/
theorem keepsArms_of_calm {below : Stack} (hbelow : below.Calm) {field : Option Nat} (h : w.InBlock below field n)
    (hstay : n.stays ts = true) : keepsArms o w n none ts = true := by
  induction ts generalizing w n with
  | nil => rfl
  | cons t ts ih =>
    have hcalm := h.calm hbelow
    have hquiet := (quiet_of_calm hcalm t).1
    have hkeeps := ih (h.step (o := o) hbelow (BlockCount.stays_head hstay)) (BlockCount.stays_cons hstay).2.2
    have harm : w.keepsArm o t = true := keepsArm_iff.2 ⟨by simp [hquiet], breakLine_not_fresh hcalm⟩
    have hleft : w.leftBehind n none t = none := by simp [leftBehind, leaves?, hquiet]
    rw [keepsArms, harm, hleft, hkeeps]
    simp

end Walk

/-! ## Alternatives of a block -/

/-- The token `b` behind `front` is an alternative directly in the block that `front` starts in. -/
structure IsArm (front : List Token) (b : Token) : Prop where
  kind : b.kind = .bar
  direct : (countInside front).isDirect = true

instance (front : List Token) (b : Token) : Decidable (IsArm front b) :=
  decidable_of_iff (b.kind = .bar ∧ (countInside front).isDirect = true)
    ⟨fun h => ⟨h.1, h.2⟩, fun h => ⟨h.kind, h.direct⟩⟩

namespace IsArm

variable {o : Options} {before front mid : List Token} {m b b' : Token}

theorem startsLine (h : IsArm front b) : b.kind.startsLine = true := by
  rw [h.kind]
  rfl

theorem direct_behind (h : IsArm front b) : (countInside (front ++ [b])).isDirect = true := by
  rw [countInside, List.foldl_append]
  exact (BlockCount.isDirect_push_other (by simp [h.kind]) (by simp [h.kind]) (by simp [h.kind])).trans h.direct

theorem inMatch (h : IsArm front b) (hin : InMatch before m front) : InMatch before m (front ++ [b]) := by
  have hdepth := (BlockCount.isDirect_iff.1 h.direct_behind).1
  rw [countInside, List.foldl_append] at hdepth
  have hpos : 0 < ((front.foldl BlockCount.push { depth := 1 }).push b).depth := by
    simp only [List.foldl_cons, List.foldl_nil] at hdepth
    omega
  refine ⟨hin.keyword, hin.outside, ?_⟩
  rw [BlockCount.stays_append, hin.stays, Bool.true_and]
  simp [BlockCount.stays, hpos, h.kind, Kind.isTopLevel]

/-- The blocks behind an alternative. -/
theorem stack (h : IsArm front b) (hin : InMatch before m front) :
    (Walk.run o (before ++ m :: (front ++ [b]))).stack =
      .bar :: ((Walk.run o (before ++ m :: front)).entered o .bar).1.stack := by
  rw [← List.cons_append, ← List.append_assoc, Walk.run_concat]
  exact Walk.step_bar_stack (hin.clause_eq_none h.direct) h.kind

end IsArm

/-- The alternatives of a block keep their places where it stands under anything but a binding or a type declaration. -/
theorem InMatch.keepsArms_of_base? {o : Options} {before front mid : List Token} {m : Token}
    (hin : InMatch before m (front ++ mid))
    (hbase : (Walk.run o (before ++ [m])).stack.base? ≠ some .letIn ∧
      (Walk.run o (before ++ [m])).stack.base? ≠ some .typeDecl) :
    Walk.keepsArms o (Walk.run o (before ++ m :: front)) (countInside front) none mid = true := by
  have hc := (Walk.clauses_run o before).clause_eq_none hin.outside
  have hstart := Walk.inBlock_start (o := o) hc hin.keyword
  have hstack : (Walk.run o (before ++ [m])).stack = .matchArms :: (Walk.run o before).blocksAt m := by
    rw [Walk.run_concat]
    exact Walk.step_match_stack hc hin.keyword
  have hbelow : ((Walk.run o before).blocksAt m).Calm := Stack.Calm.of_cons (hstack ▸ hbase)
  have hfront := hstart.foldl (o := o) hbelow hin.left.stays
  rw [← Walk.run_concat, ← Walk.run_append, List.append_assoc, List.singleton_append] at hfront
  exact Walk.keepsArms_of_calm hbelow hfront hin.stays_right

/-- Two alternatives of a block are indented alike if what is between them keeps their places. -/
theorem IsArm.alike {o : Options} {before front mid : List Token} {m b b' : Token}
    (hin : InMatch before m ((front ++ [b]) ++ mid)) (hb : IsArm front b) (hb' : IsArm ((front ++ [b]) ++ mid) b')
    (hkeeps : Walk.keepsArms o (Walk.run o (before ++ m :: (front ++ [b]))) (countInside (front ++ [b])) none
      (mid ++ [b']) = true) :
    Stack.Alike ((Walk.run o (before ++ m :: front)).entered o .bar).1.stack
      ((Walk.run o (before ++ m :: ((front ++ [b]) ++ mid))).entered o .bar).1.stack := by
  have hstack := hb.stack (o := o) hin.left.left
  generalize ((Walk.run o (before ++ m :: front)).entered o .bar).1.stack = below at hstack ⊢
  have harm : Walk.InArmOf below (countInside (front ++ [b])) (Walk.run o (before ++ m :: (front ++ [b]))) none := by
    refine .opened (.refl below) ?_
    rw [BlockCount.total_of_isDirect hb.direct_behind, hstack]
    exact Stack.above_start List.mem_cons_self below
  obtain ⟨left, harm, hkeeps⟩ :=
    harm.foldl (Walk.wellNested_run o _) hin.left.clauses hin.stays_right hkeeps
  have hcount : mid.foldl BlockCount.push (countInside (front ++ [b])) = countInside ((front ++ [b]) ++ mid) :=
    List.foldl_append.symm
  have hrun : mid.foldl (Walk.step o) (Walk.run o (before ++ m :: (front ++ [b]))) =
      Walk.run o (before ++ m :: ((front ++ [b]) ++ mid)) := by
    rw [← Walk.run_append, List.append_assoc, List.cons_append]
  rw [hcount, hrun] at harm hkeeps
  exact harm.entered_bar (Walk.wellNested_run o _) (hin.clause_eq_none hb'.direct) hb'.direct hb'.kind
    ((Walk.keepsArms_cons hkeeps).2.1 hb'.direct hb'.kind)

/-- A source as it comes to be indented. -/
def toIndent (source : String) : List Token := Rule.applyAll {} (Rule.standard.take 4) (lex source).tokens

/-- A binding with an arm that goes on in brackets behind a complete line, and an arm that is a block of its own. -/
def nestedArms : List Token :=
  toIndent "let f = match x with | A => g a\n(b)\n| B => match y with | C => c end | D => d end"

/-- A binding with an arm of two lines. -/
def twoLineArm : List Token := toIndent "let f = match x with | A => a\nb\n| B => c end"

end ScillaLayout
