import Mathlib.Data.List.Induction
import ScillaLayout.Proofs.Formatting.Untouched

/-!
# How blocks are nested

Blocks are only opened on stacks that allow them (`Block.MayOpenOn`), so the blocks of the walk are well nested: each
was allowed where it stands (`Walk.wellNested_run`). Inside of an address clause the blocks above its base are those of
clauses (`Walk.clauseArms_run`). Both hold after every token, whatever tokens the walk is given.

`Walk.Enters` says once what a code token can do to the open blocks, `Walk.code_frame` where it leaves the rest of the
state, and `Walk.StepsTo` what any token can do.
-/

namespace ScillaLayout

/-! ## Blocks on top of each other -/

namespace Block

/-- Blocks of declarations. -/
def isDeclaration : Block → Bool
  | .typeDecl | .field | .transition | .procedure => true
  | _ => false

/-- Blocks that share one level when they follow each other directly. -/
def sharesLevel : Block → Bool
  | .letIn | .funBody | .tfunBody => true
  | _ => false

/-- What keeps alternatives apart: blocks that `end` closes and type declarations. -/
def isArmBound (b : Block) : Bool := b.isEndTarget || b = .typeDecl

/-- Where a block may be opened: a declaration on the empty stack only, an alternative above a bound that stands between
it and the next one, and blocks that share a level not on themselves. -/
structure MayOpenOn (b : Block) (s : Stack) : Prop where
  declaration : b.isDeclaration = true → s = []
  alternative : b = .bar → ∀ mid below, s = mid ++ .bar :: below → ∃ a ∈ mid, a.isArmBound = true
  level : b.sharesLevel = true → s.top? ≠ some b

/-- Other blocks may be opened anywhere. -/
theorem mayOpenOn_of_plain {b : Block} (hd : b.isDeclaration = false) (hb : b ≠ .bar) (hl : b.sharesLevel = false)
    (s : Stack) : b.MayOpenOn s := ⟨by simp [hd], fun h => absurd h hb, by simp [hl]⟩

theorem mayOpenOn_nil (b : Block) : b.MayOpenOn [] := ⟨fun _ => rfl, by simp, by simp [Stack.top?]⟩

end Block

namespace Stack

/-- Every block was allowed where it stands. -/
def WellNested : Stack → Prop
  | [] => True
  | b :: s => b.MayOpenOn s ∧ WellNested s

variable {s s' : Stack}

theorem WellNested.append {above : Stack} (h : WellNested (above ++ s)) : WellNested s := by
  induction above with
  | nil => exact h
  | cons b above ih => exact ih h.2

theorem WellNested.suffix (h : s.WellNested) (hs : s' <:+ s) : s'.WellNested := by
  obtain ⟨above, rfl⟩ := hs
  exact h.append

theorem WellNested.mayOpenOn {above below : Stack} {b : Block} (h : WellNested (above ++ b :: below)) :
    b.MayOpenOn below := h.append.1

/-- The search for a sibling finds an alternative, or a bound stands in front of all alternatives. -/
theorem sibling_or_bound (s : Stack) :
    (∃ above below, s = above ++ .bar :: below ∧ s.dropWhile (!boundsAlternative ·) = .bar :: below) ∨
    (∀ below, s.dropWhile (!boundsAlternative ·) ≠ .bar :: below) ∧
      ∀ mid below, s = mid ++ .bar :: below → ∃ a ∈ mid, a.isArmBound = true := by
  induction s with
  | nil => exact .inr ⟨by simp, by simp⟩
  | cons b s ih =>
    by_cases hbound : boundsAlternative b = true
    · have hdrop : (b :: s).dropWhile (!boundsAlternative ·) = b :: s := by simp [hbound]
      by_cases hbar : b = .bar
      · subst hbar
        exact .inl ⟨[], s, rfl, hdrop⟩
      · have harm : b.isArmBound = true := by
          simpa [boundsAlternative, Block.isArmBound, hbar, or_comm] using hbound
        refine .inr ⟨by simp [hdrop, hbar], fun mid below hsplit => ?_⟩
        cases mid with
        | nil => exact absurd (List.cons.inj hsplit).1 hbar
        | cons c mid => exact ⟨b, by simp [(List.cons.inj hsplit).1], harm⟩
    · have hdrop : (b :: s).dropWhile (!boundsAlternative ·) = s.dropWhile (!boundsAlternative ·) := by simp [hbound]
      rw [hdrop]
      obtain ⟨above, below, hs, hfound⟩ | ⟨hnone, harms⟩ := ih
      · exact .inl ⟨b :: above, below, by simp [hs], hfound⟩
      · refine .inr ⟨hnone, fun mid below hsplit => ?_⟩
        cases mid with
        | nil => exact absurd ((List.cons.inj hsplit).1 ▸ rfl) hbound
        | cons c mid =>
          obtain ⟨a, ha, harm⟩ := harms mid below (List.cons.inj hsplit).2
          exact ⟨a, List.mem_cons_of_mem _ ha, harm⟩

/-- A new alternative may be opened when its sibling is closed. -/
theorem WellNested.mayOpenOn_bar (h : s.WellNested) : Block.bar.MayOpenOn s.closeAlternative := by
  refine ⟨by simp [Block.isDeclaration], fun _ => ?_, by simp [Block.sharesLevel]⟩
  obtain ⟨above, below, hs, hfound⟩ | ⟨hnone, harms⟩ := sibling_or_bound s
  · have hclose : s.closeAlternative = below := by rw [closeAlternative, hfound]
    rw [hclose]
    exact (hs ▸ h).mayOpenOn.alternative rfl
  · have hkeep : s.closeAlternative = s := by
      unfold closeAlternative
      split
      · next below hfound => exact absurd hfound (hnone below)
      · rfl
    rw [hkeep]
    exact harms

end Stack

/-! ## What a code token does -/

namespace Walk

variable {o : Options} {w : Walk}

/-- What a code token can do to the open blocks `s`: those that are left, and the block that is opened on them. -/
inductive Enters (s : Stack) : Stack → Option Block → Prop
  | cleared (b : Option Block) : Enters s [] b
  | closed {s' : Stack} : s' <:+ s → Enters s s' none
  | opened {b : Block} : b.isDeclaration = false → b ≠ .bar → (b.sharesLevel = true → s.top? ≠ some b) →
      Enters s s (some b)
  | alternative : Enters s s.closeAlternative (some .bar)
  | arms {below : Stack} : s = .matchArms :: below → Enters s (.withArms :: below) none

theorem enters_function {b : Block} (hd : b.isDeclaration = false) (hb : b ≠ .bar) :
    Enters w.stack (w.enterFunction b).1.stack (w.enterFunction b).2.opens := by
  rw [enterFunction]
  split
  · exact .closed List.suffix_rfl
  · next htop => exact .opened hd hb fun _ => htop

theorem enters_let (w : Walk) : Enters w.stack w.enterLet.1.stack w.enterLet.2.opens := by
  rw [enterLet]
  by_cases hfresh : w.isFreshLet = true
  · simp only [hfresh, if_true]
    exact .cleared _
  · simp only [hfresh, Bool.false_eq_true, if_false]
    split
    · exact .closed List.suffix_rfl
    · next htop => exact .opened rfl (by simp) fun _ => htop

theorem enters_with (w : Walk) : Enters w.stack w.enterWith.1.stack w.enterWith.2.opens := by
  rw [enterWith]
  split
  · exact .opened rfl (by simp) (by simp [Block.sharesLevel])
  split
  · next htop =>
    obtain ⟨below, hs⟩ : ∃ below, w.stack = .matchArms :: below := by
      cases hs : w.stack with
      | nil => simp [hs, Stack.top?] at htop
      | cons b below =>
        rw [hs] at htop
        exact ⟨below, by rw [Option.some.inj htop]⟩
    have hmoved : w.stack.move (.replaceTop .withArms) = .withArms :: below := by rw [hs]; rfl
    rw [move_stack, hmoved]
    exact .arms hs
  · exact .closed List.suffix_rfl

theorem enters_closer (w : Walk) (opener : Block) :
    Enters w.stack (w.enterCloser opener).1.stack (w.enterCloser opener).2.opens := by
  have hopens : (w.enterCloser opener).2.opens = none := by
    rw [enterCloser]
    split <;> rfl
  rw [hopens]
  exact .closed (Stack.closeBracket_suffix opener w.stack)

/-- **What entering does** is one of the five things. -/
theorem enters (o : Options) (w : Walk) (k : Kind) : Enters w.stack (w.enter o k).1.stack (w.enter o k).2.opens := by
  have hkeep : Enters w.stack w.stack none := .closed List.suffix_rfl
  cases k with
  | kwImport | kwLibrary | kwScillaVersion | kwContract | kwTransition | kwProcedure | kwType | kwField =>
    exact .cleared _
  | kwMatch | lparen | lbrace | lsqb => exact .opened rfl (by simp) (by simp [Block.sharesLevel])
  | kwFun | kwTfun => exact enters_function rfl (by simp)
  | kwLet => exact enters_let w
  | bar => exact .alternative
  | kwWith => exact enters_with w
  | kwEnd => exact .closed (Stack.dropThrough_suffix _ _)
  | kwIn =>
    rw [enter]
    split <;> exact hkeep
  | rparen | rbrace | rsqb => exact enters_closer w _
  | _ => exact hkeep

theorem Enters.wellNested {s s' : Stack} {b : Option Block} (h : Enters s s' b) (hs : s.WellNested) :
    Stack.WellNested (b.toList ++ s') := by
  cases h with
  | cleared b =>
    cases b with
    | none => trivial
    | some b => exact ⟨b.mayOpenOn_nil, trivial⟩
  | closed hsuffix => exact hs.suffix hsuffix
  | opened hd hb hl => exact ⟨⟨by simp [hd], fun h => absurd h hb, hl⟩, hs⟩
  | alternative => exact ⟨hs.mayOpenOn_bar, hs.suffix s.closeAlternative_suffix⟩
  | arms harms =>
    subst harms
    exact ⟨Block.mayOpenOn_of_plain rfl (by simp) rfl _, hs.2⟩

/-- A field declaration that is open when a token has been entered was opened by it or was open before. -/
theorem Enters.field {s s' : Stack} {b : Option Block} (h : Enters s s' b) (hf : Block.field ∈ b.toList ++ s') :
    b = some .field ∨ s' ≠ [] ∧ Block.field ∈ s := by
  cases h with
  | cleared b => exact .inl (by simpa using hf)
  | closed hsuffix => exact .inr ⟨List.ne_nil_of_mem hf, hsuffix.subset hf⟩
  | opened hd =>
    rcases List.mem_cons.1 hf with rfl | hf
    · cases hd
    · exact .inr ⟨List.ne_nil_of_mem hf, hf⟩
  | alternative =>
    have hf : Block.field ∈ s.closeAlternative := by simpa using hf
    exact .inr ⟨List.ne_nil_of_mem hf, s.closeAlternative_suffix.subset hf⟩
  | arms harms =>
    subst harms
    exact .inr ⟨by simp, by simpa using hf⟩

/-- Where all blocks are closed, none is left. -/
theorem enter_clears {k : Kind} (h : w.clears k = true) : (w.enter o k).1.stack = [] := by
  by_cases hlet : k = .kwLet
  · subst hlet
    have hfresh : w.isFreshLet = true := by simpa [clears, Kind.isTopLevel] using h
    simp [enter, enterLet, hfresh, reset, Stack.move]
  · have htop : k.isTopLevel = true := by simpa [clears, hlet] using h
    cases k <;> first | rfl | cases htop

/-- The blocks when a code token of kind `k` has been entered outside of clauses, and what it does then. -/
def entered (o : Options) (w : Walk) (k : Kind) : Walk × Effect := (w.breakLine o k).enter o k

/-- What stands before a code token of kind `k` when it is written. -/
def ahead (o : Options) (w : Walk) (k : Kind) : Before :=
  let v := (w.entered o k).1
  if v.out.isLineStart then (v.indent o (w.entered o k).2.dedent).out else v.out

theorem indent_frame (w : Walk) (dedent : Nat) : (w.indent o dedent).stack = w.stack ∧
    (w.indent o dedent).clause = w.clause ∧ (w.indent o dedent).field = w.field := by
  simp only [indent]
  split <;> exact ⟨rfl, rfl, rfl⟩

theorem endLine_suffix (w : Walk) : w.endLine.stack <:+ w.stack := by
  unfold endLine
  split
  · split
    · exact Stack.dropThrough_suffix _ _
    · exact List.suffix_rfl
  · exact List.suffix_rfl

theorem breakLine_frame (w : Walk) (k : Kind) : (w.breakLine o k).clause = w.clause ∧
    (w.breakLine o k).field = w.field ∧ (w.breakLine o k).stack <:+ w.stack := by
  rw [breakLine]
  split
  · exact ⟨(endLine_frame w).2.1, (endLine_frame w).2.2.2, endLine_suffix w⟩
  · exact ⟨rfl, rfl, List.suffix_rfl⟩

/-- **Where a code token outside of clauses leaves the walk.** -/
theorem code_frame (o : Options) (w : Walk) (t : Token) :
    (w.code o t).out = t :: w.ahead o t.kind ∧
    (w.code o t).stack = (w.entered o t.kind).2.opens.toList ++ (w.entered o t.kind).1.stack ∧
    (w.code o t).clause = (if (w.entered o t.kind).2.opensClause then some (w.entered o t.kind).1.stack.length
      else w.clause) ∧
    (w.code o t).field = if (w.entered o t.kind).2.opens = some .field then some (w.ahead o t.kind).length
      else (w.entered o t.kind).1.field := by
  have hclause : (w.entered o t.kind).1.clause = w.clause :=
    (enter_frame t.kind).2.1.trans (breakLine_frame w t.kind).1
  simp only [code, ahead]
  rw [show (w.breakLine o t.kind).enter o t.kind = w.entered o t.kind from rfl]
  generalize w.entered o t.kind = entered at hclause ⊢
  obtain ⟨v, effect⟩ := entered
  simp only at hclause ⊢
  obtain ⟨hstack, hclause', hfield⟩ := indent_frame (o := o) v effect.dedent
  by_cases hstart : v.out.isLineStart = true
  · simp only [hstart, if_true]
    cases effect.opens with
    | none => cases effect.opensClause <;> simp [write, hstack, hclause', hfield, hclause]
    | some b =>
      cases effect.opensClause <;> by_cases hb : b = .field <;>
        simp [write, openBlock, Stack.move, hb, hstack, hclause', hfield, hclause]
  · simp only [hstart, Bool.false_eq_true, if_false]
    cases effect.opens with
    | none => cases effect.opensClause <;> simp [write, hclause]
    | some b =>
      cases effect.opensClause <;> by_cases hb : b = .field <;> simp [write, openBlock, Stack.move, hb, hclause]

/-- A `with` that opens an address clause opens the block of its arms. -/
theorem opens_of_opensClause {k : Kind} (h : (w.enter o k).2.opensClause = true) :
    (w.enter o k).2.opens = some .withArms := by
  rw [enter_opensClause, Bool.and_eq_true] at h
  obtain ⟨hk, haddress⟩ := h
  obtain rfl : k = .kwWith := by simpa using hk
  simp [enter, enterWith, haddress]

/-! ## What a token does -/

/-- What a token can do to the blocks, the field and the clause. -/
inductive StepsTo (o : Options) (w : Walk) (t : Token) : Walk → Prop
  | code : t.isCode = true → w.clause = none → StepsTo o w t (w.code o t)
  | outside {w' : Walk} : w.clause = none → w'.clause = none → w'.field = w.field → w'.stack <:+ w.stack →
      StepsTo o w t w'
  | inside {w' : Walk} {base : Nat} : w.clause = some base → w'.clause = some base → w'.field = w.field →
      w'.stack = w.stack ∨ w'.stack = .withArms :: w.stack → StepsTo o w t w'
  | closing {w' : Walk} {base : Nat} : w.clause = some base →
      w'.clause = (if w'.stack.length ≤ base then none else some base) → w'.field = w.field →
      w'.stack = w.stack.closeBlock → StepsTo o w t w'

/-- A token that leaves the blocks, the field and the clause alone. -/
theorem stepsTo_same {t : Token} {w' : Walk} (hs : w'.stack = w.stack) (hf : w'.field = w.field)
    (hc : w'.clause = w.clause) : StepsTo o w t w' := by
  cases hclause : w.clause with
  | none => exact .outside hclause (hc.trans hclause) hf (hs ▸ List.suffix_rfl)
  | some base => exact .inside hclause (hc.trans hclause) hf (.inl hs)

theorem stepsTo_inlineCode {base : Nat} (hc : w.clause = some base) (t : Token) :
    StepsTo o w t (w.inlineCode base t) := by
  rw [inlineCode]
  split
  · split
    · exact .inside hc hc rfl (.inr rfl)
    · exact stepsTo_same rfl rfl rfl
  · exact .closing hc rfl rfl rfl
  · exact stepsTo_same rfl rfl rfl

/-- **What a step does** is one of the four things. -/
theorem stepsTo (o : Options) (w : Walk) (t : Token) : StepsTo o w t (w.step o t) := by
  rw [step]
  split
  · rw [newline]
    split
    · next hc =>
      obtain ⟨-, hclause, -, hfield⟩ := endLine_frame w
      exact .outside hc (hclause.trans hc) hfield (endLine_suffix w)
    · exact stepsTo_same rfl rfl rfl
  split
  · next hcode =>
    split
    · next hc => exact stepsTo_inlineCode hc t
    · next hc => exact .code hcode hc
  · rw [trivia]
    split <;> exact stepsTo_same rfl rfl rfl

/-- One more token. -/
theorem run_concat (o : Options) (ts : List Token) (t : Token) : run o (ts ++ [t]) = (run o ts).step o t := by
  simp [run]

/-! ## The blocks -/

theorem wellNested_code (h : w.stack.WellNested) (t : Token) : (w.code o t).stack.WellNested := by
  rw [(code_frame o w t).2.1]
  exact (enters o (w.breakLine o t.kind) t.kind).wellNested (h.suffix (breakLine_frame w t.kind).2.2)

theorem StepsTo.wellNested {t : Token} {w' : Walk} (h : StepsTo o w t w') (hw : w.stack.WellNested) :
    w'.stack.WellNested := by
  cases h with
  | code => exact wellNested_code hw t
  | outside _ _ _ hs => exact hw.suffix hs
  | inside _ _ _ hs =>
    rcases hs with hs | hs
    · exact hs ▸ hw
    · rw [hs]
      exact ⟨Block.mayOpenOn_of_plain rfl (by simp) rfl _, hw⟩
  | closing _ _ _ hs =>
    rw [hs]
    exact hw.suffix (Stack.dropThrough_suffix _ _)

theorem wellNested_run (o : Options) (ts : List Token) : (run o ts).stack.WellNested := by
  induction ts using List.reverseRecOn with
  | nil => trivial
  | append_singleton ts t ih => rw [run_concat]; exact (stepsTo o _ t).wellNested ih

/-! ## Address clauses -/

/-- The blocks above the base of an address clause are those of clauses, and there is one at least. -/
def ClauseArms (w : Walk) : Prop :=
  ∀ base ∈ w.clause, ∃ n below, w.stack = List.replicate (n + 1) .withArms ++ below ∧ below.length = base

theorem clauseArms_code (hc : w.clause = none) (t : Token) : (w.code o t).ClauseArms := by
  obtain ⟨-, hstack, hclause, -⟩ := code_frame o w t
  intro base hbase
  rw [hclause] at hbase
  split at hbase
  · next hopens =>
    rw [show (w.entered o t.kind).2.opens = some .withArms from opens_of_opensClause hopens] at hstack
    exact ⟨0, (w.entered o t.kind).1.stack, hstack, Option.some.inj hbase⟩
  · rw [hc] at hbase
    cases hbase

theorem StepsTo.clauseArms {t : Token} {w' : Walk} (h : StepsTo o w t w') (hw : w.ClauseArms) : w'.ClauseArms := by
  intro base hbase
  cases h with
  | code _ hc => exact clauseArms_code hc t base hbase
  | outside _ hc => simp [hc] at hbase
  | inside hc hc' _ hs =>
    obtain ⟨n, below, harms, hlen⟩ := hw base (hc.trans (hc'.symm.trans hbase))
    rcases hs with hs | hs
    · exact ⟨n, below, hs.trans harms, hlen⟩
    · exact ⟨n + 1, below, by rw [hs, harms]; rfl, hlen⟩
  | closing hc hc' _ hs =>
    obtain ⟨n, below, harms, hlen⟩ := hw _ hc
    -- the innermost block is the innermost clause
    have hclose : w'.stack = List.replicate n .withArms ++ below := by rw [hs, harms]; rfl
    rw [hc'] at hbase
    split at hbase
    · cases hbase
    · next hlong =>
      obtain rfl := Option.some.inj hbase
      cases n with
      | zero => simp [hclose, hlen] at hlong
      | succ n => exact ⟨n, below, hclose, hlen⟩

theorem clauseArms_run (o : Options) (ts : List Token) : (run o ts).ClauseArms := by
  induction ts using List.reverseRecOn with
  | nil => intro base hbase; cases hbase
  | append_singleton ts t ih => rw [run_concat]; exact (stepsTo o _ t).clauseArms ih

end Walk

end ScillaLayout
