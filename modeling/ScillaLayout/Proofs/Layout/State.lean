import ScillaLayout.Proofs.Layout.Nesting

/-!
# The state of the walk

What holds of the walk after every token, whatever tokens it is given (`walk_sound`): the open blocks are nested in an
orderly way, the keyword of an open field declaration is known by its place, and the blocks above the base of an address
clause are those of clauses.

The place of the keyword stays right because the walk only takes spaces away from what it has written
(`Walk.keeps_step`): a token that is no space keeps everything that stands before it.
-/

namespace ScillaLayout

/-! ## What has been written stays -/

namespace Before

/-- Tokens of `out` that are no spaces have in `out'` the same tokens before them. -/
def Keeps (out out' : Before) : Prop :=
  ∀ t below, t.isSpace = false → t :: below <:+ out → t :: below <:+ out'

theorem Keeps.refl (out : Before) : out.Keeps out := fun _ _ _ h => h

theorem Keeps.trans {out out' out'' : Before} (h : out.Keeps out') (h' : out'.Keeps out'') : out.Keeps out'' :=
  fun t below ht hs => h' t below ht (h t below ht hs)

theorem keeps_cons (t : Token) (out : Before) : out.Keeps (t :: out) :=
  fun _ _ _ h => h.trans (List.suffix_cons t out)

/-- Blanks at the end may go. -/
theorem keeps_trimmed (out : Before) : out.Keeps out.trimmed := by
  intro t below ht hs
  induction out with
  | nil => exact hs
  | cons u out ih =>
    rw [trimmed, List.dropWhile_cons]
    split
    · next hu =>
      rcases List.suffix_cons_iff.1 hs with heq | hs
      · obtain ⟨rfl, -⟩ := List.cons.inj heq
        rw [isSpace_of_isWhitespace hu] at ht
        cases ht
      · exact ih hs
    · exact hs

end Before

namespace Walk

variable {o : Options} {w : Walk}

theorem keeps_entered (o : Options) (w : Walk) (k : Kind) : w.out.Keeps (w.entered o k).1.out := by
  rw [entered, (enter_frame k).1, breakLine]
  split
  · show w.out.Keeps (o.newlineToken :: w.endLine.out)
    rw [(endLine_frame w).1]
    exact Before.keeps_cons _ _
  · exact .refl _

theorem keeps_ahead (o : Options) (w : Walk) (k : Kind) : w.out.Keeps (w.ahead o k) := by
  have hindent : ∀ (v : Walk) dedent, v.out.Keeps (v.indent o dedent).out := by
    intro v dedent
    simp only [indent]
    split
    · exact Before.keeps_trimmed v.out
    · exact (Before.keeps_trimmed v.out).trans (Before.keeps_cons _ _)
  simp only [ahead]
  split
  · exact (keeps_entered o w k).trans (hindent _ _)
  · exact keeps_entered o w k

/-- **The walk takes only spaces away** from what it has written. -/
theorem keeps_step (o : Options) (w : Walk) (t : Token) : w.out.Keeps (w.step o t).out := by
  rw [step]
  split
  · rw [newline]
    split
    · show w.out.Keeps (t :: w.endLine.out)
      rw [(endLine_frame w).1]
      exact Before.keeps_cons _ _
    · exact (Before.keeps_trimmed w.out).trans (Before.keeps_cons _ _)
  split
  · split
    · rw [inlineCode]
      split
      · split <;> exact Before.keeps_cons _ _
      · exact Before.keeps_cons _ _
      · exact Before.keeps_cons _ _
    · rw [(code_frame o w t).1]
      exact (keeps_ahead o w t.kind).trans (Before.keeps_cons _ _)
  · rw [trivia]
    split
    · exact .refl _
    · exact Before.keeps_cons _ _

/-! ## The keyword of a field declaration -/

/-- The keyword of a field declaration opens its block and is noted where it is written. -/
theorem code_field {t : Token} (hk : t.kind = .kwField) :
    (w.code o t).stack = [.field] ∧ (w.code o t).field = some (w.ahead o t.kind).length := by
  obtain ⟨-, hstack, -, hfield⟩ := code_frame o w t
  have hopens : (w.entered o t.kind).2.opens = some .field := enter_opens_field.2 hk
  have hnil : (w.entered o t.kind).1.stack = [] := by rw [entered, hk]; rfl
  rw [hstack, hfield, hopens, hnil]
  exact ⟨rfl, rfl⟩

/-- Any other code token leaves a field declaration open only if it was open before, and its place as it was. -/
theorem code_other {t : Token} (hk : t.kind ≠ .kwField) (h : Block.field ∈ (w.code o t).stack) :
    Block.field ∈ w.stack ∧ (w.code o t).field = w.field := by
  obtain ⟨-, hstack, -, hfield⟩ := code_frame o w t
  have hopens : (w.entered o t.kind).2.opens ≠ some .field := fun h => hk (enter_opens_field.1 h)
  obtain ⟨-, hkept, hsuffix⟩ := breakLine_frame (o := o) w t.kind
  rw [hstack] at h
  obtain hb | ⟨hne, hbefore⟩ := (enters o (w.breakLine o t.kind) t.kind).field h
  · exact absurd hb hopens
  · have hclears : ¬(w.breakLine o t.kind).clears t.kind = true := fun hc => hne (enter_clears hc)
    refine ⟨hsuffix.subset hbefore, ?_⟩
    rw [hfield, if_neg hopens, entered, (enter_frame t.kind).2.2.2, if_neg hclears, hkept]

/-- An open field declaration was opened by this token, or it was open before and its place is known as before. -/
theorem StepsTo.field {t : Token} {w' : Walk} (hstep : StepsTo o w t w') (h : Block.field ∈ w'.stack) :
    (t.kind = .kwField ∧ w' = w.code o t) ∨ (Block.field ∈ w.stack ∧ w'.field = w.field) := by
  cases hstep with
  | code =>
    by_cases hk : t.kind = .kwField
    · exact .inl ⟨hk, rfl⟩
    · exact .inr (code_other hk h)
  | outside _ _ hfield hs => exact .inr ⟨hs.subset h, hfield⟩
  | inside _ _ hfield hs =>
    rcases hs with hs | hs
    · exact .inr ⟨hs ▸ h, hfield⟩
    · rw [hs] at h
      exact .inr ⟨by simpa using h, hfield⟩
  | closing _ _ hfield hs =>
    rw [hs] at h
    exact .inr ⟨(Stack.dropThrough_suffix _ _).subset h, hfield⟩

/-- The token `t` between `before` and `behind` is a `field` keyword that opened a block, and the block is open since.
`below` has been written before it. -/
structure Opened (o : Options) (before : List Token) (t : Token) (behind : List Token) (below : Before) : Prop where
  keyword : t.kind = .kwField
  opened : (run o (before ++ [t])).stack = [.field]
  since : ∀ mid, mid <+: behind → Block.field ∈ (run o (before ++ t :: mid)).stack
  place : t :: below <:+ (run o (before ++ t :: behind)).out
  same : solid below.reverse = solid before

/-- What has been written before a token is what was given before it, besides spaces. -/
theorem solid_written {ts : List Token} {t : Token} {below : Before} (ht : t.isSpace = false)
    (hout : (run o (ts ++ [t])).out = t :: below) : solid below.reverse = solid ts := by
  have hsolid := solid_tokens_run o (ts ++ [t])
  rw [tokens, hout, List.reverse_cons, solid_append, solid_append, solid_cons ht] at hsolid
  exact List.append_cancel_right hsolid

/-- The keyword of a field declaration, right after it. -/
theorem opened_start {ts : List Token} {t : Token} (hk : t.kind = .kwField)
    (hstep : run o (ts ++ [t]) = (run o ts).code o t) :
    Opened o ts t [] ((run o ts).ahead o t.kind) := by
  obtain ⟨hstack, -⟩ := code_field (o := o) (w := run o ts) hk
  obtain ⟨hout, -⟩ := code_frame o (run o ts) t
  rw [← hstep] at hstack hout
  have ht : t.isSpace = false := by simp [Token.isSpace, hk, Kind.isSpace]
  refine ⟨hk, hstack, fun mid hmid => ?_, hout ▸ List.suffix_rfl, ?_⟩
  · rw [List.prefix_nil.1 hmid, hstack]
    exact List.mem_singleton_self _
  · exact solid_written ht hout

/-- One more token while the block stays open. -/
theorem Opened.concat {before behind : List Token} {t u : Token} {below : Before} (h : Opened o before t behind below)
    (hopen : Block.field ∈ (run o (before ++ t :: (behind ++ [u]))).stack) :
    Opened o before t (behind ++ [u]) below := by
  have ht : t.isSpace = false := by simp [Token.isSpace, h.keyword, Kind.isSpace]
  refine ⟨h.keyword, h.opened, fun mid hmid => ?_, ?_, h.same⟩
  · rcases List.prefix_concat_iff.1 hmid with rfl | hmid
    · exact hopen
    · exact h.since mid hmid
  · rw [← List.cons_append, ← List.append_assoc, run_concat]
    exact keeps_step o _ u t below ht h.place

/-- **An open field declaration** was opened by a keyword of the list, and its place is where that keyword stands. -/
theorem exists_opened {ts : List Token} (h : Block.field ∈ (run o ts).stack) : ∃ before t behind below,
    ts = before ++ t :: behind ∧ (run o ts).field = some below.length ∧ Opened o before t behind below := by
  induction ts using List.reverseRecOn with
  | nil => cases h
  | append_singleton ts t ih =>
    have hrun := run_concat o ts t
    rw [hrun] at h
    obtain ⟨hk, hcode⟩ | ⟨hbefore, hfield⟩ := (stepsTo o (run o ts) t).field h
    · have hstep : run o (ts ++ [t]) = (run o ts).code o t := hrun.trans hcode
      exact ⟨ts, t, [], _, rfl, by rw [hstep, (code_field hk).2], opened_start hk hstep⟩
    · obtain ⟨before, u, behind, below, rfl, hplace, hopened⟩ := ih hbefore
      refine ⟨before, u, behind ++ [t], below, by simp, by rw [hrun, hfield, hplace], hopened.concat ?_⟩
      rw [← List.cons_append, ← List.append_assoc, hrun]
      exact h

end Walk

/-! ## After every token -/

/-- What holds of the walk behind the tokens `ts`. The blocks are listed from the innermost to the outermost. -/
structure Walk.Sound (o : Options) (ts : List Token) : Prop where
  /-- Blocks of declarations are the outermost ones. -/
  declarations : ∀ above b below, (run o ts).stack = above ++ b :: below →
    b ∈ [.typeDecl, .field, .transition, .procedure] → below = []
  /-- Between two alternatives stands a block that keeps them apart. -/
  alternatives : ∀ above mid below, (run o ts).stack = above ++ .bar :: (mid ++ .bar :: below) →
    ∃ b ∈ mid, b ∈ [.matchArms, .withArms, .transition, .procedure, .typeDecl]
  /-- Bindings and functions do not stand directly on their like. -/
  levels : ∀ above a b below, (run o ts).stack = above ++ a :: b :: below →
    ∀ c ∈ [.letIn, .funBody, .tfunBody], ¬(a = c ∧ b = c)
  /-- The place that is noted for an open field declaration is that of the keyword which opened it: the keyword stands
  there, behind the same tokens as in `ts` besides spaces. -/
  field : Block.field ∈ (run o ts).stack → ∃ k before t behind,
    (run o ts).field = some k ∧ k < (run o ts).tokens.length ∧ (run o ts).tokens[k]? = some t ∧
    ts = before ++ t :: behind ∧ t.kind = .kwField ∧ solid ((run o ts).tokens.take k) = solid before ∧
    (run o (before ++ [t])).stack = [.field] ∧
    ∀ mid, mid <+: behind → Block.field ∈ (run o (before ++ t :: mid)).stack
  /-- From the base of an address clause upward there are clauses only, and one at least. -/
  clause : ∀ base, (run o ts).clause = some base →
    base < (run o ts).stack.length ∧ ∀ b ∈ (run o ts).stack.reverse.drop base, b = .withArms

/-- **The state of the walk is sound** behind any tokens, so after every step of every run. -/
theorem walk_sound (o : Options) (ts : List Token) : Walk.Sound o ts := by
  have hnested := Walk.wellNested_run o ts
  refine ⟨?_, ?_, ?_, ?_, ?_⟩
  · intro above b below hs hb
    rw [hs] at hnested
    refine hnested.mayOpenOn.declaration ?_
    simp only [List.mem_cons, List.not_mem_nil, or_false] at hb
    rcases hb with rfl | rfl | rfl | rfl <;> rfl
  · intro above mid below hs
    rw [hs] at hnested
    obtain ⟨b, hb, hbound⟩ := hnested.mayOpenOn.alternative rfl mid below rfl
    refine ⟨b, hb, ?_⟩
    cases b <;> first | decide | cases hbound
  · rintro above a b below hs c hc ⟨rfl, rfl⟩
    rw [hs] at hnested
    refine hnested.mayOpenOn.level ?_ rfl
    simp only [List.mem_cons, List.not_mem_nil, or_false] at hc
    rcases hc with rfl | rfl | rfl <;> rfl
  · intro hopen
    obtain ⟨before, t, behind, below, hts, hplace, hopened⟩ := Walk.exists_opened hopen
    obtain ⟨above, hout⟩ := hopened.place
    have htokens : (Walk.run o ts).tokens = below.reverse ++ t :: above.reverse := by
      rw [Walk.tokens, hts, ← hout]
      simp
    refine ⟨below.length, before, t, behind, hplace, ?_, ?_, hts, hopened.keyword, ?_, hopened.opened, hopened.since⟩
    · rw [htokens, List.length_append, List.length_reverse, List.length_cons]
      omega
    · rw [htokens]
      simp
    · rw [htokens, ← List.length_reverse, List.take_left]
      exact hopened.same
  · intro base hbase
    obtain ⟨n, below, hs, rfl⟩ := Walk.clauseArms_run o ts base hbase
    rw [hs, List.length_append, List.length_replicate, List.reverse_append, ← List.length_reverse, List.drop_left]
    refine ⟨by rw [List.length_reverse]; omega, fun b hb => ?_⟩
    exact List.eq_of_mem_replicate (List.mem_reverse.1 hb)

end ScillaLayout
