import Mathlib.Data.List.Basic
import ScillaLayout.Proofs.Formatting.Neighbours

/-!
# Rules touch only spaces

Each rule leaves the tokens that are no spaces as they are and in their order, whatever list it is given
(`Rule.solid_apply`), and so does every list of rules (`applyAll_solid`). Nothing is asked of the list: it may hold
illegal tokens, end marks anywhere, indentation and blanks next to each other.

Rules that fold over the tokens are taken step by step: `Walk.solid_step`, `Spacing.solid_operatorStep` and
`Lines.solid_stripStep` say that a step adds its token to those before it and otherwise changes spaces only.
-/

namespace ScillaLayout

/-! ## Spaces come and go -/

theorem isSpace_of_isWhitespace {t : Token} (h : t.isWhitespace = true) : t.isSpace = true := by simp [isSpace_eq, h]

theorem isSpace_of_isNewline {t : Token} (h : t.isNewline = true) : t.isSpace = true := by simp [isSpace_eq, h]

theorem isSpace_of_kind {t : Token} (h : (t.kind == .whitespace) = true) : t.isSpace = true :=
  isSpace_of_isWhitespace (isWhitespace_of_kind (by simpa using h))

theorem solid_cons_space {t : Token} (ht : t.isSpace = true) (ts : List Token) : solid (t :: ts) = solid ts :=
  List.filter_cons_of_neg (by simp [ht])

theorem solid_cons_congr {ts us : List Token} (h : solid ts = solid us) (t : Token) :
    solid (t :: ts) = solid (t :: us) := by
  rw [← List.singleton_append, ← List.singleton_append (l := us), solid_append, solid_append, h]

theorem solid_reverse (ts : List Token) : solid ts.reverse = (solid ts).reverse := List.filter_reverse

theorem solid_dropWhile {p : Token → Bool} (hp : ∀ t, p t = true → t.isSpace = true) (ts : List Token) :
    solid (ts.dropWhile p) = solid ts := by
  induction ts with
  | nil => rfl
  | cons t ts ih =>
    rw [List.dropWhile_cons]
    split
    · next ht => rw [ih, solid_cons_space (hp t ht)]
    · rfl

theorem solid_trimmed (out : Before) : solid out.trimmed = solid out :=
  solid_dropWhile (fun _ => isSpace_of_isWhitespace) out

/-- A fold whose steps add their token to those before it, nearest first, keeps all tokens. -/
theorem solid_foldl {α : Type} (out : α → Before) {step : α → Token → α}
    (hstep : ∀ a t, solid (out (step a t)) = solid (t :: out a)) (a : α) (ts : List Token) :
    solid (out (ts.foldl step a)) = solid (ts.reverse ++ out a) := by
  induction ts generalizing a with
  | nil => rfl
  | cons t ts ih => rw [List.foldl_cons, ih, solid_append, hstep, ← solid_append, List.reverse_cons, List.append_assoc,
      List.singleton_append]

/-! ## Lines -/

namespace Lines

theorem solid_collapseBlankFrom (n : Nat) {blanks : List Token} (hb : ∀ b ∈ blanks, b.isSpace = true)
    (ts : List Token) : solid (collapseBlankFrom n blanks ts) = solid ts := by
  induction ts generalizing n blanks with
  | nil => exact solid_spaces hb
  | cons t ts ih =>
    rw [collapseBlankFrom]
    split
    · next ht =>
      have hrest : solid (collapseBlankFrom (n + 1) [] ts) = solid ts := ih (n + 1) (by simp)
      rw [solid_cons_space (isSpace_of_isNewline ht)]
      split
      · exact hrest
      · rw [solid_append, solid_spaces hb, solid_cons_space (isSpace_of_isNewline ht), hrest, List.nil_append]
    · split
      · next ht =>
        rw [solid_cons_space (isSpace_of_isWhitespace ht), ih]
        simpa [or_imp, forall_and] using ⟨hb, isSpace_of_isWhitespace ht⟩
      · rw [solid_append, solid_spaces hb, List.nil_append]
        exact solid_cons_congr (ih 0 (by simp)) t

theorem solid_clearBlankFrom (atStart : Bool) (ts : List Token) : solid (clearBlankFrom atStart ts) = solid ts := by
  induction ts generalizing atStart with
  | nil => rfl
  | cons t ts ih =>
    rw [clearBlankFrom]
    split
    · next h =>
      simp only [Bool.and_eq_true] at h
      rw [ih, solid_cons_space (isSpace_of_kind h.1.1)]
    · exact solid_cons_congr (ih _) t

theorem solid_stripStep (out : Before) (t : Token) : solid (stripStep out t) = solid (t :: out) := by
  rw [stripStep]
  split
  · exact solid_cons_congr (solid_trimmed out) t
  · rfl

theorem solid_trimBody (o : Options) (body : List Token) : solid (trimBody o body) = solid body := by
  have hkeep : solid (body.reverse.dropWhile (·.isSpace)) = (solid body).reverse := by
    rw [solid_dropWhile (fun _ h => h), solid_reverse]
  have hend : solid (if o.endWithNewline then [o.newlineToken] else []) = [] := by split <;> rfl
  rw [trimBody]
  split
  · next h =>
    rw [h] at hkeep
    simpa using hkeep.symm
  · next h => rw [← h, solid_append, hend, List.append_nil, solid_reverse, hkeep, List.reverse_reverse]

theorem solid_trimEnd (o : Options) (ts : List Token) : solid (trimEnd o ts) = solid ts := by
  rw [trimEnd]
  split
  · next last hlast =>
    split
    · rw [solid_append, solid_trimBody, ← solid_append, List.dropLast_append_getLast? last hlast]
    · exact solid_trimBody o ts
  · next hnone => rw [List.getLast?_eq_none_iff.1 hnone]

theorem solid_normalize (o : Options) (ts : List Token) : solid (normalize o ts) = solid ts := by
  induction ts with
  | nil => rfl
  | cons t ts ih =>
    rw [normalize, List.map_cons, ← normalize]
    split
    · next ht =>
      have hs : (t.withText o.newline).isSpace = true := isSpace_of_isNewline ht
      rw [solid_cons_space hs, solid_cons_space (isSpace_of_isNewline ht), ih]
    · exact solid_cons_congr ih t

end Lines

/-! ## Blanks within lines -/

namespace Spacing

theorem solid_collapseAfter (prev : Kind) (ts : List Token) : solid (collapseAfter prev ts) = solid ts := by
  induction ts generalizing prev with
  | nil => rfl
  | cons t ts ih =>
    rw [collapseAfter, collapsed]
    split
    · next h =>
      simp only [Bool.and_eq_true] at h
      have ht := isSpace_of_kind h.1.1
      rw [solid_cons_space (t := t.withText " ") ht, solid_cons_space ht, ih]
    · exact solid_cons_congr (ih _) t

theorem solid_collapse (ts : List Token) : solid (collapse ts) = solid ts := by
  cases ts with
  | nil => rfl
  | cons t ts => exact solid_cons_congr (solid_collapseAfter t.kind ts) t

theorem solid_beforeOperator (out : Before) : solid (beforeOperator out) = solid out := by
  unfold beforeOperator
  split
  · rfl
  split
  · next t rest _ =>
    split
    · next ht => rw [solid_cons_space (t := t.withText " ") (isSpace_of_kind ht), solid_cons_space (isSpace_of_kind ht)]
    · exact solid_cons_space rfl _
  · rfl

theorem solid_afterOperator (out : Before) (t : Token) : solid (afterOperator out t) = solid out := by
  unfold afterOperator
  split
  · split
    · exact solid_cons_space rfl _
    · rfl
  · rfl

theorem solid_operatorStep (out : Before) (t : Token) : solid (operatorStep out t) = solid (t :: out) := by
  rw [operatorStep]
  split
  · exact solid_cons_congr ((solid_beforeOperator _).trans (solid_afterOperator out t)) t
  split
  · next h =>
    simp only [Bool.and_eq_true] at h
    have ht := isSpace_of_kind h.1
    rw [solid_cons_space (t := t.withText " ") ht, solid_cons_space ht]
  · exact solid_cons_congr (solid_afterOperator out t) t

theorem solid_beforeHugging (out : Before) : solid (beforeHugging out) = solid out := by
  unfold beforeHugging
  split
  · split
    · next h =>
      simp only [Bool.and_eq_true] at h
      rw [solid_cons_space (isSpace_of_kind h.1)]
    · rfl
  · rfl

theorem solid_tightenFrom (out : Before) (ts : List Token) :
    solid (tightenFrom out ts) = solid (ts.reverse ++ out) := by
  have hhug : ∀ (t : Token) (out : Before),
      solid (t :: if hugsPrevious t.kind then beforeHugging out else out) = solid (t :: out) := by
    intro t out
    refine solid_cons_congr ?_ t
    split
    · exact solid_beforeHugging out
    · rfl
  fun_induction tightenFrom out ts with
  | case1 out => rfl
  | case2 out t => exact hhug t out
  | case3 out t next ts out' h ih =>
    simp only [Bool.and_eq_true] at h
    rw [ih, solid_append, hhug, List.reverse_cons, List.reverse_cons, List.append_assoc, List.append_assoc,
      solid_append, List.singleton_append, List.singleton_append, solid_cons_space (isSpace_of_kind h.2)]
  | case4 out t next ts out' h ih =>
    rw [ih, solid_append, hhug, ← solid_append, List.reverse_cons (a := t), List.append_assoc, List.singleton_append]

end Spacing

/-! ## Indentation -/

namespace Walk

theorem solid_breakLine (o : Options) (w : Walk) (k : Kind) : solid (w.breakLine o k).out = solid w.out := by
  rw [breakLine]
  split
  · show solid (o.newlineToken :: w.endLine.out) = _
    rw [solid_cons_space rfl, (endLine_frame w).1]
  · rfl

theorem solid_indent (o : Options) (w : Walk) (dedent : Nat) : solid (w.indent o dedent).out = solid w.out := by
  simp only [indent]
  split
  · exact solid_trimmed w.out
  · exact (solid_cons_space rfl _).trans (solid_trimmed w.out)

/-- A code token outside of address clauses is written behind what was there; only spaces change before it. -/
theorem solid_code (o : Options) (w : Walk) (t : Token) : solid (w.code o t).out = solid (t :: w.out) := by
  have hentered : solid ((w.breakLine o t.kind).enter o t.kind).1.out = solid w.out := by
    rw [(enter_frame t.kind).1, solid_breakLine]
  simp only [code]
  generalize (w.breakLine o t.kind).enter o t.kind = entered at hentered ⊢
  obtain ⟨v, effect⟩ := entered
  have hindented : solid (if v.out.isLineStart then v.indent o effect.dedent else v).out = solid w.out := by
    split
    · exact (solid_indent o v _).trans hentered
    · exact hentered
  simp only
  generalize (if v.out.isLineStart then v.indent o effect.dedent else v) = u at hindented ⊢
  cases effect.opens <;> cases effect.opensClause <;> exact solid_cons_congr hindented t

/-- **A step of the walk** adds its token to those before it and otherwise changes spaces only. -/
theorem solid_step (o : Options) (w : Walk) (t : Token) : solid (w.step o t).out = solid (t :: w.out) := by
  rw [step]
  split
  · next ht =>
    rw [newline]
    split
    · exact solid_cons_congr (congrArg solid (endLine_frame w).1) t
    · rw [solid_cons_space (isSpace_of_isNewline ht)]
      exact (solid_cons_space rfl _).trans (solid_trimmed w.out)
  split
  · split
    · rw [inlineCode]
      split
      · split <;> rfl
      · rfl
      · rfl
    · exact solid_code o w t
  · rw [trivia]
    split
    · next h =>
      simp only [Bool.and_eq_true] at h
      exact (solid_cons_space (isSpace_of_isWhitespace h.2) _).symm
    · rfl

/-- What the walk has written holds the tokens that it was given. -/
theorem solid_tokens_run (o : Options) (ts : List Token) : solid (run o ts).tokens = solid ts := by
  rw [tokens, solid_reverse, run, solid_foldl Walk.out (solid_step o), List.append_nil, solid_reverse,
    List.reverse_reverse]

end Walk

/-! ## Rules -/

theorem Rule.solid_apply (o : Options) (r : Rule) (ts : List Token) : solid (r.apply o ts) = solid ts := by
  have hfold : ∀ {step : Before → Token → Before}, (∀ out t, solid (step out t) = solid (t :: out)) →
      solid (ts.foldl step []).reverse = solid ts := by
    intro step hstep
    have hkept : solid (ts.foldl step []) = solid (ts.reverse ++ []) := solid_foldl id hstep [] ts
    rw [solid_reverse, hkept, List.append_nil, solid_reverse, List.reverse_reverse]
  cases r with
  | removeLeadingBlankLines => exact solid_dropWhile (fun _ h => h) ts
  | collapseBlankLines => exact Lines.solid_collapseBlankFrom 0 (by simp) ts
  | clearBlankLines => exact Lines.solid_clearBlankFrom true ts
  | collapseBlanks => exact Spacing.solid_collapse ts
  | indentation => exact Walk.solid_tokens_run o ts
  | spaceAroundOperators => exact hfold Spacing.solid_operatorStep
  | tightenPunctuation =>
    show solid (Spacing.tightenFrom [] ts).reverse = _
    rw [solid_reverse, Spacing.solid_tightenFrom, List.append_nil, solid_reverse, List.reverse_reverse]
  | stripTrailingBlanks => exact hfold Lines.solid_stripStep
  | trimDocumentEnd => exact Lines.solid_trimEnd o ts
  | normalizeNewlines => exact Lines.solid_normalize o ts

/-- **Rules touch only spaces.** Any rules, one after the other on any list of tokens, leave all tokens besides blanks,
indentation and line breaks as they were and in their order. -/
theorem applyAll_solid (o : Options) (rules : List Rule) (ts : List Token) :
    (Rule.applyAll o rules ts).filter (fun t => t.kind ∉ [.whitespace, .indent, .newline]) =
      ts.filter (fun t => t.kind ∉ [.whitespace, .indent, .newline]) := by
  have hsolid : ∀ us : List Token, us.filter (fun t => t.kind ∉ [.whitespace, .indent, .newline]) = solid us := by
    intro us
    refine List.filter_congr fun t _ => ?_
    cases t with | mk k x s => cases k <;> rfl
  rw [hsolid, hsolid]
  induction rules generalizing ts with
  | nil => rfl
  | cons r rules ih => exact (ih (r.apply o ts)).trans (r.solid_apply o ts)

end ScillaLayout
