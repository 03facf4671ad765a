import ScillaLayout.Proofs.Layout.Visit
import ScillaLayout.Proofs.Lexing.Chain

/-!
# Walks that go on in the same way

The future of a walk depends on its `Scene`: the open blocks, the address clause, the mark of the field that is being
declared and what is seen of the tokens written. Two walks with the same scene that go over cells with the same token,
broken at the same places, have the same scene again (`Walk.scene_visit_congr`).
-/

namespace ScillaLayout

/-- What is seen of a token is its kind and its text. -/
theorem Sight.push_congr {t t' : Token} (h : t.key = t'.key) (s : Sight) : s.push t = s.push t' := by
  obtain ⟨k, x, p⟩ := t
  obtain ⟨k', x', p'⟩ := t'
  obtain ⟨rfl, rfl⟩ := Prod.mk.inj h
  rfl

namespace Walk

variable {o : Options} {w w' : Walk}

/-- Whether the code token of a cell closes all blocks. -/
def entryClears (w : Walk) (g : Gap) (t : Token) : Bool := (if w.breaksAt g t then w.endLine else w).clears t.kind

theorem entry_field (w : Walk) (g : Gap) (t : Token) :
    (w.entry o g t).1.field = if w.entryClears g t then none else w.field := by
  unfold entry entryClears
  split
  · rw [(enter_frame t.kind).2.2.2, (endLine_frame w).2.2.2]
  · exact (enter_frame t.kind).2.2.2

/-- What the future of a walk depends on. -/
structure Scene where
  stack : Stack
  clause : Option Nat
  mark : Mark
  sight : Sight
  deriving DecidableEq, Repr

variable [Text.Measure]

/-- The scene of a walk. -/
def scene (w : Walk) : Scene := ⟨w.stack, w.clause, w.mark, w.out.sight⟩

theorem scene_eq_iff : w.scene = w'.scene ↔
    w.stack = w'.stack ∧ w.clause = w'.clause ∧ w.mark = w'.mark ∧ w.out.sight = w'.out.sight := by
  simp [scene]

/-! ## The mark behind a cell -/

/-- The mark behind the token of a cell. -/
def markAfter (o : Options) (w : Walk) (g : Gap) (t : Token) : Mark :=
  if w.clause.isNone && t.kind == .kwField then .seeking (Text.Measure.width t.text)
  else if w.clause.isNone && t.isCode && w.entryClears g t then .none
  else ((w.gapOut o g t).tokens ++ [t]).foldl Mark.push w.mark

theorem mark_visit {c : Cell} (hw : w.Ready) (hf : w.Fits c) :
    (w.visit o c).mark = w.markAfter o c.gap c.token := by
  have hout := visit_out (o := o) hw hf
  -- a field that was being declared before is still the one
  have hkept : (w.visit o c).field = w.field →
      (w.visit o c).mark = ((w.gapOut o c.gap c.token).tokens ++ [c.token]).foldl Mark.push w.mark := by
    intro hfield
    rw [← mark_append _ hw.field]
    simp only [mark, hfield, hout, withOut_field, withOut_out]
    simp
  by_cases ht : c.token.isCode = true
  · cases hc : w.clause with
    | none =>
      obtain ⟨-, -, -, hfield, -⟩ := visit_code (o := o) hf.gap hw hc hf.fresh ht
      have hopens : (w.entry o c.gap c.token).2.opens = some .field ↔ c.token.kind = .kwField := enter_opens_field
      by_cases hk : c.token.kind = .kwField
      · rw [if_pos (hopens.2 hk)] at hfield
        have hwidth := lineWidth_field (o := o) hw hf hc hk
        rw [hout] at hwidth
        simp only [mark, hfield, hout, Option.map_some, Option.getD_some, markAt_keyword, hwidth]
        simp [markAfter, hc, hk]
      · rw [if_neg (mt hopens.1 hk), entry_field] at hfield
        by_cases hclear : w.entryClears c.gap c.token = true
        · rw [if_pos hclear] at hfield
          simp [mark, hfield, markAfter, hc, hk, ht, hclear]
        · rw [if_neg hclear] at hfield
          rw [hkept hfield]
          simp [markAfter, hc, hk, hclear]
    | some base =>
      obtain ⟨-, -, -, hfield, -⟩ := visit_inline (o := o) hf.gap hw hc ht
      rw [hkept hfield]
      simp [markAfter, hc]
  · obtain ⟨-, -, -, hfield, -⟩ := visit_trivia (o := o) hf.gap hw (by simpa using ht) hf.token
    have hk : c.token.kind ≠ .kwField := fun hk => ht (by simp [Token.isCode, hk, Kind.isCode])
    rw [hkept hfield]
    simp [markAfter, ht, hk]

/-! ## Two walks -/

section Congruence

variable {c c' : Cell} (hs : w.scene = w'.scene) (hb : w.breaksAt c.gap c.token = w'.breaksAt c'.gap c'.token)
  (hk : c.token.key = c'.token.key)

include hs hb

theorem lineStack_congr : (if w.breaksAt c.gap c.token then w.endLine else w).stack =
    (if w'.breaksAt c'.gap c'.token then w'.endLine else w').stack := by
  obtain ⟨hstack, -, -, hsight⟩ := scene_eq_iff.1 hs
  rw [hb]
  split
  · exact endLine_stack_congr hstack (by rw [hsight])
  · exact hstack

include hk

theorem entry_congr : (w.entry o c.gap c.token).1.stack = (w'.entry o c'.gap c'.token).1.stack ∧
    (w.entry o c.gap c.token).2 = (w'.entry o c'.gap c'.token).2 ∧
    w.entryClears c.gap c.token = w'.entryClears c'.gap c'.token := by
  obtain ⟨-, -, -, hsight⟩ := scene_eq_iff.1 hs
  have hkind : c.token.kind = c'.token.kind := congrArg Prod.fst hk
  have hline : ∀ (v : Walk) (b : Bool), (if b then v.endLine else v).out = v.out := fun v b => by
    cases b
    · rfl
    · exact (endLine_frame v).1
  unfold entry entryClears
  rw [hkind]
  exact enter_congr (lineStack_congr hs hb) (by rw [hline, hline, hsight]) (by rw [hline, hline, hsight]) _

theorem sight_visit_congr (hw : w.Ready) (hw' : w'.Ready) (hf : w.Fits c) (hf' : w'.Fits c') :
    (w.visit o c).out.sight = (w'.visit o c').out.sight := by
  obtain ⟨-, -, -, hsight⟩ := scene_eq_iff.1 hs
  rw [visit_out hw hf, visit_out hw' hf', Before.sight_cons, Before.sight_cons, gapOut_sight hf.gap,
    gapOut_sight hf'.gap, hb, hsight, Sight.push_congr hk]

/-- **Walks with the same scene** have the same scene behind the same token, when it starts a line in both or in none
and the mark moves alike. -/
theorem scene_visit_congr (hw : w.Ready) (hw' : w'.Ready) (hf : w.Fits c) (hf' : w'.Fits c')
    (hm : ((w.gapOut o c.gap c.token).tokens ++ [c.token]).foldl Mark.push w.mark =
      ((w'.gapOut o c'.gap c'.token).tokens ++ [c'.token]).foldl Mark.push w'.mark) :
    (w.visit o c).scene = (w'.visit o c').scene := by
  obtain ⟨hstack, hclause, hmark, hsight⟩ := scene_eq_iff.1 hs
  have hkind : c.token.kind = c'.token.kind := congrArg Prod.fst hk
  have htext : c.token.text = c'.token.text := congrArg Prod.snd hk
  have hcode : c.token.isCode = c'.token.isCode := by rw [Token.isCode, Token.isCode, hkind]
  obtain ⟨hestack, heffect, hclears⟩ := entry_congr (o := o) hs hb hk
  refine scene_eq_iff.2 ⟨?_, ?_, ?_, sight_visit_congr hs hb hk hw hw' hf hf'⟩
  · by_cases ht : c.token.isCode = true
    · cases hc : w.clause with
      | none =>
        rw [(visit_code hf.gap hw hc hf.fresh ht).2.1,
          (visit_code hf'.gap hw' (hclause ▸ hc) hf'.fresh (hcode ▸ ht)).2.1, hestack, heffect]
      | some base =>
        rw [(visit_inline hf.gap hw hc ht).2.1, (visit_inline hf'.gap hw' (hclause ▸ hc) (hcode ▸ ht)).2.1, hkind]
        simp only [inlineStack, hstack, hsight]
    · rw [(visit_trivia hf.gap hw (by simpa using ht) hf.token).2.1,
        (visit_trivia hf'.gap hw' (by simpa [hcode] using ht) hf'.token).2.1]
      exact lineStack_congr hs hb
  · by_cases ht : c.token.isCode = true
    · cases hc : w.clause with
      | none =>
        rw [(visit_code hf.gap hw hc hf.fresh ht).2.2.1,
          (visit_code hf'.gap hw' (hclause ▸ hc) hf'.fresh (hcode ▸ ht)).2.2.1, hestack, heffect]
      | some base =>
        rw [(visit_inline hf.gap hw hc ht).2.2.1, (visit_inline hf'.gap hw' (hclause ▸ hc) (hcode ▸ ht)).2.2.1, hkind]
        simp only [inlineClause, hstack]
    · rw [(visit_trivia hf.gap hw (by simpa using ht) hf.token).2.2.1,
        (visit_trivia hf'.gap hw' (by simpa [hcode] using ht) hf'.token).2.2.1, hclause]
  · rw [mark_visit hw hf, mark_visit hw' hf']
    simp only [markAfter, hclause, hkind, hcode, hclears, htext, hm]

end Congruence

end Walk

end ScillaLayout
