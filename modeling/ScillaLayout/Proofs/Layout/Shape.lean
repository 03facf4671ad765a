import ScillaLayout.Proofs.Layout.Laid

/-!
# What of a gap counts

Of a gap on one line its blank counts, of a broken one the number of its line breaks and the blank behind them
(`Gap.Alike`). The layout leaves gaps of the same `Gap.shape` before the same tokens when the walks have the same scene
and the gaps are alike (`Walk.laid_alike`), and it leaves a gap that it has left before as it is (`Walk.laid_again`).
-/

namespace ScillaLayout

namespace Gap

variable {o : Options} {g h : Gap} {prev : Option Kind} {next : Kind}

/-- The texts of a gap, with its line breaks only counted. -/
def shape (g : Gap) : Option String × Nat × Option String :=
  (g.trail.map (·.text), g.breaks.length, g.lead.map (·.text))

/-- Gaps that the layout does not tell apart. -/
structure Alike (g h : Gap) : Prop where
  breaks : g.breaks.length = h.breaks.length
  trail : g.breaks = [] → g.trail.map (·.text) = h.trail.map (·.text)
  lead : g.lead.map (·.text) = h.lead.map (·.text)

theorem alike_of_shape (hs : g.shape = h.shape) : g.Alike h :=
  ⟨congrArg (·.2.1) hs, fun _ => congrArg (·.1) hs, congrArg (·.2.2) hs⟩

theorem Alike.breaks_nil (ha : g.Alike h) : g.breaks = [] ↔ h.breaks = [] := by
  rw [← List.length_eq_zero_iff, ← List.length_eq_zero_iff, ha.breaks]

/-! ## The rules behind the walk -/

/-- The blank of a gap on one line, once operators and punctuation have had their way. -/
def inlineTrail (prev : Option Kind) (trail : Option Token) (next : Kind) : Option Token :=
  if prev.any Spacing.hugsNext ∨ Spacing.hugsPrevious next then none
  else if prev.any Spacing.isOperator ∨ prev.isSome ∧ Spacing.isOperator next then
    some ((trail.getD .space).withText " ")
  else trail

theorem finished_inline (hb : g.breaks = []) (hnext : next ≠ .eof) :
    g.finished o prev next = { trail := inlineTrail prev g.trail next, lead := g.lead } := by
  by_cases hn : prev.any Spacing.hugsNext = true <;> by_cases hp : Spacing.hugsPrevious next = true <;>
    by_cases ho : prev.any Spacing.isOperator ∨ prev.isSome ∧ Spacing.isOperator next <;>
    simp_all [finished, normalized, stripped, tightened, tightenedAfter, tightenedBefore, spaced, spacedTrail,
      inlineTrail]

theorem finished_broken (hb : g.breaks ≠ []) :
    g.finished o prev next = { breaks := g.breaks.map (·.withText o.newline), lead := g.lead } := by
  simp [finished, normalized, stripped, tightened, tightenedAfter, tightenedBefore, spaced, hb]

theorem finished_breaks (o : Options) (g : Gap) (prev : Option Kind) (next : Kind) :
    (g.finished o prev next).breaks = g.breaks.map (·.withText o.newline) := by
  by_cases hb : g.breaks = []
  · simp [finished, normalized, stripped, tightened, tightenedAfter, tightenedBefore, spaced, hb]
  · rw [finished_broken hb]

theorem finished_empty (o : Options) (next : Kind) : Gap.empty.finished o none next = .empty := by
  simp [finished, normalized, stripped, tightened, tightenedAfter, tightenedBefore, spaced, spacedTrail, empty]

theorem map_text_inlineTrail {b c : Option Token} (h : b.map (·.text) = c.map (·.text)) :
    (inlineTrail prev b next).map (·.text) = (inlineTrail prev c next).map (·.text) := by
  unfold inlineTrail
  split
  · rfl
  · split
    · rfl
    · exact h

/-- Gaps that are alike get the same shape. -/
theorem Alike.finished (ha : g.Alike h) (hnext : next ≠ .eof) :
    (g.finished o prev next).shape = (h.finished o prev next).shape := by
  by_cases hb : g.breaks = []
  · rw [finished_inline hb hnext, finished_inline (ha.breaks_nil.1 hb) hnext]
    simp only [shape, map_text_inlineTrail (ha.trail hb), ha.lead]
  · rw [finished_broken hb, finished_broken (mt ha.breaks_nil.2 hb)]
    simp only [shape, List.length_map, ha.breaks, ha.lead]

theorem finished_proper (hg : g.Proper) (prev : Option Kind) (next : Kind) : (g.finished o prev next).Proper := by
  have htidied := tidied_rewrites.proper hg prev next
  have hlen : (g.finished o prev next).breaks.length = (g.tidied prev next).breaks.length := List.length_map _
  refine ⟨htidied.trail, fun n hn => ?_, htidied.lead, hlen ▸ htidied.few, fun hb => ?_⟩
  · obtain ⟨b, hmem, rfl⟩ := List.mem_map.1 hn
    exact htidied.breaks b hmem
  · exact htidied.inline (List.map_eq_nil_iff.1 hb)

/-- The rules behind the walk leave their own result as it is. -/
theorem finished_finished (hnext : next ≠ .eof) :
    ((g.finished o prev next).finished o prev next).shape = (g.finished o prev next).shape := by
  by_cases hb : g.breaks = []
  · have hagain : ∀ b, (inlineTrail prev (inlineTrail prev b next) next).map (·.text) =
        (inlineTrail prev b next).map (·.text) := by
      intro b
      unfold inlineTrail
      split
      · rfl
      · split <;> rfl
    rw [finished_inline hb hnext, finished_inline rfl hnext]
    simp only [shape, hagain]
  · rw [finished_broken hb, finished_broken (by simpa using hb)]
    simp [shape]

/-- The line breaks that the layout leaves before code that starts a line. -/
def settledBreaks (o : Options) (g : Gap) : List Token := (g.broken o).breaks.map (·.withText o.newline)

theorem Proper.settledBreaks (hg : g.Proper) : ∀ n ∈ g.settledBreaks o, n.isNewline = true := by
  intro n hn
  obtain ⟨m, hmem, rfl⟩ := List.mem_map.1 hn
  exact hg.broken.breaks m hmem

theorem settledBreaks_ne_nil (o : Options) (g : Gap) : g.settledBreaks o ≠ [] := by
  simpa [settledBreaks] using broken_breaks g

end Gap

/-! ## Marks -/

namespace Mark

variable [Text.Measure]

theorem push_blank {b : Token} (hb : b.isWhitespace = true) (n : Nat) :
    (seeking n).push b = .seeking (n + Text.Measure.width b.text) := by
  simp [push, isNewline_of_isWhitespace hb, isCode_of_isWhitespace hb]

/-- A gap moves the place where the name of a field is sought, and a line break ends the search. -/
theorem foldl_gap {g : Gap} (hg : g.Proper) (n : Nat) : g.tokens.foldl push (.seeking n) =
    if g.breaks = [] then .seeking (n + ((g.trail.map (·.text)).map Text.Measure.width).getD 0) else .fixed 0 := by
  have htrail : g.trail.toList.foldl push (.seeking n) =
      .seeking (n + ((g.trail.map (·.text)).map Text.Measure.width).getD 0) := by
    cases hb : g.trail with
    | none => rfl
    | some b => exact push_blank (isWhitespace_of_kind (hg.trail b hb)) n
  rw [Gap.tokens, List.foldl_append, List.foldl_append, htrail]
  cases hb : g.breaks with
  | nil => simp [hg.inline hb]
  | cons b bs =>
    have hn : b.isNewline = true := hg.breaks b (by rw [hb]; exact List.mem_cons_self)
    cases g.lead <;> simp [push, hn]

theorem foldl_alike {g h : Gap} (hg : g.Proper) (hh : h.Proper) (ha : g.Alike h) (m : Mark) :
    g.tokens.foldl push m = h.tokens.foldl push m := by
  cases m with
  | none => simp
  | fixed n => simp
  | seeking n =>
    rw [foldl_gap hg, foldl_gap hh]
    by_cases hb : g.breaks = []
    · rw [if_pos hb, if_pos (ha.breaks_nil.1 hb), ha.trail hb]
    · rw [if_neg hb, if_neg (mt ha.breaks_nil.2 hb)]

theorem push_congr {t t' : Token} (h : t.key = t'.key) (m : Mark) : m.push t = m.push t' := by
  obtain ⟨k, x, p⟩ := t
  obtain ⟨k', x', p'⟩ := t'
  obtain ⟨rfl, rfl⟩ := Prod.mk.inj h
  rfl

end Mark

/-- Cells that the layout does not tell apart. The blank that indents a line counts only before a comment. -/
structure Cell.Alike (c c' : Cell) : Prop where
  key : c.token.key = c'.token.key
  breaks : c.gap.breaks.length = c'.gap.breaks.length
  trail : c.gap.breaks = [] → c.gap.trail.map (·.text) = c'.gap.trail.map (·.text)
  lead : c.token.kind = .comment → c.gap.lead.map (·.text) = c'.gap.lead.map (·.text)

/-- Documents whose cells are alike one by one. -/
def CellsAlike : List Cell → List Cell → Prop
  | [], [] => True
  | c :: cs, c' :: cs' => c.Alike c' ∧ CellsAlike cs cs'
  | _, _ => False

/-- What of a laid out cell is written: the shape of its gap, and its token. -/
def Cell.shape (c : Cell) : (Option String × Nat × Option String) × (Kind × String) := (c.gap.shape, c.token.key)

/-- The only token that is neither code nor space nor the end mark is a comment. -/
theorem kind_of_not_isCode {t : Token} (hc : t.isCode = false) (hs : t.isSpace = false) (he : t.kind ≠ .eof) :
    t.kind = .comment := by
  cases hk : t.kind <;> simp_all [Token.isCode, Token.isSpace, Kind.isCode, Kind.isSpace]

namespace Walk

variable {o : Options} {w w' : Walk}

theorem Ready.lastKind (hw : w.Ready) : w.out.lastKind = w.out.sight.lineLast := by
  cases hout : w.out with
  | nil => rfl
  | cons t out =>
    have ht := hw.last t (by simp [hout])
    rw [isSpace_eq, Bool.or_eq_false_iff] at ht
    simp [Before.lastKind, Before.sight, Before.onLine, Before.seek, ht]

variable [Text.Measure]

/-- The layout leaves nothing before the first token. -/
theorem settle_fresh {c : Cell} (hw : w.Ready) (hf : w.Fits c) (hnil : w.out = []) : w.settle o c = .empty := by
  rw [settle, gapOut_fresh hw hf hnil, hnil]
  exact Gap.finished_empty o _

theorem settle_proper {c : Cell} (hf : w.Fits c) : (w.settle o c).Proper :=
  Gap.finished_proper (gapOut_proper hf.gap _).1 _ _

/-- The layout leaves no blank before a line break. -/
theorem settle_tidy (o : Options) (w : Walk) (c : Cell) (h : (w.settle o c).breaks ≠ []) :
    (w.settle o c).trail = none := by
  rw [settle, Gap.finished_breaks, ne_eq, List.map_eq_nil_iff] at h
  rw [settle, Gap.finished_broken h]

/-- What the layout leaves before code that starts a line: its line breaks, and its indentation. -/
theorem settle_code {c : Cell} (ht : c.token.isCode = true) (hb : w.breaksAt c.gap c.token = true) :
    w.settle o c = { breaks := c.gap.settledBreaks o,
                     lead := (w.entry o c.gap c.token).1.indentation o (w.entry o c.gap c.token).2.dedent } := by
  have hgap : w.gapOut o c.gap c.token = { c.gap.broken o with
      lead := (w.entry o c.gap c.token).1.indentation o (w.entry o c.gap c.token).2.dedent } := by
    simp [gapOut, clause_of_breaksAt hb, ht, hb]
  have hne : (w.gapOut o c.gap c.token).breaks ≠ [] := by
    rw [hgap]
    exact Gap.broken_breaks _
  rw [settle, Gap.finished_broken hne, hgap]
  rfl

/-! ## Gaps that are alike -/

section TwoWalks

variable {c c' : Cell}

theorem breaksAt_congr (hs : w.scene = w'.scene) (hk : c.token.key = c'.token.key)
    (hb : c.gap.breaks = [] ↔ c'.gap.breaks = []) :
    w.breaksAt c.gap c.token = w'.breaksAt c'.gap c'.token := by
  obtain ⟨-, hclause, -, hsight⟩ := scene_eq_iff.1 hs
  have hkind : c.token.kind = c'.token.kind := congrArg Prod.fst hk
  have hempty : c.gap.breaks.isEmpty = c'.gap.breaks.isEmpty := by
    rw [Bool.eq_iff_iff, List.isEmpty_iff, List.isEmpty_iff, hb]
  simp only [breaksAt, breaksBefore, Before.isLineStart_eq, Before.followsIn_eq, Token.isCode, hclause, hsight, hkind,
    hempty]

/-- Entering a token keeps the mark, unless it closes all blocks. -/
theorem mark_entry (w : Walk) (g : Gap) (t : Token) :
    (w.entry o g t).1.mark = if w.entryClears g t then .none else w.mark := by
  simp only [mark, entry_field, (entry_frame w g t).1]
  split <;> rfl

/-- The indentation of a line depends on the scene. -/
theorem entry_indentation_congr (hs : w.scene = w'.scene) (hk : c.token.key = c'.token.key)
    (hb : w.breaksAt c.gap c.token = w'.breaksAt c'.gap c'.token) :
    (w.entry o c.gap c.token).1.indentation o (w.entry o c.gap c.token).2.dedent =
      (w'.entry o c'.gap c'.token).1.indentation o (w'.entry o c'.gap c'.token).2.dedent := by
  obtain ⟨-, -, hmark, -⟩ := scene_eq_iff.1 hs
  obtain ⟨hstack, heffect, hclears⟩ := entry_congr (o := o) hs hb hk
  rw [heffect]
  exact indentation_congr hstack (by rw [mark_entry, mark_entry, hclears, hmark]) _

/-- The walk writes gaps that are alike before cells that are. -/
theorem gapOut_alike (hs : w.scene = w'.scene) (ha : c.Alike c') (hf : w.Fits c) (hf' : w'.Fits c')
    (he : c.token.kind ≠ .eof) :
    (w.gapOut o c.gap c.token).Alike (w'.gapOut o c'.gap c'.token) := by
  have hnil : c.gap.breaks = [] ↔ c'.gap.breaks = [] := by
    rw [← List.length_eq_zero_iff, ← List.length_eq_zero_iff, ha.breaks]
  have hb := breaksAt_congr hs ha.key hnil
  have hcode : c.token.isCode = c'.token.isCode := by
    rw [Token.isCode, Token.isCode, show c.token.kind = c'.token.kind from congrArg Prod.fst ha.key]
  have hinline : c.gap.breaks = [] → c.gap.Alike c'.gap := fun h =>
    ⟨ha.breaks, ha.trail, by rw [hf.gap.inline h, hf'.gap.inline (hnil.1 h)]⟩
  obtain ⟨-, hclause, -, -⟩ := scene_eq_iff.1 hs
  cases hc : w.clause with
  | some base =>
    have hc' : w'.clause = some base := hclause ▸ hc
    by_cases h : c.gap.breaks = []
    · simpa [gapOut, hc, hc', h, hnil.1 h] using hinline h
    · simpa [gapOut, hc, hc', h, mt hnil.2 h] using Gap.alike_of_shape rfl
  | none =>
    have hc' : w'.clause = none := hclause ▸ hc
    by_cases hbreak : (c.token.isCode && w.breaksAt c.gap c.token) = true
    · have hindent := entry_indentation_congr (o := o) hs ha.key hb
      have hlen : (c.gap.broken o).breaks.length = (c'.gap.broken o).breaks.length := by
        by_cases h : c.gap.breaks = []
        · simp [Gap.broken, h, hnil.1 h]
        · simp [Gap.broken, h, mt hnil.2 h, ha.breaks]
      have hbreak' : (c'.token.isCode && w'.breaksAt c'.gap c'.token) = true := by rw [← hcode, ← hb, hbreak]
      simp only [gapOut, hc, hc', hbreak, hbreak', Option.isSome_none, Bool.false_eq_true, if_false, if_true]
      exact ⟨hlen, fun h => absurd h (Gap.broken_breaks _), by rw [hindent]⟩
    · have hbreak' : ¬(c'.token.isCode && w'.breaksAt c'.gap c'.token) = true := by rwa [← hcode, ← hb]
      simp only [gapOut, hc, hc', hbreak, hbreak', Option.isSome_none, Bool.false_eq_true, if_false]
      by_cases h : c.gap.breaks = []
      · exact hinline h
      · -- only a comment keeps the blank before it
        refine ⟨ha.breaks, fun h' => absurd h' h, ha.lead ?_⟩
        have hline : w.breaksAt c.gap c.token = true := by simp [breaksAt, hc, h]
        have hnot : c.token.isCode = false := by simpa [hline] using hbreak
        exact kind_of_not_isCode hnot hf.token he

/-- Two walks with the same scene leave the same before cells that are alike, and keep the same scene. -/
theorem step_alike (hw : w.Ready) (hw' : w'.Ready) (hs : w.scene = w'.scene) (ha : c.Alike c') (hf : w.Fits c)
    (hf' : w'.Fits c') (he : c.token.kind ≠ .eof) :
    (w.settle o c).shape = (w'.settle o c').shape ∧ (w.visit o c).scene = (w'.visit o c').scene := by
  obtain ⟨-, -, hmark, hsight⟩ := scene_eq_iff.1 hs
  have hgap := gapOut_alike (o := o) hs ha hf hf' he
  have hkind : c.token.kind = c'.token.kind := congrArg Prod.fst ha.key
  have hlast : w.out.lastKind = w'.out.lastKind := by rw [hw.lastKind, hw'.lastKind, hsight]
  have hb : w.breaksAt c.gap c.token = w'.breaksAt c'.gap c'.token :=
    breaksAt_congr hs ha.key (by rw [← List.length_eq_zero_iff, ← List.length_eq_zero_iff, ha.breaks])
  constructor
  · rw [settle, settle, ← hkind, ← hlast]
    exact hgap.finished he
  · refine scene_visit_congr hs hb ha.key hw hw' hf hf' ?_
    rw [List.foldl_append, List.foldl_append, hmark,
      Mark.foldl_alike (gapOut_proper hf.gap _).1 (gapOut_proper hf'.gap _).1 hgap]
    exact Mark.push_congr ha.key _

/-! ## Gaps that were left before -/

/-- While the name of a field is sought, the keyword or a comment comes last. -/
def Marked (w : Walk) : Prop :=
  ∀ n, w.mark = .seeking n → w.out.lastKind = some .kwField ∨ w.out.lastKind = some .comment

theorem Marked.visit (hw : w.Ready) (hf : w.Fits c) (he : c.token.kind ≠ .eof) : (w.visit o c).Marked := by
  intro n hn
  rw [lastKind_visit hw hf]
  rw [mark_visit hw hf, markAfter] at hn
  split at hn
  · next h =>
    have hk : c.token.kind = .kwField := by simp_all
    exact .inl (by rw [hk])
  · split at hn
    · cases hn
    · -- code behind the keyword ends the search
      rw [List.foldl_append, List.foldl_cons, List.foldl_nil] at hn
      have hcode : c.token.isCode = false := by
        rw [Bool.eq_false_iff]
        intro hc
        cases hm : (w.gapOut o c.gap c.token).tokens.foldl Mark.push w.mark with
        | seeking m => rw [hm] at hn; simp [Mark.push, hc, isNewline_of_isCode hc] at hn
        | _ => rw [hm] at hn; cases hn
      exact .inr (by rw [kind_of_not_isCode hcode hf.token he])

/-- The rules behind the walk do not move the name of a field. -/
theorem foldl_push_settle (hm : w.Marked) (hf : w.Fits c) (he : c.token.kind ≠ .eof) :
    ((w.gapOut o c.gap c.token).tokens ++ [c.token]).foldl Mark.push w.mark =
      ((w.settle o c).tokens ++ [c.token]).foldl Mark.push w.mark := by
  have hproper := (gapOut_proper (o := o) (w := w) hf.gap c.token).1
  have hsettled := settle_proper (o := o) hf
  rw [List.foldl_append, List.foldl_append, List.foldl_cons, List.foldl_nil, List.foldl_cons, List.foldl_nil]
  cases hmark : w.mark with
  | none => simp
  | fixed n => simp
  | seeking n =>
    have hbreaks : (w.settle o c).breaks = [] ↔ (w.gapOut o c.gap c.token).breaks = [] := by
      rw [settle, Gap.finished_breaks, List.map_eq_nil_iff]
    rw [Mark.foldl_gap hproper, Mark.foldl_gap hsettled]
    by_cases hb : (w.gapOut o c.gap c.token).breaks = []
    · rw [if_pos hb, if_pos (hbreaks.2 hb), settle, Gap.finished_inline hb he]
      by_cases hpunct : Spacing.hugsPrevious c.token.kind = true ∨ Spacing.isOperator c.token.kind = true
      · -- neither punctuation nor an operator names a field
        have hkind : c.token.isCode = true ∧ c.token.kind.namesField = false := by
          cases hk : c.token.kind <;>
            simp_all [Token.isCode, Kind.isCode, Kind.namesField, Spacing.hugsPrevious, Spacing.isOperator]
        simp [Mark.push, isNewline_of_isCode hkind.1, hkind]
      · have htrail : Gap.inlineTrail w.out.lastKind (w.gapOut o c.gap c.token).trail c.token.kind =
            (w.gapOut o c.gap c.token).trail := by
          rcases hm n hmark with hlast | hlast <;>
            simp_all [Gap.inlineTrail, Spacing.hugsNext, Spacing.isOperator]
        rw [htrail]
    · rw [if_neg hb, if_neg (mt hbreaks.1 hb)]

theorem breaksAt_again (hs : w.scene = w'.scene) (hk : c.token.key = c'.token.key) (hf : w.Fits c)
    (hgap : c'.gap.shape = (w.settle o c).shape) :
    (c'.gap.breaks = [] ↔ ¬w.breaksAt c.gap c.token = true) ∧
      w.breaksAt c.gap c.token = w'.breaksAt c'.gap c'.token := by
  obtain ⟨-, hclause, -, hsight⟩ := scene_eq_iff.1 hs
  have hkind : c.token.kind = c'.token.kind := congrArg Prod.fst hk
  have hnil : c'.gap.breaks = [] ↔ ¬w.breaksAt c.gap c.token = true := by
    rw [← (gapOut_proper (o := o) hf.gap c.token).2, (Gap.alike_of_shape hgap).breaks_nil, settle, Gap.finished_breaks,
      List.map_eq_nil_iff]
  have hcond : (c'.token.isCode && !w'.out.isLineStart && w'.breaksBefore c'.token.kind) =
      (c.token.isCode && !w.out.isLineStart && w.breaksBefore c.token.kind) := by
    simp only [breaksBefore, Before.isLineStart_eq, Before.followsIn_eq, Token.isCode, hsight, hkind]
  refine ⟨hnil, ?_⟩
  by_cases hb : w.breaksAt c.gap c.token = true
  · have hne : c'.gap.breaks ≠ [] := fun h => hnil.1 h hb
    have hnone : w'.clause.isNone = true := by
      rw [← hclause]
      simp only [breaksAt, Bool.and_eq_true] at hb
      exact hb.1
    rw [hb, breaksAt, hnone]
    simp [hne]
  · have hempty : c'.gap.breaks = [] := hnil.2 hb
    rw [Bool.eq_false_iff.2 hb, breaksAt, hempty, hcond, ← hclause]
    simp only [breaksAt, Bool.not_eq_true] at hb
    cases hnone : w.clause.isNone with
    | false => rfl
    | true =>
      rw [hnone, Bool.true_and, Bool.or_eq_false_iff] at hb
      simpa using hb.2.symm

/-- The walk writes a gap that was left before as it is. -/
theorem gapOut_again (hs : w.scene = w'.scene) (hk : c.token.key = c'.token.key) (hf : w.Fits c)
    (hgap : c'.gap.shape = (w.settle o c).shape) :
    (w'.gapOut o c'.gap c'.token).shape = (w.settle o c).shape := by
  obtain ⟨hnil, hb⟩ := breaksAt_again hs hk hf hgap
  obtain ⟨-, hclause, -, -⟩ := scene_eq_iff.1 hs
  have hcode : c.token.isCode = c'.token.isCode := by
    rw [Token.isCode, Token.isCode, show c.token.kind = c'.token.kind from congrArg Prod.fst hk]
  cases hc : w.clause with
  | some base =>
    have hempty : c'.gap.breaks = [] := hnil.2 (by simp [breaksAt, hc])
    simpa [gapOut, ← hclause, hc, hempty] using hgap
  | none =>
    by_cases hbreak : (c'.token.isCode && w'.breaksAt c'.gap c'.token) = true
    · have hline : w.breaksAt c.gap c.token = true := by
        rw [hb]
        exact (Bool.and_eq_true _ _ ▸ hbreak).2
      have hne : c'.gap.breaks ≠ [] := fun h => hnil.1 h hline
      have hindent := entry_indentation_congr (o := o) hs hk hb
      have hsettle : (w.settle o c).lead =
          (w.entry o c.gap c.token).1.indentation o (w.entry o c.gap c.token).2.dedent := by
        rw [settle_code (hcode.trans (Bool.and_eq_true _ _ ▸ hbreak).1) hline]
      have hlead : c'.gap.lead.map (·.text) = (w.settle o c).lead.map (·.text) := (Gap.alike_of_shape hgap).lead
      rw [← hgap]
      simp only [gapOut, ← hclause, hc, hbreak, Option.isSome_none, Bool.false_eq_true, if_false, if_true, Gap.broken,
        if_neg hne, Gap.shape, hlead, hsettle, hindent]
    · simpa [gapOut, ← hclause, hc, hbreak] using hgap

/-- Two walks with the same scene leave a gap that one of them has left as it is, and keep the same scene. -/
theorem step_again (hw : w.Ready) (hw' : w'.Ready) (hm : w.Marked) (hs : w.scene = w'.scene)
    (hk : c.token.key = c'.token.key) (hf : w.Fits c) (hf' : w'.Fits c') (he : c.token.kind ≠ .eof)
    (hgap : c'.gap.shape = (w.settle o c).shape) :
    (w'.settle o c').shape = (w.settle o c).shape ∧ (w.visit o c).scene = (w'.visit o c').scene := by
  obtain ⟨-, -, hmark, hsight⟩ := scene_eq_iff.1 hs
  have hkind : c.token.kind = c'.token.kind := congrArg Prod.fst hk
  have hlast : w.out.lastKind = w'.out.lastKind := by rw [hw.lastKind, hw'.lastKind, hsight]
  have hout := gapOut_again hs hk hf hgap
  constructor
  · rw [settle, ← hkind, ← hlast, (Gap.alike_of_shape hout).finished he]
    exact Gap.finished_finished he
  · refine scene_visit_congr hs (breaksAt_again hs hk hf hgap).2 hk hw hw' hf hf' ?_
    rw [foldl_push_settle hm hf he, List.foldl_append, List.foldl_append, ← hmark,
      Mark.foldl_alike (gapOut_proper hf'.gap _).1 (settle_proper hf) (Gap.alike_of_shape hout)]
    exact Mark.push_congr hk _

end TwoWalks

/-! ## Whole documents -/

theorem marked_start : Marked {} := fun n hn => by cases hn

/-- **The layout does not tell apart** documents with the same tokens and gaps that are alike. -/
theorem laid_alike {cs cs' : List Cell} (hs : w.scene = w'.scene) (h : w.Meets cs) (h' : w'.Meets cs')
    (ha : CellsAlike cs cs') (he : ∀ c ∈ cs, c.token.kind ≠ .eof) :
    (w.laid o cs).map Cell.shape = (w'.laid o cs').map Cell.shape := by
  induction cs generalizing w w' cs' with
  | nil =>
    cases cs' with
    | nil => rfl
    | cons c' cs' => cases ha
  | cons c cs ih =>
    cases cs' with
    | nil => cases ha
    | cons c' cs' =>
      obtain ⟨hgap, hscene⟩ := step_alike (o := o) h.ready h'.ready hs ha.1 h.fits h'.fits (he c List.mem_cons_self)
      have htail := ih hscene h.visit h'.visit ha.2 fun d hd => he d (List.mem_cons_of_mem _ hd)
      simp only [laid, List.map_cons, htail, Cell.shape, hgap, ha.1.key]

/-- **The layout leaves its own result as it is.** -/
theorem laid_again {cs cs' : List Cell} (hm : w.Marked) (hs : w.scene = w'.scene) (h : w.Meets cs) (h' : w'.Meets cs')
    (he : ∀ c ∈ cs, c.token.kind ≠ .eof) (hl : cs'.map Cell.shape = (w.laid o cs).map Cell.shape) :
    (w'.laid o cs').map Cell.shape = (w.laid o cs).map Cell.shape := by
  induction cs generalizing w w' cs' with
  | nil =>
    obtain rfl : cs' = [] := by simpa [laid] using hl
    rfl
  | cons c cs ih =>
    cases cs' with
    | nil => simp [laid] at hl
    | cons c' cs' =>
      simp only [laid, List.map_cons, List.cons.injEq, Cell.shape, Prod.mk.injEq] at hl
      obtain ⟨⟨hgap, hkey⟩, htail⟩ := hl
      have hne := he c List.mem_cons_self
      obtain ⟨hsettle, hscene⟩ := step_again h.ready h'.ready hm hs hkey.symm h.fits h'.fits hne hgap
      have hrest := ih (Marked.visit h.ready h.fits hne) hscene h.visit h'.visit
        (fun d hd => he d (List.mem_cons_of_mem _ hd)) htail
      simp only [laid, List.map_cons, hrest, Cell.shape, hsettle, hkey]

end Walk

end ScillaLayout
