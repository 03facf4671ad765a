import ScillaLayout.Proofs.Formatting.Blanks
import ScillaLayout.Proofs.Formatting.Tidiness

/-!
# What the options change

Two layouts of one source, with different options, run in lock step: the walks keep the same scene, so lines are broken
at the same places and blanks on a line are the same (`Walk.scene_visit_options`, `Walk.scene_visit_step`). What is left
to the options is the text of line breaks, the text of a unit, and one unit before alternatives (`Corresponds`,
`layouts_correspond`).
-/

namespace ScillaLayout

/-! ## Corresponding token lists -/

/-- The indentation in front of a line: `padding` spaces and `units` units, and nothing where there are neither. -/
def indentBy (o : Options) (padding units : Nat) : List Token :=
  if padding = 0 ∧ units = 0 then [] else [.synthetic .indent (Walk.indentText o padding units)]

/-- The units of one line under two options: an alternative stands one unit further left where alternatives are not
indented, and nothing else depends on the options. -/
def SameUnits (o o' : Options) (first : Option Kind) (units units' : Nat) : Prop :=
  if first = some .bar ∧ o.indentAlternatives ≠ o'.indentAlternatives then
    if o.indentAlternatives then units' = units - 1 else units = units' - 1
  else units = units'

/-- Token lists that are the same up to what the options say: the text of line breaks, and the units before a line. -/
inductive Corresponds (o o' : Options) : List Token → List Token → Prop
  | nil : Corresponds o o' [] []
  | token {t : Token} {ts ts' : List Token} (hnewline : t.isNewline = false) (hindent : t.kind ≠ .indent)
      (h : Corresponds o o' ts ts') :
    Corresponds o o' (t :: ts) (t :: ts')
  | line {n : Token} {ts ts' : List Token} {units units' : Nat} (padding : Nat) (hn : n.isNewline = true)
      (h : Corresponds o o' ts ts') (hunits : SameUnits o o' (ts.head?.map (·.kind)) units units') :
    Corresponds o o' (n.withText o.newline :: (indentBy o padding units ++ ts))
      (n.withText o'.newline :: (indentBy o' padding units' ++ ts'))

variable {o o' : Options}

theorem SameUnits.zero (first : Option Kind) : SameUnits o o' first 0 0 := by
  unfold SameUnits
  split
  · split <;> rfl
  · rfl

theorem SameUnits.of_ne_bar {k : Kind} (hk : k ≠ .bar) (units : Nat) : SameUnits o o' (some k) units units := by
  unfold SameUnits
  rw [if_neg fun h => hk (Option.some.inj h.1)]

/-- The units before an alternative. -/
theorem SameUnits.bar (units : Nat) :
    SameUnits o o' (some .bar) (units - if o.indentAlternatives then 0 else 1)
      (units - if o'.indentAlternatives then 0 else 1) := by
  cases h : o.indentAlternatives <;> cases h' : o'.indentAlternatives <;> simp [SameUnits, h, h']

namespace Corresponds

variable {ts ts' : List Token}

/-- A blank line or the end of a line before a line that is not indented. -/
theorem newline {n : Token} (hn : n.isNewline = true) (h : Corresponds o o' ts ts') :
    Corresponds o o' (n.withText o.newline :: ts) (n.withText o'.newline :: ts') :=
  line 0 hn h (.zero _)

/-- Line breaks, and the indentation of the line behind them. -/
theorem breaks {ns : List Token} (hns : ∀ n ∈ ns, n.isNewline = true) (hne : ns ≠ []) (padding : Nat)
    {units units' : Nat} (hunits : SameUnits o o' (ts.head?.map (·.kind)) units units') (h : Corresponds o o' ts ts') :
    Corresponds o o' (ns.map (·.withText o.newline) ++ (indentBy o padding units ++ ts))
      (ns.map (·.withText o'.newline) ++ (indentBy o' padding units' ++ ts')) := by
  induction ns with
  | nil => exact absurd rfl hne
  | cons n ns ih =>
    have hn : n.isNewline = true := hns n List.mem_cons_self
    by_cases hnil : ns = []
    · subst hnil
      exact line padding hn h hunits
    · exact newline hn (ih (fun m hm => hns m (List.mem_cons_of_mem _ hm)) hnil)

/-- A blank that does not indent a line of code. -/
theorem blank {b : Option Token} (hb : ∀ x ∈ b, x.kind = .whitespace) (h : Corresponds o o' ts ts') :
    Corresponds o o' (b.toList ++ ts) (b.toList ++ ts') := by
  cases b with
  | none => exact h
  | some b =>
    have hk : b.kind = .whitespace := hb b rfl
    exact token (isNewline_of_isWhitespace (isWhitespace_of_kind hk)) (by simp [hk]) h

/-- A token that is no space. -/
theorem solid {t : Token} (ht : t.isSpace = false) (h : Corresponds o o' ts ts') :
    Corresponds o o' (t :: ts) (t :: ts') := by
  rw [isSpace_eq, Bool.or_eq_false_iff] at ht
  refine token ht.2 (fun hk => ?_) h
  rw [isWhitespace_of_indent hk] at ht
  cases ht.1

end Corresponds

/-! ## Two walks in lock step -/

namespace Walk

variable {w w' : Walk} {c : Cell}

theorem enter_of_ne_bar {k : Kind} (hk : k ≠ .bar) : w.enter o k = w.enter o' k := by
  cases k with
  | bar => exact absurd rfl hk
  | _ => rfl

/-- What a token does to the blocks does not depend on the options. -/
theorem enter_options (k : Kind) : (w.enter o k).1 = (w.enter o' k).1 ∧
    (w.enter o k).2.opens = (w.enter o' k).2.opens ∧
    (w.enter o k).2.opensClause = (w.enter o' k).2.opensClause := by
  by_cases hk : k = .bar
  · subst hk
    exact ⟨rfl, rfl, rfl⟩
  · have henter : w.enter o k = w.enter o' k := enter_of_ne_bar hk
    rw [henter]
    exact ⟨rfl, rfl, rfl⟩

/-- The options decide only how far an alternative stands to the left. -/
theorem sameUnits_entry (w : Walk) (g : Gap) (t : Token) (units : Nat) :
    SameUnits o o' (some t.kind) (units - (w.entry o g t).2.dedent) (units - (w.entry o' g t).2.dedent) := by
  by_cases hk : t.kind = .bar
  · have hdedent : ∀ p : Options, (w.entry p g t).2.dedent = if p.indentAlternatives then 0 else 1 := fun p => by
      rw [entry, hk]
      rfl
    rw [hdedent, hdedent, hk]
    exact .bar units
  · have hentry : w.entry o g t = w.entry o' g t := enter_of_ne_bar hk
    rw [hentry]
    exact .of_ne_bar hk _

/-- Where no line is broken, the walk leaves the same under all options. -/
theorem gapOut_options {g : Gap} {t : Token} (hb : ¬w.breaksAt g t = true) : w.gapOut o g t = w.gapOut o' g t := by
  simp [gapOut, hb]

/-- Gaps move the mark of a field alike: on a line they are the same, and a line break ends the search for its name. -/
theorem foldl_gapOut_options (hf : w.Fits c) (m : Mark) :
    (w.gapOut o c.gap c.token).tokens.foldl Mark.push m = (w.gapOut o' c.gap c.token).tokens.foldl Mark.push m := by
  by_cases hb : w.breaksAt c.gap c.token = true
  · obtain ⟨hg, hbreaks⟩ := gapOut_proper (o := o) (w := w) hf.gap c.token
    obtain ⟨hg', hbreaks'⟩ := gapOut_proper (o := o') (w := w) hf.gap c.token
    cases m with
    | none => simp
    | fixed n => simp
    | seeking n =>
      rw [Mark.foldl_gap hg, Mark.foldl_gap hg', if_neg fun h => hbreaks.1 h hb, if_neg fun h => hbreaks'.1 h hb]
  · rw [gapOut_options hb]

/-- **One walk under two options** has the same scene behind a cell. -/
theorem scene_visit_options (hw : w.Ready) (hf : w.Fits c) : (w.visit o c).scene = (w.visit o' c).scene := by
  obtain ⟨hentry, hopens, hclause⟩ : (w.entry o c.gap c.token).1 = (w.entry o' c.gap c.token).1 ∧
      (w.entry o c.gap c.token).2.opens = (w.entry o' c.gap c.token).2.opens ∧
      (w.entry o c.gap c.token).2.opensClause = (w.entry o' c.gap c.token).2.opensClause := enter_options _
  refine scene_eq_iff.2 ⟨?_, ?_, ?_, ?_⟩
  · by_cases ht : c.token.isCode = true
    · cases hc : w.clause with
      | none =>
        rw [(visit_code hf.gap hw hc hf.fresh ht).2.1, (visit_code hf.gap hw hc hf.fresh ht).2.1, hentry, hopens]
      | some base => rw [(visit_inline hf.gap hw hc ht).2.1, (visit_inline hf.gap hw hc ht).2.1]
    · have ht : c.token.isCode = false := by simpa using ht
      rw [(visit_trivia hf.gap hw ht hf.token).2.1, (visit_trivia hf.gap hw ht hf.token).2.1]
  · by_cases ht : c.token.isCode = true
    · cases hc : w.clause with
      | none =>
        rw [(visit_code hf.gap hw hc hf.fresh ht).2.2.1, (visit_code hf.gap hw hc hf.fresh ht).2.2.1, hentry, hclause]
      | some base => rw [(visit_inline hf.gap hw hc ht).2.2.1, (visit_inline hf.gap hw hc ht).2.2.1]
    · have ht : c.token.isCode = false := by simpa using ht
      rw [(visit_trivia hf.gap hw ht hf.token).2.2.1, (visit_trivia hf.gap hw ht hf.token).2.2.1]
  · have hmark : (w.gapOut o c.gap c.token).tokens.foldl Mark.push w.mark =
        (w.gapOut o' c.gap c.token).tokens.foldl Mark.push w.mark := foldl_gapOut_options hf w.mark
    rw [mark_visit hw hf, mark_visit hw hf]
    simp only [markAfter, List.foldl_append, hmark]
  · rw [visit_out hw hf, visit_out hw hf, Before.sight_cons, Before.sight_cons, gapOut_sight hf.gap,
      gapOut_sight hf.gap]

/-- **Two walks under two options** keep the same scene. -/
theorem scene_visit_step (hw : w.Ready) (hw' : w'.Ready) (hs : w.scene = w'.scene) (hf : w.Fits c) (hf' : w'.Fits c)
    (he : c.token.kind ≠ .eof) : (w.visit o c).scene = (w'.visit o' c).scene := by
  have hsame : c.Alike c := ⟨rfl, rfl, fun _ => rfl, fun _ => rfl⟩
  exact (step_alike hw hw' hs hsame hf hf' he).2.trans (scene_visit_options hw' hf')

/-- What the layout leaves before a token depends on the scene. -/
theorem settle_congr (hw : w.Ready) (hw' : w'.Ready) (hs : w.scene = w'.scene) : w.settle o c = w'.settle o c := by
  obtain ⟨-, hclause, -, hsight⟩ := scene_eq_iff.1 hs
  have hb : w.breaksAt c.gap c.token = w'.breaksAt c.gap c.token := breaksAt_congr hs rfl Iff.rfl
  have hlast : w.out.lastKind = w'.out.lastKind := by rw [hw.lastKind, hw'.lastKind, hsight]
  simp only [settle, gapOut, hclause, hb, hlast, entry_indentation_congr (o := o) hs rfl hb]

end Walk

/-- Line breaks are put in at the same places under all options. -/
theorem Gap.settledBreaks_eq (o o' : Options) (g : Gap) :
    g.settledBreaks o' = (g.broken o).breaks.map (·.withText o'.newline) := by
  unfold settledBreaks broken
  split <;> rfl

theorem Walk.isEmpty_indentText (ho : o.indentUnit ≠ "") (padding units : Nat) :
    (indentText o padding units).isEmpty = true ↔ padding = 0 ∧ units = 0 := by
  have hunit : o.indentUnit.toList ≠ [] := mt String.toList_eq_nil_iff.1 ho
  rw [String.isEmpty_iff, ← String.toList_eq_nil_iff, indentText, String.toList_append, toList_pushn,
    String.toList_join, List.append_eq_nil_iff, List.flatMap_eq_nil_iff]
  constructor
  · rintro ⟨hpadding, hunits⟩
    refine ⟨by simpa using hpadding, ?_⟩
    cases units with
    | zero => rfl
    | succ n => exact absurd (hunits o.indentUnit (by simp [List.replicate_succ])) hunit
  · rintro ⟨rfl, rfl⟩
    exact ⟨rfl, fun x hx => by cases hx⟩

theorem Walk.toList_indentation (ho : o.indentUnit ≠ "") (w : Walk) (dedent : Nat) :
    (w.indentation o dedent).toList = indentBy o w.padding (w.stack.units - dedent) := by
  simp only [indentation, indentBy, isEmpty_indentText ho]
  split <;> rfl

namespace Walk

variable {w : Walk} {c : Cell} {ts ts' : List Token}

/-- The gap before a token on the same line. -/
theorem corresponds_inline (hf : w.Fits c) (he : c.token.kind ≠ .eof) (hb : ¬w.breaksAt c.gap c.token = true)
    (h : Corresponds o o' ts ts') :
    Corresponds o o' ((w.settle o c).tokens ++ ts) ((w.settle o' c).tokens ++ ts') := by
  have hnil : ∀ p : Options, (w.gapOut p c.gap c.token).breaks = [] := fun p => (gapOut_proper hf.gap c.token).2.2 hb
  have hsame : w.settle o c = w.settle o' c := by
    rw [settle, settle, Gap.finished_inline (hnil o) he, Gap.finished_inline (hnil o') he, gapOut_options hb]
  have hproper : (w.settle o' c).Proper := settle_proper hf
  have hbreaks : (w.settle o' c).breaks = [] := by rw [settle, Gap.finished_breaks, hnil, List.map_nil]
  rw [hsame, Gap.tokens, hbreaks, hproper.inline hbreaks]
  simpa using h.blank hproper.trail

/-- The gap before code that starts a line. -/
theorem corresponds_code (ho : o.indentUnit ≠ "") (ho' : o'.indentUnit ≠ "") (hf : w.Fits c)
    (hb : w.breaksAt c.gap c.token = true) (ht : c.token.isCode = true)
    (h : Corresponds o o' (c.token :: ts) (c.token :: ts')) :
    Corresponds o o' ((w.settle o c).tokens ++ c.token :: ts) ((w.settle o' c).tokens ++ c.token :: ts') := by
  have hsettle : ∀ p : Options, p.indentUnit ≠ "" → (w.settle p c).tokens =
      (c.gap.broken o).breaks.map (·.withText p.newline) ++
        indentBy p (w.entry o c.gap c.token).1.padding
          ((w.entry o c.gap c.token).1.stack.units - (w.entry p c.gap c.token).2.dedent) := by
    intro p hp
    have hentry : (w.entry p c.gap c.token).1 = (w.entry o c.gap c.token).1 := (enter_options _).1
    rw [settle_code ht hb, hentry, ← toList_indentation hp, ← Gap.settledBreaks_eq]
    rfl
  rw [hsettle o ho, hsettle o' ho', List.append_assoc, List.append_assoc]
  exact h.breaks hf.gap.broken.breaks (Gap.broken_breaks _) _ (sameUnits_entry w _ _ _)

/-- The gap before a comment that starts a line. -/
theorem corresponds_comment (hf : w.Fits c) (hb : w.breaksAt c.gap c.token = true) (ht : c.token.isCode = false)
    (hlead : ∀ b ∈ c.gap.lead, b.kind = .indent → c.token.isCode = true) (h : Corresponds o o' ts ts') :
    Corresponds o o' ((w.settle o c).tokens ++ ts) ((w.settle o' c).tokens ++ ts') := by
  have hblank : ∀ b ∈ c.gap.lead, b.kind = .whitespace := fun b hmem =>
    kind_of_isWhitespace (hf.gap.lead b hmem) fun hk => by simpa [ht] using hlead b hmem hk
  have hgap : ∀ p : Options, w.gapOut p c.gap c.token = c.gap := fun p => by
    simp [gapOut, clause_of_breaksAt hb, ht]
  have hne : c.gap.breaks ≠ [] := fun hnil => by
    rw [← hgap o] at hnil
    exact (gapOut_proper hf.gap c.token).2.1 hnil hb
  rw [settle, settle, hgap, hgap, Gap.finished_broken hne, Gap.finished_broken hne]
  -- a comment is not indented
  have hnone : ∀ p : Options, indentBy p 0 0 = [] := fun _ => rfl
  simpa [Gap.tokens, hnone] using Corresponds.breaks hf.gap.breaks hne 0 (.zero _) (h.blank hblank)

/-- **One more cell** before corresponding lists. -/
theorem corresponds_settle (ho : o.indentUnit ≠ "") (ho' : o'.indentUnit ≠ "") (hf : w.Fits c)
    (he : c.token.kind ≠ .eof) (hlead : ∀ b ∈ c.gap.lead, b.kind = .indent → c.token.isCode = true)
    (h : Corresponds o o' ts ts') :
    Corresponds o o' ((w.settle o c).tokens ++ c.token :: ts) ((w.settle o' c).tokens ++ c.token :: ts') := by
  have hrest := h.solid hf.token
  by_cases hb : w.breaksAt c.gap c.token = true
  · cases ht : c.token.isCode with
    | true => exact corresponds_code ho ho' hf hb ht hrest
    | false => exact corresponds_comment hf hb ht hlead hrest
  · exact corresponds_inline hf he hb hrest

/-- **Documents laid out under two options** correspond. -/
theorem corresponds_laid (ho : o.indentUnit ≠ "") (ho' : o'.indentUnit ≠ "") {w' : Walk} {cs : List Cell}
    (hs : w.scene = w'.scene) (h : w.Meets cs) (h' : w'.Meets cs) (he : ∀ c ∈ cs, c.token.kind ≠ .eof)
    (hlead : ∀ c ∈ cs, ∀ b ∈ c.gap.lead, b.kind = .indent → c.token.isCode = true) :
    Corresponds o o' (cellTokens (w.laid o cs)) (cellTokens (w'.laid o' cs)) := by
  induction cs generalizing w w' with
  | nil => exact .nil
  | cons c cs ih =>
    have hne := he c List.mem_cons_self
    have hscene : (w.visit o c).scene = (w'.visit o' c).scene :=
      scene_visit_step h.ready h'.ready hs h.fits h'.fits hne
    have hrest := ih hscene h.visit h'.visit (fun d hd => he d (List.mem_cons_of_mem _ hd))
      fun d hd => hlead d (List.mem_cons_of_mem _ hd)
    rw [laid, laid, cellTokens_cons, cellTokens_cons, ← settle_congr h.ready h'.ready hs]
    exact corresponds_settle ho ho' h.fits hne (hlead c List.mem_cons_self) hrest

end Walk

/-! ## Sources -/

/-- **Options change only what they name.** Under two options the layouts of a source correspond, up to the line break
at the end of the document: they have the same tokens, with line breaks and indentation as the options say, and only
alternatives can stand at different units. The line length and what is reported change nothing. -/
theorem layouts_correspond {s : String} (hs : (lex s).fault = none) (ho : o.indentUnit ≠ "")
    (ho' : o'.indentUnit ≠ "") :
    (∃ body body' mark, Corresponds o o' body body' ∧ mark.kind = .eof ∧
      layout o (lex s).tokens = body ++ ((if body ≠ [] ∧ o.endWithNewline then [o.newlineToken] else []) ++ [mark]) ∧
      layout o' (lex s).tokens =
        body' ++ ((if body' ≠ [] ∧ o'.endWithNewline then [o'.newlineToken] else []) ++ [mark])) ∧
    ∀ length trace, layout { o with maxLineLength := length, trace } (lex s).tokens = layout o (lex s).tokens := by
  obtain ⟨is, last, h⟩ := exists_reads hs
  have hnil : ∀ p : Options, cellTokens (Walk.laid p {} (gather is)) ≠ [] ↔ gather is ≠ [] := by
    intro p
    cases hcells : gather is <;> simp [Walk.laid]
  have hmark : last.token.kind = .eof := congrArg Prod.fst h.mark
  refine ⟨⟨cellTokens (Walk.laid o {} (gather is)), cellTokens (Walk.laid o' {} (gather is)), last.token, ?_, hmark, ?_,
    ?_⟩, fun _ _ => rfl⟩
  · exact Walk.corresponds_laid ho ho' rfl h.meets h.meets h.kind_ne_eof
      (lead_gather fun i hi => h.proper i (List.mem_append_left _ hi))
  · simp only [hnil]
    exact h.layout_eq o
  · simp only [hnil]
    exact h.layout_eq o'

/-- Options that differ from the default ones in everything but the line length. -/
def tabbed : Options := { indentUnit := "\t", indentAlternatives := true, newline := "\r\n", endWithNewline := false }

/-- A field whose value has alternatives, on lines under its name and behind a comment. -/
def alternativesOfField : String := "field f : T =\n  (* c *)\nmatch x with | A => a\n\n\n| B => b end"

/-- The layouts of a field, with its alternatives at different units. -/
theorem layouts_correspond_field :
    Token.synthetic .indent "      " ∈ layout {} (lex alternativesOfField).tokens ∧
    Token.synthetic .indent "      \t" ∈ layout tabbed (lex alternativesOfField).tokens ∧
    (lex alternativesOfField).fault = none ∧ ({} : Options).indentUnit ≠ "" ∧ tabbed.indentUnit ≠ "" ∧
    (∃ body body' mark, Corresponds {} tabbed body body' ∧ mark.kind = .eof ∧
      layout {} (lex alternativesOfField).tokens =
        body ++ ((if body ≠ [] ∧ true then [.synthetic .newline "\n"] else []) ++ [mark]) ∧
      layout tabbed (lex alternativesOfField).tokens =
        body' ++ ((if body' ≠ [] ∧ false then [.synthetic .newline "\r\n"] else []) ++ [mark])) ∧
    ∀ length trace, layout { maxLineLength := length, trace } (lex alternativesOfField).tokens =
      layout {} (lex alternativesOfField).tokens := by
  have hfault : (lex alternativesOfField).fault = none := by decide +kernel
  have hunit : ({} : Options).indentUnit ≠ "" := by decide
  have htab : tabbed.indentUnit ≠ "" := by decide
  exact ⟨by decide +kernel, by decide +kernel, hfault, hunit, htab, layouts_correspond hfault hunit htab⟩

end ScillaLayout
