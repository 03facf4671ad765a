import ScillaLayout.Proofs.Formatting.Idempotence
import ScillaLayout.Proofs.Formatting.Tidiness

/-!
# The layout leaves its own result alone

A document that was laid out is laid out again without being read in between: its made-up indentation, its line breaks
and its spaces are the tokens that the first layout left, whatever text the options give them. Its cells are those that
were left (`Walk.gatherFrom_laid`), the walk finds the scenes it has found before, and every gap stays what it is down
to the place of each token (`Walk.laid_laid`). So a second layout changes nothing (`layout_layout`).
-/

namespace ScillaLayout

/-! ## Gaps that were left before -/

namespace Gap

variable {o : Options} {prev : Option Kind} {next : Kind}

theorem inlineTrail_inlineTrail (prev : Option Kind) (b : Option Token) (next : Kind) :
    inlineTrail prev (inlineTrail prev b next) next = inlineTrail prev b next := by
  unfold inlineTrail
  split
  · rfl
  · split <;> rfl

/-- The rules behind the walk leave the tokens of their own result. -/
theorem finished_finished_eq (g : Gap) (hnext : next ≠ .eof) :
    (g.finished o prev next).finished o prev next = g.finished o prev next := by
  by_cases hb : g.breaks = []
  · rw [finished_inline hb hnext, finished_inline rfl hnext]
    simp only [inlineTrail_inlineTrail]
  · rw [finished_broken hb, finished_broken (by simpa using hb)]
    simp [Token.withText]

/-- A blank that is one space already is not shrunk. -/
theorem collapsed_eq {g : Gap} {prev : Kind} (h : g.Tight prev) : g.collapsed prev = g := by
  obtain ⟨trail, breaks, lead⟩ := g
  unfold collapsed
  split
  · rfl
  · next hprev =>
    cases trail with
    | none => rfl
    | some b =>
      have htext : b.text = " " := h hprev b rfl
      simp [Token.withText, ← htext]

end Gap

namespace Cell.Tidy

variable {o : Options} {c : Cell}

/-- A laid out gap is one of a document: no blank follows another. -/
theorem spaces (h : c.Tidy o) : Spaces c.gap.tokens := by
  have hlead : Spaces c.gap.lead.toList := by
    cases hl : c.gap.lead with
    | none => exact .nil
    | some b => exact .blank (h.gap.lead b hl)
  have hbreaks : ∀ ns : List Token, (∀ n ∈ ns, n.isNewline = true) → Spaces (ns ++ c.gap.lead.toList) := by
    intro ns hns
    induction ns with
    | nil => exact hlead
    | cons n ns ih => exact .newline (hns n List.mem_cons_self) (ih fun m hm => hns m (List.mem_cons_of_mem _ hm))
  cases htrail : c.gap.trail with
  | none => simpa [Gap.tokens, htrail] using hbreaks _ h.gap.breaks
  | some b =>
    have hnil : c.gap.breaks = [] := by
      by_contra hne
      rw [h.trail hne] at htrail
      cases htrail
    simpa [Gap.tokens, htrail, hnil, h.gap.inline hnil] using Spaces.blank (isWhitespace_of_kind (h.gap.trail b htrail))

/-- A laid out cell is an item of a document. -/
theorem item_proper (h : c.Tidy o) : c.item.Proper := by
  refine ⟨h.spaces, h.token, fun b hb hk => ?_⟩
  have hlead : b ∈ c.gap.lead := by
    simp only [Cell.item, Gap.tokens, List.mem_append, Option.mem_toList] at hb
    rcases hb with (hb | hb) | hb
    · rw [h.gap.trail b hb] at hk
      cases hk
    · rw [isNewline_iff.1 (h.gap.breaks b hb)] at hk
      cases hk
    · exact hb
  have hbreaks : c.gap.breaks ≠ [] := fun hnil => by
    rw [h.gap.inline hnil] at hlead
    cases hlead
  obtain ⟨n, ns, hn⟩ := List.exists_cons_of_ne_nil hbreaks
  refine ⟨h.lead b hlead hk, List.any_eq_true.2 ⟨n, ?_, h.gap.breaks n (by simp [hn])⟩⟩
  simp [Cell.item, Gap.tokens, hn]

end Cell.Tidy

namespace Walk

variable {o : Options} {w w' : Walk} {c c' : Cell}

/-- The walk leaves a gap that was left before the same token. -/
theorem gapOut_settle (hs : w.scene = w'.scene) (hf : w.Fits c) (hgap : c'.gap = w.settle o c)
    (ht : c'.token = c.token) : w'.gapOut o c'.gap c'.token = c'.gap := by
  have hkey : c.token.key = c'.token.key := by rw [ht]
  obtain ⟨hnil, hb⟩ := breaksAt_again hs hkey hf (by rw [hgap])
  obtain ⟨-, hclause, -, -⟩ := scene_eq_iff.1 hs
  cases hc : w.clause with
  | some base =>
    have hempty : c'.gap.breaks = [] := hnil.2 (by simp [breaksAt, hc])
    simp [gapOut, ← hclause, hc, hempty]
  | none =>
    by_cases hbreak : (c'.token.isCode && w'.breaksAt c'.gap c'.token) = true
    · obtain ⟨hcode, hline'⟩ := Bool.and_eq_true_iff.1 hbreak
      have hline : w.breaksAt c.gap c.token = true := hb.trans hline'
      have hne : c'.gap.breaks ≠ [] := fun h => hnil.1 h hline
      -- a line of code is indented by its blocks, which are the same
      have hindent := entry_indentation_congr (o := o) hs hkey hb
      have hlead : c'.gap.lead =
          (w.entry o c.gap c.token).1.indentation o (w.entry o c.gap c.token).2.dedent := by
        rw [hgap, settle_code (ht ▸ hcode) hline]
      simp only [gapOut, ← hclause, hc, hbreak, Option.isSome_none, Bool.false_eq_true, if_false, if_true, Gap.broken,
        if_neg hne, ← hindent, ← hlead]
    · simp [gapOut, ← hclause, hc, hbreak]

/-- The layout leaves a gap that it has left before the same token. -/
theorem settle_settle (hw : w.Ready) (hw' : w'.Ready) (hs : w.scene = w'.scene) (hf : w.Fits c)
    (he : c.token.kind ≠ .eof) (hgap : c'.gap = w.settle o c) (ht : c'.token = c.token) :
    w'.settle o c' = w.settle o c := by
  obtain ⟨-, -, -, hsight⟩ := scene_eq_iff.1 hs
  have hlast : w'.out.lastKind = w.out.lastKind := by rw [hw.lastKind, hw'.lastKind, hsight]
  rw [settle, gapOut_settle hs hf hgap ht, hlast, ht, hgap]
  exact Gap.finished_finished_eq _ he

/-- **Laid out cells are left as they are**, by any walk with the same scene. -/
theorem laid_laid {cs : List Cell} (hm : w.Marked) (hs : w.scene = w'.scene) (h : w.Meets cs)
    (h' : w'.Meets (w.laid o cs)) (he : ∀ c ∈ cs, c.token.kind ≠ .eof) : w'.laid o (w.laid o cs) = w.laid o cs := by
  induction cs generalizing w w' with
  | nil => rfl
  | cons c cs ih =>
    have hne := he c List.mem_cons_self
    have hfits : w'.Fits ⟨w.settle o c, c.token⟩ := h'.fits
    have hkey : c.token.key = (Cell.mk (w.settle o c) c.token).token.key := rfl
    obtain ⟨-, hscene⟩ := step_again h.ready h'.ready hm hs hkey h.fits hfits hne rfl
    have hsame : w'.settle o ⟨w.settle o c, c.token⟩ = w.settle o c :=
      settle_settle h.ready h'.ready hs h.fits hne rfl rfl
    have hrest := ih (Marked.visit h.ready h.fits hne) hscene h.visit h'.visit fun d hd =>
      he d (List.mem_cons_of_mem _ hd)
    simp only [laid, hsame, hrest]

/-- The cells of what was laid out are those that were left. -/
theorem gatherFrom_laid {is : List Item} {prev : Kind} (hmeets : w.Meets (gatherFrom prev is))
    (heof : ∀ c ∈ gatherFrom prev is, c.token.kind ≠ .eof) :
    gatherFrom prev ((w.laid o (gatherFrom prev is)).map Cell.item) = w.laid o (gatherFrom prev is) := by
  induction is generalizing w prev with
  | nil => rfl
  | cons i is ih =>
    have hne : i.token.kind ≠ .eof := heof _ List.mem_cons_self
    have hrest := ih (hmeets.visit (o := o)) fun c hc => heof c (List.mem_cons_of_mem _ hc)
    have htight := tight_settle (o := o) (w := w)
      (c := ⟨((Gap.ofSpaces i.gap).before i.token).collapsed prev, i.token⟩) (Gap.tight_collapsed prev _) hne
    rw [gatherFrom, laid, List.map_cons, gatherFrom]
    simp only [Cell.item, hrest]
    rw [Gap.ofSpaces_tokens (settle_proper hmeets.fits) (settle_tidy o w _), Gap.before, if_neg hne,
      Gap.collapsed_eq htight]

end Walk

/-! ## The layout of a layout -/

namespace Reads

variable {o : Options} {s : String} {is : List Item} {last : Item}

/-- The cells of a laid out source are those that the layout left. -/
theorem gather_laid (h : Reads s is last) :
    gather ((Walk.laid o {} (gather is)).map Cell.item) = Walk.laid o {} (gather is) := by
  have hmeets := h.meets
  have heof := h.kind_ne_eof
  cases is with
  | nil => rfl
  | cons i is =>
    have hfirst := Walk.settle_fresh (o := o) hmeets.ready hmeets.fits rfl
    have hrest := Walk.gatherFrom_laid (o := o) (Walk.Meets.visit (o := o) hmeets) fun c hc =>
      heof c (List.mem_cons_of_mem _ hc)
    rw [gather, Walk.laid, List.map_cons, gather, hfirst]
    exact congrArg _ hrest

/-- A laid out source is a document: the items that the layout left, and the line break before the end mark. -/
theorem layout_items (h : Reads s is last) (o : Options) :
    layout o (lex s).tokens =
        flatten ((Walk.laid o {} (gather is)).map Cell.item ++ [⟨o.ending (gather is), last.token⟩]) ∧
      ∀ i ∈ (Walk.laid o {} (gather is)).map Cell.item ++ [⟨o.ending (gather is), last.token⟩], i.Proper := by
  constructor
  · rw [h.layout_eq, cellTokens_eq_flatten, flatten_append, flatten_cons, flatten_nil]
  · intro i hi
    rcases List.mem_append.1 hi with hi | hi
    · obtain ⟨c, hc, rfl⟩ := List.mem_map.1 hi
      exact (h.tidy_laid o c hc).item_proper
    · obtain rfl := List.mem_singleton.1 hi
      have hspaces : Spaces (o.ending (gather is)) ∧ ∀ b ∈ o.ending (gather is), b.kind ≠ .indent := by
        unfold Options.ending
        split
        · exact ⟨.newline rfl .nil, by simp [Options.newlineToken, Token.synthetic]⟩
        · exact ⟨.nil, by simp⟩
      exact ⟨hspaces.1, (h.spaces last (by simp)).2, fun b hb hk => absurd hk (hspaces.2 b hb)⟩

end Reads

/-- **A second layout changes nothing**, whatever text the options give to indentation and line breaks. -/
theorem layout_layout (o : Options) {s : String} (hs : (lex s).fault = none) :
    layout o (layout o (lex s).tokens) = layout o (lex s).tokens := by
  obtain ⟨is, last, h⟩ := exists_reads hs
  obtain ⟨hitems, hproper⟩ := h.layout_items o
  have hgather := h.gather_laid (o := o)
  have hmeets : Walk.Meets {} (Walk.laid o {} (gather is)) := by
    rw [← hgather]
    exact start_meets fun i hi => hproper i (List.mem_append_left _ hi)
  have hlaid := Walk.laid_laid Walk.marked_start rfl h.meets hmeets h.kind_ne_eof
  have hending : o.ending (Walk.laid o {} (gather is)) = o.ending (gather is) := by simp [Options.ending]
  calc layout o (layout o (lex s).tokens)
      = cellTokens (Walk.laid o {} (Walk.laid o {} (gather is))) ++
          (o.ending (Walk.laid o {} (gather is)) ++ [last.token]) := by
        rw [hitems, layout_flatten o hproper (congrArg Prod.fst h.mark), hgather]
    _ = layout o (lex s).tokens := by rw [hlaid, hending, h.layout_eq]

/-- Line breaks without text, indentation that is no blank, and a name of a field under which lines are moved. -/
theorem layout_layout_unvalidated :
    (lex "field x : ByStr20 with\n end=match m with\n| A=>( b\n,  (*c*)").fault = none ∧
      layout { newline := "", indentUnit := "ab" } (layout { newline := "", indentUnit := "ab" }
          (lex "field x : ByStr20 with\n end=match m with\n| A=>( b\n,  (*c*)").tokens) =
        layout { newline := "", indentUnit := "ab" }
          (lex "field x : ByStr20 with\n end=match m with\n| A=>( b\n,  (*c*)").tokens :=
  have hs : (lex "field x : ByStr20 with\n end=match m with\n| A=>( b\n,  (*c*)").fault = none := by decide +kernel
  ⟨hs, layout_layout _ hs⟩

end ScillaLayout
