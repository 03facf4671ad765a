import ScillaLayout.Layout.Rule
import ScillaLayout.Proofs.Layout.Finish
import ScillaLayout.Proofs.Layout.Scene

/-!
# The layout, cell by cell

`Walk.settle` is the gap that the whole layout leaves before the token of a cell, and `Walk.laid` goes from cell to
cell. The ten rules together do nothing else: the layout of a document is `Walk.laid` of its cells, with a line break at
the end if the options ask for it (`layout_flatten`).
-/

namespace ScillaLayout

/-- What the rules behind the walk make of a gap. -/
def Gap.finished (o : Options) (prev : Option Kind) (g : Gap) (next : Kind) : Gap :=
  ((g.spaced prev next).tightened prev next).stripped.normalized o

theorem Rewrites.comp {f g : Option Kind → Gap → Kind → Gap} (hf : Rewrites f) (hg : Rewrites g) :
    Rewrites fun prev x next => f prev (g prev x next) next :=
  ⟨fun hx prev next => hf.proper (hg.proper hx prev next) prev next, fun next => by rw [hg.empty, hf.empty]⟩

namespace Walk

variable {o : Options} {w : Walk}

/-- A walk between two cells, and the cells before it. -/
structure Meets (w : Walk) (cs : List Cell) : Prop where
  ready : w.Ready
  cells : Cells cs
  fresh : w.out = [] → ∀ c ∈ cs.head?, c.gap = .empty

theorem Meets.left {cs ds : List Cell} (h : w.Meets (cs ++ ds)) : w.Meets cs := by
  refine ⟨h.ready, fun c hc => h.cells c (List.mem_append_left _ hc), fun hnil c hc => h.fresh hnil c ?_⟩
  rw [List.head?_append, Option.mem_def.1 hc]
  rfl

theorem Meets.fits {c : Cell} {cs : List Cell} (h : w.Meets (c :: cs)) : w.Fits c :=
  ⟨(h.cells c List.mem_cons_self).1, (h.cells c List.mem_cons_self).2, fun hnil => h.fresh hnil c rfl⟩

variable [Text.Measure]

/-- The cells that the walk writes. -/
def written (o : Options) (w : Walk) : List Cell → List Cell
  | [] => []
  | c :: cs => ⟨w.gapOut o c.gap c.token, c.token⟩ :: written o (w.visit o c) cs

@[simp] theorem written_eq_nil {cs : List Cell} : w.written o cs = [] ↔ cs = [] := by cases cs <;> simp [written]

theorem written_concat (o : Options) (w : Walk) (cs : List Cell) (c : Cell) :
    ∃ g, w.written o (cs ++ [c]) = w.written o cs ++ [⟨g, c.token⟩] := by
  induction cs generalizing w with
  | nil => exact ⟨_, rfl⟩
  | cons d cs ih =>
    obtain ⟨g, hg⟩ := ih (w.visit o d)
    exact ⟨g, by simp only [List.cons_append, written, hg]⟩

/-- The gap that the layout leaves before the token of a cell. -/
def settle (o : Options) (w : Walk) (c : Cell) : Gap :=
  (w.gapOut o c.gap c.token).finished o w.out.lastKind c.token.kind

/-- The cells that the layout leaves. -/
def laid (o : Options) (w : Walk) : List Cell → List Cell
  | [] => []
  | c :: cs => ⟨w.settle o c, c.token⟩ :: laid o (w.visit o c) cs

@[simp] theorem laid_eq_nil {cs : List Cell} : w.laid o cs = [] ↔ cs = [] := by cases cs <;> simp [laid]

theorem laid_append (o : Options) (w : Walk) (cs ds : List Cell) :
    w.laid o (cs ++ ds) = w.laid o cs ++ (cs.foldl (visit o) w).laid o ds := by
  induction cs generalizing w with
  | nil => rfl
  | cons c cs ih => simp only [List.cons_append, laid, ih, List.foldl_cons]

theorem Meets.visit {c : Cell} {cs : List Cell} (h : w.Meets (c :: cs)) : (w.visit o c).Meets cs :=
  ⟨h.ready.visit h.fits, fun d hd => h.cells d (List.mem_cons_of_mem _ hd), by simp [visit_out h.ready h.fits]⟩

theorem Meets.foldl_visit {cs ds : List Cell} (h : w.Meets (cs ++ ds)) : (cs.foldl (Walk.visit o) w).Meets ds := by
  induction cs generalizing w with
  | nil => exact h
  | cons c cs ih => exact ih h.visit

theorem lastKind_visit {c : Cell} (hw : w.Ready) (hf : w.Fits c) : (w.visit o c).out.lastKind = some c.token.kind := by
  rw [visit_out hw hf]
  rfl

/-- The walk over all cells writes what `written` says. -/
theorem out_foldl_step {cs : List Cell} (h : w.Meets cs) :
    ((cellTokens cs).foldl (step o) w).out = (cellTokens (w.written o cs)).reverse ++ w.out := by
  induction cs generalizing w with
  | nil => rfl
  | cons c cs ih =>
    have hvisit : (c.gap.tokens ++ [c.token]).foldl (step o) w = w.visit o c := rfl
    rw [cellTokens_cons, ← List.singleton_append, ← List.append_assoc, List.foldl_append, hvisit, ih h.visit,
      visit_out h.ready h.fits]
    simp [written]

/-- Nothing is put before the first token. -/
theorem gapOut_fresh {c : Cell} (hw : w.Ready) (hf : w.Fits c) (hnil : w.out = []) :
    w.gapOut o c.gap c.token = .empty := by
  have hc : w.clause = none := (hw.fresh hnil).2.1
  have hb : w.breaksAt c.gap c.token = false := by simp [breaksAt, hf.fresh hnil, Gap.empty, hnil]
  rw [gapOut, hc, hb, hf.fresh hnil]
  simp

theorem written_continues {cs : List Cell} (h : w.Meets cs) : Continues w.out (w.written o cs) := by
  refine ⟨h.ready.last, ?_, fun hnil d hd => ?_⟩
  · induction cs generalizing w with
    | nil => intro d hd; cases hd
    | cons c cs ih =>
      intro d hd
      rcases List.mem_cons.1 hd with rfl | hd
      · exact ⟨(gapOut_proper h.fits.gap _).1, h.fits.token⟩
      · exact ih h.visit d hd
  · cases cs with
    | nil => cases hd
    | cons c cs =>
      obtain rfl := Option.some.inj hd
      exact gapOut_fresh h.ready h.fits hnil

theorem laid_eq_mapGaps {cs : List Cell} (h : w.Meets cs) :
    w.laid o cs = mapGaps (fun prev g next => g.finished o prev next) w.out.lastKind (w.written o cs) := by
  induction cs generalizing w with
  | nil => rfl
  | cons c cs ih =>
    have htail := ih (h.visit (o := o))
    rw [lastKind_visit h.ready h.fits] at htail
    simp only [laid, written, mapGaps, htail]
    rfl

end Walk

theorem gatherFrom_append_cons (prev : Kind) (is : List Item) (i : Item) (js : List Item) :
    gatherFrom prev (is ++ i :: js) = gatherFrom prev (is ++ [i]) ++ gatherFrom i.token.kind js := by
  induction is generalizing prev with
  | nil => rfl
  | cons j is ih => simp only [List.cons_append, gatherFrom, ih]

/-- The cells behind an item depend on the kind of its token only. -/
theorem gather_append_cons (is : List Item) (i : Item) (js : List Item) :
    gather (is ++ i :: js) = gather (is ++ [i]) ++ gatherFrom i.token.kind js := by
  cases is with
  | nil => rfl
  | cons j is =>
    simp only [List.cons_append, gather]
    rw [gatherFrom_append_cons]

theorem gather_append {is : List Item} (hne : is ≠ []) (js : List Item) :
    ∃ prev, gather (is ++ js) = gather is ++ gatherFrom prev js := by
  obtain hnil | ⟨is, i, rfl⟩ := List.eq_nil_or_concat is
  · exact absurd hnil hne
  · exact ⟨i.token.kind, by rw [List.concat_eq_append, List.append_assoc, List.singleton_append, gather_append_cons]⟩

theorem gather_concat (is : List Item) (i : Item) : ∃ g, gather (is ++ [i]) = gather is ++ [⟨g, i.token⟩] := by
  by_cases hne : is = []
  · subst hne
    exact ⟨.empty, rfl⟩
  · obtain ⟨prev, hgather⟩ := gather_append hne [i]
    exact ⟨_, hgather⟩

theorem start_meets {is : List Item} (h : ∀ i ∈ is, i.Proper) : Walk.Meets {} (gather is) := by
  refine ⟨Walk.ready_start, gather_cells h, fun _ c hc => ?_⟩
  cases is with
  | nil => cases hc
  | cons i is =>
    obtain rfl := Option.some.inj hc
    rfl

/-- The rules between the walk and the end of the document. -/
def Gap.tidied (prev : Option Kind) (g : Gap) (next : Kind) : Gap := ((g.spaced prev next).tightened prev next).stripped

theorem Gap.tidied_rewrites : Rewrites fun prev g next => g.tidied prev next :=
  stripped_rewrites.comp (tightened_rewrites.comp spaced_rewrites)

theorem strip_tighten_spaceOperators {cs : List Cell} (h : Continues [] cs) :
    Lines.stripTrailing (Spacing.tighten (Spacing.spaceOperators (cellTokens cs))) =
      cellTokens (mapGaps (fun prev g next => g.tidied prev next) none cs) := by
  have hspaced : Continues [] (mapGaps (fun prev g next => g.spaced prev next) none cs) :=
    Gap.spaced_rewrites.continues h
  have htightened : Continues [] (mapGaps (fun prev g next => g.tightened prev next) none
      (mapGaps (fun prev g next => g.spaced prev next) none cs)) := Gap.tightened_rewrites.continues hspaced
  rw [Spacing.spaceOperators_cells h, Spacing.tighten_cells hspaced, Lines.stripTrailing_cells htightened,
    mapGaps_mapGaps, mapGaps_mapGaps]
  rfl

/-- The line break at the end of a document, where the options want one. -/
def Options.ending (o : Options) (cs : List Cell) : List Token :=
  if cs ≠ [] ∧ o.endWithNewline then [o.newlineToken] else []

theorem Lines.normalize_append (o : Options) (ts us : List Token) :
    Lines.normalize o (ts ++ us) = Lines.normalize o ts ++ Lines.normalize o us := List.map_append

theorem Lines.normalize_ending (o : Options) (cs : List Cell) {e : Token} (he : e.kind = .eof) :
    Lines.normalize o (o.ending cs ++ [e]) = o.ending cs ++ [e] := by
  have hbreak : (o.newlineToken).withText o.newline = o.newlineToken := rfl
  unfold Options.ending
  split <;> simp [Lines.normalize, Token.isNewline, he, hbreak]

/-- **The layout is `Walk.laid`**, with the line break at the end of the document before the end mark. -/
theorem layout_flatten [Text.Measure] (o : Options) {is : List Item} {i : Item} (h : ∀ j ∈ is ++ [i], j.Proper)
    (he : i.token.kind = .eof) :
    layout o (flatten (is ++ [i])) =
      cellTokens (Walk.laid o {} (gather is)) ++ (o.ending (gather is) ++ [i.token]) := by
  have his : Walk.Meets {} (gather is) := start_meets fun j hj => h j (List.mem_append_left _ hj)
  have hmeets : Walk.Meets {} (gather (is ++ [i])) := start_meets h
  have hwalk : indentLines o (cellTokens (gather (is ++ [i]))) =
      cellTokens (Walk.written o {} (gather (is ++ [i]))) := by
    rw [indentLines, Walk.tokens, Walk.run, Walk.out_foldl_step hmeets]
    simp
  have hwritten := Walk.written_continues (o := o) hmeets
  -- the end mark is the last cell, whatever has become of its gap
  obtain ⟨g, hgather⟩ := gather_concat is i
  obtain ⟨g', hlast⟩ := Walk.written_concat o {} (gather is) ⟨g, i.token⟩
  obtain ⟨prev, htidied⟩ := mapGaps_concat (fun prev g next => g.tidied prev next) none
    (Walk.written o {} (gather is)) ⟨g', i.token⟩
  rw [hgather, hlast] at hwritten
  have hgap : (g'.tidied prev i.token.kind).Proper :=
    Gap.tidied_rewrites.proper (hwritten.cells ⟨g', i.token⟩ (by simp)).1 _ _
  have hbody : Cells (mapGaps (fun prev g next => g.tidied prev next) none (Walk.written o {} (gather is))) :=
    (Gap.tidied_rewrites.continues (Walk.written_continues his)).cells
  have hrules : layout o (flatten (is ++ [i])) = Lines.normalize o (Lines.trimEnd o (Lines.stripTrailing
      (Spacing.tighten (Spacing.spaceOperators (indentLines o (Spacing.collapse (Lines.clearBlank
        (Lines.collapseBlank (Lines.removeLeading (flatten (is ++ [i]))))))))))) := by
    simp only [layout, Rule.applyAll, Rule.standard, List.foldl_cons, List.foldl_nil, Rule.apply]
  have hcells : cellTokens (mapGaps (fun prev g next => g.tidied prev next) none (Walk.written o {} (gather is)) ++
        [⟨g'.tidied prev i.token.kind, i.token⟩]) =
      cellTokens (mapGaps (fun prev g next => g.tidied prev next) none (Walk.written o {} (gather is))) ++
        ((g'.tidied prev i.token.kind).tokens ++ [i.token]) := by
    simp [cellTokens]
  rw [hrules, collapse_clear_collapse_removeLeading h, hwalk, hgather, hlast, strip_tighten_spaceOperators hwritten,
    htidied, hcells, Lines.trimEnd_cells o hbody hgap.isSpace he, Lines.normalize_append,
    Lines.normalize_cells o hbody none, mapGaps_mapGaps, Walk.laid_eq_mapGaps his]
  have hend := Lines.normalize_ending o (gather is) he
  simp only [Options.ending] at hend ⊢
  simp only [ne_eq, mapGaps_eq_nil, Walk.written_eq_nil, hend]
  rfl

end ScillaLayout
