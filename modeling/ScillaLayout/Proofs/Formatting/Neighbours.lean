import Mathlib.Tactic.MkIffOfInductiveProp
import ScillaLayout.Proofs.Formatting.Preservation
import ScillaLayout.Proofs.Layout.Clause

/-!
# Neighbours

Two tokens that are no spaces are neighbours when only spaces stand between them. The layout keeps such tokens, so
neighbours stay neighbours, and only the gap between them changes: `Neighbours.settled` says what it becomes, and what
the walk knows there of the tokens before.

All that the walk knows can be read off the source (`Walk.Behind`): how many address clauses are open, and outside of
them the nearest code token of the line.
-/

namespace ScillaLayout

/-! ## Tokens that are no spaces -/

/-- The tokens of a list that are no spaces. -/
def solid (ts : List Token) : List Token := ts.filter (!·.isSpace)

@[simp] theorem solid_nil : solid [] = [] := rfl

@[simp] theorem solid_append (ts us : List Token) : solid (ts ++ us) = solid ts ++ solid us :=
  List.filter_append _ _

theorem solid_cons {t : Token} (ht : t.isSpace = false) (ts : List Token) : solid (t :: ts) = t :: solid ts :=
  List.filter_cons_of_pos (by simp [ht])

theorem solid_spaces {g : List Token} (hg : ∀ t ∈ g, t.isSpace = true) : solid g = [] := by
  simpa [solid] using hg

theorem map_token_itemsFrom (gap ts : List Token) : (itemsFrom gap ts).map (·.token) = solid ts := by
  induction ts generalizing gap with
  | nil => rfl
  | cons t ts ih =>
    rw [itemsFrom]
    cases ht : t.isSpace with
    | true => simpa [solid, ht] using ih _
    | false => simpa [solid_cons ht] using ih _

theorem solid_flatten {is : List Item} (h : ∀ i ∈ is, (∀ t ∈ i.gap, t.isSpace = true) ∧ i.token.isSpace = false) :
    solid (flatten is) = is.map (·.token) := by
  rw [← map_token_itemsFrom [] (flatten is), ← items, items_flatten h]

theorem solid_cellTokens {cs : List Cell} (h : Cells cs) : solid (cellTokens cs) = cs.map (·.token) := by
  rw [cellTokens_eq_flatten, solid_flatten]
  · simp [Cell.item]
  · exact h.item

/-- A list is cut in one way at a token that is no space. -/
theorem cut_solid_unique {ts us ts' us' : List Token} {a a' : Token} (ha : a.isSpace = false) (ha' : a'.isSpace = false)
    (h : ts ++ a :: us = ts' ++ a' :: us') (hs : solid ts = solid ts') : ts = ts' ∧ a = a' ∧ us = us' := by
  -- of two different cuts the later one has more tokens before it
  have hcut : ∀ {xs ys : List Token} {x y : Token}, x.isSpace = false → solid xs = solid (xs ++ ys) →
      ∀ {rest rest' : List Token}, x :: rest = ys ++ y :: rest' → ys = [] := by
    intro xs ys x y hx hsolid rest rest' hrest
    cases ys with
    | nil => rfl
    | cons z ys =>
      obtain ⟨rfl, -⟩ := List.cons.inj hrest
      simp [solid_cons hx] at hsolid
  obtain ⟨ys, rfl, hrest⟩ | ⟨ys, rfl, hrest⟩ := List.append_eq_append_iff.1 h
  · obtain rfl := hcut ha hs hrest
    simpa using hrest
  · obtain rfl := hcut ha' hs.symm hrest
    simpa [eq_comm] using hrest

/-! ## Neighbours -/

/-- The tokens `a` and `b` of `ts` are no spaces, and only the spaces `gap` stand between them. -/
@[mk_iff]
structure Neighbours (ts before : List Token) (a : Token) (gap : List Token) (b : Token) (behind : List Token) :
    Prop where
  split : ts = before ++ a :: (gap ++ b :: behind)
  left : a.isSpace = false
  spaces : ∀ t ∈ gap, t.isSpace = true
  right : b.isSpace = false

instance (ts before : List Token) (a : Token) (gap : List Token) (b : Token) (behind : List Token) :
    Decidable (Neighbours ts before a gap b behind) :=
  decidable_of_iff' _ (neighbours_iff ts before a gap b behind)

namespace Neighbours

variable {ts ts' before before' gap gap' behind behind' : List Token} {a b a' b' : Token}

/-- What stands before neighbours determines them and their gap. -/
theorem unique (h : Neighbours ts before a gap b behind) (h' : Neighbours ts before' a' gap' b' behind')
    (hs : solid before = solid before') : before = before' ∧ a = a' ∧ gap = gap' ∧ b = b' ∧ behind = behind' := by
  obtain ⟨rfl, rfl, hrest⟩ := cut_solid_unique h.left h'.left (h.split.symm.trans h'.split) hs
  obtain ⟨rfl, rfl, rfl⟩ := cut_solid_unique h.right h'.right hrest
    ((solid_spaces h.spaces).trans (solid_spaces h'.spaces).symm)
  exact ⟨rfl, rfl, rfl, rfl, rfl⟩

/-- The tokens of a list, seen from two neighbours. -/
theorem solid_split (h : Neighbours ts before a gap b behind) : solid ts = solid before ++ a :: b :: solid behind := by
  rw [h.split, solid_append, solid_cons h.left, solid_append, solid_spaces h.spaces, solid_cons h.right,
    List.nil_append]

theorem solid_behind (h : Neighbours ts before a gap b behind) (h' : Neighbours ts' before' a gap' b behind')
    (hs : solid ts = solid ts') (hb : solid before = solid before') : solid behind = solid behind' := by
  rw [h.solid_split, h'.solid_split, hb] at hs
  simpa using hs

/-- A token that is no space has a neighbour before it, unless all before it are spaces. -/
theorem exists_left (hts : ts = before ++ b :: behind) (hb : b.isSpace = false) (h : ∃ t ∈ before, t.isSpace = false) :
    ∃ before' a gap, before = before' ++ a :: gap ∧ Neighbours ts before' a gap b behind := by
  subst hts
  induction before with
  | nil => obtain ⟨t, ht, -⟩ := h; cases ht
  | cons t ts ih =>
    by_cases hts : ∃ u ∈ ts, u.isSpace = false
    · obtain ⟨before', a, gap, rfl, hn⟩ := ih hts
      exact ⟨t :: before', a, gap, rfl, by simp, hn.left, hn.spaces, hb⟩
    · have hspaces : ∀ u ∈ ts, u.isSpace = true := by simpa using hts
      have ht : t.isSpace = false := by
        obtain ⟨u, hu, hs⟩ := h
        rcases List.mem_cons.1 hu with rfl | hu
        · exact hs
        · exact absurd ⟨u, hu, hs⟩ hts
      exact ⟨[], t, ts, rfl, rfl, ht, hspaces, hb⟩

/-- Lists with the same tokens besides spaces have the same neighbours. -/
theorem transfer (h : Neighbours ts before a gap b behind) (hs : solid ts = solid ts') :
    ∃ before' gap' behind', Neighbours ts' before' a gap' b behind' ∧ solid before' = solid before ∧
      solid behind' = solid behind := by
  rw [h.solid_split] at hs
  obtain ⟨xs, ys, rfl, hxs, hys⟩ := List.filter_eq_append_iff.1 hs.symm
  obtain ⟨gap₁, ys, rfl, hgap₁, -, hys⟩ := List.filter_eq_cons_iff.1 hys
  obtain ⟨gap₂, behind', rfl, hgap₂, -, hys⟩ := List.filter_eq_cons_iff.1 hys
  have hspaces : ∀ {g : List Token}, (∀ t ∈ g, ¬(!t.isSpace) = true) → ∀ t ∈ g, t.isSpace = true := by simp
  refine ⟨xs ++ gap₁, gap₂, behind', ⟨by simp, h.left, hspaces hgap₂, h.right⟩, ?_, hys⟩
  rw [solid_append, solid_spaces (hspaces hgap₁), List.append_nil]
  exact hxs

/-- Neighbours are items next to each other. -/
theorem items_split (h : Neighbours ts before a gap b behind) :
    ∃ g, items ts = items before ++ ⟨g, a⟩ :: ⟨gap, b⟩ :: items behind ∧
      flatten (items before ++ [⟨g, a⟩]) = before ++ [a] := by
  obtain ⟨g, hg⟩ : ∃ g, items (before ++ [a]) = items before ++ [⟨g, a⟩] :=
    itemsFrom_concat [] before h.left
  have hbehind : items (gap ++ b :: behind) = ⟨gap, b⟩ :: items behind := by
    rw [items, itemsFrom_append_spaces h.spaces, itemsFrom, h.right]
    rfl
  refine ⟨g, ?_, ?_⟩
  · have hcut := itemsFrom_append_cons h.left [] before (gap ++ b :: behind)
    rw [h.split, items, hcut, ← items, hg, hbehind]
    simp
  · rw [← hg]
    exact flatten_items (by simp [h.left])

end Neighbours

/-! ## What the walk knows -/

namespace Walk

variable {o : Options} {w : Walk}

/-- Outside of clauses a comment breaks the line where its gap does. -/
theorem lineCode_visit_comment {c : Cell} (hw : w.Ready) (hf : w.Fits c) (hc : w.clause = none)
    (ht : c.token.isCode = false) :
    (w.visit o c).out.sight.lineCode = if c.gap.breaks = [] then w.out.sight.lineCode else none := by
  have hline : w.breaksAt c.gap c.token = true ↔ c.gap.breaks ≠ [] := by simp [breaksAt, hc, ht]
  rw [visit_out hw hf, Before.sight_cons, gapOut_sight hf.gap, Sight.lineCode_push_comment hf.token ht]
  by_cases hb : c.gap.breaks = []
  · rw [if_neg (by simp [hline, hb]), if_pos hb]
  · rw [if_pos (hline.2 hb), if_neg hb]
    rfl

/-- What the walk knows behind the tokens `ts` of a source. -/
structure Behind (w : Walk) (ts : List Token) : Prop where
  clauses : w.Clauses (ts.foldl ClauseCount.push {})
  lineCode : w.clause = none → w.out.sight.lineCode = (ts.foldl Sight.push {}).lineCode

theorem behind_start : Behind {} [] := ⟨clauses_start, fun _ => rfl⟩

/-- One more cell, whose gap was `g` in the source: it breaks the line where `g` does, unless there is no code on the
line. -/
theorem Behind.visit {c : Cell} {ts g : List Token} (h : w.Behind ts) (hw : w.Ready) (hf : w.Fits c)
    (hg : ∀ t ∈ g, t.isSpace = true)
    (hbreaks : (c.gap.breaks = [] ↔ g.countP (·.isNewline) = 0) ∨ (ts.foldl Sight.push {}).lineCode = none) :
    (w.visit o c).Behind (ts ++ g ++ [c.token]) := by
  constructor
  · rw [List.foldl_append, List.foldl_append, ClauseCount.foldl_push_spaces hg]
    exact h.clauses.visit hw hf
  · intro hclause
    rw [List.foldl_append, List.foldl_append, List.foldl_cons, List.foldl_nil]
    cases ht : c.token.isCode with
    | true => rw [sight_visit_code hw hf ht, Sight.push_code ht]
    | false =>
      -- a comment leaves the walk where it was, inside of a clause or outside
      obtain ⟨-, -, hkeep, -⟩ := Walk.visit_trivia (o := o) hf.gap hw ht hf.token
      have hnone : w.clause = none := hkeep ▸ hclause
      rw [lineCode_visit_comment hw hf hnone ht, Sight.lineCode_push_comment hf.token ht,
        Sight.lineCode_foldl_spaces hg, h.lineCode hnone]
      rcases hbreaks with hbreaks | hbreaks
      · simp only [hbreaks]
      · rw [hbreaks, ite_self, ite_self]

/-- The cells of all further items. -/
theorem Behind.foldl_visit {is : List Item} {ts : List Token} {prev : Kind} (h : w.Behind ts)
    (his : ∀ i ∈ is, i.Proper) (hm : w.Meets (gatherFrom prev is)) :
    ((gatherFrom prev is).foldl (Walk.visit o) w).Behind (ts ++ flatten is) := by
  induction is generalizing w ts prev with
  | nil => simpa [gatherFrom] using h
  | cons i is ih =>
    have hgap := (his i List.mem_cons_self).spaces.isSpace
    have hbreaks := Gap.length_breaks i.gap i.token prev
    have hfirst : (w.visit o ⟨((Gap.ofSpaces i.gap).before i.token).collapsed prev, i.token⟩).Behind
        (ts ++ i.gap ++ [i.token]) :=
      h.visit hm.ready hm.fits hgap (.inl (by rw [← List.length_eq_zero_iff, hbreaks]; omega))
    have hrest := ih hfirst (fun j hj => his j (List.mem_cons_of_mem _ hj)) hm.visit
    simpa [gatherFrom] using hrest

/-- **The walk over a source** knows what its tokens say. -/
theorem behind_gather {is : List Item} (his : ∀ i ∈ is, i.Proper) :
    ((gather is).foldl (Walk.visit o) {}).Behind (flatten is) := by
  have hm := start_meets his
  cases is with
  | nil => exact behind_start
  | cons i is =>
    have hgap := (his i List.mem_cons_self).spaces.isSpace
    have hfirst : (Walk.visit o {} ⟨.empty, i.token⟩).Behind (i.gap ++ [i.token]) :=
      behind_start.visit hm.ready hm.fits hgap (.inr rfl)
    have hrest := hfirst.foldl_visit (o := o) (fun j hj => his j (List.mem_cons_of_mem _ hj)) hm.visit
    simpa [gather] using hrest

end Walk

/-! ## The gap between neighbours -/

theorem Gap.Proper.countP_tokens {g : Gap} (hg : g.Proper) : g.tokens.countP (·.isNewline) = g.breaks.length := by
  have hblank : ∀ {b : Option Token}, (∀ x ∈ b, x.isWhitespace = true) → b.toList.countP (·.isNewline) = 0 := by
    intro b hb
    cases b with
    | none => rfl
    | some x => simp [isNewline_of_isWhitespace (hb x rfl)]
  have htrail := hblank fun x hx => isWhitespace_of_kind (hg.trail x hx)
  have hbreaks : g.breaks.countP (·.isNewline) = g.breaks.length := List.countP_eq_length.2 hg.breaks
  rw [Gap.tokens, List.countP_append, List.countP_append, htrail, hbreaks, hblank hg.lead]
  omega

/-- The cell of `b` behind `a`, when `gap` stands between them. -/
def cellBetween (a : Token) (gap : List Token) (b : Token) : Cell :=
  ⟨((Gap.ofSpaces gap).before b).collapsed a.kind, b⟩

theorem length_breaks_cellBetween (a : Token) (gap : List Token) (b : Token) :
    (cellBetween a gap b).gap.breaks.length = min 2 (gap.countP (·.isNewline)) := Gap.length_breaks gap b a.kind

/-- The gap of the cell is broken where the source is. -/
theorem breaks_cellBetween_eq_nil {a : Token} {gap : List Token} {b : Token} :
    (cellBetween a gap b).gap.breaks = [] ↔ gap.countP (·.isNewline) = 0 := by
  rw [← List.length_eq_zero_iff, length_breaks_cellBetween]
  omega

/-- The walk has come to the gap between the neighbours `a` and `b`, behind the tokens `before`. -/
structure Walk.Between (w : Walk) (before : List Token) (a : Token) (gap : List Token) (b : Token) : Prop where
  ready : w.Ready
  fits : w.Fits (cellBetween a gap b)
  last : w.out.lastKind = some a.kind
  behind : w.Behind (before ++ [a])
  spaces : Spaces gap

/-- The walk comes to every gap, and the layout leaves there what `Walk.settle` says. -/
theorem Walk.exists_between (o : Options) {is js : List Item} {i j : Item}
    (h : ∀ k ∈ is ++ i :: j :: js, k.Proper) :
    ∃ w : Walk, w.Between (flatten is ++ i.gap) i.token j.gap j.token ∧ ∃ g cs,
      Walk.laid o {} (gather (is ++ i :: j :: js)) = Walk.laid o {} (gather is) ++
        ⟨g, i.token⟩ :: ⟨w.settle o (cellBetween i.token j.gap j.token), j.token⟩ :: cs := by
  have hmeets := start_meets h
  have hbefore : ∀ k ∈ is ++ [i], k.Proper := fun k hk => h k (by
    rw [List.mem_append, List.mem_singleton] at hk
    rw [List.mem_append, List.mem_cons]
    exact hk.imp_right .inl)
  obtain ⟨g, hconcat⟩ := gather_concat is i
  rw [gather_append_cons] at hmeets ⊢
  have hlast : ((gather is).foldl (visit o) {}).Meets [⟨g, i.token⟩] :=
    Meets.foldl_visit (hconcat ▸ start_meets hbefore)
  have hnext : ((gather (is ++ [i])).foldl (visit o) {}).Meets (gatherFrom i.token.kind (j :: js)) :=
    hmeets.foldl_visit
  refine ⟨(gather (is ++ [i])).foldl (visit o) {}, ⟨hnext.ready, hnext.fits, ?_, ?_, ?_⟩, ?_⟩
  · rw [hconcat, List.foldl_append]
    exact lastKind_visit hlast.ready hlast.fits
  · simpa using behind_gather (o := o) hbefore
  · exact (h j (by simp)).spaces
  · have hsplit : laid o {} (gather (is ++ [i])) =
        laid o {} (gather is) ++ [⟨((gather is).foldl (visit o) {}).settle o ⟨g, i.token⟩, i.token⟩] := by
      rw [hconcat, laid_append]
      rfl
    rw [laid_append, hsplit, List.append_assoc]
    exact ⟨_, _, rfl⟩

/-- The layout of a source is that of its cells. -/
theorem Reads.layout_eq [Text.Measure] {s : String} {is : List Item} {last : Item} (h : Reads s is last) (o : Options) :
    layout o (lex s).tokens =
      cellTokens (Walk.laid o {} (gather is)) ++ (o.ending (gather is) ++ [last.token]) := by
  rw [h.tokens, layout_flatten o h.proper (congrArg Prod.fst h.mark)]

/-- The layout starts with a token that is no space. -/
theorem head?_layout {s : String} (hs : (lex s).fault = none) (o : Options) :
    ∀ t ∈ (layout o (lex s).tokens).head?, t.isSpace = false := by
  obtain ⟨is, last, h⟩ := exists_reads hs
  rw [h.layout_eq]
  cases is with
  | nil => simpa [gather, Walk.laid, Options.ending] using (h.spaces last (by simp)).2
  | cons i is =>
    have hm := h.meets
    have hfirst : Walk.settle o {} ⟨.empty, i.token⟩ = .empty := Walk.settle_fresh hm.ready hm.fits rfl
    rw [gather, Walk.laid, hfirst, cellTokens_cons]
    simpa using (h.spaces i (by simp)).2

theorem solid_layout {s : String} (hs : (lex s).fault = none) (o : Options) :
    solid (layout o (lex s).tokens) = solid (lex s).tokens := by
  obtain ⟨is, last, h⟩ := exists_reads hs
  have hmark : last.token.isSpace = false := (h.spaces last (by simp)).2
  rw [h.layout_eq, h.tokens, solid_flatten h.spaces, solid_append, solid_append,
    solid_cellTokens (Walk.laid_cells h.meets), solid_spaces (o.ending_isSpace _), Walk.map_token_laid,
    map_token_gather, solid_cons hmark]
  simp

namespace Neighbours

variable {s : String} {before gap behind : List Token} {a b : Token}

/-- Neighbours before the end mark are items of the source. -/
theorem reads (h : Neighbours (lex s).tokens before a gap b behind) {is : List Item} {last : Item}
    (hreads : Reads s is last) (he : b.kind ≠ .eof) :
    ∃ g js, is = items before ++ ⟨g, a⟩ :: ⟨gap, b⟩ :: js ∧
      flatten (items before ++ [⟨g, a⟩]) = before ++ [a] := by
  obtain ⟨g, hitems, hflat⟩ := h.items_split
  rw [hreads.items] at hitems
  obtain hnil | ⟨js, last', hconcat⟩ := List.eq_nil_or_concat (items behind)
  · have hend : last = ⟨gap, b⟩ := by
      rw [hnil, List.append_cons (items before)] at hitems
      exact List.singleton_inj.1 (List.append_inj_right' hitems rfl)
    exact absurd (congrArg Prod.fst hreads.mark) (hend ▸ he)
  · refine ⟨g, js, ?_, hflat⟩
    rw [hconcat, List.concat_eq_append, ← List.cons_append, ← List.cons_append, ← List.append_assoc] at hitems
    exact List.append_inj_left' hitems rfl

/-- **Neighbours of a source stay neighbours**, and the gap between them is what the layout leaves where the walk comes
to it. -/
theorem settled (h : Neighbours (lex s).tokens before a gap b behind) (hs : (lex s).fault = none) (he : b.kind ≠ .eof)
    (o : Options) : ∃ w : Walk, w.Between before a gap b ∧ ∃ before' behind',
      Neighbours (layout o (lex s).tokens) before' a (w.settle o (cellBetween a gap b)).tokens b behind' ∧
      solid before' = solid before ∧ solid behind' = solid behind := by
  obtain ⟨is, last, hreads⟩ := exists_reads hs
  obtain ⟨g, js, his, hflat⟩ := h.reads hreads he
  obtain ⟨w, hw, g', cs, hlaid⟩ := Walk.exists_between (i := ⟨g, a⟩) (j := ⟨gap, b⟩) o
    fun k hk => hreads.proper k (List.mem_append_left _ (his ▸ hk))
  rw [← his] at hlaid
  have hplace : flatten (items before) ++ g = before := by
    rw [flatten_append, flatten_cons, flatten_nil, ← List.append_assoc] at hflat
    exact List.append_cancel_right hflat
  rw [hplace] at hw
  have hcells := Walk.laid_cells (o := o) hreads.meets
  rw [hlaid] at hcells
  have hn : Neighbours (layout o (lex s).tokens)
      (cellTokens (Walk.laid o {} (gather (items before))) ++ g'.tokens) a
      (w.settle o (cellBetween a gap b)).tokens b (cellTokens cs ++ (o.ending (gather is) ++ [last.token])) := by
    refine ⟨?_, h.left, (Walk.settle_proper hw.fits).isSpace, h.right⟩
    rw [hreads.layout_eq, hlaid]
    simp [cellTokens]
  have hbefore : solid (cellTokens (Walk.laid o {} (gather (items before))) ++ g'.tokens) =
      solid before := by
    rw [solid_append, solid_spaces (hcells ⟨g', a⟩ (by simp)).1.isSpace,
      solid_cellTokens fun c hc => hcells c (List.mem_append_left _ hc), Walk.map_token_laid, map_token_gather,
      items, map_token_itemsFrom, List.append_nil]
  exact ⟨w, hw, _, _, hn, hbefore, hn.solid_behind h (solid_layout hs o) hbefore⟩

/-- Neighbours of a laid out source come from neighbours of the source. -/
theorem unsettled {before' gap' behind' : List Token} {o : Options}
    (h : Neighbours (layout o (lex s).tokens) before' a gap' b behind') (hs : (lex s).fault = none)
    (he : b.kind ≠ .eof) :
    ∃ before gap behind, Neighbours (lex s).tokens before a gap b behind ∧ solid before = solid before' ∧
      solid behind = solid behind' ∧ ∃ w : Walk, w.Between before a gap b ∧
      gap' = (w.settle o (cellBetween a gap b)).tokens := by
  obtain ⟨before, gap, behind, hsource, hbefore, hbehind⟩ := h.transfer (solid_layout hs o)
  obtain ⟨w, hw, before'', behind'', hlaid, hbefore', -⟩ := hsource.settled hs he o
  obtain ⟨-, -, hgap, -, -⟩ := h.unique hlaid (hbefore.symm.trans hbefore'.symm)
  exact ⟨before, gap, behind, hsource, hbefore, hbehind, w, hw, hgap⟩

end Neighbours

end ScillaLayout
