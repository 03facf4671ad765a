import ScillaLayout.Proofs.Formatting.Neighbours
import ScillaLayout.Proofs.Layout.Alignment

/-!
# Fields

The lines of a field declaration stand under the name of the field. The walk measures where the name stands while it
goes on writing, and the rules behind it still change the document: `fields_align` says that the lines stand where the
name is in the end, whatever measure of text is used.

The measure is kept in the `Mark` of the walk. It only counts what follows the keyword, and no later rule changes that
up to the name (`Walk.foldl_push_settle`), so the mark can be read off the laid out cells (`Walk.DeclaredAt`).
-/

namespace ScillaLayout

/-! ## Cells and tokens -/

/-- A token that is no space is the token of a cell. -/
theorem exists_cell {cs : List Cell} (hcs : Cells cs) {gap : List Token} (hgap : ∀ t ∈ gap, t.isSpace = true)
    {before behind : List Token} {t : Token} (ht : t.isSpace = false)
    (h : cellTokens cs ++ gap = before ++ t :: behind) :
    ∃ front c back, cs = front ++ c :: back ∧ before = cellTokens front ++ c.gap.tokens ∧ t = c.token ∧
      behind = cellTokens back ++ gap := by
  induction cs generalizing before with
  | nil =>
    have hmem : t ∈ gap := by
      rw [show gap = before ++ t :: behind from h]
      simp
    rw [hgap t hmem] at ht
    cases ht
  | cons c cs ih =>
    obtain ⟨hc, hspace⟩ := hcs c List.mem_cons_self
    rw [cellTokens_cons, List.append_assoc, List.cons_append] at h
    have hfirst : ∀ rest, c.token :: rest = t :: behind → c.token = t ∧ rest = behind := fun rest h => List.cons.inj h
    obtain ⟨mid, rfl, hrest⟩ | ⟨mid, hmid, hrest⟩ := List.append_eq_append_iff.1 h
    · cases mid with
      | nil =>
        obtain ⟨rfl, rfl⟩ := hfirst _ hrest
        exact ⟨[], c, cs, rfl, by simp, rfl, rfl⟩
      | cons u mid =>
        obtain ⟨rfl, htail⟩ := List.cons.inj hrest
        obtain ⟨front, d, back, rfl, rfl, rfl, rfl⟩ := ih (fun d hd => hcs d (List.mem_cons_of_mem _ hd)) htail
        exact ⟨c :: front, d, back, rfl, by simp, rfl, rfl⟩
    · cases mid with
      | nil =>
        obtain ⟨rfl, rfl⟩ := hfirst _ hrest.symm
        exact ⟨[], c, cs, rfl, by simpa using hmid.symm, rfl, rfl⟩
      | cons u mid =>
        obtain ⟨rfl, -⟩ := List.cons.inj hrest
        rw [hc.isSpace t (by rw [hmid]; simp)] at ht
        cases ht

namespace Walk

variable {o : Options} {w : Walk}

/-- No field is declared inside of an address clause. -/
theorem field_inlineStack {k : Kind} (h : Block.field ∈ w.inlineStack k) : Block.field ∈ w.stack := by
  unfold inlineStack at h
  split at h
  · cases haddress : w.out.sight.address <;> simpa [haddress] using h
  · exact (Stack.dropThrough_suffix _ _).subset h
  · exact h

theorem lineStack_suffix (w : Walk) (g : Gap) (t : Token) :
    (if w.breaksAt g t then w.endLine else w).stack <:+ w.stack := by
  split
  · exact endLine_suffix w
  · exact List.suffix_rfl

/-- A field declaration that is open when a token has been entered was open before. -/
theorem field_entry {g : Gap} {t : Token} (h : Block.field ∈ (w.entry o g t).1.stack) :
    Block.field ∈ w.stack ∧ ¬w.entryClears g t = true := by
  have hclears : ¬w.entryClears g t = true := fun hclears => List.ne_nil_of_mem h (enter_clears hclears)
  refine ⟨?_, hclears⟩
  obtain hopens | ⟨-, hbefore⟩ := (enters o _ t.kind).field (List.mem_append_right _ h)
  · have hk : t.kind = .kwField := enter_opens_field.1 hopens
    exact absurd (by simp [entryClears, clears, hk, Kind.isTopLevel]) hclears
  · exact (lineStack_suffix w g t).subset hbefore

/-- At the start of a document no block is open. -/
theorem entered_start (o : Options) (k : Kind) : (entered o {} k).1.stack = [] := enter_nil rfl k

variable [Text.Measure]

/-- The walk behind cells from the start of a document. -/
def past (o : Options) (cs : List Cell) : Walk := cs.foldl (visit o) {}

theorem past_concat (o : Options) (cs : List Cell) (c : Cell) : past o (cs ++ [c]) = (past o cs).visit o c := by
  simp [past]

theorem run_cellTokens (o : Options) (cs : List Cell) : run o (cellTokens cs) = past o cs := by
  rw [run, cellTokens, List.foldl_flatMap]
  rfl

theorem Meets.past {cs ds : List Cell} (h : Meets {} (cs ++ ds)) : (past o cs).Meets ds := h.foldl_visit

theorem past_out_eq_nil {cs : List Cell} (h : Meets {} cs) : (past o cs).out = [] ↔ cs = [] := by
  rw [← run_cellTokens, run, out_foldl_step h]
  cases cs <;> simp [written]

theorem marked_past {cs : List Cell} (h : Meets {} cs) (he : ∀ c ∈ cs, c.token.kind ≠ .eof) : (past o cs).Marked := by
  obtain rfl | ⟨cs, c, rfl⟩ := List.eq_nil_or_concat' cs
  · exact marked_start
  · have hlast : (past o cs).Meets [c] := h.past
    rw [past_concat]
    exact Marked.visit hlast.ready hlast.fits (he c (by simp))

/-- Gaps neither open nor close an address clause. -/
theorem clause_foldl_gap {g : Gap} (hg : g.Proper) (hw : w.Ready) : (g.tokens.foldl (step o) w).clause = w.clause := by
  cases hc : w.clause with
  | none =>
    rw [foldl_gap hg hc hw.joined, withOut_clause]
    split
    · exact hc
    · exact (endLine_frame w).2.1.trans hc
  | some base =>
    rw [foldl_gap_inline hg hw hc]
    split <;> exact hc

/-- Where the walk stands in the gap before a cell, it is in an address clause if it was before the gap. -/
theorem clause_run {front back : List Cell} {c : Cell} (h : Meets {} (front ++ c :: back)) :
    (run o (cellTokens front ++ c.gap.tokens)).clause = (past o front).clause := by
  have hnext : (past o front).Meets (c :: back) := h.past
  rw [run_append, run_cellTokens, clause_foldl_gap hnext.fits.gap hnext.ready]

/-! ## The keyword of the field that is declared -/

/-- A field declaration that is open behind a cell was opened by its token, or it was open before and its mark has
moved on. -/
theorem field_visit {c : Cell} (hw : w.Ready) (hf : w.Fits c) (h : Block.field ∈ (w.visit o c).stack) :
    w.clause = none ∧ c.token.kind = .kwField ∨
      (w.clause = none → c.token.kind ≠ .kwField) ∧ Block.field ∈ w.stack ∧
        (w.visit o c).mark = ((w.gapOut o c.gap c.token).tokens ++ [c.token]).foldl Mark.push w.mark := by
  rw [mark_visit hw hf, markAfter]
  by_cases ht : c.token.isCode = true
  · cases hc : w.clause with
    | none =>
      by_cases hk : c.token.kind = .kwField
      · exact .inl ⟨rfl, hk⟩
      · right
        rw [(visit_code hf.gap hw hc hf.fresh ht).2.1, List.mem_append] at h
        have hopens : (w.entry o c.gap c.token).2.opens ≠ some .field := fun h => hk (enter_opens_field.1 h)
        have hentry : Block.field ∈ (w.entry o c.gap c.token).1.stack :=
          h.resolve_left (by simpa using hopens)
        obtain ⟨hbefore, hclears⟩ := field_entry hentry
        exact ⟨fun _ => hk, hbefore, by simp [hk, hclears]⟩
    | some base =>
      right
      rw [(visit_inline hf.gap hw hc ht).2.1] at h
      exact ⟨fun hnone => (by cases hnone), field_inlineStack h, by simp⟩
  · have hk : c.token.kind ≠ .kwField := fun hk => ht (by simp [Token.isCode, hk, Kind.isCode])
    rw [(visit_trivia hf.gap hw (by simpa using ht) hf.token).2.1] at h
    exact .inr ⟨fun _ => hk, (lineStack_suffix w _ _).subset h, by simp [ht, hk]⟩

/-- The token of `c`, between the cells `front` and `back`, is the keyword of the field that is being declared behind
them: the last one outside of address clauses. Its mark can be read off the laid out cells. -/
structure DeclaredAt (o : Options) (front : List Cell) (c : Cell) (back : List Cell) : Prop where
  keyword : c.token.kind = .kwField
  outside : (past o front).clause = none
  last : ∀ mid d rest, back = mid ++ d :: rest → d.token.kind = .kwField → (past o (front ++ c :: mid)).clause ≠ none
  mark : (past o (front ++ c :: back)).mark = (cellTokens ((past o (front ++ [c])).laid o back)).foldl Mark.push
    (.seeking (Text.Measure.width c.token.text))

/-- The keyword, right behind it. -/
theorem declaredAt_start {front : List Cell} {c : Cell} (hm : Meets {} (front ++ [c]))
    (hc : (past o front).clause = none) (hk : c.token.kind = .kwField) : DeclaredAt o front c [] := by
  have hnext : (past o front).Meets [c] := hm.past
  refine ⟨hk, hc, fun mid d rest h => by simp at h, ?_⟩
  rw [past_concat, mark_visit hnext.ready hnext.fits]
  simp [markAfter, hc, hk, laid]

/-- One more cell behind the keyword. -/
theorem DeclaredAt.concat {front back : List Cell} {c d : Cell} (h : DeclaredAt o front c back)
    (hm : Meets {} (front ++ c :: back ++ [d])) (he : ∀ x ∈ front ++ c :: back ++ [d], x.token.kind ≠ .eof)
    (hk : (past o (front ++ c :: back)).clause = none → d.token.kind ≠ .kwField)
    (hmark : (past o (front ++ c :: back ++ [d])).mark =
      (((past o (front ++ c :: back)).gapOut o d.gap d.token).tokens ++ [d.token]).foldl Mark.push
        (past o (front ++ c :: back)).mark) :
    DeclaredAt o front c (back ++ [d]) := by
  have hplace : (past o (front ++ [c])).laid o (back ++ [d]) =
      (past o (front ++ [c])).laid o back ++ [⟨(past o (front ++ c :: back)).settle o d, d.token⟩] := by
    rw [laid_append]
    simp [past, laid]
  have hnext : (past o (front ++ c :: back)).Meets [d] := hm.past
  have hseen : (past o (front ++ c :: back)).Marked :=
    marked_past hm.left fun x hx => he x (List.mem_append_left _ hx)
  refine ⟨h.keyword, h.outside, fun mid d' rest hback hd => ?_, ?_⟩
  · obtain rfl | ⟨rest, x, rfl⟩ := List.eq_nil_or_concat' rest
    · obtain ⟨rfl, hsame⟩ := List.append_inj' hback rfl
      obtain rfl : d = d' := by simpa using hsame
      exact fun hnone => hk hnone hd
    · have hback : back ++ [d] = (mid ++ d' :: rest) ++ [x] := by simpa using hback
      exact h.last mid d' rest (List.append_inj' hback rfl).1 hd
  · -- the rules behind the walk leave the name of the field where the walk has put it
    rw [← List.cons_append, ← List.append_assoc, hmark, foldl_push_settle hseen hnext.fits (he d (by simp)), h.mark,
      hplace]
    simp [cellTokens, List.foldl_append]

/-- **An open field declaration** has its keyword among the cells. -/
theorem exists_declaredAt {cs : List Cell} (hm : Meets {} cs) (he : ∀ c ∈ cs, c.token.kind ≠ .eof)
    (h : Block.field ∈ (past o cs).stack) : ∃ front c back, cs = front ++ c :: back ∧ DeclaredAt o front c back := by
  induction cs using List.reverseRecOn with
  | nil => cases h
  | append_singleton cs d ih =>
    have hnext : (past o cs).Meets [d] := hm.past
    rw [past_concat] at h
    obtain ⟨hc, hk⟩ | ⟨hk, hbefore, hmark⟩ := field_visit hnext.ready hnext.fits h
    · exact ⟨cs, d, [], rfl, declaredAt_start hm hc hk⟩
    · obtain ⟨front, c, back, rfl, hdecl⟩ := ih hm.left (fun x hx => he x (List.mem_append_left _ hx)) hbefore
      refine ⟨front, c, back ++ [d], by simp, hdecl.concat hm he hk ?_⟩
      rw [past_concat, hmark]

/-- Behind the tokens `before`, the token `t` opens the block of a field, and no later `field` outside of address
clauses does: it is the keyword of the field that is being declared behind `before ++ t :: behind`. -/
structure Declares (o : Options) (before : List Token) (t : Token) (behind : List Token) : Prop where
  keyword : t.kind = .kwField
  outside : (run o before).clause = none
  opened : (run o (before ++ [t])).stack = [.field]
  last : ∀ mid u rest, behind = mid ++ u :: rest → u.kind = .kwField → (run o (before ++ t :: mid)).clause ≠ none

theorem DeclaredAt.declares {front back : List Cell} {c : Cell} (h : DeclaredAt o front c back)
    (hm : Meets {} (front ++ c :: back)) {gap : List Token} (hgap : ∀ t ∈ gap, t.isSpace = true) :
    Declares o (cellTokens front ++ c.gap.tokens) c.token (cellTokens back ++ gap) := by
  have hnext : (past o front).Meets (c :: back) := hm.past
  have hcode : c.token.isCode = true := by simp [Token.isCode, h.keyword, Kind.isCode]
  refine ⟨h.keyword, (clause_run hm).trans h.outside, ?_, fun mid u rest hback hu => ?_⟩
  · have hrun : run o (cellTokens front ++ c.gap.tokens ++ [c.token]) = (past o front).visit o c := by
      rw [List.append_assoc, run_append, run_cellTokens]
      rfl
    rw [hrun, (visit_code hnext.fits.gap hnext.ready h.outside hnext.fits.fresh hcode).2.1, entry, h.keyword]
    rfl
  · have hspace : u.isSpace = false := by simp [Token.isSpace, hu, Kind.isSpace]
    have hback' : Cells back := fun d hd => hm.cells d (by simp [hd])
    obtain ⟨mid, d, rest, rfl, rfl, rfl, -⟩ := exists_cell hback' hgap hspace hback
    have hclause : (run o (cellTokens (front ++ c :: mid) ++ d.gap.tokens)).clause =
        (past o (front ++ c :: mid)).clause := clause_run (by simpa using hm)
    have htokens : cellTokens front ++ c.gap.tokens ++ c.token :: (cellTokens mid ++ d.gap.tokens) =
        cellTokens (front ++ c :: mid) ++ d.gap.tokens := by simp [cellTokens]
    rw [htokens, hclause]
    exact h.last mid d rest rfl hu

end Walk

/-! ## Where the name stands -/

/-- Where the name of a field stands, when its keyword comes behind the tokens `front` and `behind` follow it: the first
code token behind the keyword is the name if it can name a field and stands on the line of the keyword, and the column
is the width of all that stands before it on this line. -/
def nameColumn [Text.Measure] (front : List Token) (keyword : Token) (behind : List Token) : Nat :=
  let gap := behind.takeWhile (!·.isCode)
  match behind.dropWhile (!·.isCode) with
  | name :: _ =>
    if name.kind.namesField && gap.all (!·.isNewline) then Before.lineWidth (front ++ keyword :: gap).reverse else 0
  | [] => 0

/-- Behind a keyword that starts its line, the mark is the column of the name. -/
theorem nameColumn_eq [Text.Measure] {front : List Token} {keyword : Token}
    (h : Before.lineWidth (keyword :: front.reverse) = Text.Measure.width keyword.text) (behind : List Token) :
    nameColumn front keyword behind =
      (behind.foldl Mark.push (.seeking (Text.Measure.width keyword.text))).width := by
  rw [Walk.width_foldl_seeking, nameColumn]
  cases behind.dropWhile (!·.isCode) with
  | nil => rfl
  | cons name rest =>
    simp only
    split
    · next hname =>
      simp only [Bool.and_eq_true, List.all_eq_true, Bool.not_eq_true'] at hname
      have hreverse : (front ++ keyword :: behind.takeWhile (!·.isCode)).reverse =
          (behind.takeWhile (!·.isCode)).reverse ++ keyword :: front.reverse := by simp
      rw [hreverse, Walk.lineWidth_append (by simpa using hname.2), h, List.foldr_reverse]
    · rfl

namespace Walk

variable [Text.Measure] {o : Options} {front back : List Cell} {c : Cell}

/-- The laid out document up to the token of a cell. -/
def laidBefore (o : Options) (front : List Cell) (c : Cell) : List Token :=
  cellTokens (laid o {} front) ++ ((past o front).settle o c).tokens

/-- The layout keeps the tokens that are no spaces. -/
theorem solid_laidBefore (hm : Meets {} (front ++ c :: back)) :
    solid (cellTokens front ++ c.gap.tokens) = solid (laidBefore o front c) := by
  have hnext : (past o front).Meets (c :: back) := hm.past
  rw [laidBefore, solid_append, solid_append, solid_spaces hnext.fits.gap.isSpace,
    solid_spaces (settle_proper hnext.fits).isSpace, solid_cellTokens hm.left.cells,
    solid_cellTokens (laid_cells hm.left), map_token_laid]

/-- In the laid out document the keyword of a field starts a line that is not indented. -/
theorem lineWidth_keyword (hm : Meets {} (front ++ [c])) (hc : (past o front).clause = none)
    (hk : c.token.kind = .kwField) :
    Before.lineWidth (c.token :: (laidBefore o front c).reverse) = Text.Measure.width c.token.text := by
  have hcode : c.token.isCode = true := by simp [Token.isCode, hk, Kind.isCode]
  have hnext : (past o front).Meets [c] := hm.past
  refine lineWidth_first (isNewline_of_isCode hcode) ?_
  by_cases hb : (past o front).breaksAt c.gap c.token = true
  · have hnil : ((past o front).entry o c.gap c.token).1.stack = [] := by
      rw [entry, hk]
      rfl
    have hproper : ((past o front).settle o c).Proper := settle_proper hnext.fits
    rw [settle_code hcode hb, indentation_nil hnil] at hproper
    obtain ⟨n, ns, hr, hn⟩ := hproper.reverse_breaks (c.gap.settledBreaks_ne_nil o)
    rw [laidBefore, settle_code hcode hb, indentation_nil hnil, List.reverse_append, Gap.tokens_reverse, hr]
    simp [Before.line, hn]
  · have hout := hnext.ready.out_of_not_breaksAt hc hcode (by rw [hk]; rfl) hb
    obtain rfl := (past_out_eq_nil hm.left).1 hout
    rw [laidBefore, settle_fresh hnext.ready hnext.fits hout]
    rfl

/-- The indentation of a line is that of its margin. -/
theorem toList_indentation_eq (w : Walk) (dedent : Nat) :
    (w.indentation o dedent).toList = Margin.tokens o ⟨w.padding, w.stack.units - dedent⟩ := by
  simp only [indentation, Margin.tokens]
  split <;> rfl

/-- **The mark behind the keyword** is the column of the name in the laid out document. Tokens without code do not move
it. -/
theorem DeclaredAt.width_mark (h : DeclaredAt o front c back) (hm : Meets {} (front ++ c :: back)) {ns : List Token}
    (hns : ∀ n ∈ ns, n.isCode = false) :
    (past o (front ++ c :: back)).mark.width = nameColumn (laidBefore o front c) c.token
      (cellTokens ((past o (front ++ [c])).laid o back) ++ ns) := by
  have hkeyword : Meets {} (front ++ [c]) := by
    have hm' : Meets {} ((front ++ [c]) ++ back) := by simpa using hm
    exact hm'.left
  rw [nameColumn_eq (lineWidth_keyword hkeyword h.outside h.keyword), List.foldl_append, Mark.width_foldl hns, h.mark]

/-- The blocks that are open where a token of a cell has been entered. -/
theorem entered_run (hm : Meets {} (front ++ c :: back)) (hc : (past o front).clause = none)
    (ht : c.token.isCode = true) :
    ((run o (cellTokens front ++ c.gap.tokens)).entered o c.token.kind).1.stack =
        ((past o front).entry o c.gap c.token).1.stack ∧
      ((run o (cellTokens front ++ c.gap.tokens)).entered o c.token.kind).2 =
        ((past o front).entry o c.gap c.token).2 := by
  have hnext : (past o front).Meets (c :: back) := hm.past
  obtain ⟨v, henter, -, hstack, -⟩ := enter_breakLine (o := o) hnext.fits.gap hnext.ready hc ht
  rw [run_append, run_cellTokens, entered, henter]
  exact ⟨hstack, rfl⟩

/-- A token that starts a line of the laid out document is the first one, or the walk has started a line there. -/
theorem breaksAt_of_isLineStart (hm : Meets {} (front ++ c :: back)) (hne : front ≠ [])
    (h : Before.isLineStart (laidBefore o front c).reverse = true) :
    (past o front).breaksAt c.gap c.token = true := by
  have hnext : (past o front).Meets (c :: back) := hm.past
  have hproper : ((past o front).settle o c).Proper := settle_proper hnext.fits
  by_contra hb
  have hnil : ((past o front).settle o c).breaks = [] := by
    rw [settle, Gap.finished_breaks, (gapOut_proper hnext.fits.gap c.token).2.2 hb, List.map_nil]
  obtain ⟨front, d, rfl⟩ := (List.eq_nil_or_concat' front).resolve_left hne
  have hd : d.token.isSpace = false := (hm.cells d (by simp)).2
  rw [laidBefore, List.reverse_append, Before.isLineStart_eq, hproper.sight, if_pos hnil, ← Before.isLineStart_eq,
    laid_append] at h
  simp [laid, cellTokens, Before.isLineStart_cons hd] at h

/-- **A line of a field declaration** stands under the name of the field. -/
theorem DeclaredAt.laidBefore_eq {d : Cell} {rest : List Cell} (h : DeclaredAt o front c back)
    (hm : Meets {} (front ++ c :: back ++ d :: rest)) (ht : d.token.isCode = true)
    (hb : (past o (front ++ c :: back)).breaksAt d.gap d.token = true)
    (hfield : Block.field ∈ ((past o (front ++ c :: back)).entry o d.gap d.token).1.stack) :
    laidBefore o (front ++ c :: back) d = laidBefore o front c ++ c.token ::
      (cellTokens ((past o (front ++ [c])).laid o back) ++ d.gap.settledBreaks o ++
        Margin.tokens o ⟨nameColumn (laidBefore o front c) c.token
            (cellTokens ((past o (front ++ [c])).laid o back) ++ d.gap.settledBreaks o),
          ((past o (front ++ c :: back)).entry o d.gap d.token).1.stack.units -
            ((past o (front ++ c :: back)).entry o d.gap d.token).2.dedent⟩) := by
  have hnext : (past o (front ++ c :: back)).Meets (d :: rest) := hm.past
  have hcode : ∀ n ∈ d.gap.settledBreaks o, n.isCode = false := fun n hn =>
    isCode_of_isSpace (by rw [isSpace_eq, hnext.fits.gap.settledBreaks n hn, Bool.or_true])
  have hpadding : ((past o (front ++ c :: back)).entry o d.gap d.token).1.padding =
      nameColumn (laidBefore o front c) c.token
        (cellTokens ((past o (front ++ [c])).laid o back) ++ d.gap.settledBreaks o) := by
    rw [padding_eq, if_pos hfield, mark_entry, if_neg (field_entry hfield).2, h.width_mark hm.left hcode]
  have hgap : ((past o (front ++ c :: back)).settle o d).tokens = d.gap.settledBreaks o ++
      (((past o (front ++ c :: back)).entry o d.gap d.token).1.indentation o
        ((past o (front ++ c :: back)).entry o d.gap d.token).2.dedent).toList := by
    rw [settle_code ht hb]
    rfl
  have hcells : cellTokens (laid o {} (front ++ c :: back)) =
      laidBefore o front c ++ c.token :: cellTokens ((past o (front ++ [c])).laid o back) := by
    rw [laid_append]
    simp [laid, past, laidBefore, cellTokens]
  rw [laidBefore, hcells, hgap, toList_indentation_eq, hpadding]
  simp

end Walk

/-! ## Sources -/

/-- The code tokens of a source are those of its cells. -/
theorem Reads.exists_code {s : String} {is : List Item} {last : Item} (h : Reads s is last)
    {before behind : List Token} {t : Token} (ht : t.isCode = true) (hwalk : toIndent s = before ++ t :: behind) :
    ∃ front c back, gather is = front ++ c :: back ∧ before = cellTokens front ++ c.gap.tokens ∧ t = c.token := by
  have htokens : toIndent s = cellTokens (gather (is ++ [last])) := by
    rw [← collapse_clear_collapse_removeLeading h.proper, ← h.tokens]
    rfl
  have hspace : t.isSpace = false := Kind.isSpace_eq_false_of_isCode ht
  rw [htokens, ← List.append_nil (cellTokens _)] at hwalk
  obtain ⟨front, c, back, hsplit, hbefore, rfl, -⟩ := exists_cell (gather_cells h.proper) (by simp) hspace hwalk
  obtain ⟨g, hlast⟩ := gather_concat is last
  rw [hlast] at hsplit
  obtain rfl | ⟨back, d, rfl⟩ := List.eq_nil_or_concat' back
  · -- the end mark is no code
    obtain ⟨-, hsame⟩ := List.append_inj' hsplit rfl
    obtain rfl : ⟨g, last.token⟩ = c := by simpa using hsame
    simp [Token.isCode, show last.token.kind = .eof from congrArg Prod.fst h.mark, Kind.isCode] at ht
  · have hsplit : gather is ++ [⟨g, last.token⟩] = (front ++ c :: back) ++ [d] := by simpa using hsplit
    exact ⟨front, c, back, (List.append_inj' hsplit rfl).1, hbefore, rfl⟩

/-- **Lines of a field stand under its name.** Let a line of the laid out source start with a code token that was
entered while a field was being declared. Then the keyword that opened the declaration stands before it, in the laid out
source as in the tokens that were walked, and the line starts with as many spaces as the name of the field stands to the
right in the laid out source, and then the units of its blocks. -/
theorem fields_align [Text.Measure] {s : String} (hs : (lex s).fault = none) (o : Options)
    {front rest before behind : List Token} {t : Token} (hline : layout o (lex s).tokens = front ++ t :: rest)
    (ht : t.isCode = true) (hstart : Before.isLineStart front.reverse = true)
    (hwalk : toIndent s = before ++ t :: behind) (hsame : solid before = solid front)
    (hfield : Block.field ∈ ((Walk.run o before).entered o t.kind).1.stack) :
    ∃ ahead keyword mid before' behind', before = before' ++ keyword :: behind' ∧
      Walk.Declares o before' keyword behind' ∧ solid before' = solid ahead ∧
      front = ahead ++ keyword :: (mid ++ Margin.tokens o ⟨nameColumn ahead keyword mid,
        ((Walk.run o before).entered o t.kind).1.stack.units - ((Walk.run o before).entered o t.kind).2.dedent⟩) ∧
      ∃ n ∈ mid.getLast?, n.isNewline = true := by
  obtain ⟨is, last, h⟩ := exists_reads hs
  obtain ⟨cells, c, back, hcells, rfl, rfl⟩ := h.exists_code ht hwalk
  have hm : Walk.Meets {} (cells ++ c :: back) := hcells ▸ h.meets
  have he : ∀ x ∈ cells ++ c :: back, x.token.kind ≠ .eof := hcells ▸ h.kind_ne_eof
  have hnext : (Walk.past o cells).Meets (c :: back) := hm.past
  obtain rfl : front = Walk.laidBefore o cells c := by
    have hlayout : layout o (lex s).tokens = Walk.laidBefore o cells c ++
        c.token :: (cellTokens (((Walk.past o cells).visit o c).laid o back) ++
          (o.ending (gather is) ++ [last.token])) := by
      rw [h.layout_eq, hcells, Walk.laid_append]
      simp [Walk.laid, Walk.past, Walk.laidBefore, cellTokens]
    exact (cut_solid_unique hnext.fits.token hnext.fits.token (hline.symm.trans hlayout)
      (hsame.symm.trans (Walk.solid_laidBefore hm))).1
  have hne : cells ≠ [] := by
    rintro rfl
    rw [hnext.fits.fresh rfl] at hfield
    exact List.ne_nil_of_mem hfield (Walk.entered_start o _)
  have hb := Walk.breaksAt_of_isLineStart hm hne hstart
  obtain ⟨hstack, heffect⟩ := Walk.entered_run (o := o) hm (Walk.clause_of_breaksAt hb) ht
  rw [hstack] at hfield
  rw [hstack, heffect]
  obtain ⟨pre, k, mid, rfl, hdecl⟩ := Walk.exists_declaredAt hm.left
    (fun x hx => he x (List.mem_append_left _ hx)) (Walk.field_entry hfield).1
  refine ⟨Walk.laidBefore o pre k, k.token,
    cellTokens ((Walk.past o (pre ++ [k])).laid o mid) ++ c.gap.settledBreaks o, cellTokens pre ++ k.gap.tokens,
    cellTokens mid ++ c.gap.tokens, ?_, hdecl.declares hm.left hnext.fits.gap.isSpace,
    Walk.solid_laidBefore hm.left, hdecl.laidBefore_eq hm ht hb hfield, ?_⟩
  · simp [cellTokens]
  · have hbreaks := c.gap.settledBreaks_ne_nil o
    refine ⟨_, List.getLast?_append_of_ne_nil _ hbreaks ▸ List.getLast?_eq_getLast_of_ne_nil hbreaks, ?_⟩
    exact hnext.fits.gap.settledBreaks _ (List.getLast_mem hbreaks)

/-- Two fields. The name of the second one stands behind a comment with a wide character, its type is an address type
whose clause has a field of its own, and its value has alternatives. -/
def secondField : String :=
  "field a : T = x\nfield (* 中 *) f : ByStr20 with contract\nfield g : T end =\nmatch x with | A => a\n| B => b end"

/-- Options for which an alternative has a unit of its own. -/
def deepAlternatives : Options := { indentUnit := "\t", indentAlternatives := true }

/-- The last alternative of the second field. -/
theorem fields_align_second : (lex secondField).fault = none ∧ ∃ front rest before behind t,
    layout deepAlternatives (lex secondField).tokens = front ++ t :: rest ∧ t.isCode = true ∧
      Before.isLineStart front.reverse = true ∧ toIndent secondField = before ++ t :: behind ∧
      solid before = solid front ∧
      Block.field ∈ ((Walk.run deepAlternatives before).entered deepAlternatives t.kind).1.stack ∧
      front.getLast? = some (.synthetic .indent "               \t") ∧
      ∃ ahead keyword mid before' behind', before = before' ++ keyword :: behind' ∧
        Walk.Declares deepAlternatives before' keyword behind' ∧ solid before' = solid ahead ∧
        front = ahead ++ keyword :: (mid ++ Margin.tokens deepAlternatives ⟨nameColumn ahead keyword mid,
          ((Walk.run deepAlternatives before).entered deepAlternatives t.kind).1.stack.units -
            ((Walk.run deepAlternatives before).entered deepAlternatives t.kind).2.dedent⟩) ∧
        ∃ n ∈ mid.getLast?, n.isNewline = true := by
  have hfault : (lex secondField).fault = none := by decide +kernel
  have hparts : ∃ front rest before behind t,
      layout deepAlternatives (lex secondField).tokens = front ++ t :: rest ∧ t.isCode = true ∧
        Before.isLineStart front.reverse = true ∧ toIndent secondField = before ++ t :: behind ∧
        solid before = solid front ∧
        Block.field ∈ ((Walk.run deepAlternatives before).entered deepAlternatives t.kind).1.stack ∧
        front.getLast? = some (.synthetic .indent "               \t") :=
    ⟨(layout deepAlternatives (lex secondField).tokens).take 52,
      (layout deepAlternatives (lex secondField).tokens).drop 53, (toIndent secondField).take 52,
      (toIndent secondField).drop 53, (toIndent secondField)[52]?.getD .space, by decide +kernel⟩
  obtain ⟨front, rest, before, behind, t, hline, ht, hstart, hwalk, hsame, hfield, hlast⟩ := hparts
  exact ⟨hfault, front, rest, before, behind, t, hline, ht, hstart, hwalk, hsame, hfield, hlast,
    fields_align hfault deepAlternatives hline ht hstart hwalk hsame hfield⟩

end ScillaLayout
