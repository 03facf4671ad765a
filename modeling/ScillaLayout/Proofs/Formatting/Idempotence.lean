import ScillaLayout.Proofs.Formatting.Preservation

/-!
# Formatting is idempotent

The formatted text is read back as the tokens that the layout left. Cut into cells again they have the shapes that the
layout left them with (`Reads.shape_reread`), and on such cells the layout changes nothing. So formatting a formatted
text gives it back (`format_idempotent`).
-/

namespace ScillaLayout

/-! ## Gaps that are read back -/

theorem Gap.lastBlank_breaks {ns : List Token} (hns : ∀ n ∈ ns, n.isNewline = true) (g : List Token) :
    lastBlank (ns ++ g) = lastBlank g := by
  induction ns with
  | nil => rfl
  | cons n ns ih =>
    rw [List.cons_append, lastBlank_newline (hns n List.mem_cons_self)]
    exact ih fun m hm => hns m (List.mem_cons_of_mem _ hm)

/-- Cutting the tokens of a gap gives the gap, when no line of it ends with a blank. -/
theorem Gap.ofSpaces_tokens {g : Gap} (hg : g.Proper) (htidy : g.breaks ≠ [] → g.trail = none) :
    Gap.ofSpaces g.tokens = g := by
  obtain ⟨trail, breaks, lead⟩ := g
  have hlead : ∀ b ∈ lead, b.isWhitespace = true := hg.lead
  have hbreaks : ∀ n ∈ breaks, n.isNewline = true := hg.breaks
  cases breaks with
  | nil =>
    obtain rfl : lead = none := hg.inline rfl
    cases trail with
    | none => rfl
    | some b =>
      have hb : b.isWhitespace = true := isWhitespace_of_kind (hg.trail b rfl)
      simp [ofSpaces, tokens, Option.filter_some, hb, isNewline_of_isWhitespace hb]
  | cons n ns =>
    obtain rfl : trail = none := htidy (by simp)
    have hn : n.isNewline = true := hbreaks n List.mem_cons_self
    have hfilter : ((n :: ns) ++ lead.toList).filter (·.isNewline) = n :: ns := by
      rw [List.filter_append, List.filter_eq_self.2 hbreaks]
      cases lead with
      | none => simp
      | some b => simp [isNewline_of_isWhitespace (hlead b rfl)]
    have hlast : lastBlank ((n :: ns) ++ lead.toList) = lead := by
      rw [lastBlank_breaks hbreaks]
      cases lead with
      | none => rfl
      | some b => exact lastBlank_blank (hlead b rfl)
    have hfew : (n :: ns).length ≤ 2 := hg.few
    simp only [ofSpaces, tokens, Option.toList_none, List.nil_append, hfilter, hlast, List.take_of_length_le hfew]
    simp [Option.filter_some, isWhitespace_of_isNewline hn, hn]

theorem exists_blank {ts : List Token} {b : Option Token} (hb : ∀ x ∈ b, x.isWhitespace = true)
    (h : ts.map Token.key = b.toList.map Token.asRead) :
    ∃ a : Option Token, ts = a.toList ∧ (∀ x ∈ a, x.kind = .whitespace) ∧ a.map (·.text) = b.map (·.text) := by
  cases b with
  | none => exact ⟨none, by simpa using h, by simp, rfl⟩
  | some b =>
    rw [Option.toList_some, List.map_singleton, Token.asRead_of_isWhitespace (hb b rfl)] at h
    obtain ⟨t, rfl, hkey⟩ := List.map_eq_singleton_iff.1 h
    obtain ⟨hkind, htext⟩ := Prod.mk.inj hkey
    exact ⟨some t, rfl, by simpa using hkind, by simpa using htext⟩

/-- Spaces that are read back from a gap are a gap of the same shape. -/
theorem Gap.exists_reread {ts : List Token} {g : Gap} (hg : g.Proper)
    (h : ts.map Token.key = g.tokens.map Token.asRead) :
    ∃ g' : Gap, g'.Proper ∧ ts = g'.tokens ∧ g'.shape = g.shape := by
  rw [Gap.tokens, List.map_append, List.map_append] at h
  obtain ⟨rest, ls, rfl, hrest, hls⟩ := List.map_eq_append_iff.1 h
  obtain ⟨bs, ns, rfl, hbs, hns⟩ := List.map_eq_append_iff.1 hrest
  obtain ⟨trail, rfl, htrail, htrailText⟩ := exists_blank (fun b hb => isWhitespace_of_kind (hg.trail b hb)) hbs
  obtain ⟨lead, rfl, hlead, hleadText⟩ := exists_blank hg.lead hls
  have hlen : ns.length = g.breaks.length := by simpa using congrArg List.length hns
  have hbreaks : ∀ n ∈ ns, n.isNewline = true := by
    intro n hn
    have hmem : n.key ∈ g.breaks.map Token.asRead := hns ▸ List.mem_map_of_mem hn
    obtain ⟨m, hm, hkey⟩ := List.mem_map.1 hmem
    have hk : m.kind = .newline := isNewline_iff.1 (hg.breaks m hm)
    simp only [Token.asRead, hk, Token.key] at hkey
    exact isNewline_iff.2 (congrArg Prod.fst hkey).symm
  have hblank : ∀ b ∈ lead, b.isWhitespace = true := fun b hb => isWhitespace_of_kind (hlead b hb)
  refine ⟨⟨trail, ns, lead⟩, ⟨htrail, hbreaks, hblank, hlen ▸ hg.few, ?_⟩, rfl, ?_⟩
  · intro hnil
    have hnone : g.breaks = [] := List.length_eq_zero_iff.1 (by rw [← hlen]; simpa using hnil)
    rw [hg.inline hnone] at hleadText
    simpa using hleadText
  · simp only [Gap.shape, htrailText, hlen, hleadText]

/-! ## Cells that are read back -/

/-- A blank within a line is one space, unless it follows a comment. -/
def Gap.Tight (prev : Kind) (g : Gap) : Prop := prev ≠ .comment → ∀ b ∈ g.trail, b.text = " "

theorem Gap.tight_collapsed (prev : Kind) (g : Gap) : (g.collapsed prev).Tight prev := by
  intro hprev b hb
  rw [Gap.collapsed, if_neg hprev] at hb
  obtain ⟨b', -, rfl⟩ := Option.map_eq_some_iff.1 hb
  rfl

/-- The layout keeps blanks at one space. -/
theorem Walk.tight_settle {o : Options} {w : Walk} {c : Cell} {prev : Kind} (h : c.gap.Tight prev)
    (he : c.token.kind ≠ .eof) : (w.settle o c).Tight prev := by
  intro hprev b hb
  have hout : ∀ b ∈ (w.gapOut o c.gap c.token).trail, b.text = " " := by
    intro b hb
    unfold gapOut at hb
    split at hb
    · split at hb
      · exact h hprev b hb
      · obtain rfl := Option.some.inj hb
        rfl
    · split at hb
      · unfold Gap.broken at hb
        split at hb
        · exact h hprev b hb
        · exact h hprev b hb
      · exact h hprev b hb
  rw [settle] at hb
  by_cases hbreaks : (w.gapOut o c.gap c.token).breaks = []
  · rw [Gap.finished_inline hbreaks he] at hb
    simp only [Gap.inlineTrail] at hb
    split at hb
    · cases hb
    · split at hb
      · obtain rfl := Option.some.inj hb
        rfl
      · exact hout b hb
  · rw [Gap.finished_broken hbreaks] at hb
    cases hb

/-- A gap that is read back has the shape that the layout left. -/
theorem Gap.shape_reread {i : Item} {g : Gap} {prev : Kind} (hg : g.Proper) (htidy : g.breaks ≠ [] → g.trail = none)
    (htight : g.Tight prev) (he : i.token.kind ≠ .eof) (h : i.gap.map Token.key = g.tokens.map Token.asRead) :
    (((Gap.ofSpaces i.gap).before i.token).collapsed prev).shape = g.shape := by
  obtain ⟨g', hproper, htokens, hshape⟩ := Gap.exists_reread hg h
  have halike := Gap.alike_of_shape hshape
  have htidy' : g'.breaks ≠ [] → g'.trail = none := fun hb => by
    have hnone := htidy (mt halike.breaks_nil.2 hb)
    have htrail : g'.trail.map (·.text) = g.trail.map (·.text) := congrArg (·.1) hshape
    simpa [hnone] using htrail
  have hcut : (Gap.ofSpaces i.gap).before i.token = g' := by
    rw [htokens, Gap.ofSpaces_tokens hproper htidy', Gap.before, if_neg he]
  rw [hcut, Gap.collapsed]
  split
  · exact hshape
  · next hprev =>
    have htext : g'.trail.map (·.text) = g.trail.map (·.text) := congrArg (·.1) hshape
    rw [← hshape]
    simp only [Gap.shape, Prod.mk.injEq, and_true, htext, Option.map_map]
    cases htrail : g.trail with
    | none => simp_all
    | some b =>
      rw [htrail] at htext
      obtain ⟨b', hb', -⟩ := Option.map_eq_some_iff.1 htext
      simp [hb', htight hprev b htrail]

/-- A list is cut in one way at the first token that is no layout. -/
theorem cut_unique {xs ys : List (Kind × String)} (hxs : ∀ x ∈ xs, x.1.isLayout = true)
    (hys : ∀ y ∈ ys, y.1.isLayout = true) {a b : Kind × String} (ha : a.1.isLayout = false) (hb : b.1.isLayout = false)
    {r r' : List (Kind × String)} (h : xs ++ a :: r = ys ++ b :: r') : xs = ys ∧ a = b ∧ r = r' := by
  induction xs generalizing ys with
  | nil =>
    cases ys with
    | nil => exact ⟨rfl, List.cons.inj h⟩
    | cons y ys =>
      obtain rfl : a = y := (List.cons.inj h).1
      rw [hys a List.mem_cons_self] at ha
      cases ha
  | cons x xs ih =>
    cases ys with
    | nil =>
      obtain rfl : x = b := (List.cons.inj h).1
      rw [hxs x List.mem_cons_self] at hb
      cases hb
    | cons y ys =>
      obtain ⟨rfl, htail⟩ := List.cons.inj h
      obtain ⟨rfl, hab, hr⟩ := ih (fun z hz => hxs z (List.mem_cons_of_mem _ hz))
        (fun z hz => hys z (List.mem_cons_of_mem _ hz)) htail
      exact ⟨rfl, hab, hr⟩

/-- An item that was read: blanks and line breaks before a token that is neither. -/
def Item.IsRead (i : Item) : Prop := (∀ t ∈ i.gap, t.key.1.isLayout = true) ∧ i.token.isSpace = false

theorem isLayout_map_asRead {ts : List Token} (h : ∀ t ∈ ts, t.isSpace = true) :
    ∀ x ∈ ts.map Token.asRead, x.1.isLayout = true := by
  intro x hx
  obtain ⟨t, ht, rfl⟩ := List.mem_map.1 hx
  exact isLayout_asRead (h t ht)

section Reread

variable {js : List Item} {g e : List Token}

/-- Nothing is read back from spaces. -/
theorem reread_nil (hjs : ∀ j ∈ js, j.IsRead) (he : ∀ t ∈ e, t.isSpace = true)
    (h : (flatten js ++ g).map Token.key = e.map Token.asRead) : js = [] := by
  cases js with
  | nil => rfl
  | cons j js =>
    have hmem : j.token.key ∈ e.map Token.asRead := by
      rw [← h]
      simp
    have hlayout := isLayout_map_asRead he _ hmem
    rw [isLayout_eq_false (hjs j List.mem_cons_self).2] at hlayout
    cases hlayout

/-- The first item that is read back from cells is read from the first cell. -/
theorem reread_cons (hjs : ∀ j ∈ js, j.IsRead) (hg : ∀ t ∈ g, t.key.1.isLayout = true) {gap : Gap} {t : Token}
    {cs : List Cell} (hgap : gap.Proper) (htoken : t.isSpace = false)
    (h : (flatten js ++ g).map Token.key = (cellTokens (⟨gap, t⟩ :: cs) ++ e).map Token.asRead) :
    ∃ j js', js = j :: js' ∧ j.gap.map Token.key = gap.tokens.map Token.asRead ∧ j.token.key = t.key ∧
      (flatten js' ++ g).map Token.key = (cellTokens cs ++ e).map Token.asRead := by
  have hkey := isLayout_eq_false htoken
  have hcell : (cellTokens (⟨gap, t⟩ :: cs) ++ e).map Token.asRead =
      gap.tokens.map Token.asRead ++ t.key :: (cellTokens cs ++ e).map Token.asRead := by
    simp [Token.asRead_of_not_isSpace htoken]
  rw [hcell] at h
  cases js with
  | nil =>
    have hmem : t.key ∈ g.map Token.key := by
      rw [flatten_nil, List.nil_append] at h
      rw [h]
      simp
    obtain ⟨u, hu, hukey⟩ := List.mem_map.1 hmem
    rw [← hukey, hg u hu] at hkey
    cases hkey
  | cons j js =>
    obtain ⟨hspaces, hread⟩ := hjs j List.mem_cons_self
    rw [flatten_cons, List.append_assoc, List.cons_append, List.map_append, List.map_cons] at h
    have hlayout : ∀ x ∈ j.gap.map Token.key, x.1.isLayout = true := by
      intro x hx
      obtain ⟨u, hu, rfl⟩ := List.mem_map.1 hx
      exact hspaces u hu
    obtain ⟨hcut, hsame, hrest⟩ :=
      cut_unique hlayout (isLayout_map_asRead hgap.isSpace) (isLayout_eq_false hread) hkey h
    exact ⟨j, js, rfl, hcut, hsame, hrest⟩

/-- Cells that are read back have the shapes that the layout left. `g` and `e` stand behind the last cell. -/
theorem shape_gatherFrom {o : Options} {w : Walk} {prev : Kind} {is : List Item} (hjs : ∀ j ∈ js, j.IsRead)
    (hg : ∀ t ∈ g, t.key.1.isLayout = true) (he : ∀ t ∈ e, t.isSpace = true) (hmeets : w.Meets (gatherFrom prev is))
    (heof : ∀ c ∈ gatherFrom prev is, c.token.kind ≠ .eof)
    (h : (flatten js ++ g).map Token.key = (cellTokens (w.laid o (gatherFrom prev is)) ++ e).map Token.asRead) :
    (gatherFrom prev js).map Cell.shape = (w.laid o (gatherFrom prev is)).map Cell.shape := by
  induction is generalizing js w prev with
  | nil =>
    obtain rfl := reread_nil hjs he h
    rfl
  | cons i is ih =>
    have hne := heof _ List.mem_cons_self
    have hproper := Walk.settle_proper (o := o) hmeets.fits
    obtain ⟨j, js, rfl, hgap, hkey, hrest⟩ := reread_cons hjs hg hproper hmeets.fits.token h
    have hkind : j.token.kind = i.token.kind := congrArg Prod.fst hkey
    have htight := Walk.tight_settle (o := o) (w := w) (Gap.tight_collapsed prev _) hne
    have hshape := Gap.shape_reread hproper (Walk.settle_tidy o w _) htight (hkind ▸ hne) hgap
    have htail := ih (fun j hj => hjs j (List.mem_cons_of_mem _ hj)) (hmeets.visit (o := o))
      (fun c hc => heof c (List.mem_cons_of_mem _ hc)) hrest
    rw [gatherFrom, gatherFrom, Walk.laid, List.map_cons, List.map_cons, hkind, htail]
    simp only [Cell.shape, hshape, hkey]

end Reread

/-! ## Formatting twice -/

namespace Reads

variable {o : Options} {s f : String} {is js : List Item} {last last' : Item}

/-- No token of a source is made-up indentation. -/
theorem isLayout (h : Reads s is last) {t : Token} (ht : t ∈ flatten is ++ last.gap) (hs : t.isSpace = true) :
    t.key.1.isLayout = true := by
  rw [← h.asRead t ht]
  exact isLayout_asRead hs

theorem isRead (h : Reads s is last) : ∀ i ∈ is, i.IsRead := by
  intro i hi
  obtain ⟨hspaces, htoken⟩ := h.spaces i (List.mem_append_left _ hi)
  refine ⟨fun t ht => h.isLayout ?_ (hspaces t ht), htoken⟩
  exact List.mem_append_left _ (mem_flatten_of_mem_gap hi ht)

/-- A formatted text that is read back has cells of the shapes that the layout left. -/
theorem shape_reread (h : Reads s is last) (h' : Reads f js last')
    (hkeys : (lex f).tokens.map Token.key =
      (cellTokens (Walk.laid o {} (gather is)) ++ o.ending (gather is)).map Token.asRead ++ [Lexed.endKey]) :
    (gather js).map Cell.shape = (Walk.laid o {} (gather is)).map Cell.shape := by
  rw [h'.map_key, List.map_congr_left h'.asRead] at hkeys
  have hsame := List.append_cancel_right hkeys
  have hend : ∀ t ∈ last'.gap, t.key.1.isLayout = true := fun t ht =>
    h'.isLayout (List.mem_append_right _ ht) ((h'.spaces last' (by simp)).1 t ht)
  have hspace := o.ending_isSpace (gather is)
  have hmeets := h.meets
  have heof := h.kind_ne_eof
  cases is with
  | nil =>
    obtain rfl := reread_nil h'.isRead hspace hsame
    rfl
  | cons i is =>
    -- nothing stands before the first token, neither in the source nor in what the layout leaves
    have hfirst := Walk.settle_fresh (o := o) hmeets.ready hmeets.fits rfl
    obtain ⟨j, js, rfl, -, hkey, hrest⟩ :=
      reread_cons h'.isRead hend (Walk.settle_proper hmeets.fits) hmeets.fits.token hsame
    have htail := shape_gatherFrom (fun j hj => h'.isRead j (List.mem_cons_of_mem _ hj)) hend hspace
      (Walk.Meets.visit (o := o) hmeets) (fun c hc => heof c (List.mem_cons_of_mem _ hc)) hrest
    have hkind : j.token.kind = i.token.kind := congrArg Prod.fst hkey
    rw [gather, gather, Walk.laid, List.map_cons, List.map_cons, hkind, htail]
    simp only [Cell.shape, hkey, hfirst]

end Reads

/-- A formatted text is formatted to itself. -/
theorem format_format {o : Options} (ho : o.Plain) {s f : String} (h : format o s = .ok f) : format o f = .ok f := by
  obtain ⟨is, last, hreads⟩ := exists_reads (fault_of_format h)
  obtain ⟨f', hf', hfault, hkeys⟩ := hreads.lex_format ho
  obtain rfl : f' = f := Except.ok.inj (hf'.symm.trans h)
  obtain ⟨js, last', hagain⟩ := exists_reads hfault
  have hshape := hreads.shape_reread hagain hkeys
  have hlaid := Walk.laid_again Walk.marked_start rfl hreads.meets hagain.meets hreads.kind_ne_eof hshape
  exact (hagain.format_congr hreads hlaid).trans h

/-- **Formatting is idempotent.** -/
theorem format_idempotent {o : Options} (ho : o.Plain) {s f : String} (h : format o s = .ok f) :
    format o f = .ok f ∧ isFormatted o f = .ok true := by
  have hformat := format_format ho h
  exact ⟨hformat, by simp [isFormatted, hformat, Except.map]⟩

/-- A field with a clause in its type that goes on for lines, and a comment that keeps its place. -/
theorem format_idempotent_field :
    format { newline := "\r", indentUnit := "\t" }
          "field x : ByStr20 with\n end=match m with\n| A=>b\nend\n\n\n  (*c*)" =
        .ok "field x: ByStr20 with end =\r      match m with\r      | A => b\r      end\r\r  (*c*)\r" ∧
      format { newline := "\r", indentUnit := "\t" }
          "field x: ByStr20 with end =\r      match m with\r      | A => b\r      end\r\r  (*c*)\r" =
        .ok "field x: ByStr20 with end =\r      match m with\r      | A => b\r      end\r\r  (*c*)\r" := by
  have hfirst : format { newline := "\r", indentUnit := "\t" }
      "field x : ByStr20 with\n end=match m with\n| A=>b\nend\n\n\n  (*c*)" =
      .ok "field x: ByStr20 with end =\r      match m with\r      | A => b\r      end\r\r  (*c*)\r" := by decide +kernel
  exact ⟨hfirst, (format_idempotent ⟨by simp, by decide⟩ hfirst).1⟩

end ScillaLayout
