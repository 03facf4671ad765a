import Mathlib.Data.List.Chain
import ScillaLayout.Proofs.Formatting.Neighbours

/-!
# Laid out sources are tidy

No line of a laid out source ends with a blank, no blank follows another, made-up indentation stands between a line
break and code, and line breaks are written as the options say (`TidyDocument`). A document with tokens ends behind the
last of them, with one line break if the options ask for it, and a document without any is empty (`layout_tidy`).

`Cell.Tidy` is what the layout leaves of a cell, and `Cell.Tidy.isChain` says that tidy cells can be put one behind the
other.
-/

namespace ScillaLayout

/-! ## Tokens side by side -/

/-- What may stand side by side in a tidy document. -/
structure Adjacent (t u : Token) : Prop where
  blank : t.isWhitespace = true → u.isSpace = false ∧ u.kind ≠ .eof
  indent : t.kind = .indent → u.isCode = true
  lineStart : u.kind = .indent → t.isNewline = true

theorem isWhitespace_of_indent {t : Token} (h : t.kind = .indent) : t.isWhitespace = true := by
  rw [Token.isWhitespace, h]
  rfl

/-- A token that is no blank may stand before every token but indentation. -/
theorem Adjacent.of_not_blank {t u : Token} (ht : t.isWhitespace = false) (hu : u.kind = .indent → t.isNewline = true) :
    Adjacent t u where
  blank h := by rw [ht] at h; cases h
  indent h := by rw [isWhitespace_of_indent h] at ht; cases ht
  lineStart := hu

/-- A blank may stand before every token of the program. -/
theorem Adjacent.of_blank {t u : Token} (hs : u.isSpace = false) (he : u.kind ≠ .eof)
    (hi : t.kind = .indent → u.isCode = true) : Adjacent t u where
  blank _ := ⟨hs, he⟩
  indent := hi
  lineStart h := by rw [isSpace_eq, isWhitespace_of_indent h] at hs; cases hs

/-- A cell as the layout leaves it. -/
structure Cell.Tidy (o : Options) (c : Cell) : Prop where
  gap : c.gap.Proper
  token : c.token.isSpace = false
  kind : c.token.kind ≠ .eof
  trail : c.gap.breaks ≠ [] → c.gap.trail = none
  breaks : ∀ n ∈ c.gap.breaks, n.text = o.newline
  lead : ∀ b ∈ c.gap.lead, b.kind = .indent → c.token.isCode = true

namespace Cell.Tidy

variable {o : Options} {c : Cell} {rest : List Token}

theorem not_indent (h : c.Tidy o) : c.token.kind ≠ .indent := by
  intro hk
  have hs := h.token
  rw [isSpace_eq, isWhitespace_of_indent hk] at hs
  cases hs

/-- Behind a line break there is at most the blank that indents the line. -/
theorem isChain_lead (h : c.Tidy o) {n : Token} (hn : n.isNewline = true)
    (hrest : List.IsChain Adjacent (c.token :: rest)) :
    List.IsChain Adjacent (n :: (c.gap.lead.toList ++ c.token :: rest)) := by
  have hblank := isWhitespace_of_isNewline hn
  cases hlead : c.gap.lead with
  | none => exact .cons_cons (.of_not_blank hblank fun _ => hn) hrest
  | some b =>
    refine .cons_cons (.of_not_blank hblank fun _ => hn) (.cons_cons ?_ hrest)
    exact .of_blank h.token h.kind (h.lead b hlead)

/-- A broken gap behind a token that is no blank. -/
theorem isChain_breaks (h : c.Tidy o) (hrest : List.IsChain Adjacent (c.token :: rest)) {ns : List Token}
    (hns : ∀ n ∈ ns, n.isNewline = true) (hne : ns ≠ []) {t : Token} (ht : t.isWhitespace = false) :
    List.IsChain Adjacent (t :: (ns ++ (c.gap.lead.toList ++ c.token :: rest))) := by
  induction ns generalizing t with
  | nil => exact absurd rfl hne
  | cons n ns ih =>
    have hn : n.isNewline = true := hns n List.mem_cons_self
    have hindent : n.kind ≠ .indent := by simp [isNewline_iff.1 hn]
    refine .cons_cons (.of_not_blank ht fun hk => absurd hk hindent) ?_
    by_cases hnil : ns = []
    · subst hnil
      exact h.isChain_lead hn hrest
    · exact ih (fun m hm => hns m (List.mem_cons_of_mem _ hm)) hnil (isWhitespace_of_isNewline hn)

/-- **One more cell** behind a token that is no space. -/
theorem isChain (h : c.Tidy o) (hrest : List.IsChain Adjacent (c.token :: rest)) {t : Token} (ht : t.isSpace = false) :
    List.IsChain Adjacent (t :: (c.gap.tokens ++ c.token :: rest)) := by
  rw [isSpace_eq, Bool.or_eq_false_iff] at ht
  by_cases hb : c.gap.breaks = []
  · rw [Gap.tokens, hb, h.gap.inline hb]
    cases htrail : c.gap.trail with
    | none => exact .cons_cons (.of_not_blank ht.1 fun hk => absurd hk h.not_indent) hrest
    | some b =>
      have hkind : b.kind ≠ .indent := by simp [h.gap.trail b htrail]
      refine .cons_cons (.of_not_blank ht.1 fun hk => absurd hk hkind) (.cons_cons ?_ hrest)
      exact .of_blank h.token h.kind fun hk => absurd hk hkind
  · rw [Gap.tokens, h.trail hb]
    simpa using h.isChain_breaks hrest h.gap.breaks hb ht.1

/-- The line breaks of a tidy gap are written as the options say. -/
theorem newline (h : c.Tidy o) : ∀ t ∈ c.gap.tokens, t.isNewline = true → t.text = o.newline := by
  intro t ht hn
  simp only [Gap.tokens, List.mem_append, Option.mem_toList] at ht
  rcases ht with (ht | ht) | ht
  · rw [isNewline_of_isWhitespace (isWhitespace_of_kind (h.gap.trail t ht))] at hn
    cases hn
  · exact h.breaks t ht
  · rw [isNewline_of_isWhitespace (h.gap.lead t ht)] at hn
    cases hn

end Cell.Tidy

/-- The end of a document behind a token that is no space. -/
theorem isChain_ending (o : Options) (cs : List Cell) {t mark : Token} (ht : t.isSpace = false)
    (hmark : mark.kind = .eof) : List.IsChain Adjacent (t :: (o.ending cs ++ [mark])) := by
  rw [isSpace_eq, Bool.or_eq_false_iff] at ht
  have hindent : mark.kind ≠ .indent := by simp [hmark]
  unfold Options.ending
  split
  · refine .cons_cons (.of_not_blank ht.1 ?_) (.cons_cons (.of_not_blank rfl ?_) (.singleton _))
    · intro hk
      cases hk
    · exact fun hk => absurd hk hindent
  · exact .cons_cons (.of_not_blank ht.1 fun hk => absurd hk hindent) (.singleton _)

/-- **All cells** behind a token that is no space. -/
theorem isChain_cellTokens {o : Options} {cs : List Cell} (h : ∀ c ∈ cs, c.Tidy o) {rest : List Token}
    (hrest : ∀ u : Token, u.isSpace = false → List.IsChain Adjacent (u :: rest)) {t : Token} (ht : t.isSpace = false) :
    List.IsChain Adjacent (t :: (cellTokens cs ++ rest)) := by
  induction cs generalizing t with
  | nil => exact hrest t ht
  | cons c cs ih =>
    have hc := h c List.mem_cons_self
    rw [cellTokens_cons, List.append_assoc, List.cons_append]
    exact hc.isChain (ih (fun d hd => h d (List.mem_cons_of_mem _ hd)) hc.token) ht

/-! ## What the layout leaves -/

namespace Walk

variable {o : Options} {w : Walk}

/-- The blank that indents a line without code comes from the source. -/
theorem lead_settle {c : Cell} (he : c.token.kind ≠ .eof) (ht : c.token.isCode = false) :
    (w.settle o c).lead = none ∨ (w.settle o c).lead = c.gap.lead := by
  have hkeep : (w.settle o c).lead = (w.gapOut o c.gap c.token).lead := by
    by_cases hb : (w.gapOut o c.gap c.token).breaks = []
    · rw [settle, Gap.finished_inline hb he]
    · rw [settle, Gap.finished_broken hb]
  rw [hkeep]
  cases hc : w.clause with
  | none => exact .inr (by simp [gapOut, hc, ht])
  | some base =>
    by_cases hb : c.gap.breaks = []
    · exact .inr (by simp [gapOut, hc, hb])
    · exact .inl (by simp [gapOut, hc, hb])

/-- The layout leaves a tidy cell. -/
theorem tidy_settle {c : Cell} (he : c.token.kind ≠ .eof) (hf : w.Fits c)
    (h : ∀ b ∈ c.gap.lead, b.kind = .indent → c.token.isCode = true) : Cell.Tidy o ⟨w.settle o c, c.token⟩ where
  gap := settle_proper hf
  token := hf.token
  kind := he
  trail := settle_tidy o w c
  breaks n hn := by
    rw [settle, Gap.finished_breaks] at hn
    obtain ⟨m, -, rfl⟩ := List.mem_map.1 hn
    rfl
  lead b hb hk := by
    cases ht : c.token.isCode with
    | true => rfl
    | false =>
      rcases lead_settle (o := o) (w := w) he ht with hlead | hlead
      · rw [hlead] at hb
        cases hb
      · exact absurd (h b (hlead ▸ hb) hk) (by simp [ht])

/-- The layout leaves tidy cells. -/
theorem tidy_laid {cs : List Cell} (hm : w.Meets cs)
    (h : ∀ c ∈ cs, c.token.kind ≠ .eof ∧ ∀ b ∈ c.gap.lead, b.kind = .indent → c.token.isCode = true) :
    ∀ c ∈ w.laid o cs, c.Tidy o := by
  induction cs generalizing w with
  | nil => intro c hc; cases hc
  | cons d cs ih =>
    intro c hc
    obtain ⟨he, hlead⟩ := h d List.mem_cons_self
    rcases List.mem_cons.1 hc with rfl | hc
    · exact tidy_settle he hm.fits hlead
    · exact ih hm.visit (fun e he => h e (List.mem_cons_of_mem _ he)) c hc

end Walk

theorem Gap.mem_of_mem_lead {g : List Token} {t b : Token} {prev : Kind}
    (h : b ∈ (((ofSpaces g).before t).collapsed prev).lead) : b ∈ g := by
  have hlead : b ∈ (ofSpaces g).lead := by
    unfold collapsed before at h
    split at h <;> split at h
    · cases h
    · exact h
    · cases h
    · exact h
  unfold ofSpaces at hlead
  split at hlead
  · exact (mem_of_mem_lastBlank hlead).1
  · cases hlead

theorem lead_gatherFrom {is : List Item} (h : ∀ i ∈ is, i.Proper) (prev : Kind) :
    ∀ c ∈ gatherFrom prev is, ∀ b ∈ c.gap.lead, b.kind = .indent → c.token.isCode = true := by
  induction is generalizing prev with
  | nil => intro c hc; cases hc
  | cons i is ih =>
    intro c hc b hb hk
    rcases List.mem_cons.1 hc with rfl | hc
    · exact ((h i List.mem_cons_self).indent b (Gap.mem_of_mem_lead hb) hk).1
    · exact ih (fun j hj => h j (List.mem_cons_of_mem _ hj)) _ c hc b hb hk

/-- Made-up indentation indents code in the cells of a document. -/
theorem lead_gather {is : List Item} (h : ∀ i ∈ is, i.Proper) :
    ∀ c ∈ gather is, ∀ b ∈ c.gap.lead, b.kind = .indent → c.token.isCode = true := by
  intro c hc b hb hk
  cases is with
  | nil => cases hc
  | cons i is =>
    rcases List.mem_cons.1 hc with rfl | hc
    · cases hb
    · exact lead_gatherFrom (fun j hj => h j (List.mem_cons_of_mem _ hj)) _ c hc b hb hk

/-! ## Sources -/

namespace Reads

variable {s : String} {is : List Item} {last : Item}

theorem tidy_laid (h : Reads s is last) (o : Options) : ∀ c ∈ Walk.laid o {} (gather is), c.Tidy o :=
  Walk.tidy_laid h.meets fun c hc =>
    ⟨h.kind_ne_eof c hc, lead_gather (fun i hi => h.proper i (List.mem_append_left _ hi)) c hc⟩

/-- Neighbouring tokens of a laid out source. -/
theorem isChain_layout (h : Reads s is last) (o : Options) :
    List.IsChain Adjacent (layout o (lex s).tokens) := by
  have hmark : last.token.kind = .eof := congrArg Prod.fst h.mark
  have htidy := h.tidy_laid o
  rw [h.layout_eq]
  cases is with
  | nil => exact .singleton _
  | cons i is =>
    have hm := h.meets
    have hfirst : Walk.settle o {} ⟨.empty, i.token⟩ = .empty := Walk.settle_fresh hm.ready hm.fits rfl
    rw [gather, Walk.laid] at htidy ⊢
    rw [cellTokens_cons, hfirst]
    refine isChain_cellTokens (fun c hc => htidy c (List.mem_cons_of_mem _ hc)) (fun u hu => ?_) hm.fits.token
    exact isChain_ending o _ hu hmark

/-- Line breaks are written as the options say. -/
theorem newline_layout (h : Reads s is last) (o : Options) :
    ∀ t ∈ layout o (lex s).tokens, t.isNewline = true → t.text = o.newline := by
  intro t ht hn
  rw [h.layout_eq, List.mem_append, List.mem_append, List.mem_singleton] at ht
  rcases ht with ht | ht | rfl
  · obtain ⟨c, hc, ht⟩ := List.mem_flatMap.1 ht
    have htidy := h.tidy_laid o c hc
    rcases List.mem_append.1 ht with ht | ht
    · exact htidy.newline t ht hn
    · obtain rfl := List.mem_singleton.1 ht
      have hs := htidy.token
      rw [isSpace_eq, hn, Bool.or_true] at hs
      cases hs
  · unfold Options.ending at ht
    split at ht
    · obtain rfl := List.mem_singleton.1 ht
      rfl
    · cases ht
  · have hmark : last.token.kind = .eof := congrArg Prod.fst h.mark
    rw [isNewline_iff, hmark] at hn
    cases hn

/-- There is code or a comment where there are items. -/
theorem exists_program_iff (h : Reads s is last) :
    (∃ t ∈ (lex s).tokens, t.isCode = true ∨ t.kind = .comment) ↔ is ≠ [] := by
  have hmark : last.token.kind = .eof := congrArg Prod.fst h.mark
  rw [h.tokens]
  constructor
  · rintro ⟨t, ht, hprogram⟩ rfl
    rw [List.nil_append, flatten_cons, flatten_nil, List.mem_append, List.mem_singleton] at ht
    rcases ht with ht | rfl
    · have hspace := (h.spaces last (by simp)).1 t ht
      rcases hprogram with hcode | hk
      · rw [isCode_of_isSpace hspace] at hcode
        cases hcode
      · rw [Token.isSpace, hk] at hspace
        cases hspace
    · simp [Token.isCode, hmark, Kind.isCode] at hprogram
  · intro hne
    obtain ⟨i, is, rfl⟩ := List.exists_cons_of_ne_nil hne
    refine ⟨i.token, token_mem_flatten (by simp), ?_⟩
    cases hcode : i.token.isCode with
    | true => exact .inl rfl
    | false =>
      exact .inr (kind_of_not_isCode hcode (h.spaces i (by simp)).2 (h.token_ne_eof i List.mem_cons_self))

/-- The last token of a document with items is followed by the line break that the options ask for. -/
theorem layout_concat (h : Reads s is last) (hne : is ≠ []) (o : Options) :
    ∃ body t, layout o (lex s).tokens =
      body ++ t :: ((if o.endWithNewline then [o.newlineToken] else []) ++ [last.token]) ∧ t.isSpace = false := by
  have hcells : gather is ≠ [] := by
    obtain ⟨i, is, rfl⟩ := List.exists_cons_of_ne_nil hne
    simp [gather]
  have hending : o.ending (gather is) = if o.endWithNewline then [o.newlineToken] else [] := by
    simp [Options.ending, hcells]
  obtain hnil | ⟨ds, d, hconcat⟩ := List.eq_nil_or_concat' (Walk.laid o {} (gather is))
  · exact absurd (Walk.laid_eq_nil.1 hnil) hcells
  · refine ⟨cellTokens ds ++ d.gap.tokens, d.token, ?_, (h.tidy_laid o d (by simp [hconcat])).token⟩
    rw [h.layout_eq, hconcat, hending]
    simp [cellTokens]

end Reads

/-- A tidy document. -/
structure TidyDocument (o : Options) (ts : List Token) : Prop where
  /-- No blank ends a line or the document, and no blank follows another. -/
  blank : ∀ {before behind : List Token} {t u : Token}, ts = before ++ t :: u :: behind → t.isWhitespace = true →
    u.isSpace = false ∧ u.kind ≠ .eof
  /-- The document does not start with a space. -/
  first : ∀ t ∈ ts.head?, t.isSpace = false
  /-- Line breaks are written as the options say. -/
  newline : ∀ t ∈ ts, t.isNewline = true → t.text = o.newline
  /-- Made-up indentation stands between a line break and code. -/
  indent : ∀ {before behind : List Token} {t : Token}, ts = before ++ t :: behind → t.kind = .indent →
    (∃ n ∈ before.getLast?, n.isNewline = true) ∧ ∃ u ∈ behind.head?, u.isCode = true

theorem tidyDocument_of_isChain {o : Options} {ts : List Token} (hchain : List.IsChain Adjacent ts)
    (hfirst : ∀ t ∈ ts.head?, t.isSpace = false) (hlast : ∀ t ∈ ts.getLast?, t.isSpace = false)
    (hnewline : ∀ t ∈ ts, t.isNewline = true → t.text = o.newline) : TidyDocument o ts where
  blank hsplit ht := by
    rw [hsplit, List.isChain_append_cons_cons] at hchain
    exact hchain.2.1.blank ht
  first := hfirst
  newline := hnewline
  indent := by
    intro before behind t hsplit hk
    have hspace : t.isSpace = true := by rw [isSpace_eq, isWhitespace_of_indent hk, Bool.true_or]
    constructor
    · obtain rfl | ⟨xs, n, rfl⟩ := List.eq_nil_or_concat' before
      · exact absurd (hfirst t (by simp [hsplit])) (by simp [hspace])
      · rw [hsplit, List.append_assoc, List.singleton_append, List.isChain_append_cons_cons] at hchain
        exact ⟨n, by simp, hchain.2.1.lineStart hk⟩
    · cases behind with
      | nil => exact absurd (hlast t (by simp [hsplit])) (by simp [hspace])
      | cons u us =>
        rw [hsplit, List.isChain_append_cons_cons] at hchain
        exact ⟨u, rfl, hchain.2.1.indent hk⟩

/-- **A laid out source is tidy.** When the source holds code or a comment, its layout ends behind the last such token
with one line break, if the options ask for it, and the end mark. Otherwise the layout is the end mark alone. -/
theorem layout_tidy {s : String} (hs : (lex s).fault = none) (o : Options) :
    TidyDocument o (layout o (lex s).tokens) ∧
    ((∃ t ∈ (lex s).tokens, t.isCode = true ∨ t.kind = .comment) →
      ∃ body last mark, layout o (lex s).tokens =
          body ++ last :: ((if o.endWithNewline then [o.newlineToken] else []) ++ [mark]) ∧
        last.isSpace = false ∧ mark.kind = .eof) ∧
    ((¬∃ t ∈ (lex s).tokens, t.isCode = true ∨ t.kind = .comment) →
      ∃ mark, mark.kind = .eof ∧ layout o (lex s).tokens = [mark] ∧
        Token.renderAll (layout o (lex s).tokens) = "") := by
  obtain ⟨is, last, h⟩ := exists_reads hs
  have hmark : last.token.kind = .eof := congrArg Prod.fst h.mark
  have hend : ∀ t ∈ (layout o (lex s).tokens).getLast?, t.isSpace = false := by
    simpa [h.layout_eq] using (h.spaces last (by simp)).2
  refine ⟨tidyDocument_of_isChain (h.isChain_layout o) (head?_layout hs o) hend (h.newline_layout o), ?_, ?_⟩
  · intro hprogram
    obtain ⟨body, t, hlayout, ht⟩ := h.layout_concat (h.exists_program_iff.1 hprogram) o
    exact ⟨body, t, last.token, hlayout, ht, hmark⟩
  · intro hnone
    obtain rfl : is = [] := by
      by_cases hnil : is = []
      · exact hnil
      · exact absurd (h.exists_program_iff.2 hnil) hnone
    have hlayout : layout o (lex s).tokens = [last.token] := by rw [h.layout_eq]; rfl
    have htext : last.token.text = "" := congrArg Prod.snd h.mark
    exact ⟨last.token, hmark, hlayout, by simp [hlayout, htext]⟩

/-- Other line breaks than those of the source, none at the end, and a source without tokens. -/
theorem layout_tidy_crlf :
    ((lex " match x with\n\n\n| y =>   z \n").fault = none ∧
      TidyDocument { newline := "\r\n", endWithNewline := false }
        (layout { newline := "\r\n", endWithNewline := false } (lex " match x with\n\n\n| y =>   z \n").tokens) ∧
      (∃ t ∈ (lex " match x with\n\n\n| y =>   z \n").tokens, t.isCode = true ∨ t.kind = .comment) ∧
      ∃ body last mark, layout { newline := "\r\n", endWithNewline := false }
          (lex " match x with\n\n\n| y =>   z \n").tokens = body ++ last :: [mark] ∧
        last.isSpace = false ∧ mark.kind = .eof) ∧
    (lex " \n ").fault = none ∧ (¬∃ t ∈ (lex " \n ").tokens, t.isCode = true ∨ t.kind = .comment) ∧
      ∃ mark, mark.kind = .eof ∧ layout {} (lex " \n ").tokens = [mark] ∧
        Token.renderAll (layout {} (lex " \n ").tokens) = "" := by
  have hprogram : ∃ t ∈ (lex " match x with\n\n\n| y =>   z \n").tokens, t.isCode = true ∨ t.kind = .comment := by
    decide +kernel
  have hnone : ¬∃ t ∈ (lex " \n ").tokens, t.isCode = true ∨ t.kind = .comment := by decide +kernel
  obtain ⟨htidy, hend, -⟩ := layout_tidy (s := " match x with\n\n\n| y =>   z \n") (by decide +kernel)
    { newline := "\r\n", endWithNewline := false }
  obtain ⟨-, -, hempty⟩ := layout_tidy (s := " \n ") (by decide +kernel) {}
  exact ⟨⟨by decide +kernel, htidy, hprogram, hend hprogram⟩, by decide +kernel, hnone, hempty hnone⟩

end ScillaLayout
