import ScillaLayout.Proofs.Formatting.Canonical
import ScillaLayout.Proofs.Formatting.Neighbours

/-!
# What stands between two tokens of a line

Between neighbours on one line of a laid out source there is nothing or one blank, and `blankText` reads its text off
the two tokens and the source. A comment that starts a line other than the first keeps the blank that was before it
(`layout_blanks`).
-/

namespace ScillaLayout

/-! ## The rule -/

/-- The kinds of tokens with no blank behind them. -/
def openers : List Kind := [.lparen, .lsqb, .lbrace, .atSign, .ampersand]

/-- The kinds of tokens with no blank before them. -/
def closers : List Kind := [.comma, .colon, .semicolon, .period, .rparen, .rsqb, .rbrace]

/-- The kinds of tokens with a space on both sides. -/
def operators : List Kind := [.eq, .assign, .tarrow, .arrow, .fetch]

/-- The text between `a` and `b` on one line, when `gap` stands between them in the source. -/
def blankText (a : Token) (gap : List Token) (b : Token) : String :=
  if a.kind ∈ openers ∨ b.kind ∈ closers then ""
  else if a.kind ∈ operators ∨ b.kind ∈ operators then " "
  else if gap.countP (·.isNewline) ≠ 0 then " "
  else if gap = [] then ""
  else if a.kind = .comment then Token.renderAll gap
  else " "

/-- A blank with a given text, or nothing. -/
def blankKeys (x : String) : List (Kind × String) := if x = "" then [] else [(.whitespace, x)]

/-! ## What the layout leaves -/

theorem mem_openers (k : Kind) : k ∈ openers ↔ Spacing.hugsNext k = true := by cases k <;> decide

theorem mem_closers (k : Kind) : k ∈ closers ↔ Spacing.hugsPrevious k = true := by cases k <;> decide

theorem mem_operators (k : Kind) : k ∈ operators ↔ Spacing.isOperator k = true := by cases k <;> decide

/-- Behind a line break only the blank that indents the line is left. -/
theorem Gap.Proper.lastLine_tokens {g : Gap} (hg : g.Proper) (hb : g.breaks ≠ []) :
    lastLine g.tokens = g.lead.toList := by
  obtain ⟨ns, n, hns⟩ : ∃ ns n, g.breaks = ns ++ [n] := by
    obtain hnil | ⟨ns, n, hns⟩ := List.eq_nil_or_concat g.breaks
    · exact absurd hnil hb
    · exact ⟨ns, n, by rw [hns, List.concat_eq_append]⟩
  have hn : n.isNewline = true := hg.breaks n (by simp [hns])
  have hsplit : g.tokens = (g.trail.toList ++ ns) ++ n :: g.lead.toList := by simp [Gap.tokens, hns]
  rw [hsplit, lastLine_append_newline hn]
  cases hlead : g.lead with
  | none => rfl
  | some b => simp [lastLine, isNewline_of_isWhitespace (hg.lead b hlead)]

namespace Walk

variable {o : Options} {w : Walk}

/-- On one line the walk leaves a gap as it is, and joins a broken one with a space. -/
theorem gapOut_inline {g : Gap} (hg : g.Proper) {t : Token} (hb : (w.gapOut o g t).breaks = []) :
    w.gapOut o g t = if g.breaks = [] then g else { trail := some .space } := by
  have hline : ¬w.breaksAt g t = true := (gapOut_proper (o := o) hg t).2.1 hb
  cases hc : w.clause with
  | some base => simp [gapOut, hc]
  | none =>
    have hnil : g.breaks = [] := by
      by_cases hne : g.breaks = []
      · exact hne
      · exact absurd (by simp [breaksAt, hc, hne]) hline
    simp [gapOut, hc, hline, hnil]

namespace Between

variable {before gap : List Token} {a b : Token}

/-- The blank that the walk leaves on one line. -/
theorem trail_gapOut (h : w.Between before a gap b)
    (hb : (w.gapOut o (cellBetween a gap b).gap b).breaks = []) :
    (w.gapOut o (cellBetween a gap b).gap b).trail =
      if gap.countP (·.isNewline) ≠ 0 then some .space
      else if a.kind = .comment then gap.head? else gap.head?.map (·.withText " ") := by
  rw [gapOut_inline h.fits.gap hb]
  by_cases hn : gap.countP (·.isNewline) = 0
  · obtain ⟨x, rfl, hx⟩ := h.spaces.blank_of_count hn
    have htrail : ((Gap.ofSpaces x.toList).before b).trail = x := by
      unfold Gap.before
      split <;> exact Gap.trail_ofSpaces hx
    have hhead : x.toList.head? = x := by cases x <;> rfl
    rw [if_pos (breaks_cellBetween_eq_nil.2 hn), if_neg (not_not_intro hn), hhead, cellBetween, Gap.collapsed]
    split
    · exact htrail
    · rw [htrail]
  · rw [if_neg (mt breaks_cellBetween_eq_nil.1 hn), if_pos hn]

/-- The text of the blank that the layout leaves on one line. -/
theorem text_inlineTrail (h : w.Between before a gap b) (htext : ∀ t ∈ gap, t.text ≠ "")
    (hb : (w.gapOut o (cellBetween a gap b).gap b).breaks = []) :
    (Gap.inlineTrail (some a.kind) (w.gapOut o (cellBetween a gap b).gap b).trail b.kind).map (·.text) =
      if blankText a gap b = "" then none else some (blankText a gap b) := by
  simp only [Gap.inlineTrail, blankText, mem_openers, mem_closers, mem_operators, Option.any_some, Option.isSome_some,
    true_and]
  split
  · simp
  · split
    · simp
    · rw [h.trail_gapOut hb]
      by_cases hn : gap.countP (·.isNewline) = 0
      · simp only [ne_eq, hn, not_true_eq_false, if_false]
        obtain ⟨x, rfl, -⟩ := h.spaces.blank_of_count hn
        cases x with
        | none => simp
        | some x =>
          have hne : x.text ≠ "" := htext x (by simp)
          by_cases hcomment : a.kind = .comment <;> simp [hcomment, hne]
      · simp only [ne_eq, hn, not_false_eq_true, if_true]
        rfl

/-- **Between neighbours on one line** there is the blank of the rule. -/
theorem map_key_settle (h : w.Between before a gap b) (he : b.kind ≠ .eof) (htext : ∀ t ∈ gap, t.text ≠ "")
    (hb : (w.settle o (cellBetween a gap b)).breaks = []) :
    (w.settle o (cellBetween a gap b)).tokens.map Token.key = blankKeys (blankText a gap b) := by
  have hproper := settle_proper (o := o) h.fits
  have hgap : (w.gapOut o (cellBetween a gap b).gap b).breaks = [] := by
    rw [settle, Gap.finished_breaks, List.map_eq_nil_iff] at hb
    exact hb
  have htrail : (w.settle o (cellBetween a gap b)).trail.map (·.text) =
      if blankText a gap b = "" then none else some (blankText a gap b) := by
    rw [← h.text_inlineTrail htext hgap, settle, h.last]
    exact congrArg (fun g : Gap => g.trail.map (·.text)) (Gap.finished_inline hgap he)
  rw [Gap.tokens, hb, hproper.inline hb, blankKeys]
  cases hx : (w.settle o (cellBetween a gap b)).trail with
  | none =>
    rw [hx] at htrail
    have hempty : blankText a gap b = "" := by simpa using htrail
    simp [hempty]
  | some x =>
    have hkind : x.kind = .whitespace := hproper.trail x hx
    rw [hx, Option.map_some] at htrail
    split at htrail
    · cases htrail
    · next hne => simp [hne, Token.key, hkind, Option.some.inj htrail]

/-- A comment that starts a line keeps the blank before it. -/
theorem lastLine_settle (h : w.Between before a gap b) (hk : b.kind = .comment)
    (hb : (w.settle o (cellBetween a gap b)).breaks ≠ []) :
    gap.countP (·.isNewline) ≠ 0 ∧ lastLine (w.settle o (cellBetween a gap b)).tokens = lastLine gap := by
  have hcode : b.isCode = false := by rw [Token.isCode, hk]; rfl
  have hgap : (w.gapOut o (cellBetween a gap b).gap b).breaks ≠ [] := by
    rw [settle, Gap.finished_breaks, ne_eq, List.map_eq_nil_iff] at hb
    exact hb
  -- a comment is moved to no line of its own, so the source has a line break here
  have hkeep : w.gapOut o (cellBetween a gap b).gap b = (cellBetween a gap b).gap := by
    cases hc : w.clause with
    | none => simp [gapOut, hc, hcode]
    | some base =>
      refine absurd ((gapOut_proper (o := o) h.fits.gap b).2.2 ?_) hgap
      simp [breaksAt, hc]
  have hn : gap.countP (·.isNewline) ≠ 0 := mt breaks_cellBetween_eq_nil.2 (hkeep ▸ hgap)
  refine ⟨hn, ?_⟩
  have hlead : (w.settle o (cellBetween a gap b)).lead = (cellBetween a gap b).gap.lead := by
    show ((w.gapOut o (cellBetween a gap b).gap b).finished o w.out.lastKind b.kind).lead = _
    rw [Gap.finished_broken hgap, hkeep]
  rw [(settle_proper h.fits).lastLine_tokens hb, h.spaces.lastLine, hlead, cellBetween, Gap.before,
    if_neg (by simp [hk]), Gap.lead_ofSpaces, if_neg hn]

end Between

end Walk

/-! ## Sources -/

/-- The spaces between neighbours of a source are no empty texts. -/
theorem Neighbours.text_ne {s : String} {before gap behind : List Token} {a b : Token}
    (h : Neighbours (lex s).tokens before a gap b behind) (hs : (lex s).fault = none) (he : b.kind ≠ .eof) :
    ∀ t ∈ gap, t.text ≠ "" := by
  obtain ⟨is, last, hreads⟩ := exists_reads hs
  obtain ⟨g, js, rfl, -⟩ := h.reads hreads he
  exact hreads.text_ne ⟨gap, b⟩ (by simp)

/-- Behind `ts` there is the start of a line that is not the first one. -/
def StartsLine (ts : List Token) : Prop := ts.countP (·.isNewline) ≠ 0 ∧ ∀ t ∈ lastLine ts, t.isWhitespace = true

instance (ts : List Token) : Decidable (StartsLine ts) := inferInstanceAs (Decidable (_ ∧ _))

theorem lastLine_append {g : List Token} (hg : g.countP (·.isNewline) ≠ 0) (ts : List Token) :
    lastLine (ts ++ g) = lastLine g := by
  obtain ⟨n, hn, hnew⟩ : ∃ n ∈ g, n.isNewline = true := by simpa [List.countP_eq_zero] using hg
  obtain ⟨us, vs, rfl⟩ := List.append_of_mem hn
  rw [← List.append_assoc, lastLine_append_newline hnew, lastLine_append_newline hnew]

/-- A token that is no space is on the line behind it. -/
theorem StartsLine.countP_ne_zero {ts g : List Token} {a : Token} (ha : a.isSpace = false)
    (h : StartsLine (ts ++ a :: g)) : g.countP (·.isNewline) ≠ 0 := by
  intro hg
  have hnone : ∀ t ∈ g.reverse, (!t.isNewline) = true := by simpa [List.countP_eq_zero] using hg
  rw [isSpace_eq, Bool.or_eq_false_iff] at ha
  have hmem : a ∈ lastLine (ts ++ a :: g) := by
    have hsplit : (ts ++ a :: g).reverse = g.reverse ++ a :: ts.reverse := by simp
    rw [lastLine, hsplit, List.takeWhile_append_of_pos hnone, List.takeWhile_cons_of_pos (by simp [ha.2])]
    simp
  exact absurd (h.2 a hmem) (by simp [ha.1])

/-- A comment that starts a line other than the first keeps the blank before it. -/
theorem lastLine_comment {s : String} {o : Options} {before' behind' : List Token} {c : Token}
    (hs : (lex s).fault = none) (hsplit : layout o (lex s).tokens = before' ++ c :: behind') (hk : c.kind = .comment)
    (hstart : StartsLine before') :
    ∃ before behind, (lex s).tokens = before ++ c :: behind ∧ solid before = solid before' ∧
      solid behind = solid behind' ∧ StartsLine before ∧ lastLine before' = lastLine before := by
  have hc : c.isSpace = false := by rw [Token.isSpace, hk]; rfl
  -- the first token of the document stands before the comment, so the comment has a neighbour there
  have hfirst : ∃ t ∈ before', t.isSpace = false := by
    cases before' with
    | nil => exact absurd rfl hstart.1
    | cons t ts => exact ⟨t, List.mem_cons_self, head?_layout hs o t (by simp [hsplit])⟩
  obtain ⟨front', a, gap', rfl, hn⟩ := Neighbours.exists_left hsplit hc hfirst
  obtain ⟨front, gap, behind, hsource, hfront, hbehind, w, hw, rfl⟩ := hn.unsettled hs (by simp [hk])
  have hbreaks := hstart.countP_ne_zero hn.left
  obtain ⟨hgap, hline⟩ := hw.lastLine_settle (o := o) hk fun hnil => hbreaks (by
    rw [(Walk.settle_proper hw.fits).countP_tokens, hnil]
    rfl)
  have hlast : lastLine (front' ++ a :: (w.settle o (cellBetween a gap c)).tokens) = lastLine (front ++ a :: gap) := by
    rw [List.append_cons, lastLine_append hbreaks, List.append_cons, lastLine_append hgap, hline]
  refine ⟨front ++ a :: gap, behind, by simp [hsource.split], ?_, hbehind, ⟨?_, hlast ▸ hstart.2⟩, hlast⟩
  · simp [solid_cons hn.left, solid_spaces hsource.spaces, solid_spaces hn.spaces, hfront]
  · rw [List.countP_append, List.countP_cons]
    omega

/-- **What stands between the tokens of a line.** Neighbours on one line of a laid out source are neighbours in the
source too, at the same place among the tokens that are no spaces, and there is the blank of the rule between them. A
comment that starts a line other than the first has the blank before it that stands in the source between the last line
break and the comment. -/
theorem layout_blanks {s : String} (hs : (lex s).fault = none) (o : Options) :
    (∀ {before' gap' behind' : List Token} {a b : Token},
      Neighbours (layout o (lex s).tokens) before' a gap' b behind' → b.kind ≠ .eof → gap'.countP (·.isNewline) = 0 →
      ∃ before gap behind, Neighbours (lex s).tokens before a gap b behind ∧
        solid before = solid before' ∧ solid behind = solid behind' ∧
        gap'.map Token.key = blankKeys (blankText a gap b)) ∧
    (∀ {before' behind' : List Token} {c : Token},
      layout o (lex s).tokens = before' ++ c :: behind' → c.kind = .comment → StartsLine before' →
      ∃ before behind, (lex s).tokens = before ++ c :: behind ∧
        solid before = solid before' ∧ solid behind = solid behind' ∧
        StartsLine before ∧ lastLine before' = lastLine before) := by
  constructor
  · intro before' gap' behind' a b h he hn
    obtain ⟨before, gap, behind, hsource, hbefore, hbehind, w, hw, rfl⟩ := h.unsettled hs he
    have hbreaks : (w.settle o (cellBetween a gap b)).breaks = [] := by
      rwa [(Walk.settle_proper hw.fits).countP_tokens, List.length_eq_zero_iff] at hn
    exact ⟨before, gap, behind, hsource, hbefore, hbehind, hw.map_key_settle he (hsource.text_ne hs he) hbreaks⟩
  · intro before' behind' c hsplit hk hstart
    exact lastLine_comment hs hsplit hk hstart

/-- A tab behind a comment, and a comment on the second line. -/
theorem layout_blanks_comments :
    (lex "(*a*)\tx\n  (*c*)").fault = none ∧
    (∃ (before' gap' behind' : List Token) (a b : Token),
      Neighbours (layout {} (lex "(*a*)\tx\n  (*c*)").tokens) before' a gap' b behind' ∧ b.kind ≠ .eof ∧
      gap'.countP (·.isNewline) = 0 ∧ gap'.map Token.key = [(.whitespace, "\t")] ∧
      ∃ before gap behind, Neighbours (lex "(*a*)\tx\n  (*c*)").tokens before a gap b behind ∧
        solid before = solid before' ∧ solid behind = solid behind' ∧
        gap'.map Token.key = blankKeys (blankText a gap b)) ∧
    ∃ (before' behind' : List Token) (c : Token),
      layout {} (lex "(*a*)\tx\n  (*c*)").tokens = before' ++ c :: behind' ∧ c.kind = .comment ∧ StartsLine before' ∧
      ∃ before behind, (lex "(*a*)\tx\n  (*c*)").tokens = before ++ c :: behind ∧
        solid before = solid before' ∧ solid behind = solid behind' ∧
        StartsLine before ∧ lastLine before' = lastLine before :=
  ⟨by decide +kernel,
    ⟨[], ((layout {} (lex "(*a*)\tx\n  (*c*)").tokens).drop 1).take 1,
      (layout {} (lex "(*a*)\tx\n  (*c*)").tokens).drop 3,
      ⟨.comment, "(*a*)", some ⟨⟨0, 1, 1⟩, ⟨5, 1, 6⟩⟩⟩, ⟨.id, "x", some ⟨⟨6, 1, 7⟩, ⟨7, 1, 8⟩⟩⟩,
      by decide +kernel, by decide, by decide +kernel, by decide +kernel,
      (layout_blanks (by decide +kernel) {}).1 (by decide +kernel) (by decide) (by decide +kernel)⟩,
    ⟨(layout {} (lex "(*a*)\tx\n  (*c*)").tokens).take 5, (layout {} (lex "(*a*)\tx\n  (*c*)").tokens).drop 6,
      ⟨.comment, "(*c*)", some ⟨⟨10, 2, 3⟩, ⟨15, 2, 8⟩⟩⟩,
      by decide +kernel, rfl, by decide +kernel,
      (layout_blanks (by decide +kernel) {}).2 (by decide +kernel) rfl (by decide +kernel)⟩⟩

end ScillaLayout
