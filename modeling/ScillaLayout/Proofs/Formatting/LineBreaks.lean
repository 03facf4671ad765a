import ScillaLayout.Proofs.Formatting.Neighbours

/-!
# Where the lines of a laid out source are broken

The number of line breaks between two neighbours of a laid out source is a function of the source up to them. Inside an
address clause there are none. Elsewhere line breaks stay, up to two, and where there are none one is put before a token
that starts a line and before the code behind an `in` (`lineBreaks`, `layout_lineBreaks`).
-/

namespace ScillaLayout

/-! ## The rule -/

/-- The kinds of tokens that start a line. -/
def lineKinds : List Kind := [
  .kwImport, .kwLibrary, .kwScillaVersion, .kwContract, .kwTransition, .kwProcedure, .kwType, .kwField,
  .kwMatch, .kwFun, .kwTfun, .kwLet, .bar, .kwEnd]

/-- Whether looking back from the end of `ts`, over blanks and comments and not beyond the line, an `in` is found. -/
def endsWithIn (ts : List Token) : Bool :=
  (ts.reverse.dropWhile fun t => !t.isCode && !t.isNewline).head?.any (·.kind == .kwIn)

/-- The number of line breaks before `b`, behind the tokens `ts` and the spaces `gap`. -/
def lineBreaks (ts gap : List Token) (b : Token) : Nat :=
  if 0 < clauseDepth ts then 0
  else if gap.countP (·.isNewline) ≠ 0 then min (gap.countP (·.isNewline)) 2
  else if b.kind ∈ lineKinds ∨ b.isCode = true ∧ endsWithIn (ts ++ gap) = true then 1
  else 0

/-! ## What the walk decides -/

theorem mem_lineKinds (k : Kind) : k ∈ lineKinds ↔ k.startsLine = true := by
  cases k <;> decide

theorem Before.followsIn_eq_dropWhile (b : Before) :
    b.followsIn = (b.dropWhile fun t => !t.isCode && !t.isNewline).head?.any (·.kind == .kwIn) := by
  unfold followsIn codeOnLine
  induction b with
  | nil => rfl
  | cons t b ih =>
    unfold seek
    cases hn : t.isNewline with
    | true =>
      -- the line starts here: there is no code before
      have hk : t.kind = .newline := isNewline_iff.1 hn
      simp [hn, hk]
    | false =>
      cases hc : t.isCode with
      | true => simp [hn, hc]
      | false => simpa [hn, hc] using ih

/-- The code that the walk sees on the line. -/
theorem endsWithIn_eq (ts : List Token) :
    endsWithIn ts = (ts.foldl Sight.push {}).lineCode.any (· == .kwIn) := by
  have hsight : Before.sight ts.reverse = ts.foldl Sight.push {} := by simpa using Before.sight_append ts []
  rw [endsWithIn, ← Before.followsIn_eq_dropWhile, Before.followsIn_eq, hsight]

namespace Walk

variable {o : Options} {w : Walk}

/-- Where the token of a cell starts a line, the line breaks of its gap stay, and there is at least one. -/
theorem length_breaks_gapOut {g : Gap} (hg : g.Proper) (t : Token) :
    (w.gapOut o g t).breaks.length = if w.breaksAt g t then max 1 g.breaks.length else 0 := by
  obtain ⟨-, hbreaks⟩ := gapOut_proper (o := o) (w := w) hg t
  by_cases hb : w.breaksAt g t = true
  · have hclause : w.clause = none := clause_of_breaksAt hb
    have hpos : (w.gapOut o g t).breaks ≠ [] := fun h => hbreaks.1 h hb
    rw [if_pos hb]
    cases ht : t.isCode with
    | true =>
      have hlen : (g.broken o).breaks.length = max 1 g.breaks.length := by
        unfold Gap.broken
        split
        · next hnil => simp [hnil]
        · next hne =>
          have := List.length_pos_iff.2 hne
          omega
      simpa [gapOut, hclause, ht, hb] using hlen
    | false =>
      have hgap : w.gapOut o g t = g := by simp [gapOut, hclause, ht]
      rw [hgap] at hpos ⊢
      have := List.length_pos_iff.2 hpos
      omega
  · rw [if_neg hb, hbreaks.2 hb]
    rfl

theorem length_breaks_settle (o : Options) (w : Walk) (c : Cell) :
    (w.settle o c).breaks.length = (w.gapOut o c.gap c.token).breaks.length := by
  rw [settle, Gap.finished_breaks, List.length_map]

namespace Between

variable {before gap : List Token} {a b : Token}

/-- The walk is inside of a clause where the source is. -/
theorem clause_iff (h : w.Between before a gap b) : w.clause = none ↔ clauseDepth (before ++ [a]) = 0 :=
  ⟨h.behind.clauses.outside, h.behind.clauses.clause_eq_none⟩

/-- Outside of clauses the walk sees an `in` where the source has one. -/
theorem followsIn (h : w.Between before a gap b) (hc : w.clause = none) (hn : gap.countP (·.isNewline) = 0) :
    w.out.followsIn = endsWithIn (before ++ [a] ++ gap) := by
  have hgap : (before ++ [a] ++ gap).foldl Sight.push {} = gap.foldl Sight.push ((before ++ [a]).foldl Sight.push {}) :=
    List.foldl_append
  rw [Before.followsIn_eq, h.behind.lineCode hc, endsWithIn_eq, hgap, Sight.lineCode_foldl_spaces h.spaces.isSpace,
    if_pos hn]

theorem isLineStart (h : w.Between before a gap b) : w.out.isLineStart = false := by
  rw [Before.isLineStart_eq, ← h.ready.lastKind, h.last]
  rfl

/-- **The line breaks between neighbours** follow the rule. -/
theorem length_breaks (h : w.Between before a gap b) :
    (w.settle o (cellBetween a gap b)).breaks.length = lineBreaks (before ++ [a]) gap b := by
  have htoken : (cellBetween a gap b).token = b := rfl
  rw [length_breaks_settle, length_breaks_gapOut h.fits.gap, length_breaks_cellBetween, htoken, lineBreaks]
  by_cases hclause : w.clause = none
  · rw [h.clause_iff.1 hclause, if_neg (Nat.lt_irrefl 0)]
    by_cases hn : gap.countP (·.isNewline) = 0
    · have hnil : (cellBetween a gap b).gap.breaks = [] := breaks_cellBetween_eq_nil.2 hn
      have hbreak : w.breaksAt (cellBetween a gap b).gap b = true ↔
          b.kind ∈ lineKinds ∨ b.isCode = true ∧ endsWithIn (before ++ [a] ++ gap) = true := by
        rw [mem_lineKinds, ← h.followsIn hclause hn]
        cases hcode : b.isCode with
        | true => simp [breaksAt, breaksBefore, hclause, hnil, h.isLineStart, hcode]
        | false =>
          have hk : b.kind.startsLine = false := by
            cases hk : b.kind <;> simp_all [Token.isCode, Kind.isCode, Kind.startsLine, Kind.isTopLevel]
          simp [breaksAt, hclause, hnil, hcode, hk]
      rw [if_neg (not_not_intro hn), hn]
      simp only [hbreak]
      rfl
    · have hne : (cellBetween a gap b).gap.breaks ≠ [] := mt breaks_cellBetween_eq_nil.1 hn
      have hbreak : w.breaksAt (cellBetween a gap b).gap b = true := by simp [breaksAt, hclause, hne]
      rw [if_pos hbreak, if_pos hn]
      omega
  · have hbreak : ¬w.breaksAt (cellBetween a gap b).gap b = true := by simp [breaksAt, hclause]
    rw [if_neg hbreak, if_pos (Nat.pos_of_ne_zero (mt h.clause_iff.2 hclause))]

end Between

end Walk

/-! ## Sources -/

/-- **Where lines are broken.** Neighbours `a` and `b` of a source are neighbours in its layout too, at the same place
among the tokens that are no spaces, and the number of line breaks between them is the one that `lineBreaks` reads off
the source. -/
theorem layout_lineBreaks {s : String} (hs : (lex s).fault = none) (o : Options) {before gap behind : List Token}
    {a b : Token} (h : Neighbours (lex s).tokens before a gap b behind) (he : b.kind ≠ .eof) :
    ∃ before' gap' behind', Neighbours (layout o (lex s).tokens) before' a gap' b behind' ∧
      solid before' = solid before ∧ solid behind' = solid behind ∧
      gap'.countP (·.isNewline) = lineBreaks (before ++ [a]) gap b := by
  obtain ⟨w, hw, before', behind', hlaid, hbefore, hbehind⟩ := h.settled hs he o
  refine ⟨before', _, behind', hlaid, hbefore, hbehind, ?_⟩
  rw [(Walk.settle_proper hw.fits).countP_tokens, hw.length_breaks]

/-- Behind a clause that is closed, an `in` and a comment, code gets a line of its own. -/
theorem layout_lineBreaks_in :
    (lex "ByStr20 with end in (*c*) x").fault = none ∧ ∃ (before gap behind : List Token) (a b : Token),
      Neighbours (lex "ByStr20 with end in (*c*) x").tokens before a gap b behind ∧ b.kind ≠ .eof ∧
      a.text = "(*c*)" ∧ b.text = "x" ∧ lineBreaks (before ++ [a]) gap b = 1 ∧
      ∃ before' gap' behind',
        Neighbours (layout {} (lex "ByStr20 with end in (*c*) x").tokens) before' a gap' b behind' ∧
        solid before' = solid before ∧ solid behind' = solid behind ∧
        gap'.countP (·.isNewline) = lineBreaks (before ++ [a]) gap b :=
  ⟨by decide +kernel, (lex "ByStr20 with end in (*c*) x").tokens.take 8,
    ((lex "ByStr20 with end in (*c*) x").tokens.drop 9).take 1, (lex "ByStr20 with end in (*c*) x").tokens.drop 11,
    ⟨.comment, "(*c*)", some ⟨⟨20, 1, 21⟩, ⟨25, 1, 26⟩⟩⟩, ⟨.id, "x", some ⟨⟨26, 1, 27⟩, ⟨27, 1, 28⟩⟩⟩,
    by decide +kernel, by decide, rfl, rfl, by decide +kernel,
    layout_lineBreaks (by decide +kernel) {} (by decide +kernel) (by decide)⟩

end ScillaLayout
