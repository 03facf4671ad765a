import ScillaLayout.Proofs.Formatting.Text

/-!
# Formatting preserves the program

When the options put nothing but white space between tokens, the formatted text is a chain again: no two tokens meet
that would be read as one, or as others (`Walk.chain_laid`). So it is read back as the tokens that the layout left, with
indentation read as blanks (`Reads.lex_format`), and the program is the same (`format_preserves_program`).
-/

namespace ScillaLayout

open Lexeme

/-- Options that put only white space between tokens: indentation is made of spaces and tabs, and line breaks are line
breaks. -/
structure Options.Plain (o : Options) : Prop where
  indent : ∀ c ∈ o.indentUnit.toList, c = ' ' ∨ c = '\t'
  newline : o.newline ∈ ["\n", "\r\n", "\r"]

/-- What a token is read back as: indentation is read as a blank. -/
def Token.asRead (t : Token) : Kind × String := if t.kind = .indent then (.whitespace, t.text) else t.key

theorem Token.asRead_of_not_isSpace {t : Token} (h : t.isSpace = false) : t.asRead = t.key := by
  have hk : t.kind ≠ .indent := fun hk => by simp [Token.isSpace, hk, Kind.isSpace] at h
  simp [Token.asRead, hk]

theorem Token.asRead_of_isWhitespace {t : Token} (h : t.isWhitespace = true) : t.asRead = (.whitespace, t.text) := by
  by_cases hk : t.kind = .indent
  · simp [Token.asRead, hk]
  · simp [Token.asRead, Token.key, kind_of_isWhitespace h hk]

theorem chainText_asRead (ts : List Token) : chainText (ts.map Token.asRead) = chainText (ts.map Token.key) := by
  induction ts with
  | nil => rfl
  | cons t ts ih =>
    have htext : t.asRead.2 = t.key.2 := by
      unfold Token.asRead
      split <;> rfl
    simp [ih, htext]

/-! ## Gaps of white space -/

namespace Gap

variable {o : Options} {g : Gap}

/-- The blanks of a gap are spelled as blanks. -/
structure Spelled (g : Gap) : Prop where
  trail : ∀ b ∈ g.trail, Kind.whitespace.Spells b.text.toList
  lead : ∀ b ∈ g.lead, Kind.whitespace.Spells b.text.toList

theorem spells_space : Kind.whitespace.Spells " ".toList := by
  refine ⟨by simp, fun c hc => ?_⟩
  obtain rfl : c = ' ' := by simpa using hc
  exact Text.isBlank_space

theorem Spelled.inlineTrail (hs : ∀ b ∈ g.trail, Kind.whitespace.Spells b.text.toList) (prev : Option Kind)
    (next : Kind) :
    ∀ b ∈ Gap.inlineTrail prev g.trail next, Kind.whitespace.Spells b.text.toList := by
  intro b hb
  unfold Gap.inlineTrail at hb
  split at hb
  · cases hb
  · split at hb
    · obtain rfl := Option.some.inj hb
      exact spells_space
    · exact hs b hb

theorem Spelled.finished (hs : g.Spelled) (prev : Option Kind) {next : Kind} (hnext : next ≠ .eof) :
    (g.finished o prev next).Spelled := by
  by_cases hb : g.breaks = []
  · rw [finished_inline hb hnext]
    exact ⟨Spelled.inlineTrail hs.trail prev next, hs.lead⟩
  · rw [finished_broken hb]
    exact ⟨by simp, hs.lead⟩

end Gap

namespace Walk

variable {o : Options} {w : Walk}

theorem spells_indentation (ho : o.Plain) (dedent : Nat) :
    ∀ b ∈ w.indentation o dedent, Kind.whitespace.Spells b.text.toList := by
  intro b hb
  simp only [indentation] at hb
  split at hb
  · cases hb
  · next hne =>
    obtain rfl := Option.some.inj hb
    refine ⟨by simpa [Token.synthetic] using hne, fun c hc => ?_⟩
    have hunit : ∀ {n : Nat} {c : Char}, c ∈ (String.join (List.replicate n o.indentUnit)).toList →
        Text.isBlank c = true := by
      intro n c hc
      simp only [String.toList_join, List.mem_flatMap, List.mem_replicate] at hc
      obtain ⟨x, ⟨-, rfl⟩, hx⟩ := hc
      rcases ho.indent c hx with rfl | rfl
      · exact Text.isBlank_space
      · exact Text.isBlank_tab
    simp only [Token.synthetic, indentText, String.toList_append, List.mem_append] at hc
    rcases hc with hc | hc
    · rw [toList_pushn] at hc
      exact List.eq_of_mem_replicate hc ▸ Text.isBlank_space
    · exact hunit hc

theorem spelled_gapOut (ho : o.Plain) {g : Gap} (hs : g.Spelled) (t : Token) : (w.gapOut o g t).Spelled := by
  unfold gapOut
  split
  · split
    · exact hs
    · exact ⟨by simpa [Token.space, Token.synthetic] using Gap.spells_space, by simp⟩
  · split
    · refine ⟨?_, spells_indentation ho _⟩
      unfold Gap.broken
      split
      · exact hs.trail
      · exact hs.trail
    · exact hs

theorem spelled_settle (ho : o.Plain) {c : Cell} (hs : c.gap.Spelled) (he : c.token.kind ≠ .eof) :
    (w.settle o c).Spelled := (spelled_gapOut ho hs c.token).finished _ he

end Walk

/-! ## Chains through gaps -/

namespace Gap

variable {o : Options} {g : Gap} {xs : List (Kind × String)}

theorem chain_blank {b : Option Token} (hb : ∀ x ∈ b, x.isWhitespace = true)
    (hs : ∀ x ∈ b, Kind.whitespace.Spells x.text.toList) (hxs : IsChain xs)
    (hhead : Stops Text.isBlank (chainText xs)) : IsChain (b.toList.map Token.asRead ++ xs) := by
  cases b with
  | none => exact hxs
  | some b =>
    rw [Option.toList_some, List.map_singleton, Token.asRead_of_isWhitespace (hb b rfl)]
    exact ⟨hs b rfl, hhead, hxs⟩

theorem spells_newline (ho : o.Plain) : Kind.newline.Spells o.newline.toList := by
  have hmem := ho.newline
  simp only [List.mem_cons, List.not_mem_nil, or_false] at hmem
  rcases hmem with h | h | h <;> simp [h, Kind.Spells]

/-- A line break is not extended by another. -/
theorem stops_newline (ho : o.Plain) (cs : List Char) :
    Stops (Kind.newline.extendedBy o.newline.toList) (o.newline.toList ++ cs) := by
  have hmem := ho.newline
  simp only [List.mem_cons, List.not_mem_nil, or_false] at hmem
  rcases hmem with h | h | h <;> rw [h] <;> exact stops_cons.2 (by decide)

theorem chain_breaks (ho : o.Plain) {ns : List Token} (hns : ∀ n ∈ ns, n.isNewline = true)
    (htext : ∀ n ∈ ns, n.text = o.newline) (hxs : IsChain xs)
    (hhead : Stops (Kind.newline.extendedBy o.newline.toList) (chainText xs)) :
    IsChain (ns.map Token.asRead ++ xs) := by
  induction ns with
  | nil => exact hxs
  | cons n ns ih =>
    have hread : ∀ m ∈ n :: ns, m.asRead = (.newline, o.newline) := fun m hm => by
      simp [Token.asRead, Token.key, isNewline_iff.1 (hns m hm), htext m hm]
    rw [List.map_cons, hread n List.mem_cons_self]
    refine ⟨spells_newline ho, ?_, ih (fun m hm => hns m (List.mem_cons_of_mem _ hm))
      fun m hm => htext m (List.mem_cons_of_mem _ hm)⟩
    cases ns with
    | nil => exact hhead
    | cons m ms =>
      show Stops _ (chainText (m.asRead :: (ms.map Token.asRead ++ xs)))
      rw [hread m (by simp), chainText_cons]
      exact stops_newline ho _

/-- A gap that the layout leaves can stand before what does not start with white space. -/
theorem chain_gap (ho : o.Plain) (hg : g.Proper) (hs : g.Spelled) (htext : ∀ n ∈ g.breaks, n.text = o.newline)
    (htidy : g.breaks ≠ [] → g.trail = none) (hxs : IsChain xs) (hhead : Stops Text.isWhiteSpace (chainText xs)) :
    IsChain (g.tokens.map Token.asRead ++ xs) := by
  have hblank : Stops Text.isBlank (chainText xs) := hhead.mono fun c => Text.isWhiteSpace_of_isBlank
  have hlead := chain_blank hg.lead hs.lead hxs hblank
  rw [Gap.tokens, List.map_append, List.map_append, List.append_assoc, List.append_assoc]
  by_cases hb : g.breaks = []
  · have htrail : ∀ b ∈ g.trail, b.isWhitespace = true := fun b hb => isWhitespace_of_kind (hg.trail b hb)
    simpa [hb, hg.inline hb] using chain_blank htrail hs.trail hxs hblank
  · rw [htidy hb, Option.toList_none, List.map_nil, List.nil_append]
    refine chain_breaks ho hg.breaks htext hlead ?_
    -- only a line feed could extend a line break
    have hmono : ∀ {cs : List Char}, Stops (fun c => c == '\n') cs →
        Stops (Kind.newline.extendedBy o.newline.toList) cs :=
      fun hcs => hcs.mono fun c hc => by
        simp only [Kind.extendedBy, Bool.and_eq_true] at hc
        exact hc.2
    refine hmono ?_
    cases hl : g.lead with
    | none =>
      refine hhead.mono fun c hc => ?_
      rw [show c = '\n' by simpa using hc]
      decide
    | some b =>
      obtain ⟨hne, hall⟩ := hs.lead b hl
      obtain ⟨c, cs, hcs⟩ := List.exists_cons_of_ne_nil hne
      have hc := hall c (by rw [hcs]; exact List.mem_cons_self)
      rw [Option.toList_some, List.map_singleton, Token.asRead_of_isWhitespace (hg.lead b hl), List.singleton_append,
        chainText_cons, hcs, List.cons_append, stops_cons]
      rw [Bool.eq_false_iff]
      intro hn
      rw [show c = '\n' by simpa using hn] at hc
      revert hc
      decide

/-- White space behind a token does not extend it. -/
theorem stops_gap (ho : o.Plain) (hs : g.Spelled) (htext : ∀ n ∈ g.breaks, n.text = o.newline)
    (hne : g.tokens ≠ []) {k : Kind} (hk : k.isSpace = false) (x : List Char) :
    Stops (k.extendedBy x) (chainText (g.tokens.map Token.asRead ++ xs)) := by
  have hblank : ∀ {y : List Char}, Kind.whitespace.Spells y → ∃ c cs, y = c :: cs ∧ Text.isWhiteSpace c = true := by
    intro y hy
    obtain ⟨c, cs, hcs⟩ := List.exists_cons_of_ne_nil hy.1
    exact ⟨c, cs, hcs, Text.isWhiteSpace_of_isBlank (hy.2 c (by rw [hcs]; exact List.mem_cons_self))⟩
  have hbreak : ∃ c cs, o.newline.toList = c :: cs ∧ Text.isWhiteSpace c = true := by
    have hmem := ho.newline
    simp only [List.mem_cons, List.not_mem_nil, or_false] at hmem
    rcases hmem with h | h | h <;> rw [h] <;> exact ⟨_, _, rfl, by decide⟩
  have hfirst : ∀ t ∈ g.tokens, ∃ c cs, t.text.toList = c :: cs ∧ Text.isWhiteSpace c = true := by
    intro t ht
    simp only [Gap.tokens, List.mem_append, Option.mem_toList] at ht
    rcases ht with (ht | ht) | ht
    · exact hblank (hs.trail t ht)
    · exact htext t ht ▸ hbreak
    · exact hblank (hs.lead t ht)
  obtain ⟨t, ts, hts⟩ := List.exists_cons_of_ne_nil hne
  obtain ⟨c, cs, hcs, hc⟩ := hfirst t (by rw [hts]; exact List.mem_cons_self)
  rw [chainText_append, chainText_asRead, hts, List.map_cons, chainText_cons, Token.key, hcs]
  exact stops_cons.2 (Kind.extendedBy_whiteSpace hk x hc)

end Gap

/-! ## Tokens that meet -/

namespace Kind

/-- Nothing is extended by a separator or a closing bracket. -/
theorem stops_of_hugsPrevious {k b : Kind} (hk : k.isSpace = false) (x : List Char) {y : List Char}
    (hb : Spacing.hugsPrevious b = true) (hy : b.Spells y) : Stops (k.extendedBy x) y := by
  have hkind : Vocabulary.separators.kindOf? (String.ofList y) = some b := by
    cases b <;> first | exact hy | cases hb
  have hclass : ∀ p ∈ Vocabulary.separators, Spacing.hugsPrevious p.2 = true → (p.1.toList.all fun c =>
      !Vocabulary.isWordChar c && !c.isDigit && !isHexDigit c && !(['x', '=', '>', '*'].contains c)) = true := by
    decide +kernel
  have hall := hclass _ (Vocabulary.mem_of_kindOf? hkind) hb
  rw [String.toList_ofList, List.all_eq_true] at hall
  cases y with
  | nil => exact stops_nil _
  | cons c cs =>
    have hc := hall c List.mem_cons_self
    simp only [Bool.and_eq_true, Bool.not_eq_true', List.contains_eq_mem, decide_eq_false_iff_not] at hc
    obtain ⟨⟨⟨hword, hdigit⟩, hhex⟩, hne⟩ := hc
    simp only [List.mem_cons, List.not_mem_nil, or_false, not_or] at hne
    rw [stops_cons]
    cases k with
    | newline | whitespace | indent => cases hk
    | numLit | colon | eq | lparen => simp [Kind.extendedBy, hdigit, hne]
    | hexLit => exact hhex
    | _ => first | rfl | exact hword

/-- An opening bracket or a prefix sign is extended by no token. -/
theorem stops_of_hugsNext {k b : Kind} (hk : Spacing.hugsNext k = true) (x : List Char) {y : List Char}
    (hb : b.isSpace = false) (hy : b.Spells y) : Stops (k.extendedBy x) y := by
  cases y with
  | nil => exact stops_nil _
  | cons c cs =>
    have hstar : c ≠ '*' := (hy.head hb).2
    rw [stops_cons]
    cases k with
    | lparen => simp [Kind.extendedBy, hstar]
    | lsqb | lbrace | ampersand | atSign => rfl
    | _ => cases hk

end Kind

/-- A gap without tokens comes from spaces without tokens. -/
theorem Item.Proper.gap_eq_nil {i : Item} (hi : i.Proper) {prev : Kind}
    (h : (((Gap.ofSpaces i.gap).before i.token).collapsed prev).tokens = []) : i.gap = [] := by
  have htrail : (Gap.ofSpaces i.gap).trail = none := by
    unfold Gap.collapsed Gap.before at h
    split at h <;> split at h <;> simp_all [Gap.tokens]
  have hbreaks : (Gap.ofSpaces i.gap).breaks = [] := by
    unfold Gap.collapsed Gap.before at h
    split at h <;> split at h <;> simp_all [Gap.tokens]
  cases hg : i.gap with
  | nil => rfl
  | cons t g =>
    have ht := hi.spaces.isSpace t (by rw [hg]; exact List.mem_cons_self)
    rw [isSpace_eq, Bool.or_eq_true] at ht
    rcases ht with ht | ht
    · simp [Gap.ofSpaces, hg, Option.filter_some, ht] at htrail
    · simp [Gap.ofSpaces, hg, ht] at hbreaks

namespace Walk

variable {o : Options} {w : Walk}

/-- Two tokens meet only where they met before, or where punctuation wants it. -/
theorem tokens_of_settle_nil {c : Cell} (hf : w.Fits c) (he : c.token.kind ≠ .eof) {k : Kind}
    (hlast : w.out.lastKind = some k) (h : (w.settle o c).tokens = []) :
    Spacing.hugsNext k = true ∨ Spacing.hugsPrevious c.token.kind = true ∨ c.gap.tokens = [] := by
  obtain ⟨hproper, hbreaks⟩ := gapOut_proper (o := o) (w := w) hf.gap c.token
  have hb : (w.gapOut o c.gap c.token).breaks = [] := by
    have hnil : (w.settle o c).breaks = [] := by simp_all [Gap.tokens]
    rwa [settle, Gap.finished_breaks, List.map_eq_nil_iff] at hnil
  have htrail : (w.settle o c).trail = none := by simp_all [Gap.tokens]
  rw [settle, Gap.finished_inline hb he, hlast] at htrail
  by_cases hn : Spacing.hugsNext k = true
  · exact .inl hn
  by_cases hp : Spacing.hugsPrevious c.token.kind = true
  · exact .inr (.inl hp)
  refine .inr (.inr ?_)
  have hnone : (w.gapOut o c.gap c.token).trail = none := by
    simp only [Gap.inlineTrail, Option.any_some, hn, hp, Bool.false_eq_true, or_self, if_false] at htrail
    split at htrail
    · cases htrail
    · exact htrail
  have htokens : (w.gapOut o c.gap c.token).tokens = [] := by simp [Gap.tokens, hb, hnone, hproper.inline hb]
  have hline := hbreaks.1 hb
  cases hc : w.clause with
  | none => simpa [gapOut, hc, hline] using htokens
  | some base =>
    by_cases hg : c.gap.breaks = []
    · simpa [gapOut, hc, hg] using htokens
    · simp [gapOut, hc, hg, Gap.tokens] at htokens

/-- The gaps of a document that was read are spelled as blanks. -/
theorem spelled_cell {i : Item} (hchain : IsChain (i.gap.map Token.key)) (prev : Kind) :
    (((Gap.ofSpaces i.gap).before i.token).collapsed prev).Spelled := by
  have hspell : ∀ b ∈ i.gap, b.isWhitespace = true → Kind.whitespace.Spells b.text.toList := by
    intro b hb hw
    have hkey := hchain.spells b.key (List.mem_map_of_mem hb)
    have hk : b.kind ≠ .indent := fun hk => by simp [Token.key, hk, Kind.Spells] at hkey
    simpa [Token.key, kind_of_isWhitespace hw hk] using hkey
  have hspaces : (Gap.ofSpaces i.gap).Spelled := by
    refine ⟨fun b hb => ?_, fun b hb => ?_⟩
    · obtain ⟨hmem, hw⟩ := Option.filter_eq_some_iff.1 hb
      exact hspell b (List.mem_of_head? hmem) hw
    · simp only [Gap.ofSpaces] at hb
      split at hb
      · exact hspell b (Gap.mem_of_mem_lastBlank hb).1 (Gap.mem_of_mem_lastBlank hb).2
      · cases hb
  have hbefore : ((Gap.ofSpaces i.gap).before i.token).Spelled := by
    unfold Gap.before
    split
    · exact ⟨hspaces.trail, by simp⟩
    · exact hspaces
  unfold Gap.collapsed
  split
  · exact hbefore
  · refine ⟨fun b hb => ?_, hbefore.lead⟩
    obtain ⟨b', -, rfl⟩ := Option.map_eq_some_iff.1 hb
    exact Gap.spells_space

/-- The gap that the layout leaves joins the tokens on both sides to a chain. -/
theorem chain_settle (ho : o.Plain) {c : Cell} (hf : w.Fits c) (he : c.token.kind ≠ .eof) (hs : c.gap.Spelled)
    {t : Token} (ht : t.isSpace = false) (hspell : t.kind.Spells t.text.toList) (hlast : w.out.lastKind = some t.kind)
    {xs : List (Kind × String)} (hxs : IsChain (c.token.key :: xs))
    (hmeet : c.gap.tokens = [] → Stops (t.kind.extendedBy t.text.toList) c.token.text.toList) :
    IsChain (t.key :: ((w.settle o c).tokens.map Token.asRead ++ c.token.key :: xs)) := by
  have hspelled := spelled_settle (w := w) ho hs he
  have htext : ∀ n ∈ (w.settle o c).breaks, n.text = o.newline := fun n hn => by
    rw [settle, Gap.finished_breaks] at hn
    obtain ⟨m, -, rfl⟩ := List.mem_map.1 hn
    rfl
  have hnext : c.token.kind.Spells c.token.text.toList := hxs.1
  have hhead : Stops Text.isWhiteSpace (chainText (c.token.key :: xs)) := by
    obtain ⟨d, ds, hd⟩ := List.exists_cons_of_ne_nil hnext.ne_nil
    rw [chainText_cons, Token.key, hd]
    exact stops_cons.2 (Kind.Spells.head hf.token (hd ▸ hnext)).1
  refine ⟨hspell, ?_, Gap.chain_gap ho (settle_proper hf) hspelled htext (settle_tidy o w c) hxs hhead⟩
  by_cases hnil : (w.settle o c).tokens = []
  · rw [hnil, List.map_nil, List.nil_append, chainText_cons]
    refine Stops.append ?_ hnext.ne_nil _
    rcases tokens_of_settle_nil hf he hlast hnil with hn | hp | hgap
    · exact Kind.stops_of_hugsNext hn _ hf.token hnext
    · exact Kind.stops_of_hugsPrevious ht _ hp hnext
    · exact hmeet hgap
  · exact Gap.stops_gap ho hspelled htext hnil ht _

/-- What the layout leaves behind a token is a chain with it. `tail` is what follows the last cell. -/
theorem chain_laid (ho : o.Plain) {tail : List (Kind × String)} (htail : IsChain tail)
    (hend : ∀ {k : Kind}, k.isSpace = false → ∀ x, Stops (k.extendedBy x) (chainText tail)) {is : List Item} {t : Token}
    (h : w.Meets (gatherFrom t.kind is)) (his : ∀ i ∈ is, i.Proper) (hlast : w.out.lastKind = some t.kind)
    (ht : t.isSpace = false) (hchain : IsChain ((t :: flatten is).map Token.key)) :
    IsChain (t.key :: ((cellTokens (w.laid o (gatherFrom t.kind is))).map Token.asRead ++ tail)) := by
  induction is generalizing w t with
  | nil => exact ⟨hchain.1, hend ht _, htail⟩
  | cons i is ih =>
    have hi := his i List.mem_cons_self
    rw [flatten_cons, List.map_cons, List.map_append] at hchain
    obtain ⟨hspell, hstop, hafter⟩ := isChain_cons.1 hchain
    have hrest : IsChain ((i.token :: flatten is).map Token.key) := hafter.right
    have hne : i.token.kind ≠ .eof := fun hk => by
      have hnext : i.token.kind.Spells i.token.text.toList := hrest.1
      simp [hk, Kind.Spells] at hnext
    have hlaid := ih (h.visit (o := o)) (fun j hj => his j (List.mem_cons_of_mem _ hj))
      (lastKind_visit h.ready h.fits) hi.token hrest
    have hsettle := chain_settle ho h.fits hne (spelled_cell hafter.left t.kind) ht hspell hlast hlaid fun hnil => by
      -- the two tokens met in the source
      rw [hi.gap_eq_nil hnil, List.map_nil, List.nil_append, List.map_cons, chainText_cons] at hstop
      exact hstop.left
    rw [gatherFrom, laid, cellTokens_cons, List.map_append, List.map_cons, Token.asRead_of_not_isSpace hi.token,
      List.append_assoc, List.cons_append]
    exact hsettle

end Walk

/-! ## Reading the formatted text -/

theorem Options.ending_isSpace (o : Options) (cs : List Cell) : ∀ t ∈ o.ending cs, t.isSpace = true := by
  intro t ht
  unfold Options.ending at ht
  split at ht
  · obtain rfl := List.mem_singleton.1 ht
    rfl
  · cases ht

/-- The line break at the end is a chain and extends nothing. -/
theorem Options.Plain.chain_ending {o : Options} (ho : o.Plain) (cs : List Cell) :
    IsChain ((o.ending cs).map Token.asRead) ∧
      ∀ {k : Kind}, k.isSpace = false → ∀ x, Stops (k.extendedBy x) (chainText ((o.ending cs).map Token.asRead)) := by
  unfold Options.ending
  split
  · have hspell := Gap.spells_newline ho
    refine ⟨⟨hspell, stops_nil _, trivial⟩, fun hk x => ?_⟩
    have hgap : Gap.Spelled { breaks := [o.newlineToken] } := ⟨by simp, by simp⟩
    have htext : ∀ n ∈ [o.newlineToken], n.text = o.newline := by simp [Options.newlineToken, Token.synthetic]
    rw [← List.append_nil ([o.newlineToken].map Token.asRead)]
    exact Gap.stops_gap ho hgap htext (List.cons_ne_nil _ _) hk x
  · exact ⟨trivial, fun _ _ => stops_nil _⟩

namespace Reads

variable {o : Options} {s : String} {is : List Item} {last : Item}

/-- The cells that the layout leaves make a chain. -/
theorem chain_laid (h : Reads s is last) (ho : o.Plain) :
    IsChain ((cellTokens (Walk.laid o {} (gather is)) ++ o.ending (gather is)).map Token.asRead) := by
  obtain ⟨hend, hstop⟩ := ho.chain_ending (gather is)
  have hmeets := h.meets
  rw [List.map_append]
  cases is with
  | nil => exact hend
  | cons i is =>
    have hi : i.Proper := h.proper i (by simp)
    have hchain : IsChain ((i.token :: flatten is).map Token.key) := by
      have hall := h.chain
      rw [flatten_cons, List.append_assoc, List.map_append, List.cons_append, ← List.cons_append,
        List.map_append] at hall
      exact hall.right.left
    have hlaid := Walk.chain_laid ho hend hstop (Walk.Meets.visit (o := o) hmeets)
      (fun j hj => h.proper j (by simp [hj])) (Walk.lastKind_visit hmeets.ready hmeets.fits) hi.token hchain
    rw [gather, Walk.laid, Walk.settle_fresh hmeets.ready hmeets.fits rfl, cellTokens_cons, Gap.tokens_empty,
      List.nil_append, List.map_cons, Token.asRead_of_not_isSpace hi.token]
    exact hlaid

/-- **The formatted text is read back** as the tokens that the layout left. -/
theorem lex_format (h : Reads s is last) (ho : o.Plain) : ∃ f, ScillaLayout.format o s = .ok f ∧ (lex f).fault = none ∧
    (lex f).tokens.map Token.key =
      (cellTokens (Walk.laid o {} (gather is)) ++ o.ending (gather is)).map Token.asRead ++ [Lexed.endKey] := by
  refine ⟨_, h.format o, ?_⟩
  have htext : (Token.renderAll (cellTokens (Walk.laid o {} (gather is))) ++
        Token.renderAll (o.ending (gather is))).toList =
      chainText ((cellTokens (Walk.laid o {} (gather is)) ++ o.ending (gather is)).map Token.asRead) := by
    rw [← Token.renderAll_append, Token.toList_renderAll, chainText_asRead]
  have hread := Lexed.read_chainText (h.chain_laid ho) .start
  rw [← htext] at hread
  exact hread

end Reads

/-! ## The program -/

/-- Whether a kind is that of a blank or a line break of a source. -/
def Kind.isLayout (k : Kind) : Bool := k == .whitespace || k == .newline

/-- The program of a token list: what stands there besides blanks and line breaks. -/
def program (ts : List Token) : List (Kind × String) := (ts.map Token.key).filter (!·.1.isLayout)

theorem isLayout_asRead {t : Token} (h : t.isSpace = true) : t.asRead.1.isLayout = true := by
  rw [isSpace_eq, Bool.or_eq_true] at h
  rcases h with h | h
  · rw [Token.asRead_of_isWhitespace h]
    rfl
  · simp [Token.asRead, Token.key, isNewline_iff.1 h, Kind.isLayout]

theorem isLayout_eq_false {t : Token} (h : t.isSpace = false) : t.key.1.isLayout = false := by
  obtain ⟨hw, hn⟩ := kind_ne_of_not_isSpace h
  simp [Token.key, Kind.isLayout, hw, hn]

/-- Spaces are no program. -/
theorem filter_spaces {g : List Token} (hg : ∀ t ∈ g, t.isSpace = true) :
    (g.map Token.asRead).filter (!·.1.isLayout) = [] := by
  rw [List.filter_eq_nil_iff]
  intro x hx
  obtain ⟨t, ht, rfl⟩ := List.mem_map.1 hx
  simp [isLayout_asRead (hg t ht)]

/-- Of a document its tokens are program, and its gaps are not. -/
theorem filter_flatten {is : List Item} (h : ∀ i ∈ is, (∀ t ∈ i.gap, t.isSpace = true) ∧ i.token.isSpace = false) :
    ((flatten is).map Token.asRead).filter (!·.1.isLayout) = is.map (·.token.key) := by
  induction is with
  | nil => rfl
  | cons i is ih =>
    obtain ⟨hg, ht⟩ := h i List.mem_cons_self
    rw [flatten_cons, List.map_append, List.map_cons, List.filter_append, filter_spaces hg, List.nil_append,
      Token.asRead_of_not_isSpace ht, List.filter_cons_of_pos (by simp [isLayout_eq_false ht]),
      ih fun j hj => h j (List.mem_cons_of_mem _ hj)]
    rfl

/-- Of laid out cells their tokens are program. -/
theorem filter_cellTokens {cs : List Cell} (h : Cells cs) :
    ((cellTokens cs).map Token.asRead).filter (!·.1.isLayout) = cs.map (·.token.key) := by
  rw [cellTokens_eq_flatten, filter_flatten h.item]
  simp [Cell.item]

theorem Walk.laid_cells [Text.Measure] {o : Options} {w : Walk} {cs : List Cell} (h : w.Meets cs) :
    Cells (w.laid o cs) := by
  induction cs generalizing w with
  | nil => intro c hc; cases hc
  | cons c cs ih =>
    intro d hd
    rcases List.mem_cons.1 hd with rfl | hd
    · exact ⟨settle_proper h.fits, h.fits.token⟩
    · exact ih h.visit d hd

theorem Walk.map_token_laid [Text.Measure] (o : Options) (w : Walk) (cs : List Cell) :
    (w.laid o cs).map (·.token) = cs.map (·.token) := by
  induction cs generalizing w with
  | nil => rfl
  | cons c cs ih => simp [laid, ih]

theorem Walk.map_key_laid (o : Options) (w : Walk) (cs : List Cell) :
    (w.laid o cs).map (·.token.key) = cs.map (·.token.key) := by
  simpa [Function.comp_def] using congrArg (List.map Token.key) (w.map_token_laid o cs)

namespace Reads

variable {o : Options} {s : String} {is : List Item} {last : Item}

/-- No token of a source is made-up indentation. -/
theorem asRead (h : Reads s is last) : ∀ t ∈ flatten is ++ last.gap, t.asRead = t.key := by
  intro t ht
  have hspell := h.spells t ht
  have hk : t.kind ≠ .indent := fun hk => by simp [hk, Kind.Spells] at hspell
  simp [Token.asRead, hk]

theorem map_key (h : Reads s is last) :
    (lex s).tokens.map Token.key = (flatten is ++ last.gap).map Token.asRead ++ [Lexed.endKey] := by
  rw [List.map_congr_left h.asRead, h.tokens, flatten_append, flatten_cons, flatten_nil]
  simp [h.mark]

theorem program (h : Reads s is last) : program (lex s).tokens = is.map (·.token.key) ++ [Lexed.endKey] := by
  rw [ScillaLayout.program, h.map_key, List.map_append, List.filter_append, List.filter_append,
    filter_flatten fun i hi => h.spaces i (List.mem_append_left _ hi), filter_spaces (h.spaces last (by simp)).1]
  simp [Lexed.endKey, Kind.isLayout]

end Reads

/-- **Formatting preserves the program.** The formatted text of a source is read without a fault, and the tokens are the
same besides blanks and line breaks. -/
theorem format_preserves_program {o : Options} (ho : o.Plain) {s : String} (hs : (lex s).fault = none) :
    ∃ f, format o s = .ok f ∧ (lex f).fault = none ∧ program (lex f).tokens = program (lex s).tokens := by
  obtain ⟨is, last, hreads⟩ := exists_reads hs
  obtain ⟨f, hformat, hfault, hkeys⟩ := hreads.lex_format ho
  refine ⟨f, hformat, hfault, ?_⟩
  have htokens : (gather is).map (·.token.key) = is.map (·.token.key) := by
    simpa [Function.comp_def] using congrArg (List.map Token.key) (map_token_gather is)
  rw [hreads.program, program, hkeys, List.map_append, List.filter_append, List.filter_append,
    filter_cellTokens (Walk.laid_cells hreads.meets), filter_spaces (o.ending_isSpace _), Walk.map_key_laid, htokens]
  simp [Lexed.endKey, Kind.isLayout]

/-- Carriage returns as line breaks, tabs as indentation, and tokens that must not be glued together. -/
theorem format_preserves_program_cr :
    (lex "let f=( (*a*)0 x :ByStr20 with\r\nend)in  : =").fault = none ∧
    ∃ f, format { newline := "\r", indentUnit := "\t" } "let f=( (*a*)0 x :ByStr20 with\r\nend)in  : =" = .ok f ∧
      (lex f).fault = none ∧
      program (lex f).tokens = program (lex "let f=( (*a*)0 x :ByStr20 with\r\nend)in  : =").tokens :=
  ⟨by decide +kernel, format_preserves_program ⟨by simp, by decide⟩ (by decide +kernel)⟩

end ScillaLayout
