import ScillaLayout.Proofs.Layout.Gap
import ScillaLayout.Proofs.Lexing.Chain

/-!
# Where tokens meet

Which spellings may stand next to each other. White space never extends a token that is no space
(`Kind.extendedBy_whiteSpace`) and never starts one (`Kind.Spells.head`). Chains can be cut and joined, and the tokens
of a source are items whose gaps have no two blanks in a row (`exists_reads`).
-/

namespace ScillaLayout

open Vocabulary

/-! ## White space -/

namespace Text

theorem isNumeric_eq_false_of_isWhiteSpace {c : Char} (h : isWhiteSpace c = true) : isNumeric c = false := by
  rw [Bool.eq_false_iff]
  intro hn
  have hw : whiteSpaceRanges.has c = true := h
  unfold isNumeric at hn
  split at hn
  · rw [isDigit_eq_false_of_isWhiteSpace h] at hn
    cases hn
  · exact Ranges.not_has_of_apart (by decide +kernel) hw hn

theorem ne_of_isWhiteSpace {c d : Char} (h : isWhiteSpace c = true) (hd : isWhiteSpace d = false) : c ≠ d := by
  rintro rfl
  rw [h] at hd
  cases hd

end Text

namespace Vocabulary

theorem isWordChar_eq_false_of_isWhiteSpace {c : Char} (h : Text.isWhiteSpace c = true) : isWordChar c = false := by
  have hne : c ≠ '_' := Text.ne_of_isWhiteSpace h (by decide)
  simp [isWordChar, Text.isAlphabetic_eq_false_of_isWhiteSpace h, Text.isNumeric_eq_false_of_isWhiteSpace h, hne]

end Vocabulary

namespace Lexeme

theorem isHexDigit_iff {c : Char} :
    isHexDigit c = true ↔ Text.Ranges.has [(0x30, 0x39), (0x61, 0x66), (0x41, 0x46)] c = true := by
  simp only [isHexDigit, Char.isDigit, Text.Ranges.has, Bool.or_eq_true, Bool.and_eq_true, decide_eq_true_eq,
    List.any_cons, List.any_nil, Bool.or_false, Char.toNat, or_assoc]
  exact Iff.rfl

theorem isHexDigit_eq_false_of_isWhiteSpace {c : Char} (h : Text.isWhiteSpace c = true) : isHexDigit c = false := by
  rw [Bool.eq_false_iff]
  intro hx
  exact Text.Ranges.not_has_of_apart (by decide) (show Text.whiteSpaceRanges.has c = true from h) (isHexDigit_iff.1 hx)

theorem Stops.left {p : Char → Bool} {x y : List Char} (h : Stops p (x ++ y)) : Stops p x := by
  cases x with
  | nil => exact stops_nil p
  | cons c x => exact stops_cons.2 (stops_cons.1 h)

/-- Only the first character counts. -/
theorem Stops.append {p : Char → Bool} {x : List Char} (h : Stops p x) (hx : x ≠ []) (y : List Char) :
    Stops p (x ++ y) := by
  cases x with
  | nil => exact absurd rfl hx
  | cons c x => exact stops_cons.2 (stops_cons.1 h)

end Lexeme

open Lexeme

namespace Kind

/-- White space does not extend a token that is no space. -/
theorem extendedBy_whiteSpace {k : Kind} (hk : k.isSpace = false) (x : List Char) {c : Char}
    (hc : Text.isWhiteSpace c = true) : k.extendedBy x c = false := by
  have hword := isWordChar_eq_false_of_isWhiteSpace hc
  have hdigit := Text.isDigit_eq_false_of_isWhiteSpace hc
  have hhex := isHexDigit_eq_false_of_isWhiteSpace hc
  have hne : ∀ d, Text.isWhiteSpace d = false → c ≠ d := fun d hd => Text.ne_of_isWhiteSpace hc hd
  cases k with
  | newline | whitespace | indent => cases hk
  | numLit => simp [Kind.extendedBy, hdigit, hne 'x' (by decide)]
  | hexLit => exact hhex
  | colon => simp [Kind.extendedBy, hne '=' (by decide)]
  | eq => simp [Kind.extendedBy, hne '>' (by decide)]
  | lparen => simp [Kind.extendedBy, hne '*' (by decide)]
  | _ => first | rfl | exact hword

theorem Spells.ne_nil {k : Kind} {x : List Char} (h : k.Spells x) : x ≠ [] := by
  obtain ⟨c, cs, rfl, -⟩ := read_of_spells h (stops_nil _)
  simp

/-- A token that is no space starts neither with white space nor with a star. -/
theorem Spells.head {k : Kind} (hk : k.isSpace = false) {c : Char} {cs : List Char} (h : k.Spells (c :: cs)) :
    Text.isWhiteSpace c = false ∧ c ≠ '*' := by
  obtain ⟨c', cs', hx, hread⟩ := read_of_spells h (stops_nil _)
  obtain ⟨rfl, rfl⟩ := List.cons.inj hx
  rw [List.append_nil] at hread
  have hverdict := congrArg Lexeme.verdict hread
  constructor
  · rw [Bool.eq_false_iff]
    intro hw
    by_cases hn : c = '\n'
    · subst hn
      obtain rfl : Kind.newline = k := by simpa [Lexeme.read] using hverdict
      cases hk
    by_cases hr : c = '\r'
    · subst hr
      obtain rfl : Kind.newline = k := by
        unfold Lexeme.read at hverdict
        split at hverdict <;> simp_all
      cases hk
    have hb : Text.isBlank c = true := by simp [Text.isBlank, Text.isLineBreak, hw, hn, hr]
    obtain rfl : Kind.whitespace = k := by
      rw [read_eq_other_of_class hb _ (by decide), other, if_pos hb] at hverdict
      simpa [run] using hverdict
    cases hk
  · rintro rfl
    rw [read_eq_other (by decide) (by simp [isPair])] at hverdict
    have hstar : (other '*' cs).verdict = .error (.unexpected '*') := by
      have hclass : Text.isBlank '*' = false ∧ '*'.isDigit = false ∧ isWordStart '*' = false ∧
          separators.kindOf? (String.singleton '*') = none := by decide
      simp only [other, hclass, Bool.false_eq_true, if_false]
    rw [hstar] at hverdict
    cases hverdict

end Kind

/-! ## Cutting and joining chains -/

theorem IsChain.right {xs ys : List (Kind × String)} (h : IsChain (xs ++ ys)) : IsChain ys := by
  induction xs with
  | nil => exact h
  | cons x xs ih => exact ih h.2.2

theorem IsChain.left {xs ys : List (Kind × String)} (h : IsChain (xs ++ ys)) : IsChain xs := by
  induction xs with
  | nil => trivial
  | cons x xs ih =>
    rw [List.cons_append, isChain_cons, chainText_append] at h
    obtain ⟨hspell, hstop, hrest⟩ := h
    exact ⟨hspell, hstop.left, ih hrest⟩

theorem IsChain.spells {xs : List (Kind × String)} (h : IsChain xs) : ∀ x ∈ xs, x.1.Spells x.2.toList := by
  induction xs with
  | nil => intro x hx; cases hx
  | cons y ys ih =>
    intro x hx
    rcases List.mem_cons.1 hx with rfl | hx
    · exact h.1
    · exact ih h.2.2 x hx

/-- Two chains make one if the last text of the first is not extended by the second. -/
theorem IsChain.append {xs ys : List (Kind × String)} (hx : IsChain xs) (hy : IsChain ys)
    (hseam : ∀ x ∈ xs.getLast?, Stops (x.1.extendedBy x.2.toList) (chainText ys)) : IsChain (xs ++ ys) := by
  induction xs with
  | nil => exact hy
  | cons x xs ih =>
    obtain ⟨hspell, hstop, hrest⟩ := hx
    rw [List.cons_append, isChain_cons, chainText_append]
    refine ⟨hspell, ?_, ih hrest fun z hz => hseam z ?_⟩
    · cases xs with
      | nil => exact hseam x rfl
      | cons z zs =>
        have hne : chainText (z :: zs) ≠ [] := by simp [hrest.1.ne_nil]
        exact hstop.append hne _
    · cases xs with
      | nil => cases hz
      | cons z' zs => rwa [List.getLast?_cons_cons]

/-! ## The tokens of a source as items -/

theorem kind_of_spells {t : Token} (hs : t.isSpace = true) (h : t.kind.Spells t.text.toList) :
    t.kind = .whitespace ∨ t.kind = .newline := by
  cases hk : t.kind <;> simp_all [Token.isSpace, Kind.isSpace, Kind.Spells]

/-- Spaces that form a chain have no two blanks in a row. -/
theorem spaces_of_chain {g : List Token} (hg : ∀ t ∈ g, t.isSpace = true) (h : IsChain (g.map Token.key)) :
    Spaces g := by
  match g, hg, h with
  | [], _, _ => exact .nil
  | t :: g, hg, h =>
    have hrest : ∀ u ∈ g, u.isSpace = true := fun u hu => hg u (List.mem_cons_of_mem _ hu)
    rcases kind_of_spells (hg t List.mem_cons_self) h.1 with hk | hk
    · match g, hrest, h with
      | [], _, _ => exact .blank (isWhitespace_of_kind hk)
      | u :: g, hrest, h =>
        obtain ⟨-, hstop, hspell, -, hchain⟩ := h
        rcases kind_of_spells (hrest u List.mem_cons_self) hspell with hu | hu
        · -- a second blank would be part of the first
          have hblank : Kind.whitespace.Spells u.text.toList := hu ▸ hspell
          obtain ⟨c, cs, htext⟩ := List.exists_cons_of_ne_nil hblank.ne_nil
          have hc : Text.isBlank c = true := hblank.2 c (by rw [htext]; exact List.mem_cons_self)
          have hin : t.kind.extendedBy t.text.toList c = false := by
            simpa [Token.key, htext, Stops] using hstop
          rw [hk] at hin
          exact absurd (hin.symm.trans hc) (by simp)
        · exact .line hk (isNewline_iff.2 hu) (spaces_of_chain (fun v hv => hrest v (List.mem_cons_of_mem _ hv)) hchain)
    · exact .newline (isNewline_iff.2 hk) (spaces_of_chain hrest h.2.2)

theorem itemsFrom_concat (gap ts : List Token) {e : Token} (he : e.isSpace = false) :
    ∃ g, itemsFrom gap (ts ++ [e]) = itemsFrom gap ts ++ [⟨g, e⟩] := by
  induction ts generalizing gap with
  | nil => exact ⟨gap, by simp [itemsFrom, he]⟩
  | cons t ts ih =>
    rw [List.cons_append, itemsFrom, itemsFrom]
    split
    · exact ih _
    · obtain ⟨g, hg⟩ := ih []
      exact ⟨g, by rw [hg, List.cons_append]⟩

theorem IsChain.item_proper {i : Item} (hs : (∀ t ∈ i.gap, t.isSpace = true) ∧ i.token.isSpace = false)
    (h : IsChain (i.gap.map Token.key)) : i.Proper := by
  refine ⟨spaces_of_chain hs.1 h, hs.2, fun b hb hk => ?_⟩
  have hspell := h.spells b.key (List.mem_map_of_mem hb)
  simp [Token.key, hk, Kind.Spells] at hspell

/-- The source `s` is read as the items `is` and the end mark with the spaces before it. -/
structure Reads (s : String) (is : List Item) (last : Item) : Prop where
  fault : (lex s).fault = none
  tokens : (lex s).tokens = flatten (is ++ [last])
  proper : ∀ i ∈ is ++ [last], i.Proper
  chain : IsChain ((flatten is ++ last.gap).map Token.key)
  text : chainText ((flatten is ++ last.gap).map Token.key) = s.toList
  mark : last.token.key = Lexed.endKey

/-- **Every source without a fault is read as items.** -/
theorem exists_reads {s : String} (h : (lex s).fault = none) : ∃ is last, Reads s is last := by
  obtain ⟨xs, htext, hchain, hkeys⟩ := Lexed.chain_of_read h
  obtain ⟨ts, us, htokens, hts, hus⟩ := List.map_eq_append_iff.1 hkeys
  obtain ⟨e, rfl⟩ : ∃ e, us = [e] := List.length_eq_one_iff.1 (by simpa using congrArg List.length hus)
  have hmark : e.key = Lexed.endKey := by simpa using hus
  have he : e.isSpace = false := by
    have hk : e.kind = .eof := congrArg Prod.fst hmark
    rw [Token.isSpace, hk]
    rfl
  obtain ⟨g, hitems⟩ : ∃ g, items (ts ++ [e]) = items ts ++ [⟨g, e⟩] := itemsFrom_concat [] ts he
  have hflat : flatten (items ts ++ [⟨g, e⟩]) = ts ++ [e] := by
    rw [← hitems]
    exact flatten_items (by simp [he])
  have hbody : flatten (items ts) ++ g = ts := by
    rw [flatten_append, flatten_cons, flatten_nil, ← List.append_assoc] at hflat
    exact List.append_cancel_right hflat
  rw [← hts, ← hbody] at hchain htext
  refine ⟨items ts, ⟨g, e⟩, h, by rw [hflat]; exact htokens, fun i hi => ?_, hchain, htext, hmark⟩
  have hspaces : (∀ t ∈ i.gap, t.isSpace = true) ∧ i.token.isSpace = false := items_spec i (hitems ▸ hi)
  rw [List.map_append] at hchain
  rcases List.mem_append.1 hi with hi | hi
  · obtain ⟨before, behind, hsplit⟩ := List.append_of_mem hi
    rw [hsplit, flatten_append, flatten_cons, List.map_append, List.map_append] at hchain
    exact hchain.left.right.left.item_proper hspaces
  · obtain rfl := List.mem_singleton.1 hi
    exact hchain.right.item_proper hspaces

end ScillaLayout
