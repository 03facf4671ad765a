import ScillaLayout.Proofs.Lexing.Lossless

/-!
# Kinds and classes of texts

A token whose kind has one spelling is written in that way, and what is written in that way is of that kind. Every other
kind has a class of texts that its tokens are in (`Kind.Class`), which is said without a word about reading: where the
quotes of a string literal are, where a comment has its closing mark, which words are no names. This is `token_classes`.

The tables and the reader agree because a text is a spelling of one kind only (`Kind.Spells.unique`), and each entry of
the tables is one (`Vocabulary.spells_of_mem_fixed`).
-/

namespace ScillaLayout

open Vocabulary

/-! ## Classes -/

/-- The places of the quotes that are not escaped, counted from `i`. A backslash escapes the character behind it. -/
def plainQuotes (i : Nat) : List Char → List Nat
  | [] => []
  | '\\' :: _ :: cs => plainQuotes (i + 2) cs
  | '\x22' :: cs => i :: plainQuotes (i + 1) cs
  | _ :: cs => plainQuotes (i + 1) cs

/-- The first closing mark of a comment is at the end of the text. -/
def ClosesAtEnd (body : List Char) : Prop :=
  ['*', ')'] <:+ body ∧ ∀ front back, body = front ++ '*' :: ')' :: back → back = []

/-- A letter and what may follow it in a word. -/
def IsWord (x : List Char) : Prop := ∃ c cs, isWordStart c = true ∧ (∀ d ∈ cs, isWordChar d = true) ∧ x = c :: cs

/-- `ByStr` with a width of ASCII digits, or without one. -/
def IsByteString (x : List Char) : Prop :=
  ∃ width : List Char, (∀ c ∈ width, c.isDigit = true) ∧ x = ['B', 'y', 'S', 't', 'r'] ++ width

/-- A word that is in no table and in no family of types. -/
structure IsName (x : List Char) : Prop where
  word : IsWord x
  table : ∀ entry ∈ fixed, entry.1 ≠ String.ofList x
  integer : String.ofList x ∉ integerTypes
  bytes : ¬IsByteString x

/-- The texts of a kind that has more than one spelling. -/
def Kind.Class (k : Kind) (x : List Char) : Prop :=
  match k with
  | .newline => x ∈ [['\r', '\n'], ['\r'], ['\n']]
  | .whitespace => x ≠ [] ∧ ∀ c ∈ x, Text.isWhiteSpace c = true ∧ c ≠ '\n' ∧ c ≠ '\r'
  | .numLit => ∃ ds : List Char, ds ≠ [] ∧ (∀ c ∈ ds, c.isDigit = true) ∧ (x = ds ∨ x = '-' :: ds)
  | .hexLit => ∃ ds, ds ≠ [] ∧ (∀ c ∈ ds, Lexeme.isHexDigit c = true) ∧ x = '0' :: 'x' :: ds
  | .stringLit => plainQuotes 0 x = [0, x.length - 1]
  | .comment => ∃ body, x = '(' :: '*' :: body ∧ ClosesAtEnd body
  | .intType => String.ofList x ∈ integerTypes
  | .bystrType => IsByteString x
  | .tid => ∃ c cs, isWordStart c = true ∧ Text.isUppercase c = true ∧ (∀ d ∈ cs, isWordChar d = true) ∧
      x = '\x27' :: c :: cs
  | .spid => ∃ cs, cs ≠ [] ∧ (∀ d ∈ cs, isWordChar d = true) ∧ x = '_' :: cs
  | .cid => IsName x ∧ x.head?.any Text.isUppercase = true
  | .id => IsName x ∧ x.head?.any Text.isUppercase = false
  | _ => False

/-! ## Delimited texts -/

namespace Lexeme

/-- Of a string literal behind its opening quote, the last character is the one quote that is not escaped. -/
theorem plainQuotes_of_closeString? {cs text rest : List Char} (h : closeString? cs = some (text, rest)) :
    ∃ body, text = body ++ ['\x22'] ∧ ∀ i, plainQuotes i text = [i + body.length] := by
  fun_induction closeString? cs generalizing text with
  | case1 => simp at h
  | case2 =>
    obtain ⟨rfl, -⟩ := Prod.mk.inj (Option.some.inj h)
    exact ⟨[], rfl, fun i => rfl⟩
  | case3 => simp at h
  | case4 c cs ih =>
    obtain ⟨⟨t, r⟩, hs, he⟩ := Option.map_eq_some_iff.1 h
    obtain ⟨rfl, rfl⟩ := Prod.mk.inj he
    obtain ⟨body, rfl, hquotes⟩ := ih hs
    refine ⟨'\\' :: c :: body, rfl, fun i => ?_⟩
    rw [plainQuotes, hquotes, List.length_cons, List.length_cons, Nat.add_assoc, Nat.add_comm 2]
  | case5 c cs hquote hlone hescape ih =>
    obtain ⟨⟨t, r⟩, hs, he⟩ := Option.map_eq_some_iff.1 h
    obtain ⟨rfl, rfl⟩ := Prod.mk.inj he
    obtain ⟨body, rfl, hquotes⟩ := ih hs
    have hc : c ≠ '\\' := by
      rintro rfl
      cases cs with
      | nil => exact hlone rfl rfl
      | cons d cs => exact hescape _ _ rfl rfl
    refine ⟨c :: body, rfl, fun i => ?_⟩
    rw [plainQuotes, hquotes, List.length_cons, Nat.add_assoc, Nat.add_comm 1]
    · exact fun _ _ hc' => absurd hc' hc
    · exact hquote

/-- A comment behind its opening mark ends with the first closing mark. -/
theorem closesAtEnd_of_closeComment? {cs text rest : List Char} (h : closeComment? cs = some (text, rest)) :
    ClosesAtEnd text := by
  fun_induction closeComment? cs generalizing text with
  | case1 => simp at h
  | case2 =>
    obtain ⟨rfl, -⟩ := Prod.mk.inj (Option.some.inj h)
    refine ⟨List.suffix_rfl, fun front back hsplit => ?_⟩
    have hlength := congrArg List.length hsplit
    simp only [List.length_append, List.length_cons, List.length_nil] at hlength
    exact List.length_eq_zero_iff.1 (by omega)
  | case3 c cs hne ih =>
    obtain ⟨⟨t, r⟩, hs, he⟩ := Option.map_eq_some_iff.1 h
    obtain ⟨rfl, rfl⟩ := Prod.mk.inj he
    obtain ⟨hend, hfirst⟩ := ih hs
    refine ⟨hend.trans (List.suffix_cons c t), fun front back hsplit => ?_⟩
    cases front with
    | nil =>
      -- the first two characters of the text are no closing mark
      obtain ⟨rfl, rfl⟩ := List.cons.inj hsplit
      exact absurd (append_of_closeComment? hs).symm (hne _ rfl)
    | cons d front => exact hfirst front back (List.cons.inj hsplit).2

end Lexeme

/-! ## The tables -/

namespace Vocabulary

theorem spells_of_separator {k : Kind} {x : List Char} (h : separators.kindOf? (String.ofList x) = some k) :
    k.Spells x := by
  have hk : k ∈ separators.map (·.2) := List.mem_map_of_mem (mem_of_kindOf? h)
  cases k <;> first | exact h | exact absurd hk (by decide)

theorem spells_of_mem_separators {x : String} {k : Kind} (h : (x, k) ∈ separators) : k.Spells x.toList := by
  have htable : ∀ entry ∈ separators, separators.kindOf? entry.1 = some entry.2 := by decide +kernel
  have hkind : separators.kindOf? x = some k := htable (x, k) h
  exact spells_of_separator (x := x.toList) (by rwa [String.ofList_toList])

/-- The tables of words. -/
def words : Vocabulary := keywords ++ dataTypes ++ primitiveTypes

theorem spells_of_mem_words {x : String} {k : Kind} (h : (x, k) ∈ words) : k.Spells x.toList := by
  have htable : ∀ entry ∈ words, entry.2.isWord = true ∧ entry.1.toList.head?.any isWordStart = true ∧
      entry.1.toList.tail.all isWordChar = true ∧ wordKind entry.1.toList = entry.2 := by decide +kernel
  obtain ⟨hk, hhead, htail, hkind⟩ := htable (x, k) h
  simp only at hk hhead htail hkind
  rw [Kind.spells_word hk]
  cases hx : x.toList with
  | nil => simp [hx] at hhead
  | cons c cs =>
    rw [hx] at hhead htail hkind
    exact ⟨c, cs, by simpa using hhead, List.all_eq_true.1 htail, rfl, hkind⟩

/-- **Every entry of the tables is a spelling.** -/
theorem spells_of_mem_fixed {x : String} {k : Kind} (h : (x, k) ∈ fixed) : k.Spells x.toList := by
  simp only [fixed, List.mem_append] at h
  rcases h with ((h | h) | h) | h
  · exact spells_of_mem_words (by simp [words, h])
  · exact spells_of_mem_separators h
  · exact spells_of_mem_words (by simp [words, h])
  · exact spells_of_mem_words (by simp [words, h])

theorem mem_fixed_of_canonicalText? {k : Kind} {x : String} (h : k.canonicalText? = some x) : (x, k) ∈ fixed := by
  obtain ⟨⟨y, l⟩, hfind, rfl⟩ := Option.map_eq_some_iff.1 h
  obtain rfl : l = k := by simpa using List.find?_some hfind
  exact List.mem_of_find?_eq_some hfind

/-- An entry of the tables is the one spelling of its kind. -/
theorem canonicalText?_of_mem_fixed {k : Kind} {x : String} (h : (x, k) ∈ fixed) : k.canonicalText? = some x := by
  have htable : ∀ entry ∈ fixed, entry.2.canonicalText? = some entry.1 := by decide +kernel
  exact htable _ h

theorem byteString_of_width {x width : List Char} (h : byteStringWidth? x = some width) :
    x = ['B', 'y', 'S', 't', 'r'] ++ width := by
  unfold byteStringWidth? at h
  split at h
  · cases h; rfl
  · cases h

theorem primitiveType?_of_byteString {x : List Char} (h : IsByteString x) (hint : String.ofList x ∉ integerTypes) :
    primitiveType? (String.ofList x) = some .bystrType := by
  obtain ⟨width, hdigits, hx⟩ := h
  have hwidth : byteStringWidth? x = some width := by rw [hx]; rfl
  simpa [primitiveType?, hint, hwidth] using hdigits

/-- A primitive type outside of the two families is in the tables. -/
theorem mem_fixed_of_primitiveType? {x : List Char} {k : Kind} (h : primitiveType? (String.ofList x) = some k)
    (hint : String.ofList x ∉ integerTypes) (hbytes : ¬IsByteString x) : (String.ofList x, k) ∈ fixed := by
  unfold primitiveType? at h
  split at h
  · next hin => exact absurd (by simpa using hin) hint
  split at h
  · next width hwidth =>
    rw [String.toList_ofList] at hwidth
    split at h
    · next hdigits => exact absurd ⟨width, List.all_eq_true.1 hdigits, byteString_of_width hwidth⟩ hbytes
    · cases h
  · exact List.mem_append_right _ (mem_of_kindOf? h)

/-- **The kind of a word** is that of a family of types, that of the tables, or goes by the case of the first letter. -/
theorem wordKind_cases (x : List Char) :
    wordKind x = .intType ∧ String.ofList x ∈ integerTypes ∨ wordKind x = .bystrType ∧ IsByteString x ∨
      (String.ofList x, wordKind x) ∈ fixed ∨
      wordKind x = (if x.head?.any Text.isUppercase then .cid else .id) ∧ String.ofList x ∉ integerTypes ∧
        ¬IsByteString x := by
  by_cases hint : String.ofList x ∈ integerTypes
  · exact .inl ⟨by simp [wordKind, primitiveType?, hint], hint⟩
  by_cases hbytes : IsByteString x
  · exact .inr (.inl ⟨by simp [wordKind, primitiveType?_of_byteString hbytes hint], hbytes⟩)
  refine .inr (.inr ?_)
  cases hp : primitiveType? (String.ofList x) with
  | some k =>
    have hk : wordKind x = k := by simp [wordKind, hp]
    exact .inl (hk ▸ mem_fixed_of_primitiveType? hp hint hbytes)
  | none =>
    cases hw : keywords.kindOf? (String.ofList x) with
    | some k =>
      have hk : wordKind x = k := by simp [wordKind, hp, hw]
      have hmem := mem_of_kindOf? hw
      exact .inl (hk ▸ by simp [fixed, hmem])
    | none =>
      cases hd : dataTypes.kindOf? (String.ofList x) with
      | some k =>
        have hk : wordKind x = k := by simp [wordKind, hp, hw, hd]
        have hmem := mem_of_kindOf? hd
        exact .inl (hk ▸ by simp [fixed, hmem])
      | none => exact .inr ⟨by simp [wordKind, hp, hw, hd], hint, hbytes⟩

end Vocabulary

/-! ## Spellings and classes -/

namespace Kind

variable {k l : Kind} {x : List Char}

/-- **A text is a spelling of one kind only.** -/
theorem Spells.unique (h : k.Spells x) (h' : l.Spells x) : k = l := by
  obtain ⟨c, cs, hx, hread⟩ := Lexeme.read_of_spells h (Lexeme.stops_nil _)
  obtain ⟨c', cs', hx', hread'⟩ := Lexeme.read_of_spells h' (Lexeme.stops_nil _)
  obtain ⟨rfl, rfl⟩ := List.cons.inj (hx.symm.trans hx')
  have hsame := congrArg Lexeme.verdict (hread.symm.trans hread')
  exact Except.ok.inj hsame

/-- What is in the tables is of no other kind. -/
theorem Spells.of_canonicalText? (h : k.Spells x) (hl : l.canonicalText? = some (String.ofList x)) : k = l := by
  have hspell := spells_of_mem_fixed (mem_fixed_of_canonicalText? hl)
  rw [String.toList_ofList] at hspell
  exact h.unique hspell

/-- A spelling of a kind without an entry is not in the tables. -/
theorem Spells.not_mem_fixed (h : k.Spells x) (hk : k.canonicalText? = none) :
    ∀ entry ∈ fixed, entry.1 ≠ String.ofList x := by
  rintro ⟨y, l⟩ hmem rfl
  have hl := canonicalText?_of_mem_fixed hmem
  rw [← h.of_canonicalText? hl, hk] at hl
  cases hl

/-- The one spelling of a kind, or a text of its class. -/
def Written (k : Kind) (x : List Char) : Prop :=
  k.canonicalText? = some (String.ofList x) ∨ k.canonicalText? = none ∧ k.Class x

theorem written_separator (h : separators.kindOf? (String.ofList x) = some k) : k.Written x :=
  .inl (canonicalText?_of_mem_fixed (by simp [fixed, mem_of_kindOf? h]))

theorem written_word (hk : k.isWord = true) (h : k.Spells x) : k.Written x := by
  obtain ⟨c, cs, hc, hcs, hx, rfl⟩ := (spells_word hk).1 h
  obtain ⟨hint, hmem⟩ | ⟨hbytes, hwidth⟩ | hmem | ⟨hname, hint, hbytes⟩ := wordKind_cases x
  · rw [hint]
    exact .inr ⟨by decide, hmem⟩
  · rw [hbytes]
    exact .inr ⟨by decide, hwidth⟩
  · exact .inl (canonicalText?_of_mem_fixed hmem)
  · have hplain : (wordKind x).canonicalText? = none := by
      rw [hname]
      split <;> decide
    have hisName : IsName x := ⟨⟨c, cs, hc, hcs, hx⟩, h.not_mem_fixed hplain, hint, hbytes⟩
    refine .inr ⟨hplain, ?_⟩
    rw [hname]
    split
    · next hupper => exact ⟨hisName, hupper⟩
    · next hupper => exact ⟨hisName, by simpa using hupper⟩

/-- **Every spelling is the one of its kind or in its class.** -/
theorem Spells.written (h : k.Spells x) : k.Written x := by
  by_cases hk : k.isWord = true
  · exact written_word hk h
  cases k with
  | newline =>
    refine .inr ⟨by decide, ?_⟩
    simp only [Spells, List.mem_cons, List.not_mem_nil, or_false] at h
    rcases h with rfl | rfl | rfl <;> simp [Class]
  | whitespace =>
    refine .inr ⟨by decide, h.1, fun c hc => ?_⟩
    have hblank := h.2 c hc
    simp only [Text.isBlank, Text.isLineBreak, Bool.and_eq_true, Bool.not_eq_true', Bool.or_eq_false_iff] at hblank
    exact ⟨hblank.1, by simpa using hblank.2⟩
  | comment =>
    obtain ⟨body, hbody, rfl⟩ := h
    exact .inr ⟨by decide, body, rfl, Lexeme.closesAtEnd_of_closeComment? hbody⟩
  | stringLit =>
    obtain ⟨text, htext, rfl⟩ := h
    obtain ⟨body, rfl, hquotes⟩ := Lexeme.plainQuotes_of_closeString? htext
    refine .inr ⟨by decide, ?_⟩
    show plainQuotes 0 ('\x22' :: (body ++ ['\x22'])) = _
    rw [plainQuotes, hquotes, List.length_cons, List.length_append, List.length_singleton, Nat.add_sub_cancel,
      Nat.zero_add, Nat.add_comm 1]
  | numLit | hexLit | tid | spid => exact .inr ⟨by decide, h⟩
  | illegal | eof | indent => exact h.elim
  | semicolon | colon | period | bar | lsqb | rsqb | lparen | rparen | lbrace | rbrace | comma | arrow | tarrow | eq
  | ampersand | fetch | assign | atSign | underscore => exact written_separator h
  | _ => exact absurd rfl hk

end Kind

/-- **Kinds agree with the tables and with their classes.** A token besides the end mark and an illegal one is written
in the one way of its kind, if there is one, and what is written in the one way of a kind is of that kind. All other
tokens are in the class of their kind, and none is indentation. -/
theorem token_classes (s : String) {t : Token} (ht : t ∈ (tokenize s).1) (heof : t.kind ≠ .eof)
    (hillegal : t.kind ≠ .illegal) :
    (∀ x, t.kind.canonicalText? = some x → t.text = x) ∧ (∀ k, Kind.canonicalText? k = some t.text → t.kind = k) ∧
      (t.kind.canonicalText? = none → t.kind.Class t.text.toList) ∧ t.kind ≠ .indent := by
  obtain ⟨ts, last, l, hrun⟩ := Lexing.exists_run (l := Lexing.ofSource s) rfl
  rw [tokenize, hrun.exhausts.collect] at ht
  have hspell : t.kind.Spells t.text.toList := by
    rcases List.mem_append.1 ht with ht | ht
    · exact hrun.chain.spells _ (List.mem_map_of_mem ht)
    · obtain rfl := List.mem_singleton.1 ht
      obtain ⟨-, hkind, -⟩ | ⟨-, hkind, -⟩ := hrun.ending
      · exact absurd hkind heof
      · exact absurd hkind hillegal
  have hwritten := hspell.written
  rw [Kind.Written, String.ofList_toList] at hwritten
  refine ⟨fun x hx => ?_, fun k hk => ?_, fun hnone => ?_, fun hindent => ?_⟩
  · rcases hwritten with hone | ⟨hnone, -⟩
    · exact Option.some.inj (hone.symm.trans hx)
    · rw [hnone] at hx
      cases hx
  · exact hspell.of_canonicalText? (by rwa [String.ofList_toList])
  · rcases hwritten with hone | ⟨-, hclass⟩
    · rw [hone] at hnone
      cases hnone
    · exact hclass
  · rw [hindent] at hspell
    exact hspell

/-- A string literal with an escaped quote, and a comment with a parenthesis behind its opening mark. -/
def quotedAndComment : String := "\"a\\\"\"(*)*)"

/-- Its tokens are in the classes of string literals and comments. -/
theorem token_classes_quoted :
    (∃ t ∈ (tokenize quotedAndComment).1, t.kind = .stringLit ∧ Kind.stringLit.Class t.text.toList) ∧
    ∃ t ∈ (tokenize quotedAndComment).1, t.kind = .comment ∧ Kind.comment.Class t.text.toList := by
  obtain ⟨⟨t, ht, hstring⟩, u, hu, hcomment⟩ : (∃ t ∈ (tokenize quotedAndComment).1, t.kind = .stringLit) ∧
      ∃ u ∈ (tokenize quotedAndComment).1, u.kind = .comment := by decide +kernel
  have hclass := (token_classes quotedAndComment ht (by simp [hstring]) (by simp [hstring])).2.2.1
  have hclass' := (token_classes quotedAndComment hu (by simp [hcomment]) (by simp [hcomment])).2.2.1
  rw [hstring] at hclass
  rw [hcomment] at hclass'
  exact ⟨⟨t, ht, hstring, hclass (by decide)⟩, u, hu, hcomment, hclass' (by decide)⟩

end ScillaLayout
