import ScillaLayout.Text.Blank
import ScillaLayout.Token.Lexer

/-!
# Spellings

`Kind.Spells k x` says that the text `x` is a spelling of the kind `k`, and `Kind.extendedBy k x c` that the character
`c`, directly behind `x`, would become part of the piece or make it another one. The piece at the head of a text is
known by these two alone (`Lexeme.read_eq_ok_iff`): it is a spelling whose next character does not extend it.
-/

namespace ScillaLayout

open Vocabulary

/-! ## Spellings and what extends them -/

namespace Kind

/-- The texts of a kind. End marks and made-up indentation have none. -/
def Spells (k : Kind) (x : List Char) : Prop :=
  match k with
  | .illegal | .eof | .indent => False
  | .newline => x ∈ [['\n'], ['\r'], ['\r', '\n']]
  | .whitespace => x ≠ [] ∧ ∀ c ∈ x, Text.isBlank c = true
  | .comment => ∃ body, Lexeme.closeComment? body = some (body, []) ∧ x = '(' :: '*' :: body
  | .stringLit => ∃ body, Lexeme.closeString? body = some (body, []) ∧ x = '\x22' :: body
  | .numLit => ∃ ds, ds ≠ [] ∧ (∀ c ∈ ds, c.isDigit = true) ∧ (x = ds ∨ x = '-' :: ds)
  | .hexLit => ∃ ds, ds ≠ [] ∧ (∀ c ∈ ds, Lexeme.isHexDigit c = true) ∧ x = '0' :: 'x' :: ds
  | .tid => ∃ c cs, isWordStart c = true ∧ Text.isUppercase c = true ∧ (∀ d ∈ cs, isWordChar d = true) ∧
      x = '\x27' :: c :: cs
  | .spid => ∃ cs, cs ≠ [] ∧ (∀ d ∈ cs, isWordChar d = true) ∧ x = '_' :: cs
  | .semicolon | .colon | .period | .bar | .lsqb | .rsqb | .lparen | .rparen | .lbrace | .rbrace | .comma | .arrow
  | .tarrow | .eq | .ampersand | .fetch | .assign | .atSign | .underscore =>
    separators.kindOf? (String.ofList x) = some k
  | k => ∃ c cs, isWordStart c = true ∧ (∀ d ∈ cs, isWordChar d = true) ∧ x = c :: cs ∧ wordKind x = k

/-- Whether the character `c` behind the spelling `x` belongs to the same piece. -/
def extendedBy (k : Kind) (x : List Char) (c : Char) : Bool :=
  match k with
  | .newline => x == ['\r'] && c == '\n'
  | .whitespace => Text.isBlank c
  | .numLit => c.isDigit || x == ['0'] && c == 'x'
  | .hexLit => Lexeme.isHexDigit c
  | .colon => c == '='
  | .eq => c == '>'
  | .lparen => c == '*'
  | .illegal | .eof | .indent | .comment | .stringLit | .semicolon | .period | .bar | .lsqb | .rsqb | .rparen | .lbrace
  | .rbrace | .comma | .arrow | .tarrow | .ampersand | .fetch | .assign | .atSign => false
  | _ => isWordChar c

/-- Kinds of words: reserved words, types, constructors and plain names. -/
def isWord : Kind → Bool
  | .illegal | .eof | .indent | .newline | .whitespace | .comment | .stringLit | .numLit | .hexLit | .tid | .spid
  | .semicolon | .colon | .period | .bar | .lsqb | .rsqb | .lparen | .rparen | .lbrace | .rbrace | .comma | .arrow
  | .tarrow | .eq | .ampersand | .fetch | .assign | .atSign | .underscore => false
  | _ => true

theorem spells_word {k : Kind} (hk : k.isWord = true) {x : List Char} :
    k.Spells x ↔ ∃ c cs, isWordStart c = true ∧ (∀ d ∈ cs, isWordChar d = true) ∧ x = c :: cs ∧ wordKind x = k := by
  cases k <;> first | exact Iff.rfl | cases hk

theorem extendedBy_word {k : Kind} (hk : k.isWord = true) (x : List Char) (c : Char) :
    k.extendedBy x c = isWordChar c := by
  cases k <;> first | rfl | cases hk

/-- A number that is not a lone zero is extended by digits only. -/
theorem extendedBy_numLit {x : List Char} (hx : x ≠ ['0']) : Kind.numLit.extendedBy x = Char.isDigit := by
  funext c
  simp [Kind.extendedBy, hx]

end Kind

/-! ## Words -/

namespace Vocabulary

theorem isWordChar_of_isWordStart {c : Char} (h : isWordStart c = true) : isWordChar c = true := by
  rw [isWordStart] at h
  simp [isWordChar, h]

theorem mem_of_kindOf? {v : Vocabulary} {word : String} {k : Kind} (h : v.kindOf? word = some k) : (word, k) ∈ v := by
  obtain ⟨⟨w, k'⟩, hf, rfl⟩ := Option.map_eq_some_iff.1 h
  have hw : w = word := by simpa using List.find?_some hf
  exact hw ▸ List.mem_of_find?_eq_some hf

theorem isWord_of_kindOf? {v : Vocabulary} (hv : v.all (·.2.isWord) = true) {word : String} {k : Kind}
    (h : v.kindOf? word = some k) : k.isWord = true :=
  List.all_eq_true.1 hv _ (mem_of_kindOf? h)

theorem isWord_of_primitiveType? {word : String} {k : Kind} (h : primitiveType? word = some k) : k.isWord = true := by
  unfold primitiveType? at h
  split at h
  · cases h; rfl
  split at h
  · split at h
    · cases h; rfl
    · cases h
  · exact isWord_of_kindOf? (by decide) h

/-- The kind of a word is a kind of words. -/
theorem isWord_wordKind (x : List Char) : (wordKind x).isWord = true := by
  simp only [wordKind]
  cases hp : primitiveType? (String.ofList x) with
  | some k => exact isWord_of_primitiveType? hp
  | none =>
    cases hk : keywords.kindOf? (String.ofList x) with
    | some k => exact isWord_of_kindOf? (v := keywords) (by decide) hk
    | none =>
      cases hd : dataTypes.kindOf? (String.ofList x) with
      | some k => exact isWord_of_kindOf? (v := dataTypes) (by decide) hd
      | none =>
        simp only [Option.getD_none]
        split <;> rfl

end Vocabulary

/-! ## Classes of characters -/

namespace Text

/-- Whether no code point is in two of the ranges. -/
def Ranges.apart (rs rs' : Ranges) : Bool := rs.all fun r => rs'.all fun r' => r.2 < r'.1 || r'.2 < r.1

theorem Ranges.not_has_of_apart {rs rs' : Ranges} (h : rs.apart rs' = true) {c : Char} (hc : rs.has c = true)
    (hc' : rs'.has c = true) : False := by
  obtain ⟨r, hr, h₁, h₂⟩ := has_iff.1 hc
  obtain ⟨r', hr', h₁', h₂'⟩ := has_iff.1 hc'
  have := List.all_eq_true.1 (List.all_eq_true.1 h r hr) r' hr'
  simp only [Bool.or_eq_true, decide_eq_true_eq] at this
  omega

theorem isAlpha_iff {c : Char} : c.isAlpha = true ↔ Ranges.has [(0x41, 0x5A), (0x61, 0x7A)] c = true := by
  change (decide (65 ≤ c.val ∧ c.val ≤ 90) || decide (97 ≤ c.val) && decide (c.val ≤ 122)) = true ↔ _
  simp only [Bool.or_eq_true, Bool.and_eq_true, decide_eq_true_eq, UInt32.le_iff_toNat_le, Ranges.has, List.any_cons,
    List.any_nil, Bool.or_false, Char.toNat]
  exact Iff.rfl

theorem isDigit_iff {c : Char} : c.isDigit = true ↔ Ranges.has [(0x30, 0x39)] c = true := by
  simp only [Char.isDigit, Bool.and_eq_true, decide_eq_true_eq, ge_iff_le, UInt32.le_iff_toNat_le, Ranges.has,
    List.any_cons, List.any_nil, Bool.or_false, Char.toNat]
  exact Iff.rfl

/-- Characters that lie apart from the letters are no letters. -/
theorem isAlphabetic_eq_false_of_apart {rs : Ranges} (ha : rs.apart [(0x41, 0x5A), (0x61, 0x7A)] = true)
    (hb : rs.apart alphabeticRanges = true) {c : Char} (hc : rs.has c = true) : isAlphabetic c = false := by
  rw [Bool.eq_false_iff]
  intro h
  unfold isAlphabetic at h
  split at h
  · exact Ranges.not_has_of_apart ha hc (isAlpha_iff.1 h)
  · exact Ranges.not_has_of_apart hb hc h

theorem isWhiteSpace_of_isBlank {c : Char} (h : isBlank c = true) : isWhiteSpace c = true :=
  (Bool.and_eq_true _ _ ▸ h).1

/-- White space is no letter. -/
theorem isAlphabetic_eq_false_of_isWhiteSpace {c : Char} (h : isWhiteSpace c = true) : isAlphabetic c = false :=
  isAlphabetic_eq_false_of_apart (by decide) (by decide +kernel) (show whiteSpaceRanges.has c = true from h)

/-- Digits are no letters. -/
theorem isAlphabetic_eq_false_of_isDigit {c : Char} (h : c.isDigit = true) : isAlphabetic c = false :=
  isAlphabetic_eq_false_of_apart (by decide) (by decide +kernel) (isDigit_iff.1 h)

/-- White space is no digit. -/
theorem isDigit_eq_false_of_isWhiteSpace {c : Char} (h : isWhiteSpace c = true) : c.isDigit = false := by
  rw [Bool.eq_false_iff]
  intro hd
  exact Ranges.not_has_of_apart (by decide) (show whiteSpaceRanges.has c = true from h) (isDigit_iff.1 hd)

end Text

/-! ## Runs -/

namespace Lexeme

/-- The first character of `rest`, if there is one, is outside `inside`. -/
def Stops (inside : Char → Bool) (rest : List Char) : Prop := rest.head?.any inside = false

theorem stops_nil (inside : Char → Bool) : Stops inside [] := rfl

theorem stops_cons {inside : Char → Bool} {c : Char} {cs : List Char} : Stops inside (c :: cs) ↔ inside c = false := by
  simp [Stops]

theorem stops_never (cs : List Char) : Stops (fun _ => false) cs := by
  cases cs <;> rfl

theorem Stops.mono {p q : Char → Bool} {cs : List Char} (h : Stops q cs) (hpq : ∀ c, p c = true → q c = true) :
    Stops p cs := by
  cases cs with
  | nil => exact stops_nil _
  | cons c cs =>
    rw [stops_cons, Bool.eq_false_iff] at *
    exact fun hp => h (hpq c hp)

theorem stops_dropWhile (inside : Char → Bool) (cs : List Char) : Stops inside (cs.dropWhile inside) := by
  cases h : cs.dropWhile inside with
  | nil => exact stops_nil _
  | cons c rest =>
    have := List.head?_dropWhile_not inside cs
    simp_all [Stops]

theorem takeWhile_all (inside : Char → Bool) (cs : List Char) : ∀ c ∈ cs.takeWhile inside, inside c = true := by
  intro c hc
  exact List.all_eq_true.1 List.all_takeWhile c hc

/-- A run takes exactly the characters inside when the next one is outside. -/
theorem run_append (kind : Kind) (opening : List Char) {x rest : List Char} {inside : Char → Bool}
    (hx : ∀ c ∈ x, inside c = true) (hr : Stops inside rest) :
    run kind opening inside (x ++ rest) = ⟨.ok kind, opening ++ x, rest⟩ := by
  have ht : rest.takeWhile inside = [] := by
    cases rest with
    | nil => rfl
    | cons c rest => rw [List.takeWhile_cons, stops_cons.1 hr]; rfl
  have hd : rest.dropWhile inside = rest := by
    cases rest with
    | nil => rfl
    | cons c rest => rw [List.dropWhile_cons, stops_cons.1 hr]; rfl
  simp only [run, List.takeWhile_append_of_pos hx, List.dropWhile_append_of_pos hx, ht, hd, List.append_nil]

end Lexeme

end ScillaLayout
