import ScillaLayout.Proofs.Lexing.Spelling

/-!
# The piece at the head of a text

What `Lexeme.read` takes from the head of a text spells its kind and is not extended by the next character
(`Lexeme.read_fits`), and every such spelling is read (`Lexeme.read_of_spells`). Together they say which piece is read
without a word about how (`Lexeme.read_eq_ok_iff`).
-/

namespace ScillaLayout.Lexeme

open Vocabulary

/-! ## What is read is a spelling -/

/-- The characters of a piece spell its kind, and the next character does not extend them. A fault fits. -/
def Fits (l : Lexeme) : Prop := ∀ k, l.verdict = .ok k → k.Spells l.text ∧ Stops (k.extendedBy l.text) l.rest

theorem fits_ok {k : Kind} {x rest : List Char} (hx : k.Spells x) (hr : Stops (k.extendedBy x) rest) :
    Fits ⟨.ok k, x, rest⟩ := by
  rintro k' h
  cases h
  exact ⟨hx, hr⟩

theorem fits_error (fault : LexFault) (x rest : List Char) : Fits ⟨.error fault, x, rest⟩ := by
  rintro k h
  cases h

theorem closeComment?_self {cs text rest : List Char} (h : closeComment? cs = some (text, rest)) (rest' : List Char) :
    closeComment? (text ++ rest') = some (text, rest') := by
  fun_induction closeComment? cs generalizing text with
  | case1 => simp at h
  | case2 => obtain ⟨rfl, rfl⟩ := Prod.mk.inj (Option.some.inj h); rfl
  | case3 c cs hne ih =>
    obtain ⟨⟨t, r⟩, hs, he⟩ := Option.map_eq_some_iff.1 h
    obtain ⟨rfl, rfl⟩ := Prod.mk.inj he
    -- the first two characters are no closing mark: they are those of the text that was read
    have hcut : t ++ r = cs := append_of_closeComment? hs
    rw [List.cons_append, closeComment?]
    · rw [ih hs]; rfl
    · rintro rest'' rfl h'
      cases t with
      | nil => cases cs <;> simp_all [closeComment?]
      | cons d t =>
        obtain ⟨rfl, -⟩ := List.cons.inj h'
        exact hne _ rfl (by rw [← hcut]; rfl)

theorem closeString?_self {cs text rest : List Char} (h : closeString? cs = some (text, rest)) (rest' : List Char) :
    closeString? (text ++ rest') = some (text, rest') := by
  fun_induction closeString? cs generalizing text with
  | case1 => simp at h
  | case2 => obtain ⟨rfl, rfl⟩ := Prod.mk.inj (Option.some.inj h); rfl
  | case3 => simp at h
  | case4 c cs ih =>
    obtain ⟨⟨t, r⟩, hs, he⟩ := Option.map_eq_some_iff.1 h
    obtain ⟨rfl, rfl⟩ := Prod.mk.inj he
    simp [closeString?, ih hs]
  | case5 c cs hq hb hb' ih =>
    obtain ⟨⟨t, r⟩, hs, he⟩ := Option.map_eq_some_iff.1 h
    obtain ⟨rfl, rfl⟩ := Prod.mk.inj he
    have hc : c ≠ '\\' := by
      rintro rfl
      cases cs with
      | nil => exact hb rfl rfl
      | cons d cs => exact hb' _ _ rfl rfl
    rw [List.cons_append, closeString?]
    · rw [ih hs]; rfl
    all_goals simp_all

theorem comment_fits (cs : List Char) : (comment cs).Fits := by
  unfold comment
  split
  · next text rest h =>
    exact fits_ok ⟨text, by simpa using closeComment?_self h [], rfl⟩ (stops_never _)
  · exact fits_error _ _ _

theorem stringLiteral_fits (cs : List Char) : (stringLiteral cs).Fits := by
  unfold stringLiteral
  split
  · next text rest h =>
    exact fits_ok ⟨text, by simpa using closeString?_self h [], rfl⟩ (stops_never _)
  · exact fits_error _ _ _

theorem takeWhile_ne_nil {inside : Char → Bool} {cs : List Char} (h : cs.head?.any inside = true) :
    cs.takeWhile inside ≠ [] := by
  cases cs with
  | nil => simp at h
  | cons c cs => simp_all

theorem hexLiteral_fits (cs : List Char) : (hexLiteral cs).Fits := by
  unfold hexLiteral
  split
  · next h =>
    exact fits_ok ⟨_, takeWhile_ne_nil h, takeWhile_all _ _, rfl⟩ (stops_dropWhile isHexDigit cs)
  · exact fits_error _ _ _

theorem minus_fits (cs : List Char) : (minus cs).Fits := by
  unfold minus
  split
  · next h =>
    refine fits_ok ⟨_, takeWhile_ne_nil h, takeWhile_all _ _, .inr rfl⟩ ?_
    rw [Kind.extendedBy_numLit (by simp)]
    exact stops_dropWhile Char.isDigit cs
  · exact fits_error _ _ _

theorem special_fits (cs : List Char) : (special cs).Fits := by
  unfold special
  split
  · next h => exact fits_ok ⟨_, takeWhile_ne_nil h, takeWhile_all _ _, rfl⟩ (stops_dropWhile isWordChar cs)
  · next h =>
    exact fits_ok (show separators.kindOf? _ = _ by decide) (show Stops isWordChar cs by simpa [Stops] using h)

theorem typeParameter_fits (cs : List Char) : (typeParameter cs).Fits := by
  unfold typeParameter
  split
  · next h =>
    cases cs with
    | nil => simp at h
    | cons c cs =>
      by_cases hu : Text.isUppercase c = true
      · have hw : isWordChar c = true := isWordChar_of_isWordStart (by simpa using h)
        simp only [run, List.head?_cons, Option.any_some, hu, if_true]
        refine fits_ok ⟨c, cs.takeWhile isWordChar, by simpa using h, hu, takeWhile_all _ _, ?_⟩ (stops_dropWhile _ _)
        simp [hw]
      · simp only [List.head?_cons, Option.any_some, hu]
        exact fits_error _ _ _
  · exact fits_error _ _ _

/-- The pairs of characters that start a piece of their own. -/
def isPair (c : Char) (next : Option Char) : Prop :=
  (c, next) ∈ [('(', some '*'), (':', some '='), ('=', some '>'), ('0', some 'x')]

/-- The separators of one character. -/
def singles : List (Char × Kind) := [
  (';', .semicolon), (':', .colon), ('.', .period), ('|', .bar), ('[', .lsqb), (']', .rsqb), ('(', .lparen),
  (')', .rparen), ('\x7b', .lbrace), ('\x7d', .rbrace), (',', .comma), ('=', .eq), ('&', .ampersand), ('@', .atSign),
  ('_', .underscore)]

theorem mem_singles {c : Char} {k : Kind} (h : separators.kindOf? (String.singleton c) = some k) :
    (c, k) ∈ singles := by
  have hm := mem_of_kindOf? h
  simp only [separators, List.mem_cons, Prod.mk.injEq, List.not_mem_nil, or_false, ← String.toList_inj] at hm
  simpa [singles] using hm

/-- A separator of one character is extended by what makes it a pair. -/
theorem isPair_iff_extendedBy {c : Char} {k : Kind} (h : (c, k) ∈ singles) (hc : c ≠ '_') (d : Char) :
    isPair c (some d) ↔ k.extendedBy [c] d = true := by
  simp only [singles, List.mem_cons, Prod.mk.injEq, List.not_mem_nil, or_false] at h
  rcases h with ⟨rfl, rfl⟩ | ⟨rfl, rfl⟩ | ⟨rfl, rfl⟩ | ⟨rfl, rfl⟩ | ⟨rfl, rfl⟩ | ⟨rfl, rfl⟩ | ⟨rfl, rfl⟩ |
    ⟨rfl, rfl⟩ | ⟨rfl, rfl⟩ | ⟨rfl, rfl⟩ | ⟨rfl, rfl⟩ | ⟨rfl, rfl⟩ | ⟨rfl, rfl⟩ | ⟨rfl, rfl⟩ | ⟨rfl, rfl⟩ <;>
  simp_all [isPair, Kind.extendedBy]

theorem not_isPair_iff_stops {c : Char} {k : Kind} (h : (c, k) ∈ singles) (hc : c ≠ '_') (rest : List Char) :
    ¬isPair c rest.head? ↔ Stops (k.extendedBy [c]) rest := by
  cases rest with
  | nil => simp [isPair, Stops]
  | cons d rest => rw [List.head?_cons, isPair_iff_extendedBy h hc, stops_cons, Bool.eq_false_iff]

theorem number_fits {c : Char} {cs : List Char} (hc : c.isDigit = true) (hp : ¬isPair c cs.head?) :
    (run .numLit [] Char.isDigit (c :: cs)).Fits := by
  refine fits_ok ⟨_, takeWhile_ne_nil (by simpa using hc), takeWhile_all _ _, .inl rfl⟩ ?_
  by_cases hx : (c :: cs).takeWhile Char.isDigit = ['0']
  · -- the number is a lone zero: what follows is neither a digit nor the mark of a hexadecimal literal
    rw [List.takeWhile_cons, if_pos hc] at hx
    obtain ⟨rfl, hnil⟩ := List.cons.inj hx
    have hcut := List.takeWhile_append_dropWhile (p := Char.isDigit) (l := cs)
    rw [hnil, List.nil_append] at hcut
    have hstop := stops_dropWhile Char.isDigit cs
    rw [hcut] at hstop
    rw [List.dropWhile_cons, if_pos hc, hcut]
    cases cs with
    | nil => exact stops_nil _
    | cons d cs =>
      have hd : d ≠ 'x' := by rintro rfl; exact hp (by simp [isPair])
      simpa [Stops, Kind.extendedBy, hd] using hstop
  · rw [List.nil_append, Kind.extendedBy_numLit hx]
    exact stops_dropWhile _ _

theorem word_fits {c : Char} {cs : List Char} (hc : isWordStart c = true) :
    ({ run .id [] isWordChar (c :: cs) with
       verdict := .ok (wordKind (run .id [] isWordChar (c :: cs)).text) } : Lexeme).Fits := by
  have hw : isWordChar c = true := isWordChar_of_isWordStart hc
  have htext : (run .id [] isWordChar (c :: cs)).text = c :: cs.takeWhile isWordChar := by simp [run, hw]
  refine fits_ok ((Kind.spells_word (isWord_wordKind _)).2 ⟨c, _, hc, takeWhile_all isWordChar cs, htext, rfl⟩) ?_
  rw [show Kind.extendedBy _ _ = isWordChar from funext (Kind.extendedBy_word (isWord_wordKind _) _)]
  exact stops_dropWhile isWordChar (c :: cs)

theorem separator_fits {c : Char} {cs : List Char} {k : Kind} (h : separators.kindOf? (String.singleton c) = some k)
    (hp : ¬isPair c cs.head?) (hc : c ≠ '_') : Fits ⟨.ok k, [c], cs⟩ := by
  have hm := mem_singles h
  refine fits_ok ?_ ((not_isPair_iff_stops hm hc cs).1 hp)
  have hspells : ∀ p ∈ singles, p.2.Spells [p.1] := by
    simp only [singles, List.mem_cons, List.not_mem_nil, or_false, forall_eq_or_imp, forall_eq]
    simp only [Kind.Spells]
    decide
  exact hspells _ hm

theorem other_fits {c : Char} {cs : List Char} (hp : ¬isPair c cs.head?) (hc : c ≠ '_') : (other c cs).Fits := by
  unfold other
  split
  · next h =>
    exact fits_ok ⟨takeWhile_ne_nil (by simpa using h), takeWhile_all Text.isBlank (c :: cs)⟩
      (stops_dropWhile Text.isBlank (c :: cs))
  split
  · next h => exact number_fits h hp
  split
  · next h => exact word_fits h
  split
  · next k h => exact separator_fits h hp hc
  · exact fits_error _ _ _

/-- Characters without a mark that start no pair are read by `other`. -/
theorem read_eq_other {c : Char} {cs : List Char} (hc : c ∉ ['-', '<', '\x22', '\n', '\r', '_', '\x27'])
    (hp : ¬isPair c cs.head?) : read c cs = other c cs := by
  unfold read
  split <;> simp_all [isPair]

/-- Pieces that start with a pair fit. -/
theorem pair_fits {c : Char} {cs : List Char} (h : isPair c cs.head?) : (read c cs).Fits := by
  cases cs with
  | nil => simp [isPair] at h
  | cons d cs =>
    simp only [isPair, List.head?_cons, List.mem_cons, Prod.mk.injEq, Option.some.injEq, List.not_mem_nil,
      or_false] at h
    rcases h with ⟨rfl, rfl⟩ | ⟨rfl, rfl⟩ | ⟨rfl, rfl⟩ | ⟨rfl, rfl⟩
    · exact comment_fits cs
    · exact fits_ok (show separators.kindOf? _ = _ by decide) (stops_never _)
    · exact fits_ok (show separators.kindOf? _ = _ by decide) (stops_never _)
    · exact hexLiteral_fits cs

/-- Pieces that start with a mark fit. -/
theorem mark_fits {c : Char} (h : c ∈ ['-', '<', '\x22', '\n', '\r', '_', '\x27']) (cs : List Char) :
    (read c cs).Fits := by
  -- three of the marks are read by themselves only if another character follows
  have hother : ∀ {d : Char}, cs.head? ≠ some d → ∀ rest, cs = d :: rest → False := by
    rintro d hne rest rfl
    exact hne rfl
  simp only [List.mem_cons, List.not_mem_nil, or_false] at h
  rcases h with rfl | rfl | rfl | rfl | rfl | rfl | rfl
  · by_cases hnext : cs.head? = some '>'
    · obtain ⟨cs, rfl⟩ := List.head?_eq_some_iff.1 hnext
      exact fits_ok (show separators.kindOf? _ = _ by decide) (stops_never _)
    · have hread : read '-' cs = minus cs := by
        rw [read]
        exact hother hnext
      rw [hread]
      exact minus_fits cs
  · by_cases hnext : cs.head? = some '-'
    · obtain ⟨cs, rfl⟩ := List.head?_eq_some_iff.1 hnext
      exact fits_ok (show separators.kindOf? _ = _ by decide) (stops_never _)
    · have hread : read '<' cs = ⟨.error .loneLess, ['<'], cs⟩ := by
        rw [read]
        exact hother hnext
      rw [hread]
      exact fits_error _ _ _
  · exact stringLiteral_fits cs
  · exact fits_ok (by simp [Kind.Spells]) (stops_never _)
  · by_cases hnext : cs.head? = some '\n'
    · obtain ⟨cs, rfl⟩ := List.head?_eq_some_iff.1 hnext
      exact fits_ok (by simp [Kind.Spells]) (stops_never _)
    · have hread : read '\r' cs = ⟨.ok .newline, ['\r'], cs⟩ := by
        rw [read]
        exact hother hnext
      rw [hread]
      refine fits_ok (by simp [Kind.Spells]) ?_
      cases cs with
      | nil => exact stops_nil _
      | cons d cs => simpa [stops_cons, Kind.extendedBy] using hnext
  · exact special_fits cs
  · exact typeParameter_fits cs

/-- Reading fits: the piece spells its kind and the next character does not extend it. -/
theorem read_fits (c : Char) (cs : List Char) : (read c cs).Fits := by
  by_cases hmark : c ∈ ['-', '<', '\x22', '\n', '\r', '_', '\x27']
  · exact mark_fits hmark cs
  by_cases hpair : isPair c cs.head?
  · exact pair_fits hpair
  · have hplain : c ≠ '_' := by
      rintro rfl
      exact hmark (by simp)
    rw [read_eq_other hmark hpair]
    exact other_fits hpair hplain

/-! ## A spelling is read -/

/-- Characters of a class without marks are read by `other`. -/
theorem read_eq_other_of_class {p : Char → Bool} {c : Char} (hc : p c = true) (cs : List Char)
    (hp : ['-', '<', '\x22', '\n', '\r', '_', '\x27', '(', ':', '=', '0'].all (!p ·) = true) :
    read c cs = other c cs := by
  have hne : ∀ d ∈ ['-', '<', '\x22', '\n', '\r', '_', '\x27', '(', ':', '=', '0'], c ≠ d := by
    rintro d hd rfl
    have hnot := List.all_eq_true.1 hp c hd
    rw [hc] at hnot
    cases hnot
  simp only [List.mem_cons, List.not_mem_nil, or_false, forall_eq_or_imp, forall_eq] at hne
  exact read_eq_other (by simp [hne]) (by simp [isPair, hne])

theorem read_word {c : Char} {cs rest : List Char} (hc : isWordStart c = true) (hcs : ∀ d ∈ cs, isWordChar d = true)
    (hr : Stops isWordChar rest) : read c (cs ++ rest) = ⟨.ok (wordKind (c :: cs)), c :: cs, rest⟩ := by
  have hw : isWordChar c = true := isWordChar_of_isWordStart hc
  have hb : Text.isBlank c = false := by
    rw [Bool.eq_false_iff]
    intro h
    rw [isWordStart, Text.isAlphabetic_eq_false_of_isWhiteSpace (Text.isWhiteSpace_of_isBlank h)] at hc
    cases hc
  have hd : c.isDigit = false := by
    rw [Bool.eq_false_iff]
    intro h
    rw [isWordStart, Text.isAlphabetic_eq_false_of_isDigit h] at hc
    cases hc
  have hrun := run_append .id [] (x := c :: cs) (by simpa using ⟨hw, hcs⟩) hr
  rw [List.cons_append] at hrun
  rw [read_eq_other_of_class hc _ (by decide)]
  simp only [other, hb, hd, hc, hrun, List.nil_append, if_true, Bool.false_eq_true, if_false]

theorem read_blank {c : Char} {cs rest : List Char} (hc : ∀ d ∈ c :: cs, Text.isBlank d = true)
    (hr : Stops Text.isBlank rest) : read c (cs ++ rest) = ⟨.ok .whitespace, c :: cs, rest⟩ := by
  have hb : Text.isBlank c = true := hc c List.mem_cons_self
  have hrun := run_append .whitespace [] hc hr
  rw [List.cons_append] at hrun
  rw [read_eq_other_of_class hb _ (by decide)]
  simp only [other, hb, hrun, List.nil_append, if_true]

theorem read_number {c : Char} {cs rest : List Char} (hc : ∀ d ∈ c :: cs, d.isDigit = true)
    (hr : Stops (Kind.numLit.extendedBy (c :: cs)) rest) : read c (cs ++ rest) = ⟨.ok .numLit, c :: cs, rest⟩ := by
  have hd : c.isDigit = true := hc c List.mem_cons_self
  have hb : Text.isBlank c = false := by
    rw [Bool.eq_false_iff]
    intro h
    rw [Text.isDigit_eq_false_of_isWhiteSpace (Text.isWhiteSpace_of_isBlank h)] at hd
    cases hd
  have hne : ∀ d : Char, d.isDigit = false → c ≠ d := by
    rintro d h rfl
    rw [hd] at h
    cases h
  have hpair : ¬isPair c (cs ++ rest).head? := by
    simp only [isPair, List.mem_cons, Prod.mk.injEq, List.not_mem_nil, or_false, hne '(' (by decide),
      hne ':' (by decide), hne '=' (by decide), false_and, false_or]
    rintro ⟨rfl, hx⟩
    -- the character after a zero is a digit of the number or does not extend it
    cases cs with
    | nil =>
      cases rest with
      | nil => simp at hx
      | cons d rest => simp_all [stops_cons, Kind.extendedBy]
    | cons d cs =>
      have := hc d (by simp)
      simp_all
  have hrun := run_append .numLit [] hc
    (hr.mono fun d h => by simp [Kind.extendedBy, h] : Stops Char.isDigit rest)
  rw [List.cons_append] at hrun
  rw [read_eq_other (by simp [hne '-' (by decide), hne '<' (by decide), hne '\x22' (by decide), hne '\n' (by decide),
    hne '\r' (by decide), hne '_' (by decide), hne '\x27' (by decide)]) hpair]
  simp only [other, hd, hb, hrun, List.nil_append, if_true, Bool.false_eq_true,
    if_false]

theorem read_minus {ds rest : List Char} (hne : ds ≠ []) (hds : ∀ d ∈ ds, d.isDigit = true)
    (hr : Stops Char.isDigit rest) : read '-' (ds ++ rest) = ⟨.ok .numLit, '-' :: ds, rest⟩ := by
  cases ds with
  | nil => exact absurd rfl hne
  | cons d ds =>
    have hd : d.isDigit = true := hds d List.mem_cons_self
    have hgt : d ≠ '>' := by rintro rfl; simp at hd
    have hread : read '-' (d :: ds ++ rest) = minus (d :: ds ++ rest) := by
      unfold read
      split <;> simp_all
    rw [hread, minus, if_pos (by simpa using hd)]
    exact run_append _ _ hds hr

theorem head?_any_append {p : Char → Bool} {x : List Char} (hx : x ≠ []) (hp : ∀ c ∈ x, p c = true)
    (rest : List Char) : (x ++ rest).head?.any p = true := by
  cases x with
  | nil => exact absurd rfl hx
  | cons c x => simpa using hp c List.mem_cons_self

theorem read_hex {ds rest : List Char} (hne : ds ≠ []) (hds : ∀ d ∈ ds, isHexDigit d = true)
    (hr : Stops isHexDigit rest) : read '0' ('x' :: ds ++ rest) = ⟨.ok .hexLit, '0' :: 'x' :: ds, rest⟩ := by
  show hexLiteral (ds ++ rest) = _
  rw [hexLiteral, if_pos (head?_any_append hne hds rest)]
  exact run_append _ _ hds hr

theorem read_eq_special (cs : List Char) : read '_' cs = special cs := by
  unfold read
  split <;> simp_all

theorem read_special {cs rest : List Char} (hne : cs ≠ []) (hcs : ∀ d ∈ cs, isWordChar d = true)
    (hr : Stops isWordChar rest) : read '_' (cs ++ rest) = ⟨.ok .spid, '_' :: cs, rest⟩ := by
  rw [read_eq_special, special, if_pos (head?_any_append hne hcs rest)]
  exact run_append _ _ hcs hr

theorem read_typeParameter {c : Char} {cs rest : List Char} (hc : isWordStart c = true)
    (hu : Text.isUppercase c = true) (hcs : ∀ d ∈ cs, isWordChar d = true) (hr : Stops isWordChar rest) :
    read '\x27' (c :: cs ++ rest) = ⟨.ok .tid, '\x27' :: c :: cs, rest⟩ := by
  have hw : isWordChar c = true := isWordChar_of_isWordStart hc
  have hread : read '\x27' (c :: cs ++ rest) = typeParameter (c :: cs ++ rest) := by
    unfold read
    split <;> simp_all
  have hrun := run_append .tid ['\x27'] (x := c :: cs) (by simpa using ⟨hw, hcs⟩) hr
  rw [List.cons_append] at hrun hread ⊢
  rw [hread]
  simp only [typeParameter, List.head?_cons, Option.any_some, hc, hu, if_true, hrun, List.singleton_append]

theorem read_string {body rest : List Char} (h : closeString? body = some (body, [])) :
    read '\x22' (body ++ rest) = ⟨.ok .stringLit, '\x22' :: body, rest⟩ := by
  have hread : read '\x22' (body ++ rest) = stringLiteral (body ++ rest) := by
    unfold read
    split <;> simp_all
  rw [hread, stringLiteral, closeString?_self h rest]

theorem read_comment {body rest : List Char} (h : closeComment? body = some (body, [])) :
    read '(' ('*' :: body ++ rest) = ⟨.ok .comment, '(' :: '*' :: body, rest⟩ := by
  show comment (body ++ rest) = _
  rw [comment, closeComment?_self h rest]

theorem read_newline {x rest : List Char} (hx : Kind.newline.Spells x) (hr : Stops (Kind.newline.extendedBy x) rest) :
    ∃ c cs, x = c :: cs ∧ read c (cs ++ rest) = ⟨.ok .newline, x, rest⟩ := by
  simp only [Kind.Spells, List.mem_cons, List.not_mem_nil, or_false] at hx
  rcases hx with rfl | rfl | rfl
  · refine ⟨_, _, rfl, ?_⟩
    unfold read
    split <;> simp_all
  · refine ⟨_, _, rfl, ?_⟩
    unfold read
    split <;> simp_all [Stops, Kind.extendedBy]
  · exact ⟨_, _, rfl, rfl⟩

theorem other_separator {c : Char} {k : Kind} (h : separators.kindOf? (String.singleton c) = some k)
    (cs : List Char) : other c cs = ⟨.ok k, [c], cs⟩ := by
  have hclass : ∀ p ∈ singles, Text.isBlank p.1 = false ∧ p.1.isDigit = false ∧ isWordStart p.1 = false := by decide
  simp only [other, hclass _ (mem_singles h), h, Bool.false_eq_true, if_false]

theorem read_single {c : Char} {k : Kind} {rest : List Char} (h : separators.kindOf? (String.singleton c) = some k)
    (hc : c ≠ '_') (hr : Stops (k.extendedBy [c]) rest) : read c rest = ⟨.ok k, [c], rest⟩ := by
  have hmark : ∀ p ∈ singles, p.1 ≠ '_' → p.1 ∉ ['-', '<', '\x22', '\n', '\r', '_', '\x27'] := by decide
  have hm := mem_singles h
  rw [read_eq_other (hmark _ hm hc) ((not_isPair_iff_stops hm hc rest).2 hr), other_separator h]

theorem read_underscore {rest : List Char} (hr : Stops isWordChar rest) :
    read '_' rest = ⟨.ok .underscore, ['_'], rest⟩ := by
  rw [read_eq_special, special, if_neg (by rw [hr]; simp)]

theorem read_pair {c d : Char} {k : Kind} (h : separators.kindOf? (String.ofList [c, d]) = some k) (rest : List Char) :
    read c (d :: rest) = ⟨.ok k, [c, d], rest⟩ := by
  have hm : (c = '=' ∧ d = '>') ∧ k = .arrow ∨ (c = '-' ∧ d = '>') ∧ k = .tarrow ∨
      (c = '<' ∧ d = '-') ∧ k = .fetch ∨ (c = ':' ∧ d = '=') ∧ k = .assign := by
    simpa [separators, ← String.toList_inj] using mem_of_kindOf? h
  rcases hm with ⟨⟨rfl, rfl⟩, rfl⟩ | ⟨⟨rfl, rfl⟩, rfl⟩ | ⟨⟨rfl, rfl⟩, rfl⟩ | ⟨⟨rfl, rfl⟩, rfl⟩ <;> rfl

theorem read_separator {k : Kind} {x rest : List Char} (h : separators.kindOf? (String.ofList x) = some k)
    (hr : Stops (k.extendedBy x) rest) : ∃ c cs, x = c :: cs ∧ read c (cs ++ rest) = ⟨.ok k, x, rest⟩ := by
  have hlen : ∀ p ∈ separators, p.1.toList.length = 1 ∨ p.1.toList.length = 2 := by decide
  have hx := hlen _ (mem_of_kindOf? h)
  rw [String.toList_ofList] at hx
  match x, hx with
  | [c], _ =>
    refine ⟨c, [], rfl, ?_⟩
    by_cases hc : c = '_'
    · subst hc
      obtain rfl : k = .underscore := by simpa using h.symm.trans (by decide : _ = some Kind.underscore)
      exact read_underscore hr
    · exact read_single h hc hr
  | [c, d], _ => exact ⟨c, [d], rfl, read_pair h rest⟩

theorem read_of_spells {k : Kind} {x rest : List Char} (hx : k.Spells x) (hr : Stops (k.extendedBy x) rest) :
    ∃ c cs, x = c :: cs ∧ read c (cs ++ rest) = ⟨.ok k, x, rest⟩ := by
  by_cases hw : k.isWord = true
  · obtain ⟨c, cs, hc, hcs, rfl, rfl⟩ := (Kind.spells_word hw).1 hx
    rw [show Kind.extendedBy _ _ = isWordChar from funext (Kind.extendedBy_word hw _)] at hr
    exact ⟨c, cs, rfl, read_word hc hcs hr⟩
  cases k with
  | newline => exact read_newline hx hr
  | whitespace =>
    obtain ⟨hne, hb⟩ := hx
    cases x with
    | nil => exact absurd rfl hne
    | cons c cs => exact ⟨c, cs, rfl, read_blank hb hr⟩
  | comment => obtain ⟨body, hb, rfl⟩ := hx; exact ⟨_, _, rfl, read_comment hb⟩
  | stringLit => obtain ⟨body, hb, rfl⟩ := hx; exact ⟨_, _, rfl, read_string hb⟩
  | numLit =>
    obtain ⟨ds, hne, hds, rfl | rfl⟩ := hx
    · cases x with
      | nil => exact absurd rfl hne
      | cons c cs => exact ⟨c, cs, rfl, read_number hds hr⟩
    · rw [Kind.extendedBy_numLit (by simp)] at hr
      exact ⟨_, _, rfl, read_minus hne hds hr⟩
  | hexLit => obtain ⟨ds, hne, hds, rfl⟩ := hx; exact ⟨_, _, rfl, read_hex hne hds hr⟩
  | tid => obtain ⟨c, cs, hc, hu, hcs, rfl⟩ := hx; exact ⟨_, _, rfl, read_typeParameter hc hu hcs hr⟩
  | spid => obtain ⟨cs, hne, hcs, rfl⟩ := hx; exact ⟨_, _, rfl, read_special hne hcs hr⟩
  | illegal | eof | indent => exact hx.elim
  | semicolon | colon | period | bar | lsqb | rsqb | lparen | rparen | lbrace | rbrace | comma | arrow | tarrow | eq
  | ampersand | fetch | assign | atSign | underscore => exact read_separator hx hr
  | _ => exact absurd rfl hw

/-- **The piece at the head of a text** is the one spelling at its start that the next character does not extend. -/
theorem read_eq_ok_iff {c : Char} {cs : List Char} {k : Kind} {x rest : List Char} :
    read c cs = ⟨.ok k, x, rest⟩ ↔ x ++ rest = c :: cs ∧ k.Spells x ∧ Stops (k.extendedBy x) rest := by
  constructor
  · intro h
    have hcut := (read_cuts c cs).append
    have hfit := read_fits c cs k (by rw [h])
    rw [h] at hcut hfit
    exact ⟨hcut, hfit⟩
  · rintro ⟨hcut, hx, hr⟩
    obtain ⟨c', cs', rfl, hread⟩ := read_of_spells hx hr
    obtain ⟨rfl, rfl⟩ := List.cons.inj hcut
    exact hread

end ScillaLayout.Lexeme
