import Mathlib.Data.List.Basic
import ScillaLayout.Proofs.Lexing.Lossless
import ScillaLayout.Text.Digits

/-!
# Token dumps can be read back

A line of a token dump is read from left to right: the name of the kind, the quoted text, then the two places
(`Token.ofDescription?`). Each part ends where no character of it can stand: names hold no colon, numbers only digits,
and inside quotes a quote follows a backslash. So every reader gets what was written, whatever comes behind it, and a
token is what its line says (`Token.ofDescription?_describe`). The text of a source is the text of the lines of its
dump, and no line is broken (`dump_readable`).
-/

namespace ScillaLayout

namespace Text

variable {c : Char} {base : Nat}

/-! ## Numbers -/

/-- What holds of all digits holds of the digits of a number. -/
theorem forall_mem_toDigits {p : Char → Prop} (h : ∀ d < 16, p d.digitChar) (hbase : 1 < base) (hsmall : base ≤ 16)
    (n : Nat) : ∀ c ∈ Nat.toDigits base n, p c := by
  induction n using Nat.strongRecOn with
  | ind n ih =>
    intro c hc
    rw [Nat.toDigits_eq_if hbase] at hc
    split at hc
    · next hn => exact List.mem_singleton.1 hc ▸ h n (by omega)
    · next hn =>
      have hmod : n % base < base := Nat.mod_lt n (by omega)
      rcases List.mem_append.1 hc with hc | hc
      · exact ih (n / base) (Nat.div_lt_self (by omega) hbase) c hc
      · exact List.mem_singleton.1 hc ▸ h (n % base) (by omega)

theorem digitValue?_digitChar : ∀ d < 16, digitValue? d.digitChar = some d := by decide

/-- A number is the value of its digits. -/
theorem numeral?_toDigits (hbase : 1 < base) (hsmall : base ≤ 16) (n : Nat) :
    numeral? base (Nat.toDigits base n) = some n := by
  induction n using Nat.strongRecOn with
  | ind n ih =>
    rw [Nat.toDigits_eq_if hbase]
    split
    · next hn => simp [numeral?, digitValue?_digitChar n (by omega), hn]
    · next hn =>
      have hmod : n % base < base := Nat.mod_lt n (by omega)
      have hdiv : numeral? base (Nat.toDigits base (n / base)) = some (n / base) :=
        ih (n / base) (Nat.div_lt_self (by omega) hbase)
      rw [numeral?] at hdiv ⊢
      rw [List.foldlM_append, hdiv]
      simp [digitValue?_digitChar (n % base) (by omega), hmod, Nat.div_add_mod]

theorem charOfCode?_toNat (c : Char) : charOfCode? c.toNat = some c := by
  have hvalid : c.toNat.isValidChar := c.valid
  rw [charOfCode?, if_pos hvalid, Char.ofNat_toNat]

/-! ## Parts that end at a character -/

/-- What stands before the first `stop`, and what stands behind it. -/
def upTo? (stop : Char) (cs : List Char) : Option (List Char × List Char) :=
  match cs.dropWhile (· != stop) with
  | [] => none
  | _ :: rest => some (cs.takeWhile (· != stop), rest)

theorem upTo?_append {stop : Char} {part : List Char} (h : stop ∉ part) (rest : List Char) :
    upTo? stop (part ++ stop :: rest) = some (part, rest) := by
  have hpart : ∀ c ∈ part, (c != stop) = true := by
    intro c hc
    rw [bne_iff_ne]
    rintro rfl
    exact h hc
  rw [upTo?, List.dropWhile_append_of_pos hpart, List.takeWhile_append_of_pos hpart]
  simp

/-! ## Quoted text -/

/-- The character that a backslash and `c` stand for. -/
def shortEscape? (c : Char) : Option Char :=
  [('0', '\x00'), ('t', '\t'), ('r', '\r'), ('n', '\n'), ('\\', '\\'), ('\x22', '\x22')].lookup c

/-- The first character of an escaped text, and what stands behind it. -/
def readEscaped? : List Char → Option (Char × List Char)
  | '\\' :: 'u' :: '\x7b' :: cs => do
    let (digits, rest) ← upTo? '\x7d' cs
    return (← charOfCode? (← numeral? 16 digits), rest)
  | '\\' :: cs => do
    let c ← cs.head?
    return (← shortEscape? c, cs.tail)
  | c :: cs => some (c, cs)
  | [] => none

/-- How a character is written: by a short escape, by its code point or as it is. -/
theorem escapeChar_cases (c : Char) :
    (∃ e, shortEscape? e = some c ∧ escapeChar '\x22' c = ['\\', e]) ∨ escapeChar '\x22' c = codeEscape c ∨
      (c ≠ '\\' ∧ c ≠ '\x22' ∧ isHidden c = false ∧ escapeChar '\x22' c = [c]) := by
  unfold escapeChar
  split
  · next h => exact .inl ⟨'0', h ▸ rfl, rfl⟩
  split
  · next h => exact .inl ⟨'t', h ▸ rfl, rfl⟩
  split
  · next h => exact .inl ⟨'r', h ▸ rfl, rfl⟩
  split
  · next h => exact .inl ⟨'n', h ▸ rfl, rfl⟩
  split
  · next h =>
    rw [Bool.or_eq_true, decide_eq_true_iff, decide_eq_true_iff] at h
    exact .inl ⟨c, by rcases h with rfl | rfl <;> rfl, rfl⟩
  · next h =>
    rw [Bool.or_eq_true, decide_eq_true_iff, decide_eq_true_iff, not_or] at h
    split
    · exact .inr (.inl rfl)
    · next hhidden => exact .inr (.inr ⟨h.1, h.2, Bool.eq_false_iff.2 hhidden, rfl⟩)

theorem mem_of_shortEscape? {e : Char} (h : shortEscape? e = some c) : e ∈ ['0', 't', 'r', 'n', '\\', '\x22'] := by
  obtain ⟨l, r, heq, -⟩ := List.lookup_eq_some_iff.1 h
  have hmem : (e, c) ∈ l ++ (e, c) :: r := by simp
  rw [← heq] at hmem
  exact List.mem_map_of_mem (f := Prod.fst) hmem

/-- **One character is read back.** -/
theorem readEscaped?_escapeChar (c : Char) (rest : List Char) :
    readEscaped? (escapeChar '\x22' c ++ rest) = some (c, rest) := by
  rcases escapeChar_cases c with ⟨e, he, hwritten⟩ | hwritten | ⟨hc, -, -, hwritten⟩ <;> rw [hwritten]
  · have hne : e ≠ 'u' := fun heq => absurd (mem_of_shortEscape? he) (heq ▸ by decide)
    simp [readEscaped?, hne, he]
  · have hbrace : '\x7d' ∉ Nat.toDigits 16 c.toNat := fun hmem =>
      forall_mem_toDigits (p := (· ≠ '\x7d')) (by decide) (by decide) (by decide) _ _ hmem rfl
    have hcut := upTo?_append hbrace rest
    simp [codeEscape, readEscaped?, hcut, numeral?_toDigits, charOfCode?_toNat]
  · simp [readEscaped?, hc]

/-- An escaped character does not look like the closing quote. -/
theorem head?_escapeChar (c : Char) (rest : List Char) : (escapeChar '\x22' c ++ rest).head? ≠ some '\x22' := by
  rcases escapeChar_cases c with ⟨e, -, hwritten⟩ | hwritten | ⟨-, hc, -, hwritten⟩ <;> rw [hwritten]
  · simp
  · simp [codeEscape]
  · simpa using hc

theorem length_upTo? {stop : Char} {cs part rest : List Char} (h : upTo? stop cs = some (part, rest)) :
    rest.length < cs.length := by
  unfold upTo? at h
  split at h
  · cases h
  · next c behind hdrop =>
    obtain ⟨-, rfl⟩ := Prod.mk.inj (Option.some.inj h)
    have hle := (List.dropWhile_suffix (· != stop) (l := cs)).length_le
    rw [hdrop] at hle
    exact hle

theorem length_readEscaped? {cs rest : List Char} (h : readEscaped? cs = some (c, rest)) : rest.length < cs.length := by
  unfold readEscaped? at h
  split at h
  · obtain ⟨⟨digits, behind⟩, hcut, h⟩ := Option.bind_eq_some_iff.1 h
    obtain ⟨code, -, h⟩ := Option.bind_eq_some_iff.1 h
    obtain ⟨c', -, h⟩ := Option.bind_eq_some_iff.1 h
    obtain ⟨-, rfl⟩ := Prod.mk.inj (Option.some.inj h)
    have hlt := length_upTo? hcut
    simp only [List.length_cons]
    omega
  · next cs _ =>
    obtain ⟨e, he, h⟩ := Option.bind_eq_some_iff.1 h
    obtain ⟨c', -, h⟩ := Option.bind_eq_some_iff.1 h
    obtain ⟨-, rfl⟩ := Prod.mk.inj (Option.some.inj h)
    simp only [List.length_cons, List.length_tail]
    omega
  · obtain ⟨-, rfl⟩ := Prod.mk.inj (Option.some.inj h)
    simp
  · cases h

/-- The text up to the closing quote, and what stands behind the quote. -/
def readQuoted? (cs : List Char) : Option (List Char × List Char) :=
  if cs.head? = some '\x22' then some ([], cs.tail)
  else
    match h : readEscaped? cs with
    | none => none
    | some (c, behind) =>
      have := length_readEscaped? h
      (readQuoted? behind).map fun (text, rest) => (c :: text, rest)
termination_by cs.length

/-- **A quoted text is read back**, whatever it is and whatever stands behind it. -/
theorem readQuoted?_escaped (text rest : List Char) :
    readQuoted? (text.flatMap (escapeChar '\x22') ++ '\x22' :: rest) = some (text, rest) := by
  induction text with
  | nil =>
    rw [readQuoted?]
    simp
  | cons c text ih =>
    rw [List.flatMap_cons, List.append_assoc, readQuoted?, if_neg (head?_escapeChar c _)]
    split
    · next h => simp [readEscaped?_escapeChar] at h
    · next h =>
      rw [readEscaped?_escapeChar] at h
      obtain ⟨rfl, rfl⟩ := Prod.mk.inj (Option.some.inj h)
      rw [ih]
      rfl

/-! ## Lines that are not broken -/

/-- The characters at which a text is broken into lines. -/
def breaksLine (c : Char) : Bool :=
  ['\n', '\x0b', '\x0c', '\r', '\x85', '\u2028', '\u2029'].contains c

theorem isHidden_of_breaksLine (h : breaksLine c = true) : isHidden c = true := by
  simp [breaksLine] at h
  rcases h with rfl | rfl | rfl | rfl | rfl | rfl | rfl <;> decide +kernel

/-- No escaped character breaks a line. -/
theorem breaksLine_escapeChar (c : Char) : ∀ e ∈ escapeChar '\x22' c, breaksLine e = false := by
  intro e he
  rcases escapeChar_cases c with ⟨short, hshort, hwritten⟩ | hwritten | ⟨-, -, hhidden, hwritten⟩ <;>
    rw [hwritten] at he
  · have hletters : ∀ e ∈ ['0', 't', 'r', 'n', '\\', '\x22'], breaksLine e = false := by simp [breaksLine]
    rcases List.mem_cons.1 he with rfl | he
    · rfl
    · exact hletters e (List.mem_singleton.1 he ▸ mem_of_shortEscape? hshort)
  · have hdigits : ∀ d ∈ Nat.toDigits 16 c.toNat, breaksLine d = false :=
      forall_mem_toDigits (by decide) (by decide) (by decide) _
    have hopening : ∀ e ∈ ['\\', 'u', '\x7b'], breaksLine e = false := by simp [breaksLine]
    rw [codeEscape, List.mem_append, List.mem_append] at he
    rcases he with (he | he) | he
    · exact hopening e he
    · exact hdigits e he
    · exact List.mem_singleton.1 he ▸ rfl
  · rw [List.mem_singleton.1 he]
    exact Bool.eq_false_iff.2 fun hbreak => absurd (isHidden_of_breaksLine hbreak) (by simp [hhidden])

end Text

open Text (upTo? upTo?_append numeral? numeral?_toDigits forall_mem_toDigits breaksLine)

/-! ## Places -/

namespace Position

/-- A place that is written before `stop`, and what stands behind it. -/
def read? (stop : Char) (cs : List Char) : Option (Position × List Char) := do
  let (line, cs) ← upTo? ':' cs
  let (column, cs) ← upTo? ':' cs
  let (offset, cs) ← upTo? stop cs
  return (⟨← numeral? 10 offset, ← numeral? 10 line, ← numeral? 10 column⟩, cs)

theorem toList_render (p : Position) : p.render.toList =
    Nat.toDigits 10 p.line ++ ':' :: (Nat.toDigits 10 p.column ++ ':' :: Nat.toDigits 10 p.offset) := by
  simp [render, toString]

theorem read?_render (stop : Char) (hstop : ∀ d < 16, d.digitChar ≠ stop) (p : Position) (rest : List Char) :
    read? stop (p.render.toList ++ stop :: rest) = some (p, rest) := by
  have hout : ∀ {c : Char}, (∀ d < 16, d.digitChar ≠ c) → ∀ n, c ∉ Nat.toDigits 10 n := by
    intro c hc n hmem
    exact forall_mem_toDigits (p := (· ≠ c)) hc (by decide) (by decide) n c hmem rfl
  have hcolon : ∀ n, ':' ∉ Nat.toDigits 10 n := hout (by decide)
  have hnumber : ∀ n, numeral? 10 (Nat.toDigits 10 n) = some n := numeral?_toDigits (by decide) (by decide)
  rw [toList_render, List.append_assoc, List.cons_append, List.append_assoc, List.cons_append]
  simp [read?, upTo?_append (hcolon _), upTo?_append (hout hstop _), hnumber]

theorem breaksLine_render (p : Position) : ∀ c ∈ p.render.toList, breaksLine c = false := by
  have hdigits : ∀ n, ∀ c ∈ Nat.toDigits 10 n, breaksLine c = false :=
    forall_mem_toDigits (by decide) (by decide) (by decide)
  rw [p.toList_render]
  simp only [List.forall_mem_cons, List.forall_mem_append]
  exact ⟨hdigits _, rfl, hdigits _, rfl, hdigits _⟩

end Position

/-! ## Lines -/

namespace Kind

theorem ofName?_name (k : Kind) : ofName? k.name = some k := by
  have hall : ∀ k ∈ all, ofName? k.name = some k := by decide +kernel
  exact hall k (mem_all k)

theorem name_chars (k : Kind) : ∀ c ∈ k.name.toList, c ≠ ':' ∧ breaksLine c = false := by
  have hall : ∀ k ∈ all, k.name.toList.all (fun c => c != ':' && !breaksLine c) = true := by decide +kernel
  intro c hc
  simpa using List.all_eq_true.1 (hall k (mem_all k)) c hc

end Kind

namespace Token

/-- The token that a line of a token dump describes. -/
def ofDescription? (line : String) : Option Token := do
  let cs ← line.toList.dropPrefix? ['<']
  let (name, cs) ← upTo? ':' cs
  let cs ← cs.dropPrefix? ['\x22']
  let (text, cs) ← Text.readQuoted? cs
  let cs ← cs.dropPrefix? ['>', '(']
  let (first, cs) ← Position.read? '-' cs
  let (last, cs) ← Position.read? ')' cs
  let kind ← Kind.ofName? (String.ofList name)
  if cs.isEmpty then some ⟨kind, String.ofList text, some ⟨first, last⟩⟩ else none

variable {t : Token} {span : Span}

theorem toList_describe (h : t.span = some span) : t.describe.toList =
    '<' :: (t.kind.name.toList ++ ':' :: '\x22' :: (t.text.toList.flatMap (Text.escapeChar '\x22') ++
      '\x22' :: '>' :: '(' :: (span.first.render.toList ++ '-' :: (span.last.render.toList ++ [')'])))) := by
  simp [describe, h, Span.render, Text.quoted, toString]

/-- **A line of a dump is read back.** -/
theorem ofDescription?_describe (h : t.span = some span) : ofDescription? t.describe = some t := by
  have hname : ':' ∉ t.kind.name.toList := fun hmem => (t.kind.name_chars _ hmem).1 rfl
  have hfirst := Position.read?_render '-' (by decide) span.first (span.last.render.toList ++ [')'])
  have hlast := Position.read?_render ')' (by decide) span.last []
  have ht : (⟨t.kind, t.text, some ⟨span.first, span.last⟩⟩ : Token) = t := by rw [← h]
  rw [ofDescription?, toList_describe h]
  simp [List.dropPrefix?, upTo?_append hname, Text.readQuoted?_escaped, hfirst, hlast, Kind.ofName?_name, ht]

/-- No line of a dump is broken. -/
theorem breaksLine_describe (h : t.span = some span) : ∀ c ∈ t.describe.toList, breaksLine c = false := by
  have hname : ∀ c ∈ t.kind.name.toList, breaksLine c = false := fun c hc => (t.kind.name_chars c hc).2
  have htext : ∀ c ∈ t.text.toList.flatMap (Text.escapeChar '\x22'), breaksLine c = false := by
    intro c hc
    obtain ⟨c', -, hc⟩ := List.mem_flatMap.1 hc
    exact Text.breaksLine_escapeChar c' c hc
  rw [toList_describe h]
  simp only [List.forall_mem_cons, List.forall_mem_append]
  exact ⟨rfl, hname, rfl, rfl, htext, rfl, rfl, rfl, span.first.breaksLine_render, rfl, span.last.breaksLine_render,
    rfl, by simp⟩

end Token

/-! ## Dumps -/

/-- The source that the lines of a token dump describe. -/
def readDump? (lines : List String) : Option String := (lines.mapM Token.ofDescription?).map Token.renderAll

/-- Tokens that lie end to end all have a place. -/
theorem Tiles.exists_span {ts : List Token} {p : Position} (h : Tiles p ts) : ∀ t ∈ ts, ∃ span, t.span = some span := by
  induction ts generalizing p with
  | nil => simp
  | cons t ts ih => exact List.forall_mem_cons.2 ⟨⟨_, h.1⟩, ih h.2⟩

theorem readDump?_describe {ts : List Token} (h : ∀ t ∈ ts, ∃ span, t.span = some span) :
    readDump? (ts.map Token.describe) = some (Token.renderAll ts) := by
  have hread : (ts.map Token.describe).mapM Token.ofDescription? = some ts := by
    induction ts with
    | nil => rfl
    | cons t ts ih =>
      obtain ⟨⟨span, hspan⟩, hts⟩ := List.forall_mem_cons.1 h
      rw [List.map_cons, List.mapM_cons, Token.ofDescription?_describe hspan, ih hts]
      rfl
  rw [readDump?, hread]
  rfl

/-- The tokens of a source all have a place, and if it was read without error they make it up. -/
theorem exists_span_of_tokenize (s : String) :
    (∀ t ∈ (tokenize s).1, ∃ span, t.span = some span) ∧
    ((tokenize s).2 = none → Token.renderAll (tokenize s).1 = s) := by
  obtain ⟨ts, last, l, hrun⟩ := Lexing.exists_run (l := Lexing.ofSource s) rfl
  have htokens : tokenize s = (ts ++ [last], l.error?) := by rw [tokenize, hrun.exhausts.collect]
  rw [htokens]
  refine ⟨hrun.tiles.exists_span, fun herror => ?_⟩
  rcases hrun.complete_or_broken with hcomplete | hbroken
  · exact hcomplete.text
  · obtain ⟨e, he, -⟩ := hbroken.error
    exact absurd (he.symm.trans herror) (by simp)

theorem readDump?_tokenize {s : String} (h : (tokenize s).2 = none) :
    readDump? ((tokenize s).1.map Token.describe) = some s := by
  obtain ⟨hspans, htext⟩ := exists_span_of_tokenize s
  rw [readDump?_describe hspans, htext h]

/-- **A token dump can be read back.** No line of the dump of a source is broken, and each line says the kind, the text
and the place of its token. If the source was read without error, the lines tell what it was, and no other source has
the same. -/
theorem dump_readable (s : String) :
    (∀ t ∈ (tokenize s).1, (∀ c ∈ t.describe.toList, breaksLine c = false) ∧
      Token.ofDescription? t.describe = some t) ∧
    ((tokenize s).2 = none → readDump? ((tokenize s).1.map Token.describe) = some s ∧
      ∀ s', (tokenize s').2 = none →
        (tokenize s').1.map Token.describe = (tokenize s).1.map Token.describe → s' = s) := by
  refine ⟨fun t ht => ?_, fun h => ⟨readDump?_tokenize h, fun s' h' heq => ?_⟩⟩
  · obtain ⟨span, hspan⟩ := (exists_span_of_tokenize s).1 t ht
    exact ⟨Token.breaksLine_describe hspan, Token.ofDescription?_describe hspan⟩
  · have hread := readDump?_tokenize h'
    rw [heq, readDump?_tokenize h] at hread
    exact (Option.some.inj hread).symm

/-- A string that looks like the rest of its own line in the dump, and a comment with a tab. -/
def lookalike : String := "\"\\\">(1:1\"(*\t*)"

/-- Its dump is read back all the same. -/
theorem dump_readable_lookalike :
    (tokenize lookalike).1.map Token.describe =
      ["<STRING_LIT:\"\\\"\\\\\\\">(1:1\\\"\">(1:1:0-1:10:9)", "<COMMENT:\"(*\\t*)\">(1:10:9-1:15:14)",
        "<EOF:\"\">(1:15:14-1:15:14)"] ∧
    readDump? ["<STRING_LIT:\"\\\"\\\\\\\">(1:1\\\"\">(1:1:0-1:10:9)", "<COMMENT:\"(*\\t*)\">(1:10:9-1:15:14)",
        "<EOF:\"\">(1:15:14-1:15:14)"] = some lookalike := by
  have hlines : (tokenize lookalike).1.map Token.describe =
      ["<STRING_LIT:\"\\\"\\\\\\\">(1:1\\\"\">(1:1:0-1:10:9)", "<COMMENT:\"(*\\t*)\">(1:10:9-1:15:14)",
        "<EOF:\"\">(1:15:14-1:15:14)"] := by decide +kernel
  have hread := ((dump_readable lookalike).2 (by decide +kernel)).1
  rw [hlines] at hread
  exact ⟨hlines, hread⟩

end ScillaLayout
