import ScillaLayout.Token.Basic
import ScillaLayout.Token.LexError
import ScillaLayout.Token.Vocabulary

/-!
# Reading tokens

`lex` cuts a source text into tokens and loses nothing: comments, blanks and line breaks are tokens too. The list
ends with an empty end mark, or with one illegal token at the first fault.

`Lexeme.read` finds the piece at the head of a text, without knowing where in the source it stands. The piece and what
is left make up the text again, and the piece is not empty (`Lexeme.read_cuts`), so cutting comes to an end.
-/

namespace ScillaLayout

/-- The piece at the head of a text: a token of some kind, or a fault, with the characters it takes and those it
leaves. -/
structure Lexeme where
  verdict : Except LexFault Kind
  text : List Char
  rest : List Char

namespace Lexeme

/-! ## Delimited pieces -/

/-- A comment after its opening mark, up to and with the first closing mark. -/
def closeComment? : List Char → Option (List Char × List Char)
  | [] => none
  | '*' :: ')' :: rest => some (['*', ')'], rest)
  | c :: cs => (closeComment? cs).map fun (text, rest) => (c :: text, rest)

/-- A string literal after its opening quote, up to and with the closing one. A backslash takes the next character with
it. -/
def closeString? : List Char → Option (List Char × List Char)
  | [] => none
  | '\x22' :: rest => some (['\x22'], rest)
  | '\\' :: [] => none
  | '\\' :: c :: cs => (closeString? cs).map fun (text, rest) => ('\\' :: c :: text, rest)
  | c :: cs => (closeString? cs).map fun (text, rest) => (c :: text, rest)

theorem append_of_closeComment? {cs text rest : List Char} (h : closeComment? cs = some (text, rest)) :
    text ++ rest = cs := by
  fun_induction closeComment? cs generalizing text with
  | case1 => simp at h
  | case2 => obtain ⟨rfl, rfl⟩ := Prod.mk.inj (Option.some.inj h); rfl
  | case3 c cs _ ih =>
    obtain ⟨⟨t, r⟩, hs, he⟩ := Option.map_eq_some_iff.1 h
    simp only [Prod.mk.injEq] at he
    obtain ⟨rfl, rfl⟩ := he
    simp [ih hs]

theorem append_of_closeString? {cs text rest : List Char} (h : closeString? cs = some (text, rest)) :
    text ++ rest = cs := by
  fun_induction closeString? cs generalizing text with
  | case1 => simp at h
  | case2 => obtain ⟨rfl, rfl⟩ := Prod.mk.inj (Option.some.inj h); rfl
  | case3 => simp at h
  | case4 c cs ih =>
    obtain ⟨⟨t, r⟩, hs, he⟩ := Option.map_eq_some_iff.1 h
    simp only [Prod.mk.injEq] at he
    obtain ⟨rfl, rfl⟩ := he
    simp [ih hs]
  | case5 c cs _ _ _ ih =>
    obtain ⟨⟨t, r⟩, hs, he⟩ := Option.map_eq_some_iff.1 h
    simp only [Prod.mk.injEq] at he
    obtain ⟨rfl, rfl⟩ := he
    simp [ih hs]

/-! ## One piece -/

/-- Hexadecimal digits in either case. -/
def isHexDigit (c : Char) : Bool :=
  c.isDigit || ('a' ≤ c && c ≤ 'f') || ('A' ≤ c && c ≤ 'F')

/-- A token made of `opening` and the characters of `cs` up to the first outside `inside`. -/
def run (kind : Kind) (opening : List Char) (inside : Char → Bool) (cs : List Char) : Lexeme :=
  ⟨.ok kind, opening ++ cs.takeWhile inside, cs.dropWhile inside⟩

/-- A comment, when `cs` follows its opening mark. -/
def comment (cs : List Char) : Lexeme :=
  match closeComment? cs with
  | some (text, rest) => ⟨.ok .comment, '(' :: '*' :: text, rest⟩
  | none => ⟨.error .commentUnclosed, '(' :: '*' :: cs, []⟩

/-- A string literal, when `cs` follows its opening quote. -/
def stringLiteral (cs : List Char) : Lexeme :=
  match closeString? cs with
  | some (text, rest) => ⟨.ok .stringLit, '\x22' :: text, rest⟩
  | none => ⟨.error .stringUnclosed, '\x22' :: cs, []⟩

/-- A hexadecimal literal, when `cs` follows `0x`. -/
def hexLiteral (cs : List Char) : Lexeme :=
  if cs.head?.any isHexDigit then run .hexLit ['0', 'x'] isHexDigit cs
  else ⟨.error .hexDigitMissing, ['0', 'x'], cs⟩

/-- What starts with a minus sign, when `cs` follows it. -/
def minus (cs : List Char) : Lexeme :=
  if cs.head?.any Char.isDigit then run .numLit ['-'] Char.isDigit cs
  else ⟨.error .loneMinus, ['-'], cs⟩

/-- An underscore alone or a special name, when `cs` follows the underscore. -/
def special (cs : List Char) : Lexeme :=
  if cs.head?.any Vocabulary.isWordChar then run .spid ['_'] Vocabulary.isWordChar cs
  else ⟨.ok .underscore, ['_'], cs⟩

/-- A type parameter, when `cs` follows its apostrophe. -/
def typeParameter (cs : List Char) : Lexeme :=
  if cs.head?.any Vocabulary.isWordStart then
    { run .tid ['\x27'] Vocabulary.isWordChar cs with
      verdict := if cs.head?.any Text.isUppercase then .ok .tid else .error .typeNameSmall }
  else ⟨.error .typeNameMissing, ['\x27'], cs⟩

/-- A blank run, a number, a word or a separator that starts with `c`, when `cs` follows. -/
def other (c : Char) (cs : List Char) : Lexeme :=
  if Text.isBlank c then run .whitespace [] Text.isBlank (c :: cs)
  else if c.isDigit then run .numLit [] Char.isDigit (c :: cs)
  else if Vocabulary.isWordStart c then
    let word := run .id [] Vocabulary.isWordChar (c :: cs)
    { word with verdict := .ok (Vocabulary.wordKind word.text) }
  else
    match Vocabulary.separators.kindOf? (String.singleton c) with
    | some kind => ⟨.ok kind, [c], cs⟩
    | none => ⟨.error (.unexpected c), [c], cs⟩

/-- The piece at the head of the text `c :: cs`. -/
def read : Char → List Char → Lexeme
  | '(', '*' :: cs => comment cs
  | ':', '=' :: cs => ⟨.ok .assign, [':', '='], cs⟩
  | '=', '>' :: cs => ⟨.ok .arrow, ['=', '>'], cs⟩
  | '-', '>' :: cs => ⟨.ok .tarrow, ['-', '>'], cs⟩
  | '-', cs => minus cs
  | '<', '-' :: cs => ⟨.ok .fetch, ['<', '-'], cs⟩
  | '<', cs => ⟨.error .loneLess, ['<'], cs⟩
  | '\x22', cs => stringLiteral cs
  | '\n', cs => ⟨.ok .newline, ['\n'], cs⟩
  | '\r', '\n' :: cs => ⟨.ok .newline, ['\r', '\n'], cs⟩
  | '\r', cs => ⟨.ok .newline, ['\r'], cs⟩
  | '0', 'x' :: cs => hexLiteral cs
  | '_', cs => special cs
  | '\x27', cs => typeParameter cs
  | c, cs => other c cs

/-! ## Nothing is lost -/

/-- The characters of a piece and those after it make up the text `cs`, and the piece is not empty. -/
structure Cuts (l : Lexeme) (cs : List Char) : Prop where
  append : l.text ++ l.rest = cs
  nonempty : l.text ≠ []

theorem run_cuts (kind : Kind) (opening cs : List Char) (inside : Char → Bool)
    (h : opening ≠ [] ∨ cs.head?.any inside = true) : (run kind opening inside cs).Cuts (opening ++ cs) := by
  refine ⟨by simp [run], ?_⟩
  rcases h with h | h
  · simp [run, h]
  · cases cs with
    | nil => simp at h
    | cons c cs => simp_all [run]

theorem comment_cuts (cs : List Char) : (comment cs).Cuts ('(' :: '*' :: cs) := by
  unfold comment
  split
  · next h => exact ⟨by simp [append_of_closeComment? h], by simp⟩
  · exact ⟨by simp, by simp⟩

theorem stringLiteral_cuts (cs : List Char) : (stringLiteral cs).Cuts ('\x22' :: cs) := by
  unfold stringLiteral
  split
  · next h => exact ⟨by simp [append_of_closeString? h], by simp⟩
  · exact ⟨by simp, by simp⟩

theorem hexLiteral_cuts (cs : List Char) : (hexLiteral cs).Cuts ('0' :: 'x' :: cs) := by
  unfold hexLiteral
  split
  · exact run_cuts _ ['0', 'x'] cs _ (.inl (by simp))
  · exact ⟨by simp, by simp⟩

theorem minus_cuts (cs : List Char) : (minus cs).Cuts ('-' :: cs) := by
  unfold minus
  split
  · exact run_cuts _ ['-'] cs _ (.inl (by simp))
  · exact ⟨by simp, by simp⟩

theorem special_cuts (cs : List Char) : (special cs).Cuts ('_' :: cs) := by
  unfold special
  split
  · exact run_cuts _ ['_'] cs _ (.inl (by simp))
  · exact ⟨by simp, by simp⟩

theorem typeParameter_cuts (cs : List Char) : (typeParameter cs).Cuts ('\x27' :: cs) := by
  unfold typeParameter
  split
  · have := run_cuts .tid ['\x27'] cs Vocabulary.isWordChar (.inl (by simp))
    exact ⟨this.append, this.nonempty⟩
  · exact ⟨by simp, by simp⟩

theorem other_cuts (c : Char) (cs : List Char) : (other c cs).Cuts (c :: cs) := by
  unfold other
  split
  · next h => exact run_cuts _ [] (c :: cs) _ (.inr (by simpa using h))
  split
  · next h => exact run_cuts _ [] (c :: cs) _ (.inr (by simpa using h))
  split
  · next h =>
    have := run_cuts .id [] (c :: cs) Vocabulary.isWordChar
      (.inr (by simp_all [Vocabulary.isWordChar, Vocabulary.isWordStart]))
    exact ⟨this.append, this.nonempty⟩
  split <;> exact ⟨by simp, by simp⟩

/-- Reading a piece loses nothing and takes at least one character. -/
theorem read_cuts (c : Char) (cs : List Char) : (read c cs).Cuts (c :: cs) := by
  unfold read
  split
  · exact comment_cuts _
  · exact ⟨by simp, by simp⟩
  · exact ⟨by simp, by simp⟩
  · exact ⟨by simp, by simp⟩
  · exact minus_cuts _
  · exact ⟨by simp, by simp⟩
  · exact ⟨by simp, by simp⟩
  · exact stringLiteral_cuts _
  · exact ⟨by simp, by simp⟩
  · exact ⟨by simp, by simp⟩
  · exact ⟨by simp, by simp⟩
  · exact hexLiteral_cuts _
  · exact special_cuts _
  · exact typeParameter_cuts _
  · exact other_cuts _ _

theorem read_rest_length_lt (c : Char) (cs : List Char) : (read c cs).rest.length < (c :: cs).length := by
  obtain ⟨happ, hne⟩ := read_cuts c cs
  have := congrArg List.length happ
  have := List.length_pos_iff.2 hne
  simp only [List.length_append] at *
  omega

end Lexeme

/-! ## The whole source -/

/-- The tokens of a source, and the fault that ended them with the place where it is. -/
structure Lexed where
  tokens : List Token
  fault : Option (LexFault × Position)

namespace Lexed

/-- One more token in front. -/
def cons (t : Token) (l : Lexed) : Lexed := { l with tokens := t :: l.tokens }

/-- Cuts the text `cs`, which starts at `p`. -/
def read (p : Position) : List Char → Lexed
  | [] => ⟨[⟨.eof, "", some ⟨p, p⟩⟩], none⟩
  | c :: cs =>
    let piece := Lexeme.read c cs
    let stop := p.after piece.text
    let token (kind : Kind) : Token := ⟨kind, String.ofList piece.text, some ⟨p, stop⟩⟩
    match piece.verdict with
    | .ok kind => cons (token kind) (read stop piece.rest)
    | .error fault => ⟨[token .illegal], some (fault, if fault.isAtStart then p else stop)⟩
termination_by cs => cs.length
decreasing_by exact Lexeme.read_rest_length_lt c cs

end Lexed

/-- The tokens of a source text. -/
def lex (source : String) : Lexed := Lexed.read .start source.toList

namespace Lexed

/-- The error of a source whose tokens are `l`. -/
def error? (source : String) (l : Lexed) : Option LexError :=
  l.fault.map fun (fault, position) => .atPlace source.toList position fault.message

end Lexed

end ScillaLayout
