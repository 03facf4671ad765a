import ScillaLayout.Source.Excerpt
import ScillaLayout.Text.Quoted

/-!
# Lexical errors

Reading a source stops at the first fault. `LexFault` says what is wrong and `LexError` adds where.
-/

namespace ScillaLayout

/-- What can be wrong with the characters at one place. -/
inductive LexFault where
  /-- A minus sign that starts neither an arrow nor a number. -/
  | loneMinus
  /-- A less-than sign that starts no fetch arrow. -/
  | loneLess
  /-- `0x` without a digit. -/
  | hexDigitMissing
  | stringUnclosed
  | commentUnclosed
  /-- An apostrophe without a name. -/
  | typeNameMissing
  /-- A type parameter whose first letter is not a capital. -/
  | typeNameSmall
  /-- A character that starts no token. -/
  | unexpected (c : Char)
  deriving DecidableEq, Repr

namespace LexFault

/-- The wording of a fault. -/
def message : LexFault → String
  | .loneMinus => "illegal operator '-'"
  | .loneLess => "expected '-' after '<'"
  | .hexDigitMissing => "expected hex digit after '0x'"
  | .stringUnclosed => "unclosed string literal"
  | .commentUnclosed => "unterminated comment, expected closing '*)' but reached end of input"
  | .typeNameMissing => "expected type parameter name after '"
  | .typeNameSmall => "type parameter name should be capitalized"
  | .unexpected c => "unexpected character " ++ Text.quotedChar c

/-- An unexpected character is reported where it stands, every other fault after the characters read so far. -/
def isAtStart : LexFault → Bool
  | .unexpected _ => true
  | _ => false

end LexFault

/-- A fault in a source text, and where it is. -/
structure LexError where
  message : String
  position : Position
  /-- The line of the fault and a caret under its column. -/
  excerpt : String
  deriving DecidableEq, Repr

namespace LexError

/-- A fault at a place of a source. A place inside a character has no excerpt. -/
def atPlace (source : List Char) (position : Position) (message : String) : LexError :=
  { message, position, excerpt := (excerpt? source position).getD "" }

/-- `line:column: message`. -/
def summary (e : LexError) : String := s!"{e.position.line}:{e.position.column}: {e.message}"

/-- The summary and the excerpt below it. -/
def render (e : LexError) : String := s!"{e.summary}\n{e.excerpt}"

end LexError

end ScillaLayout
