import ScillaLayout.Token.Kind
import ScillaLayout.Text.Alphabetic
import ScillaLayout.Text.Numeric
import ScillaLayout.Text.Uppercase

/-!
# The words of the language

Tables of the spellings that stand for one kind each, the two families of primitive types with many spellings, and the
kind of a word. `Kind.canonicalText?` is read off the same tables.
-/

namespace ScillaLayout

/-- Spellings and the kinds they stand for. -/
abbrev Vocabulary := List (String × Kind)

namespace Vocabulary

/-- The kind that a spelling stands for. -/
def kindOf? (v : Vocabulary) (word : String) : Option Kind :=
  (v.find? (·.1 == word)).map (·.2)

/-- Reserved words. -/
def keywords : Vocabulary := [
  ("forall", .kwForall), ("builtin", .kwBuiltin), ("library", .kwLibrary), ("import", .kwImport), ("let", .kwLet),
  ("in", .kwIn), ("match", .kwMatch), ("with", .kwWith), ("end", .kwEnd), ("fun", .kwFun), ("tfun", .kwTfun),
  ("contract", .kwContract), ("transition", .kwTransition), ("send", .kwSend), ("event", .kwEvent),
  ("field", .kwField), ("accept", .kwAccept), ("exists", .kwExists), ("delete", .kwDelete), ("Emp", .kwEmp),
  ("Map", .kwMap), ("scilla_version", .kwScillaVersion), ("type", .kwType), ("of", .kwOf), ("try", .kwTry),
  ("catch", .kwCatch), ("as", .kwAs), ("procedure", .kwProcedure), ("throw", .kwThrow)]

/-- Punctuation and operators. -/
def separators : Vocabulary := [
  (";", .semicolon), (":", .colon), (".", .period), ("|", .bar), ("[", .lsqb), ("]", .rsqb), ("(", .lparen),
  (")", .rparen), ("\x7b", .lbrace), ("\x7d", .rbrace), (",", .comma), ("=>", .arrow), ("->", .tarrow), ("=", .eq),
  ("&", .ampersand), ("<-", .fetch), (":=", .assign), ("@", .atSign), ("_", .underscore)]

/-- The built-in algebraic data types and their constructors. -/
def dataTypes : Vocabulary := [
  ("Bool", .adtBool), ("True", .adtTrue), ("False", .adtFalse), ("Nat", .adtNat), ("Zero", .adtZero),
  ("Succ", .adtSucc), ("Option", .adtOption), ("Some", .adtSome), ("None", .adtNone), ("List", .adtList),
  ("Cons", .adtCons), ("Nil", .adtNil), ("Pair", .adtPair)]

/-- Primitive types with one spelling. -/
def primitiveTypes : Vocabulary := [
  ("String", .stringType), ("BNum", .bnumType), ("Message", .messageType), ("Event", .eventType)]

/-- The sized integer types. -/
def integerTypes : List String :=
  ["Int32", "Int64", "Int128", "Int256", "Uint32", "Uint64", "Uint128", "Uint256"]

/-- Every spelling that stands for a kind of its own. -/
def fixed : Vocabulary := keywords ++ separators ++ dataTypes ++ primitiveTypes

/-- What follows `ByStr` in a word that starts so. -/
def byteStringWidth? : List Char → Option (List Char)
  | 'B' :: 'y' :: 'S' :: 't' :: 'r' :: width => some width
  | _ => none

/-- The kind of a primitive type: a sized integer, `ByStr` with an optional width in ASCII digits, or one of
`primitiveTypes`. -/
def primitiveType? (word : String) : Option Kind :=
  if integerTypes.contains word then some .intType
  else
    match byteStringWidth? word.toList with
    | some width => if width.all Char.isDigit then some .bystrType else none
    | none => primitiveTypes.kindOf? word

/-- Characters that may start a word. -/
def isWordStart (c : Char) : Bool := Text.isAlphabetic c

/-- Characters that may continue a word. -/
def isWordChar (c : Char) : Bool := Text.isAlphabetic c || Text.isNumeric c || c == '_'

/-- The kind of a word. Primitive types come before keywords, keywords before data types; any other word is a
constructor or a name by the case of its first letter. -/
def wordKind (word : List Char) : Kind :=
  let text := String.ofList word
  (primitiveType? text).getD <| (keywords.kindOf? text).getD <| (dataTypes.kindOf? text).getD <|
    if word.head?.any Text.isUppercase then .cid else .id

end Vocabulary

namespace Kind

/-- The one spelling of a kind. Families, names, literals and trivia have none. -/
def canonicalText? (k : Kind) : Option String :=
  (Vocabulary.fixed.find? (·.2 == k)).map (·.1)

/-- No two spellings of the tables stand for the same kind, and no spelling stands for two. -/
theorem fixed_nodup : (Vocabulary.fixed.map (·.1)).Nodup ∧ (Vocabulary.fixed.map (·.2)).Nodup := by
  constructor <;> decide

end Kind

end ScillaLayout
