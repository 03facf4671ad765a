import ScillaLayout.Yaml.Property
import ScillaLayout.Yaml.Scalar

/-!
# YAML lexemes

`Lexeme.ofText?` cuts a text into lexemes. Indentation becomes lexemes too: those that open and close blocks. That a
word is a key shows only at the colon after it, so every place where a key may start is kept in mind until then, and the
lexeme for the key is put in front later.
-/

namespace ScillaLayout.Yaml

/-- A lexeme. -/
inductive Lexeme where
  | directive (d : Directive)
  | documentStart
  | documentEnd
  | blockSequence
  | blockMapping
  | blockEnd
  | flowSequence
  | flowSequenceEnd
  | flowMapping
  | flowMappingEnd
  | blockEntry
  | flowEntry
  | key
  | value
  | alias (name : String)
  | anchor (name : String)
  | tag (handle suffix : String)
  | scalar (style : Style) (text : String)
  deriving DecidableEq, Repr

/-- A place where a key may have started. -/
structure PossibleKey where
  /-- How many lexemes are before it. -/
  position : Nat
  place : Cursor
  /-- Whether nothing but a key can stand there. -/
  required : Bool

/-- A text cut in part. -/
structure Scan where
  cursor : Cursor
  lexemes : Array Lexeme := #[]
  /-- The columns of the open blocks, innermost first. -/
  indents : List Nat := []
  /-- Whether a key may start here. -/
  keyAllowed : Bool := true
  /-- The last place where a key may have started, for every open bracket or brace and for the outside, innermost
  first. -/
  keys : List (Option PossibleKey) := [none]

namespace Scan

/-- Whether the place is inside brackets or braces. -/
def inFlow (s : Scan) : Bool := 1 < s.keys.length

/-- The column of the innermost open block, `-1` if there is none. -/
def indent (s : Scan) : Int := (s.indents.head?.map Int.ofNat).getD (-1)

/-- Adds a lexeme. -/
def push (s : Scan) (l : Lexeme) : Scan := { s with lexemes := s.lexemes.push l }

/-- Adds a lexeme and goes over its characters. -/
def take (s : Scan) (n : Nat) (l : Lexeme) : Scan := { s.push l with cursor := s.cursor.skip n }

/-- Puts a lexeme in front of those from some position on. -/
def insertAt (s : Scan) (position : Nat) (l : Lexeme) : Scan :=
  { s with lexemes := s.lexemes.insertIdxIfInBounds position l }

/-! ## Blocks -/

/-- Opens a block at a column, unless one is open there or further right. -/
def openBlock (s : Scan) (column position : Nat) (l : Lexeme) : Scan :=
  if s.inFlow || (column : Int) ≤ s.indent then s
  else { s.insertAt position l with indents := column :: s.indents }

/-- Closes the blocks that are right of a column. -/
def closeBlocks (s : Scan) (column : Int) : Scan :=
  if s.inFlow then s
  else
    let isInside (i : Nat) : Bool := column < i
    { s with
      indents := s.indents.dropWhile isInside
      lexemes := (s.indents.takeWhile isInside).foldl (fun ls _ => ls.push .blockEnd) s.lexemes }

/-! ## Keys -/

/-- Gives up the place where a key may have started, unless it has to be a key. -/
def dropKey? (s : Scan) : Option Scan :=
  match s.keys with
  | some k :: keys => if k.required then none else some { s with keys := none :: keys }
  | _ => some s

/-- Keeps this place in mind, if a key may start here. -/
def saveKey? (s : Scan) : Option Scan :=
  if s.keyAllowed then do
    let s ← s.dropKey?
    let key : PossibleKey :=
      { position := s.lexemes.size, place := s.cursor, required := !s.inFlow && s.indent = s.cursor.column }
    return { s with keys := some key :: s.keys.drop 1 }
  else some s

/-- Whether a place is too far behind for a key: on another line or more than 1024 characters back. -/
def isStale (s : Scan) (k : PossibleKey) : Bool :=
  k.place.line < s.cursor.line || k.place.index + 1024 < s.cursor.index

/-- Gives up the places that are too far behind. -/
def dropStaleKeys? (s : Scan) : Option Scan := do
  let keys ← s.keys.mapM fun key =>
    match key with
    | none => some none
    | some k => if s.isStale k then if k.required then none else some none else some (some k)
  return { s with keys }

/-! ## Single lexemes -/

/-- Goes over blanks, comments and line breaks. Outside of brackets and braces a key may start on a new line, and tabs
are no indentation. -/
def skipToLexeme : Nat → Scan → Scan
  | 0, s => s
  | fuel + 1, s =>
    let c := s.cursor
    let c := if c.column = 0 && c.next? = some '\uFEFF' then c.skip 1 else c
    let c := c.skipWhile fun ch => ch = ' ' || (ch = '\t' && (s.inFlow || !s.keyAllowed))
    let c := if c.next? = some '#' then c.skipWhile (!isBreak ·) else c
    if c.next?.any isBreak then
      skipToLexeme fuel { s with cursor := c.skipBreak, keyAllowed := s.keyAllowed || !s.inFlow }
    else { s with cursor := c }

/-- The end of the text. -/
def finish? (s : Scan) : Option Scan := (s.closeBlocks (-1)).dropKey?

/-- A directive. -/
def directive? (s : Scan) : Option Scan := do
  let s ← (s.closeBlocks (-1)).dropKey?
  let c := s.cursor.skip 1
  let (d, rest) ← readDirective c.rest
  let c ← (c.skipTo rest).skipLineEnd?
  return { s.push (.directive d) with cursor := c, keyAllowed := false }

/-- A line that sets documents apart. -/
def documentMark? (s : Scan) (l : Lexeme) : Option Scan := do
  let s ← (s.closeBlocks (-1)).dropKey?
  return { s.take 3 l with keyAllowed := false }

/-- An opening bracket or brace. -/
def flowStart? (s : Scan) (l : Lexeme) : Option Scan := do
  let s ← s.saveKey?
  return { s.take 1 l with keyAllowed := true, keys := none :: s.keys }

/-- A closing bracket or brace. -/
def flowEnd? (s : Scan) (l : Lexeme) : Option Scan := do
  let s ← s.dropKey?
  return { s.take 1 l with keyAllowed := false, keys := if s.inFlow then s.keys.drop 1 else s.keys }

/-- A comma between the items of brackets or braces. -/
def flowEntry? (s : Scan) : Option Scan := do
  let s ← s.dropKey?
  return { s.take 1 .flowEntry with keyAllowed := true }

/-- The dash of an item of a sequence. -/
def blockEntry? (s : Scan) : Option Scan := do
  if !s.inFlow && !s.keyAllowed then none
  let s ← (s.openBlock s.cursor.column s.lexemes.size .blockSequence).dropKey?
  return { s.take 1 .blockEntry with keyAllowed := true }

/-- The question mark before a key. -/
def key? (s : Scan) : Option Scan := do
  if !s.inFlow && !s.keyAllowed then none
  let s ← (s.openBlock s.cursor.column s.lexemes.size .blockMapping).dropKey?
  return { s.take 1 .key with keyAllowed := !s.inFlow }

/-- The colon before a value. If a key may have started, it is one. -/
def value? (s : Scan) : Option Scan :=
  match s.keys with
  | some k :: keys =>
    let s := (s.insertAt k.position .key).openBlock k.place.column k.position .blockMapping
    some { s.take 1 .value with keyAllowed := false, keys := none :: keys }
  | _ => do
    if !s.inFlow && !s.keyAllowed then none
    let s := s.openBlock s.cursor.column s.lexemes.size .blockMapping
    return { s.take 1 .value with keyAllowed := !s.inFlow }

/-- The name of an anchor or of an alias. -/
def name? (s : Scan) (l : String → Lexeme) : Option Scan := do
  let s ← s.saveKey?
  let (name, rest) ← readName (s.cursor.rest.drop 1)
  return { s.push (l name) with cursor := s.cursor.skipTo rest, keyAllowed := false }

/-- A tag. -/
def tag? (s : Scan) : Option Scan := do
  let s ← s.saveKey?
  let (handle, suffix, rest) ← readTag s.inFlow s.cursor.rest
  return { s.push (.tag handle suffix) with cursor := s.cursor.skipTo rest, keyAllowed := false }

/-- A block scalar. -/
def block? (s : Scan) (folded : Bool) : Option Scan := do
  let s ← s.dropKey?
  let (text, c) ← readBlock folded s.indent (s.cursor.skip 1)
  let l := Lexeme.scalar (if folded then .quoted else .literal) (String.ofList text)
  return { s.push l with cursor := c, keyAllowed := true }

/-- A quoted scalar. -/
def quoted? (s : Scan) (single : Bool) : Option Scan := do
  let s ← s.saveKey?
  let (text, c) ← readQuoted single (s.cursor.rest.length + 1) (s.cursor.skip 1)
  return { s.push (.scalar .quoted (String.ofList text)) with cursor := c, keyAllowed := false }

/-- A plain scalar. -/
def plain? (s : Scan) : Option Scan := do
  let s ← s.saveKey?
  let (text, gap, c) ← readPlain s.inFlow (s.indent + 1) (s.cursor.rest.length + 1) {} s.cursor
  return { s.push (.scalar .plain (String.ofList text)) with cursor := c, keyAllowed := gap.broken }

/-- Whether a plain scalar starts here. A sign starts none, but for a dash, a question mark or a colon that something
is joined to; inside brackets and braces only the dash. -/
def startsPlain (s : Scan) (c : Char) (next? : Option Char) : Bool :=
  if c = '-' then !next?.any isBlank
  else if c = '?' || c = ':' then !s.inFlow && !isGap next?
  else !(isFlowChar c || ['#', '&', '*', '!', '|', '>', '\x27', '\x22', '%', '@', '\x60'].contains c || isGap (some c))

/-- The next lexeme, given its first character and the one after. -/
def lexeme? (s : Scan) (c : Char) (next? : Option Char) : Option Scan :=
  if c = '%' && s.cursor.column = 0 then s.directive?
  else if s.cursor.isDocumentMark then s.documentMark? (if c = '-' then .documentStart else .documentEnd)
  else if c = '[' then s.flowStart? .flowSequence
  else if c = '\x7b' then s.flowStart? .flowMapping
  else if c = ']' then s.flowEnd? .flowSequenceEnd
  else if c = '\x7d' then s.flowEnd? .flowMappingEnd
  else if c = ',' then s.flowEntry?
  else if c = '-' && isGap next? then s.blockEntry?
  else if c = '?' && (s.inFlow || isGap next?) then s.key?
  else if c = ':' && (s.inFlow || isGap next?) then s.value?
  else if c = '*' then s.name? .alias
  else if c = '&' then s.name? .anchor
  else if c = '!' then s.tag?
  else if c = '|' && !s.inFlow then s.block? false
  else if c = '>' && !s.inFlow then s.block? true
  else if c = '\x27' then s.quoted? true
  else if c = '\x22' then s.quoted? false
  else if s.startsPlain c next? then s.plain?
  else none

/-- Cuts up to the end of the text. -/
def run? : Nat → Scan → Option Scan
  | 0, _ => none
  | fuel + 1, s => do
    let s ← (skipToLexeme (s.cursor.rest.length + 1) s).dropStaleKeys?
    let s := s.closeBlocks s.cursor.column
    match s.cursor.rest with
    | [] => s.finish?
    | c :: cs => run? fuel (← s.lexeme? c cs.head?)

end Scan

/-- The lexemes of a text. A byte order mark in front is passed over. -/
def Lexeme.ofText? (text : String) : Option (List Lexeme) := do
  let cs := match text.toList with
    | '\uFEFF' :: cs => cs
    | cs => cs
  if !cs.all isAllowed then none
  let s ← Scan.run? (cs.length + 1) { cursor := { rest := cs } }
  return s.lexemes.toList

end ScillaLayout.Yaml
