/-!
# Places in a YAML text

The structure of a YAML text hangs on lines and columns, so reading keeps count of them. Blanks and line breaks between
two words are a `Gap`, and what a gap stands for depends on whether a line break is in it.
-/

namespace ScillaLayout.Yaml

/-! ## Characters -/

/-- Characters that may stand in a text at all. -/
def isAllowed (c : Char) : Bool :=
  let n := c.toNat
  n = 0x09 || n = 0x0A || n = 0x0D || (0x20 ≤ n && n ≤ 0x7E) || n = 0x85 || (0xA0 ≤ n && n ≤ 0xFFFD) || 0x10000 ≤ n

/-- Space and tab. -/
def isBlank (c : Char) : Bool := c = ' ' || c = '\t'

/-- Characters that end a line. -/
def isBreak (c : Char) : Bool := c = '\n' || c = '\r' || c = '\x85' || c = '\u2028' || c = '\u2029'

/-- Blanks, line breaks and the end of the text. -/
def isGap (c? : Option Char) : Bool := c?.all fun c => isBlank c || isBreak c

/-- Line breaks and the end of the text. -/
def isLineEnd (c? : Option Char) : Bool := c?.all isBreak

/-- Characters of names. -/
def isWordChar (c : Char) : Bool := c.isAlphanum || c = '_' || c = '-'

/-! ## Cursors -/

/-- A place in a text: what is to come, and how many characters, lines and characters of the line are behind. -/
structure Cursor where
  rest : List Char
  index : Nat := 0
  line : Nat := 0
  column : Nat := 0
  deriving Repr

namespace Cursor

/-- The next character. -/
def next? (c : Cursor) : Option Char := c.rest.head?

/-- Goes over some characters of the line. -/
def skip (c : Cursor) (n : Nat) : Cursor :=
  { c with rest := c.rest.drop n, index := c.index + n, column := c.column + n }

/-- Goes over characters of the line as long as they have a property. -/
def skipWhile (p : Char → Bool) (c : Cursor) : Cursor := c.skip (c.rest.takeWhile p).length

/-- Goes on to a place further down the line, given by what follows it. -/
def skipTo (c : Cursor) (rest : List Char) : Cursor := c.skip (c.rest.length - rest.length)

/-- Goes over a line break, if there is one; a carriage return and a line feed are one line break. -/
def skipBreak (c : Cursor) : Cursor :=
  let newLine (n : Nat) : Cursor := { rest := c.rest.drop n, index := c.index + n, line := c.line + 1, column := 0 }
  match c.rest with
  | '\r' :: '\n' :: _ => newLine 2
  | ch :: _ => if isBreak ch then newLine 1 else c
  | [] => c

/-- Whether a line starts here that sets documents apart: three dashes or three dots and nothing joined to them. -/
def isDocumentMark (c : Cursor) : Bool :=
  c.column = 0 && (c.rest.take 3 = ['-', '-', '-'] || c.rest.take 3 = ['.', '.', '.']) && isGap c.rest[3]?

/-- Goes over blanks and a comment up to the end of the line, at which there is nothing else. -/
def skipLineEnd? (c : Cursor) : Option Cursor :=
  let c := c.skipWhile isBlank
  let c := if c.next? = some '#' then c.skipWhile (!isBreak ·) else c
  if isLineEnd c.next? then some c.skipBreak else none

end Cursor

/-! ## Gaps -/

/-- The text of a line break: one line feed, or the separator itself if it is one of those of Unicode. -/
def breakText (c : Char) : List Char := if c = '\u2028' || c = '\u2029' then [c] else ['\n']

/-- Blanks and line breaks between two words. -/
structure Gap where
  /-- The blanks of a gap without a line break. -/
  blanks : List Char := []
  /-- Whether the line ends in the gap. -/
  broken : Bool := false
  /-- The first line break, if it counts. -/
  first : List Char := []
  /-- All further line breaks. -/
  more : List Char := []

/-- What a gap stands for: a single line feed is a space, and of several the first one is dropped. -/
def Gap.text (g : Gap) : List Char :=
  if g.broken then
    if g.first = ['\n'] then if g.more.isEmpty then [' '] else g.more
    else g.first ++ g.more
  else g.blanks

/-- Goes over the rest of a gap. A tab before a given column of a new line is refused. -/
def Gap.read (indent : Int) : Nat → Gap → Cursor → Option (Gap × Cursor)
  | 0, _, _ => none
  | fuel + 1, g, c =>
    match c.next? with
    | none => some (g, c)
    | some ch =>
      if isBlank ch then
        if g.broken then
          if ch = '\t' && (c.column : Int) < indent then none else Gap.read indent fuel g (c.skip 1)
        else Gap.read indent fuel { g with blanks := g.blanks ++ [ch] } (c.skip 1)
      else if isBreak ch then
        if g.broken then Gap.read indent fuel { g with more := g.more ++ breakText ch } c.skipBreak
        else Gap.read indent fuel { broken := true, first := breakText ch } c.skipBreak
      else some (g, c)

end ScillaLayout.Yaml
