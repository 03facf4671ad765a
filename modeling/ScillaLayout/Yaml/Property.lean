import ScillaLayout.Text.Digits
import ScillaLayout.Yaml.Cursor

/-!
# YAML names, tags and directives

What can stand in front of a node or a document. All of it fits on one line, so the readers here work on what is to
come and leave the counting to the cursor.
-/

namespace ScillaLayout.Yaml

/-! ## Names of anchors -/

/-- The name of an anchor or of an alias, after its sign. -/
def readName (cs : List Char) : Option (String × List Char) :=
  let name := cs.takeWhile isWordChar
  let rest := cs.dropWhile isWordChar
  let ends := isGap rest.head? || rest.head?.any ['?', ':', ',', ']', '\x7d', '%', '@', '\x60'].contains
  if !name.isEmpty && ends then some (String.ofList name, rest) else none

/-! ## Tags -/

/-- Characters of a tag. Commas and brackets are among them only where the tag itself stands in brackets. -/
def isTagChar (bracketed : Bool) (c : Char) : Bool :=
  isWordChar c || [';', '/', '?', ':', '@', '&', '=', '+', '$', '.', '%', '!', '~', '*', '\x27', '(', ')'].contains c
    || (bracketed && [',', '[', ']'].contains c)

/-- An octet as two hexadecimal digits after a percent sign. -/
def readOctet : List Char → Option (Nat × List Char)
  | '%' :: a :: b :: cs => (Text.numeral? 16 [a, b]).map (·, cs)
  | _ => none

/-- Some further octets of a character whose leading ones give a number. -/
def readOctets : Nat → Nat → List Char → Option (Nat × List Char)
  | 0, n, cs => some (n, cs)
  | more + 1, n, cs => do
    let (octet, cs) ← readOctet cs
    if octet / 0x40 = 2 then readOctets more (0x40 * n + octet % 0x40) cs else none

/-- A character written as its octets. One that no text holds is replaced. -/
def readEscapedChar (cs : List Char) : Option (Char × List Char) := do
  let (octet, cs) ← readOctet cs
  let (n, cs) ←
    if octet < 0x80 then some (octet, cs)
    else if octet / 0x20 = 6 then readOctets 1 (octet % 0x20) cs
    else if octet / 0x10 = 14 then readOctets 2 (octet % 0x10) cs
    else if octet / 0x08 = 30 then readOctets 3 (octet % 0x08) cs
    else none
  return ((Text.charOfCode? n).getD '\uFFFD', cs)

/-- The characters of a tag. -/
def readTagChars (bracketed : Bool) : Nat → List Char → Option (List Char × List Char)
  | 0, _ => none
  | _ + 1, [] => some ([], [])
  | fuel + 1, c :: cs =>
    if c = '%' then do
      let (char, cs) ← readEscapedChar (c :: cs)
      let (chars, rest) ← readTagChars bracketed fuel cs
      return (char :: chars, rest)
    else if isTagChar bracketed c then
      (readTagChars bracketed fuel cs).map fun (chars, rest) => (c :: chars, rest)
    else some ([], c :: cs)

/-- The handle of a tag: an exclamation mark, perhaps a word, and a second mark if there is one. -/
def readHandle : List Char → Option (List Char × List Char)
  | '!' :: cs =>
    let word := cs.takeWhile isWordChar
    match cs.dropWhile isWordChar with
    | '!' :: rest => some ('!' :: word ++ ['!'], rest)
    | rest => some ('!' :: word, rest)
  | _ => none

/-- Whether a handle has both its marks. -/
def isClosedHandle (handle : List Char) : Bool := 2 ≤ handle.length && handle.getLast? = some '!'

/-- A tag, as a handle and what follows it. A tag in angle brackets has no handle, nor has the mark alone. -/
def readTag (inFlow : Bool) (cs : List Char) : Option (String × String × List Char) := do
  let (handle, suffix, rest) ← match cs with
    | '!' :: '<' :: cs => do
      match ← readTagChars true (cs.length + 1) cs with
      | (chars, '>' :: rest) => if chars.isEmpty then none else some ([], chars, rest)
      | _ => none
    | cs => do
      let (handle, cs) ← readHandle cs
      let (chars, rest) ← readTagChars false (cs.length + 1) cs
      if isClosedHandle handle then
        if chars.isEmpty then none else some (handle, chars, rest)
      else
        match handle.drop 1 ++ chars with
        | [] => some ([], ['!'], rest)
        | suffix => some (['!'], suffix, rest)
  if isGap rest.head? || (inFlow && rest.head? = some ',') then
    return (String.ofList handle, String.ofList suffix, rest)
  else none

/-! ## Directives -/

/-- What a line with a percent sign declares. -/
inductive Directive where
  | version (major minor : Nat)
  /-- What a handle of tags stands for. -/
  | handle (name expansion : String)
  deriving DecidableEq, Repr

/-- Skips blanks. -/
def skipBlank (cs : List Char) : List Char := cs.dropWhile isBlank

/-- A number of a version, of at most nine digits. -/
def readVersionNumber (cs : List Char) : Option (Nat × List Char) :=
  let digits := cs.takeWhile Char.isDigit
  if digits.isEmpty || 9 < digits.length then none
  else (Text.numeral? 10 digits).map (·, cs.dropWhile Char.isDigit)

/-- The two numbers of a version with a point between them. -/
def readVersion (cs : List Char) : Option (Directive × List Char) := do
  let (major, cs) ← readVersionNumber (skipBlank cs)
  match cs with
  | '.' :: cs =>
    let (minor, cs) ← readVersionNumber cs
    return (.version major minor, cs)
  | _ => none

/-- A handle and what it stands for. -/
def readHandleDirective (cs : List Char) : Option (Directive × List Char) := do
  let (handle, cs) ← readHandle (skipBlank cs)
  if !isClosedHandle handle && handle ≠ ['!'] then none
  if !cs.head?.any isBlank then none
  let cs := skipBlank cs
  let (chars, rest) ← readTagChars true (cs.length + 1) cs
  if chars.isEmpty || !isGap rest.head? then none
  return (.handle (String.ofList handle) (String.ofList chars), rest)

/-- A directive, after its percent sign. Only the two kinds that there are can be used. -/
def readDirective (cs : List Char) : Option (Directive × List Char) :=
  let rest := cs.dropWhile isWordChar
  if !isGap rest.head? then none
  else
    let name := String.ofList (cs.takeWhile isWordChar)
    if name = "YAML" then readVersion rest
    else if name = "TAG" then readHandleDirective rest
    else none

end ScillaLayout.Yaml
