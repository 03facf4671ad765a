import ScillaLayout.Toml.Scalar

/-!
# Reading TOML

`Toml.parse?` reads a whole document. A document is a list of lines: headers, keys with their values, and blank lines;
only arrays and the long kinds of strings go over more than one.
-/

namespace ScillaLayout.Toml

open Text

/-! ## Blanks and comments -/

/-- Control characters, which stand nowhere but for tabs and line breaks. -/
def isControl (c : Char) : Bool := (c.toNat < 0x20 && c ≠ '\t') || c.toNat = 0x7F

/-- Skips spaces and tabs. -/
def skipBlank (cs : List Char) : List Char := cs.dropWhile fun c => c = ' ' || c = '\t'

/-- Reads a line break. -/
def readBreak : List Char → Option (List Char)
  | '\n' :: cs => some cs
  | '\r' :: '\n' :: cs => some cs
  | _ => none

/-- Skips a comment, if there is one, up to the end of its line. -/
def skipComment : List Char → Option (List Char)
  | '#' :: cs =>
    let rest := cs.dropWhile (!isControl ·)
    if rest.isEmpty || (readBreak rest).isSome then some rest else none
  | cs => some cs

/-- Reads the rest of a line on which nothing more is to come. -/
def readLineEnd (cs : List Char) : Option (List Char) := do
  let cs ← skipComment (skipBlank cs)
  if cs.isEmpty then return [] else readBreak cs

/-- Skips blanks, comments and line breaks. -/
def skipLines : Nat → List Char → Option (List Char)
  | 0, cs => some cs
  | fuel + 1, cs => do
    let cs ← skipComment (skipBlank cs)
    match readBreak cs with
    | some cs => skipLines fuel cs
    | none => return cs

/-! ## Strings -/

/-- The character of a one-letter escape. -/
def escapedChar? : Char → Option Char
  | 'b' => some '\x08'
  | 't' => some '\t'
  | 'n' => some '\n'
  | 'f' => some '\x0c'
  | 'r' => some '\r'
  | '\x22' => some '\x22'
  | '\\' => some '\\'
  | _ => none

/-- Whether only blanks are left on the line. -/
def endsLine (cs : List Char) : Bool := (readBreak (skipBlank cs)).isSome

/-- A string with escapes, after its opening quote. -/
def readBasic : List Char → Option (List Char × List Char)
  | [] => none
  | '\x22' :: cs => some ([], cs)
  | '\\' :: 'u' :: a :: b :: c :: d :: cs => do
    let char ← charOfCode? (← numeral? 16 [a, b, c, d])
    let (text, rest) ← readBasic cs
    return (char :: text, rest)
  | '\\' :: 'U' :: a :: b :: c :: d :: e :: f :: g :: h :: cs => do
    let char ← charOfCode? (← numeral? 16 [a, b, c, d, e, f, g, h])
    let (text, rest) ← readBasic cs
    return (char :: text, rest)
  | '\\' :: c :: cs => do
    let char ← escapedChar? c
    let (text, rest) ← readBasic cs
    return (char :: text, rest)
  | c :: cs => if isControl c then none else (readBasic cs).map fun (text, rest) => (c :: text, rest)

/-- A long string with escapes, after its opening quotes. A backslash at the end of a line joins the line to the next
text (`joining`). Up to two quotes may stand before the closing ones. -/
def readLongBasic (joining : Bool) : List Char → Option (List Char × List Char)
  | [] => none
  | '\x22' :: '\x22' :: '\x22' :: '\x22' :: '\x22' :: cs => some (['\x22', '\x22'], cs)
  | '\x22' :: '\x22' :: '\x22' :: '\x22' :: cs => some (['\x22'], cs)
  | '\x22' :: '\x22' :: '\x22' :: cs => some ([], cs)
  | '\\' :: 'u' :: a :: b :: c :: d :: cs => do
    let char ← charOfCode? (← numeral? 16 [a, b, c, d])
    let (text, rest) ← readLongBasic false cs
    return (char :: text, rest)
  | '\\' :: 'U' :: a :: b :: c :: d :: e :: f :: g :: h :: cs => do
    let char ← charOfCode? (← numeral? 16 [a, b, c, d, e, f, g, h])
    let (text, rest) ← readLongBasic false cs
    return (char :: text, rest)
  | '\\' :: c :: cs =>
    if endsLine (c :: cs) then readLongBasic true (c :: cs)
    else do
      let char ← escapedChar? c
      let (text, rest) ← readLongBasic false cs
      return (char :: text, rest)
  | '\r' :: '\n' :: cs =>
    if joining then readLongBasic true cs
    else (readLongBasic false cs).map fun (text, rest) => ('\r' :: '\n' :: text, rest)
  | c :: cs =>
    if joining && (c = ' ' || c = '\t' || c = '\n') then readLongBasic true cs
    else if isControl c && c ≠ '\n' then none
    else (readLongBasic false cs).map fun (text, rest) => (c :: text, rest)
termination_by cs => cs.length

/-- A string without escapes, after its opening quote. -/
def readLiteral : List Char → Option (List Char × List Char)
  | [] => none
  | c :: cs =>
    if c = '\x27' then some ([], cs)
    else if isControl c then none
    else (readLiteral cs).map fun (text, rest) => (c :: text, rest)

/-- A long string without escapes, after its opening quotes. -/
def readLongLiteral : List Char → Option (List Char × List Char)
  | [] => none
  | '\x27' :: '\x27' :: '\x27' :: '\x27' :: '\x27' :: cs => some (['\x27', '\x27'], cs)
  | '\x27' :: '\x27' :: '\x27' :: '\x27' :: cs => some (['\x27'], cs)
  | '\x27' :: '\x27' :: '\x27' :: cs => some ([], cs)
  | '\r' :: '\n' :: cs => (readLongLiteral cs).map fun (text, rest) => ('\r' :: '\n' :: text, rest)
  | c :: cs =>
    if isControl c && c ≠ '\n' then none
    else (readLongLiteral cs).map fun (text, rest) => (c :: text, rest)

/-- Drops the line break that a long string may start with. -/
def dropBreak (cs : List Char) : List Char := (readBreak cs).getD cs

/-- A string of any kind. -/
def readString : List Char → Option (String × List Char)
  | '\x22' :: '\x22' :: '\x22' :: cs => text (readLongBasic false (dropBreak cs))
  | '\x22' :: cs => text (readBasic cs)
  | '\x27' :: '\x27' :: '\x27' :: cs => text (readLongLiteral (dropBreak cs))
  | '\x27' :: cs => text (readLiteral cs)
  | _ => none
where
  /-- The characters read, as a string. -/
  text (x : Option (List Char × List Char)) : Option (String × List Char) :=
    x.map fun (chars, rest) => (String.ofList chars, rest)

/-! ## Keys -/

/-- Characters of keys without quotes. -/
def isBareChar (c : Char) : Bool := c.isAlphanum || c = '_' || c = '-'

/-- One part of a key. -/
def readKeyPart : List Char → Option (String × List Char)
  | '\x22' :: cs => (readBasic cs).map fun (chars, rest) => (String.ofList chars, rest)
  | '\x27' :: cs => (readLiteral cs).map fun (chars, rest) => (String.ofList chars, rest)
  | cs =>
    match cs.takeWhile isBareChar with
    | [] => none
    | chars => some (String.ofList chars, cs.dropWhile isBareChar)

/-- How many parts a key may have, and how deep arrays and inline tables may be nested. -/
def maxNesting : Nat := 80

/-- A dotted key of at most so many parts: the path before its last part, that part, and what follows after blanks. -/
def readKey : Nat → List Char → Option (List String × String × List Char)
  | 0, _ => none
  | parts + 1, cs => do
    let (part, cs) ← readKeyPart cs
    match skipBlank cs with
    | '.' :: cs =>
      let (path, last, cs) ← readKey parts (skipBlank cs)
      return (part :: path, last, cs)
    | cs => return ([], part, cs)

/-! ## Values -/

mutual

/-- A value inside `level` others, with at most `fuel` calls below. -/
def readValue (level : Nat) : Nat → List Char → Option (Toml × List Char)
  | 0, _ => none
  | fuel + 1, cs =>
    match cs with
    | '[' :: cs => do
      if maxNesting ≤ level then none
      let (items, rest) ← readItems (level + 1) fuel cs
      return (.array items, rest)
    | '\x7b' :: cs =>
      if maxNesting ≤ level then none
      else match skipBlank cs with
        | '\x7d' :: rest => some (.table .inline [], rest)
        | cs => (readMembers (level + 1) fuel [] cs).map fun (ms, rest) => (.table .inline ms, rest)
    | '\x22' :: _ | '\x27' :: _ => (readString cs).map fun (s, rest) => (.string s, rest)
    | _ => readScalar cs

/-- The items of an array up to its closing bracket, which may follow a comma. -/
def readItems (level : Nat) : Nat → List Char → Option (List Toml × List Char)
  | 0, _ => none
  | fuel + 1, cs => do
    match ← skipLines cs.length cs with
    | ']' :: cs => return ([], cs)
    | cs =>
      let (v, cs) ← readValue level fuel cs
      match ← skipLines cs.length cs with
      | ',' :: cs =>
        let (vs, cs) ← readItems level fuel cs
        return (v :: vs, cs)
      | ']' :: cs => return ([v], cs)
      | _ => none

/-- The members of an inline table, after those read already, up to its closing brace. -/
def readMembers (level : Nat) : Nat → Members → List Char → Option (Members × List Char)
  | 0, _, _ => none
  | fuel + 1, ms, cs => do
    let (path, name, cs) ← readKey maxNesting (skipBlank cs)
    match cs with
    | '=' :: cs =>
      let (v, cs) ← readValue level fuel (skipBlank cs)
      let ms ← insert? path name v .inline ms
      match skipBlank cs with
      | ',' :: cs => readMembers level fuel ms cs
      | '\x7d' :: cs => return (ms, cs)
      | _ => none
    | _ => none

end

/-! ## Documents -/

/-- A document so far, with the path of the table whose lines are read. -/
structure Draft where
  members : Members := []
  current : List String := []

/-- The rest of a header after its opening bracket: the path, the last part, and what follows a closing bracket. -/
def readHeader (cs : List Char) : Option (List String × String × List Char) := do
  let (path, name, cs) ← readKey maxNesting (skipBlank cs)
  match cs with
  | ']' :: cs => return (path, name, cs)
  | _ => none

/-- Reads what a line holds besides blanks. -/
def readLine (d : Draft) (cs : List Char) : Option (Draft × List Char) := do
  match cs with
  | [] | '#' :: _ | '\n' :: _ | '\r' :: _ => return (d, cs)
  | '[' :: '[' :: cs =>
    let (path, name, cs) ← readHeader cs
    match cs with
    | ']' :: cs => return ({ members := ← appendTable? path name d.members, current := path ++ [name] }, cs)
    | _ => none
  | '[' :: cs =>
    let (path, name, cs) ← readHeader cs
    return ({ members := ← openTable? path name d.members, current := path ++ [name] }, cs)
  | cs =>
    let (path, name, cs) ← readKey maxNesting cs
    match cs with
    | '=' :: cs =>
      let (v, cs) ← readValue 0 (2 * cs.length + 2) (skipBlank cs)
      return ({ d with members := ← descend? false (insert? path name v) d.current .header d.members }, cs)
    | _ => none

/-- Reads lines up to the end of the text. -/
def readLines : Nat → Draft → List Char → Option Members
  | 0, d, _ => some d.members
  | fuel + 1, d, cs => do
    let (d, cs) ← readLine d (skipBlank cs)
    match ← readLineEnd cs with
    | [] => return d.members
    | cs => readLines fuel d cs

/-- The table that a whole text is. A byte order mark in front is passed over. -/
def parse? (text : String) : Option Toml := do
  let cs := match text.toList with
    | '\uFEFF' :: cs => cs
    | cs => cs
  return .table .header (← readLines (cs.length + 1) {} cs)

end ScillaLayout.Toml
