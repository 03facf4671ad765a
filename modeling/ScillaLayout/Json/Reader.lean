import ScillaLayout.Json.Basic
import ScillaLayout.Text.Digits

/-!
# Reading JSON

`Json.parse?` reads a whole text as one value. There are no comments, no trailing commas and no other white space than
space, tab, line feed and carriage return.
-/

namespace ScillaLayout.Json

/-- Skips white space. -/
def skipSpace (cs : List Char) : List Char := cs.dropWhile [' ', '\t', '\n', '\r'].contains

/-! ## Strings -/

/-- The code point of a one-letter escape. -/
def escapeCode? : Char → Option Nat
  | '\x22' => some 0x22
  | '\\' => some 0x5C
  | '/' => some 0x2F
  | 'b' => some 0x08
  | 'f' => some 0x0C
  | 'n' => some 0x0A
  | 'r' => some 0x0D
  | 't' => some 0x09
  | _ => none

/-- The code points of a string after its opening quote, halves of surrogate pairs included, and what follows. -/
def readCodes : List Char → Option (List Nat × List Char)
  | '\x22' :: cs => some ([], cs)
  | '\\' :: 'u' :: a :: b :: c :: d :: cs => do
    let code ← Text.numeral? 16 [a, b, c, d]
    let (codes, rest) ← readCodes cs
    return (code :: codes, rest)
  | '\\' :: c :: cs => do
    let code ← escapeCode? c
    let (codes, rest) ← readCodes cs
    return (code :: codes, rest)
  | c :: cs =>
    if c.toNat < 0x20 then none
    else (readCodes cs).map fun (codes, rest) => (c.toNat :: codes, rest)
  | [] => none

/-- The characters of code points in which surrogates come in pairs. -/
def charsOfCodes? : List Nat → Option (List Char)
  | [] => some []
  | [n] => if 0xD800 ≤ n && n < 0xE000 then none else some [Char.ofNat n]
  | n :: m :: codes =>
    if 0xD800 ≤ n && n < 0xDC00 then
      if 0xDC00 ≤ m && m < 0xE000 then
        (charsOfCodes? codes).map (Char.ofNat (0x10000 + (n - 0xD800) * 0x400 + (m - 0xDC00)) :: ·)
      else none
    else if 0xDC00 ≤ n && n < 0xE000 then none
    else (charsOfCodes? (m :: codes)).map (Char.ofNat n :: ·)

/-- The text of a string after its opening quote, `none` inside if it has half of a surrogate pair. -/
def readText (cs : List Char) : Option (Option String × List Char) := do
  let (codes, rest) ← readCodes cs
  return ((charsOfCodes? codes).map String.ofList, rest)

/-! ## Numbers -/

/-- One or more digits. -/
def readDigits (cs : List Char) : Option (List Char × List Char) :=
  match cs.takeWhile Char.isDigit with
  | [] => none
  | digits => some (digits, cs.dropWhile Char.isDigit)

/-- The whole part of a number: no zero in front of other digits. -/
def readWhole (cs : List Char) : Option (List Char × List Char) := do
  let (digits, rest) ← readDigits cs
  if digits.head? = some '0' && digits.length ≠ 1 then none else return (digits, rest)

/-- A fraction, if there is one. -/
def readFraction : List Char → Option (List Char × List Char)
  | '.' :: cs => (readDigits cs).map fun (digits, rest) => ('.' :: digits, rest)
  | cs => some ([], cs)

/-- An exponent, if there is one. -/
def readExponent : List Char → Option (List Char × List Char)
  | [] => some ([], [])
  | e :: cs =>
    if e = 'e' || e = 'E' then
      let (sign, cs) := match cs with
        | '+' :: cs => (['+'], cs)
        | '-' :: cs => (['-'], cs)
        | cs => ([], cs)
      (readDigits cs).map fun (digits, rest) => (e :: sign ++ digits, rest)
    else some ([], e :: cs)

/-- A number. -/
def readNumber (cs : List Char) : Option (Json × List Char) := do
  let (sign, cs) := match cs with
    | '-' :: cs => (['-'], cs)
    | cs => ([], cs)
  let (whole, cs) ← readWhole cs
  let (fraction, cs) ← readFraction cs
  let (exponent, cs) ← readExponent cs
  if sign.isEmpty && fraction.isEmpty && exponent.isEmpty then return (.nat (← Text.numeral? 10 whole), cs)
  else return (.real (String.ofList (sign ++ whole ++ fraction ++ exponent)), cs)

/-! ## Values -/

mutual

/-- A value with at most `depth` calls below, after white space has been skipped. -/
def readValue : Nat → List Char → Option (Json × List Char)
  | 0, _ => none
  | depth + 1, cs =>
    match cs with
    | 'n' :: 'u' :: 'l' :: 'l' :: cs => some (.null, cs)
    | 't' :: 'r' :: 'u' :: 'e' :: cs => some (.bool true, cs)
    | 'f' :: 'a' :: 'l' :: 's' :: 'e' :: cs => some (.bool false, cs)
    | '\x22' :: cs => (readText cs).map fun (text?, rest) => ((text?.map .string).getD .halfPair, rest)
    | '[' :: cs =>
      match skipSpace cs with
      | ']' :: cs => some (.array [], cs)
      | cs => (readItems depth cs).map fun (items, rest) => (.array items, rest)
    | '\x7b' :: cs =>
      match skipSpace cs with
      | '\x7d' :: cs => some (.object [], cs)
      | cs => (readMembers depth cs).map fun (members?, rest) => ((members?.map .object).getD .halfPair, rest)
    | cs => readNumber cs

/-- The items of an array up to its closing bracket. -/
def readItems : Nat → List Char → Option (List Json × List Char)
  | 0, _ => none
  | depth + 1, cs => do
    let (v, cs) ← readValue depth cs
    match skipSpace cs with
    | ']' :: cs => return ([v], cs)
    | ',' :: cs =>
      let (vs, cs) ← readItems depth (skipSpace cs)
      return (v :: vs, cs)
    | _ => none

/-- The members of an object up to its closing brace, `none` inside if a name has half of a surrogate pair. -/
def readMembers : Nat → List Char → Option (Option (List (String × Json)) × List Char)
  | 0, _ => none
  | depth + 1, cs =>
    match cs with
    | '\x22' :: cs => do
      let (name?, cs) ← readText cs
      match skipSpace cs with
      | ':' :: cs =>
        let (v, cs) ← readValue depth (skipSpace cs)
        let member? := name?.map (·, v)
        match skipSpace cs with
        | '\x7d' :: cs => return (member?.map ([·]), cs)
        | ',' :: cs =>
          let (members?, cs) ← readMembers depth (skipSpace cs)
          return (member?.bind fun member => members?.map (member :: ·), cs)
        | _ => none
      | _ => none
    | _ => none

end

/-- The value that a whole text is. Every call reads at least one character or ends, so twice the length of the text
bounds their depth. -/
def parse? (text : String) : Option Json := do
  let cs := skipSpace text.toList
  let (v, rest) ← readValue (2 * cs.length + 1) cs
  if (skipSpace rest).isEmpty then return v else none

end ScillaLayout.Json
