import ScillaLayout.Text.Digits
import ScillaLayout.Toml.Basic

/-!
# Unquoted TOML values

Booleans, numbers, dates and times, each read off its whole text.
-/

namespace ScillaLayout.Toml

open Text

/-! ## Numbers -/

/-- Digits with single underscores between them, which are dropped. -/
def ungroup? (isDigit : Char → Bool) : List Char → Option (List Char)
  | [] => none
  | [c] => if isDigit c then some [c] else none
  | c :: '_' :: cs => if isDigit c then (ungroup? isDigit cs).map (c :: ·) else none
  | c :: cs => if isDigit c then (ungroup? isDigit cs).map (c :: ·) else none

/-- A natural number in a base. -/
def natural? (base : Nat) (cs : List Char) : Option Nat := do numeral? base (← ungroup? (isDigitOf base) cs)

/-- The digits of a decimal number with no zero in front of others. -/
def wholeDigits? (cs : List Char) : Option (List Char) := do
  let digits ← ungroup? Char.isDigit cs
  if digits.head? = some '0' && digits.length ≠ 1 then none else return digits

/-- Splits off a sign: whether it is a minus, and the rest. -/
def splitSign : List Char → Bool × List Char
  | '+' :: cs => (false, cs)
  | '-' :: cs => (true, cs)
  | cs => (false, cs)

/-- A whole number in the range in which such numbers are kept, 128 bits with or without a sign. -/
def integer? (cs : List Char) : Option Toml := do
  let n : Int ← match cs with
    | '0' :: 'x' :: digits => natural? 16 digits
    | '0' :: 'o' :: digits => natural? 8 digits
    | '0' :: 'b' :: digits => natural? 2 digits
    | _ =>
      let (minus, digits) := splitSign cs
      let n ← numeral? 10 (← wholeDigits? digits)
      pure (if minus then -(n : Int) else n)
  if -(Nat.pow 2 127 : Int) ≤ n && n < (Nat.pow 2 128 : Int) then return .integer n else none

/-- Whether a decimal number with some power of ten is less than what rounds to an infinity. -/
def isFinite (digits : List Char) (exponent : Int) : Bool :=
  match numeral? 10 digits with
  | none | some 0 => true
  | some m =>
    let size := (Nat.toDigits 10 m).length + exponent
    if size < 309 then true
    else if 309 < size then false
    else
      let bound := Nat.pow 2 1024 - Nat.pow 2 970
      m * Nat.pow 10 exponent.toNat < bound * Nat.pow 10 (-exponent).toNat

/-- The digits of a fraction, the point included, or nothing. -/
def fraction? : List Char → Option (List Char)
  | [] => some []
  | '.' :: cs => ungroup? Char.isDigit cs
  | _ => none

/-- The value of an exponent, its letter included, or zero for nothing. -/
def exponent? : List Char → Option Int
  | [] => some 0
  | _ :: cs => do
    let (minus, digits) := splitSign cs
    let n ← natural? 10 digits
    return if minus then -(n : Int) else n

/-- A number with a fraction or an exponent that is not too large, or one of the special ones. -/
def real? (cs : List Char) : Option Toml := do
  let (_, cs) := splitSign cs
  if cs = ['i', 'n', 'f'] || cs = ['n', 'a', 'n'] then return .real
  let isMark (c : Char) : Bool := c = '.' || c = 'e' || c = 'E'
  let isExponent (c : Char) : Bool := c = 'e' || c = 'E'
  let whole ← wholeDigits? (cs.takeWhile (!isMark ·))
  let tail := cs.dropWhile (!isMark ·)
  if tail.isEmpty then none
  let fraction ← fraction? (tail.takeWhile (!isExponent ·))
  let exponent ← exponent? (tail.dropWhile (!isExponent ·))
  if isFinite (whole ++ fraction) (exponent - fraction.length) then return .real else none

/-! ## Dates and times -/

/-- A number of two digits. -/
def readTwo : List Char → Option (Nat × List Char)
  | a :: b :: cs => if a.isDigit && b.isDigit then (numeral? 10 [a, b]).map (·, cs) else none
  | _ => none

/-- The number of days of a month. -/
def daysIn (year month : Nat) : Nat :=
  if month = 2 then if year % 4 = 0 && (year % 100 ≠ 0 || year % 400 = 0) then 29 else 28
  else if [4, 6, 9, 11].contains month then 30
  else 31

/-- Reads a date of the calendar. -/
def readDate (cs : List Char) : Option (List Char) := do
  let (century, cs) ← readTwo cs
  let (year, cs) ← readTwo cs
  match cs with
  | '-' :: cs =>
    let (month, cs) ← readTwo cs
    match cs with
    | '-' :: cs =>
      let (day, cs) ← readTwo cs
      if 1 ≤ month && month ≤ 12 && 1 ≤ day && day ≤ daysIn (100 * century + year) month then return cs else none
    | _ => none
  | _ => none

/-- Reads a time of the day, a leap second included. -/
def readTime (cs : List Char) : Option (List Char) := do
  let (hour, cs) ← readTwo cs
  match cs with
  | ':' :: cs =>
    let (minute, cs) ← readTwo cs
    match cs with
    | ':' :: cs =>
      let (second, cs) ← readTwo cs
      if 23 < hour || 59 < minute || 60 < second then none
      match cs with
      | '.' :: c :: cs => if c.isDigit then return cs.dropWhile Char.isDigit else none
      | cs => return cs
    | _ => none
  | _ => none

/-- Whether a text is a distance from universal time, or nothing. -/
def isOffset : List Char → Bool
  | [] | ['Z'] | ['z'] => true
  | [sign, a, b, ':', c, d] =>
    (sign = '+' || sign = '-') && [a, b, c, d].all Char.isDigit
      && (numeral? 10 [a, b]).any (· ≤ 23) && (numeral? 10 [c, d]).any (· ≤ 59)
  | _ => false

/-- A date, a time, or both with or without a distance from universal time. -/
def moment? (cs : List Char) : Option Toml :=
  match readDate cs with
  | some [] => some .moment
  | some (c :: cs) =>
    if c = 'T' || c = 't' || c = ' ' then
      (readTime cs).bind fun rest => if isOffset rest then some .moment else none
    else none
  | none => (readTime cs).bind fun rest => if rest.isEmpty then some .moment else none

/-! ## Any of them -/

/-- The value of an unquoted text. -/
def scalar? (cs : List Char) : Option Toml :=
  if cs = ['t', 'r', 'u', 'e'] then some (.bool true)
  else if cs = ['f', 'a', 'l', 's', 'e'] then some (.bool false)
  else integer? cs <|> real? cs <|> moment? cs

/-- Characters of unquoted values. -/
def isScalarChar (c : Char) : Bool := c.isAlphanum || ['+', '-', '_', '.', ':'].contains c

/-- Reads an unquoted value. A date may have its time after a space. -/
def readScalar (cs : List Char) : Option (Toml × List Char) :=
  let first := cs.takeWhile isScalarChar
  let rest := cs.dropWhile isScalarChar
  let (text, rest) := match rest with
    | ' ' :: c :: more =>
      if readDate first = some [] && c.isDigit then
        (first ++ ' ' :: (c :: more).takeWhile isScalarChar, (c :: more).dropWhile isScalarChar)
      else (first, rest)
    | rest => (first, rest)
  (scalar? text).map (·, rest)

end ScillaLayout.Toml
