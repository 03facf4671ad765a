/-!
# JSON values

A value as a JSON text gives it. Numbers that are not plain natural numbers keep their spelling, and objects keep their
members in order, repeated names included.
-/

namespace ScillaLayout

/-- A JSON value. -/
inductive Json where
  | null
  | bool (b : Bool)
  /-- A number written with digits only. -/
  | nat (n : Nat)
  /-- Any other number, as it is written. -/
  | real (spelling : String)
  | string (s : String)
  /-- A string or an object that spells half of a surrogate pair, in the string or in the name of a member: that is no
  Unicode text. -/
  | halfPair
  | array (items : List Json)
  | object (members : List (String × Json))
  deriving Repr

namespace Json

/-- The first member with a given name. -/
def get? (name : String) : Json → Option Json
  | .object members => (members.find? (·.1 == name)).map (·.2)
  | _ => none

/-- The value of an optional part, `null` when it is missing. -/
def ofOption {α : Type} (f : α → Json) (x : Option α) : Json := (x.map f).getD .null

/-- A character inside a string. -/
def escapeChar (c : Char) : List Char :=
  if c = '\x22' then ['\\', '\x22']
  else if c = '\\' then ['\\', '\\']
  else if c = '\n' then ['\\', 'n']
  else if c = '\r' then ['\\', 'r']
  else if c = '\t' then ['\\', 't']
  else if c = '\x08' then ['\\', 'b']
  else if c = '\x0c' then ['\\', 'f']
  else if c.toNat < 0x20 then
    let digits := Nat.toDigits 16 c.toNat
    ['\\', 'u'] ++ List.replicate (4 - digits.length) '0' ++ digits
  else [c]

/-- A text between double quotes. -/
def quote (s : String) : String := String.ofList (['\x22'] ++ s.toList.flatMap escapeChar ++ ['\x22'])

/-- How the parts of a value are set apart. -/
structure Style where
  /-- What stands before a part at some depth. -/
  breakAt : Nat → String
  colon : String

/-- Everything on one line, without spaces. -/
def Style.compact : Style := { breakAt := fun _ => "", colon := ":" }

/-- Every part on a line of its own, two spaces deeper than what holds it. -/
def Style.pretty : Style := { breakAt := fun depth => "\n".pushn ' ' (2 * depth), colon := ": " }

mutual

/-- The text of a value at some depth. -/
def write (style : Style) (depth : Nat) : Json → String
  | .null => "null"
  | .bool b => if b then "true" else "false"
  | .nat n => toString n
  | .real spelling => spelling
  | .string s => quote s
  | .halfPair => quote "�"
  | .array [] => "[]"
  | .array items => "[" ++ ",".intercalate (writeItems style (depth + 1) items) ++ style.breakAt depth ++ "]"
  | .object [] => "\x7b\x7d"
  | .object members =>
    "\x7b" ++ ",".intercalate (writeMembers style (depth + 1) members) ++ style.breakAt depth ++ "\x7d"

/-- The texts of the items of an array. -/
def writeItems (style : Style) (depth : Nat) : List Json → List String
  | [] => []
  | v :: vs => (style.breakAt depth ++ write style depth v) :: writeItems style depth vs

/-- The texts of the members of an object. -/
def writeMembers (style : Style) (depth : Nat) : List (String × Json) → List String
  | [] => []
  | (name, v) :: members =>
    (style.breakAt depth ++ quote name ++ style.colon ++ write style depth v) :: writeMembers style depth members

end

/-- The text of a value on one line. -/
def compress (v : Json) : String := write .compact 0 v

/-- The text of a value, one part to a line. -/
def pretty (v : Json) : String := write .pretty 0 v

end Json

end ScillaLayout
