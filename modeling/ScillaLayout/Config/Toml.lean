import ScillaLayout.Config.Value
import ScillaLayout.Toml.Reader

/-!
# Configurations in TOML

A record is a table, or an array that starts with all its fields in order. A date is a record too, with no field that
has a meaning here. A choice is a string, or a table whose only member has the name and holds nothing. No value says
that a field is not set.
-/

namespace ScillaLayout

namespace Toml

/-- The text of a string. -/
def text? : Toml → Option String
  | .string s => some s
  | _ => none

/-- The truth value of a boolean. -/
def flag? : Toml → Option Bool
  | .bool b => some b
  | _ => none

/-- The count that a number is. -/
def count? : Toml → Option Nat
  | .integer (.ofNat n) => ConfigValue.countOfNat? n
  | _ => none

/-- Whether a value holds nothing. -/
def isEmpty : Toml → Bool
  | .array [] | .tables [] | .table _ [] => true
  | _ => false

/-- The name that a value picks. -/
def choice? : Toml → Option String
  | .string s => some s
  | .table _ [(name, v)] => if v.isEmpty then some name else none
  | _ => none

/-- The fields of a record. -/
def fields? (names : List String) : Toml → Option (List (Option Toml))
  | .table _ members => ConfigValue.fieldsOfMembers? names members
  | .array items | .tables items =>
    if names.length ≤ items.length then some ((items.take names.length).map some) else none
  | .moment => some (names.map fun _ => none)
  | _ => none

instance : ConfigValue Toml where
  isSet? _ := some true
  text? := text?
  flag? := flag?
  count? := count?
  choice? := choice?
  fields? := fields?

end Toml

/-- The configuration that a TOML text gives. -/
def Config.ofToml? (text : String) : Option Config := do ofValue? (← Toml.parse? text)

end ScillaLayout
