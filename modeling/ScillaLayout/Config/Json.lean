import ScillaLayout.Config.Value
import ScillaLayout.Json.Reader

/-!
# Configurations in JSON

A record is an object, or an array of all its fields in order. A choice is a string, or an object whose only member has
the name and holds nothing.
-/

namespace ScillaLayout

namespace Json

/-- Whether a field that holds the value is set: `null` says that it is not. -/
def isSet : Json → Bool
  | .null => false
  | _ => true

/-- The text of a string. -/
def text? : Json → Option String
  | .string s => some s
  | _ => none

/-- The truth value of a boolean. -/
def flag? : Json → Option Bool
  | .bool b => some b
  | _ => none

/-- The count that a number is. -/
def count? : Json → Option Nat
  | .nat n => ConfigValue.countOfNat? n
  | _ => none

/-- The name that a value picks. -/
def choice? : Json → Option String
  | .string s => some s
  | .object [(name, .null)] => some name
  | _ => none

/-- The fields of a record. -/
def fields? (names : List String) : Json → Option (List (Option Json))
  | .object members => ConfigValue.fieldsOfMembers? names members
  | .array items => if items.length = names.length then some (items.map some) else none
  | _ => none

instance : ConfigValue Json where
  isSet? v := some v.isSet
  text? := text?
  flag? := flag?
  count? := count?
  choice? := choice?
  fields? := fields?

end Json

/-- The configuration that a JSON text gives. -/
def Config.ofJson? (text : String) : Option Config := do ofValue? (← Json.parse? text)

end ScillaLayout
