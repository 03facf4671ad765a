import ScillaLayout.Config.Value
import ScillaLayout.Yaml.Reader

/-!
# Configurations in YAML

A record is a mapping, a sequence of all its fields in order, or a plain scalar of which nothing is written. Every
scalar is a text; truth values and counts are plain scalars. A choice is a scalar with the name, or a scalar that holds
nothing under a tag with the name.
-/

namespace ScillaLayout

namespace Yaml

/-- Whether a text stands for no value. -/
def isNull (text : String) : Bool := ["null", "Null", "NULL", "~"].contains text

/-- Whether a field that holds the value is set. A plain scalar that holds nothing says that it is not, and one with the
tag for that has to hold nothing. -/
def isSet? : Yaml → Option Bool
  | .scalar (some tag) .plain text =>
    if tag = "tag:yaml.org,2002:null" then if isNull text then some false else none else some true
  | .scalar none .plain text => some !(text.isEmpty || isNull text)
  | _ => some true

/-- The text of any scalar. -/
def text? : Yaml → Option String
  | .scalar _ _ text => some text
  | _ => none

/-- The text of a scalar that can be more than a text: a plain one, or a literal one with the tag of its type. -/
def typedText? (type : String) : Yaml → Option String
  | .scalar _ .plain text => some text
  | .scalar (some tag) .literal text => if tag = "tag:yaml.org,2002:" ++ type then some text else none
  | _ => none

/-- The truth value that a text writes. -/
def flagOfText? (text : String) : Option Bool :=
  if ["true", "True", "TRUE"].contains text then some true
  else if ["false", "False", "FALSE"].contains text then some false
  else none

/-- A number of at least one digit in a base. -/
def natural? (base : Nat) (digits : List Char) : Option Nat :=
  if digits.isEmpty then none else Text.numeral? base digits

/-- The count that a text writes, in base ten without a zero in front of other digits or in the base that its first two
characters name. -/
def countOfText? (text : String) : Option Nat := do
  let digits := match text.toList with
    | '+' :: cs => cs
    | cs => cs
  let n ← match digits with
    | '0' :: 'x' :: digits => natural? 16 digits
    | '0' :: 'o' :: digits => natural? 8 digits
    | '0' :: 'b' :: digits => natural? 2 digits
    | '0' :: _ :: _ => none
    | digits => natural? 10 digits
  ConfigValue.countOfNat? n

/-- The name that a value picks. -/
def choice? : Yaml → Option String
  | .scalar tag style text =>
    match tag.map String.toList with
    | some ('!' :: name) =>
      if style = .plain && (text.isEmpty || isNull text) then some (String.ofList name) else none
    | _ => some text
  | _ => none

namespace View

/-- Another value of the same document. -/
def withValue (v : View) (value : Yaml) : View := { v with value }

/-- The fields of a record. The name of a member is a scalar. -/
def fields? (names : List String) (v : View) : Option (List (Option View)) := do
  match ← v.target? with
  | .mapping members =>
    let named ← members.mapM fun (key, value) => do return (← text? (← (v.withValue key).target?), v.withValue value)
    ConfigValue.fieldsOfMembers? names named
  | .sequence items =>
    if items.length = names.length then some (items.map fun item => some (v.withValue item)) else none
  | .scalar _ .plain text => if text.isEmpty then some (names.map fun _ => none) else none
  | _ => none

instance : ConfigValue View where
  isSet? v := do isSet? (← v.target?)
  text? v := do text? (← v.target?)
  flag? v := do flagOfText? (← typedText? "bool" (← v.target?))
  count? v := do countOfText? (← typedText? "int" (← v.target?))
  choice? v := do choice? (← v.target?)
  fields? := fields?

end View

end Yaml

/-- The configuration that a YAML text gives. -/
def Config.ofYaml? (text : String) : Option Config := do ofValue? (← Yaml.parse? text)

end ScillaLayout
