import ScillaLayout.Config.Basic

/-!
# Reading a configuration off a value

File formats differ in their values and agree in what a configuration is: a record of optional fields. `ConfigValue`
says what a value of a format can stand for, and `Config.ofValue?` reads a configuration through it. Nothing is
converted: a number is no text unless the format says so. Names that mean nothing are passed over, whatever they hold.
-/

namespace ScillaLayout

/-- What the values of a format can stand for. -/
class ConfigValue (V : Type) where
  /-- Whether a field that holds the value is set. -/
  isSet? : V → Option Bool
  text? : V → Option String
  flag? : V → Option Bool
  count? : V → Option Nat
  /-- The name that a value picks from a list of names. -/
  choice? : V → Option String
  /-- The values of the fields of a record, in the order of their names. -/
  fields? : List String → V → Option (List (Option V))

namespace ConfigValue

/-- The largest count. -/
def maxCount : Nat := UInt64.size - 1

/-- A natural number as a count, unless it is too large. -/
def countOfNat? (n : Nat) : Option Nat := if n ≤ maxCount then some n else none

/-- The value of one field among named members. A field that is given twice is no field. -/
def fieldOfMembers? {V : Type} (members : List (String × V)) (name : String) : Option (Option V) :=
  match members.filter (·.1 == name) with
  | [] => some none
  | [(_, v)] => some (some v)
  | _ => none

/-- The values of fields among named members. -/
def fieldsOfMembers? {V : Type} (names : List String) (members : List (String × V)) : Option (List (Option V)) :=
  names.mapM (fieldOfMembers? members)

variable {V : Type} [ConfigValue V]

/-- What a field holds, if it is there and set. -/
def field? {α : Type} (read : V → Option α) : Option V → Option (Option α)
  | none => some none
  | some v => do if ← isSet? v then return some (← read v) else return none

end ConfigValue

open ConfigValue

variable {V : Type} [ConfigValue V]

/-- The line break that a value names. -/
def NewlineStyle.ofValue? (v : V) : Option NewlineStyle := do ofName? (← choice? v)

/-- The names of the layout settings. -/
def FormatterSection.fieldNames : List String :=
  ["indentUnit", "indentPatternAlternative", "maxLineLength", "newline", "endWithNewline"]

/-- Layout settings as a value gives them. -/
def FormatterSection.ofValue? (v : V) : Option FormatterSection := do
  match ← fields? fieldNames v with
  | [unit, alternatives, length, newline, final] =>
    return {
      indentUnit := ← field? text? unit
      indentAlternatives := ← field? flag? alternatives
      maxLineLength := ← field? count? length
      newline := ← field? NewlineStyle.ofValue? newline
      endWithNewline := ← field? flag? final }
  | _ => none

/-- The names of the tracing switches. -/
def TraceSection.fieldNames : List String := ["lexerPositions", "lexerTokens", "rules"]

/-- Tracing switches as a value gives them. -/
def TraceSection.ofValue? (v : V) : Option TraceSection := do
  match ← fields? fieldNames v with
  | [positions, tokens, rules] =>
    return {
      lexerPositions := ← field? flag? positions
      lexerTokens := ← field? flag? tokens
      rules := ← field? flag? rules }
  | _ => none

/-- The names at the top of a configuration. -/
def Config.fieldNames : List String := ["$schema", "formatter", "trace"]

/-- The configuration that a value gives. -/
def Config.ofValue? (v : V) : Option Config := do
  match ← fields? fieldNames v with
  | [note, formatter, trace] =>
    return {
      schemaNote := ← field? text? note
      formatter := ← field? FormatterSection.ofValue? formatter
      trace := ← field? TraceSection.ofValue? trace }
  | _ => none

end ScillaLayout
