import ScillaLayout.Config.Section
import ScillaLayout.Json.Basic

/-!
# The schema of configuration files

A JSON schema that describes configuration files, for editors.
-/

namespace ScillaLayout.Config

/-- A type name or nothing. -/
def orNull (type : String) : Json := .array [.string type, .string "null"]

/-- A reference to a definition of the schema. -/
def schemaReference (name : String) : Json := .object [("$ref", .string ("#/$defs/" ++ name))]

/-- An optional property of a simple type. -/
def simpleProperty (description type : String) (more : List (String × Json)) : Json :=
  .object ([("description", .string description), ("type", orNull type)] ++ more)

/-- An optional property of a type that is defined elsewhere in the schema. -/
def definedProperty (description name : String) : Json :=
  .object [("description", .string description),
    ("anyOf", .array [schemaReference name, .object [("type", .string "null")]])]

/-- A record. -/
def recordSchema (description : String) (properties : List (String × Json)) : Json :=
  .object [("description", .string description), ("type", .string "object"), ("properties", .object properties)]

/-- The layout settings. -/
def formatterSchema : Json :=
  recordSchema "Formatter configuration" [
    ("indentUnit", simpleProperty "Text of one indentation unit; spaces and tabs only" "string" []),
    ("indentPatternAlternative",
      simpleProperty "Indent pattern alternatives ('|') one unit deeper than their match" "boolean" []),
    ("maxLineLength",
      simpleProperty "Advisory maximum line length; lines are never wrapped" "integer"
        [("format", .string "uint"), ("minimum", .nat 0)]),
    ("newline", definedProperty "Line break sequence: 'lf', 'crlf' or 'cr'" "NewlineStyle"),
    ("endWithNewline", simpleProperty "End non-empty output with exactly one newline" "boolean" [])]

/-- The names of the line breaks. -/
def newlineSchema : Json :=
  .object [("description", .string "Line break sequence written to the output"), ("type", .string "string"),
    ("enum", .array (NewlineStyle.all.map (.string ·.name)))]

/-- The tracing switches. -/
def traceSchema : Json :=
  recordSchema "Debug tracing configuration" [
    ("lexerPositions", simpleProperty "Log the source position after every lexed token" "boolean" []),
    ("lexerTokens", simpleProperty "Log every lexed token" "boolean" []),
    ("rules", simpleProperty "Log the document after every formatting pass" "boolean" [])]

/-- The schema of a whole configuration. -/
def schema : Json :=
  .object [("$schema", .string "https://json-schema.org/draft/2020-12/schema"), ("title", .string "ScillaFmtConfig"),
    ("description", .string "Root of a scilla-fmt configuration file"), ("type", .string "object"),
    ("properties", .object [
      ("$schema", simpleProperty "JSON schema reference, ignored by the formatter" "string" []),
      ("formatter", definedProperty "Layout settings" "FormatterConfiguration"),
      ("trace", definedProperty "Debug tracing switches" "TraceConfiguration")]),
    ("$defs", .object [("FormatterConfiguration", formatterSchema), ("NewlineStyle", newlineSchema),
      ("TraceConfiguration", traceSchema)])]

end ScillaLayout.Config
