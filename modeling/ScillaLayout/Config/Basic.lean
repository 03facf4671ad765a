import ScillaLayout.Config.Section

/-!
# Configurations

What a configuration file says, and the options that come of it.
-/

namespace ScillaLayout

/-- The content of a configuration file. -/
structure Config where
  /-- A note for editors on where the schema of the file is; it changes nothing. -/
  schemaNote : Option String := none
  formatter : Option FormatterSection := none
  trace : Option TraceSection := none
  deriving DecidableEq, Repr

namespace Config

/-- The configuration where there is no file. -/
def standard : Config := { formatter := some .standard }

/-- The sections that are there. -/
def sections (c : Config) : List Section :=
  (c.formatter.map .formatter).toList ++ (c.trace.map .trace).toList

/-- The options with all that is configured. -/
def options (c : Config) : Except ConfigError Options := c.sections.foldlM Section.applyTo {}

/-- The layout settings, the standard ones if the section is missing. -/
def formatterSection (c : Config) : FormatterSection := c.formatter.getD .standard

end Config

end ScillaLayout
