import ScillaLayout.Error
import ScillaLayout.Layout.Options

/-!
# Configuration sections

A configuration sets some of the options and leaves the others as they are. Applying a section either sets all it
names or, if its indentation unit is unusable, nothing.
-/

namespace ScillaLayout

/-! ## Line breaks by name -/

/-- The line breaks that a configuration can ask for. -/
inductive NewlineStyle where
  | lf
  | crlf
  | cr
  deriving DecidableEq, Repr

namespace NewlineStyle

/-- All styles, in the order in which they are listed. -/
def all : List NewlineStyle := [.lf, .crlf, .cr]

/-- The name of a style in a configuration. -/
def name : NewlineStyle → String
  | .lf => "lf"
  | .crlf => "crlf"
  | .cr => "cr"

/-- The style with a given name. -/
def ofName? (s : String) : Option NewlineStyle := all.find? (·.name == s)

/-- The line break itself. -/
def text : NewlineStyle → String
  | .lf => "\n"
  | .crlf => "\r\n"
  | .cr => "\r"

end NewlineStyle

/-! ## Layout settings -/

/-- Indentation is read back as white space, so only spaces and tabs can make it up. -/
def checkIndentUnit (unit : String) : Except ConfigError Unit :=
  if unit.isEmpty then .error .indentUnitEmpty
  else if unit.toList.all fun c => c = ' ' || c = '\t' then .ok ()
  else .error (.indentUnitNotBlank unit)

/-- Layout settings, each of them set or not. -/
structure FormatterSection where
  indentUnit : Option String := none
  indentAlternatives : Option Bool := none
  maxLineLength : Option Nat := none
  newline : Option NewlineStyle := none
  endWithNewline : Option Bool := none
  deriving DecidableEq, Repr

namespace FormatterSection

/-- All settings at the values they have without a configuration. -/
def standard : FormatterSection where
  indentUnit := some "  "
  indentAlternatives := some false
  maxLineLength := some 120
  newline := some .lf
  endWithNewline := some true

/-- Sets what the section names. -/
def applyTo (s : FormatterSection) (o : Options) : Except ConfigError Options := do
  if let some unit := s.indentUnit then checkIndentUnit unit
  return { o with
    indentUnit := s.indentUnit.getD o.indentUnit
    indentAlternatives := s.indentAlternatives.getD o.indentAlternatives
    maxLineLength := s.maxLineLength.getD o.maxLineLength
    newline := (s.newline.map (·.text)).getD o.newline
    endWithNewline := s.endWithNewline.getD o.endWithNewline }

end FormatterSection

/-! ## Tracing switches -/

/-- Tracing switches, each of them set or not. -/
structure TraceSection where
  lexerPositions : Option Bool := none
  lexerTokens : Option Bool := none
  rules : Option Bool := none
  deriving DecidableEq, Repr

/-- Sets what the section names. -/
def TraceSection.applyTo (s : TraceSection) (t : Trace) : Trace where
  lexerPositions := s.lexerPositions.getD t.lexerPositions
  lexerTokens := s.lexerTokens.getD t.lexerTokens
  rules := s.rules.getD t.rules

/-! ## Either kind -/

/-- A section of a configuration. -/
inductive Section where
  | formatter (s : FormatterSection)
  | trace (s : TraceSection)
  deriving DecidableEq, Repr

/-- Sets what the section names. -/
def Section.applyTo (o : Options) : Section → Except ConfigError Options
  | .formatter s => s.applyTo o
  | .trace s => .ok { o with trace := s.applyTo o.trace }

/-- Applies sections one after the other; one that cannot be applied changes nothing. -/
def Section.applyAll (o : Options) (ss : List Section) : Options :=
  ss.foldl (fun o s => (s.applyTo o).toOption.getD o) o

end ScillaLayout
