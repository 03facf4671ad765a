import ScillaLayout.Layout.Log

/-!
# Options of the formatter
-/

namespace ScillaLayout

/-- What to report while formatting. -/
structure Trace where
  /-- Report the place reached after every token read. -/
  lexerPositions : Bool := false
  /-- Report every token read. -/
  lexerTokens : Bool := false
  /-- Report the document after every rule. -/
  rules : Bool := false
  deriving DecidableEq, Repr

/-- The switches that concern reading. -/
def Trace.lexer (t : Trace) : LexTrace := { positions := t.lexerPositions, tokens := t.lexerTokens }

/-- How a document is laid out. -/
structure Options where
  /-- Text of one indentation unit. -/
  indentUnit : String := "  "
  /-- Whether a pattern alternative stands one unit deeper than its match. -/
  indentAlternatives : Bool := false
  /-- Advice only; lines are never wrapped. -/
  maxLineLength : Nat := 120
  /-- Text of every line break. -/
  newline : String := "\n"
  /-- Whether a document that is not empty ends with a line break. -/
  endWithNewline : Bool := true
  trace : Trace := {}
  deriving DecidableEq, Repr

/-- A line break as the options want it. -/
def Options.newlineToken (o : Options) : Token := .synthetic .newline o.newline

end ScillaLayout
