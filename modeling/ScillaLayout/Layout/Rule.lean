import ScillaLayout.Layout.Indentation
import ScillaLayout.Layout.Lines
import ScillaLayout.Layout.Spacing

/-!
# The rules of the layout

Ten rules, each a function on lists of tokens. `Rule.standard` is the order in which a document goes through them.
-/

namespace ScillaLayout

/-- A rule of the layout. -/
inductive Rule where
  | removeLeadingBlankLines | collapseBlankLines | clearBlankLines | collapseBlanks | indentation
  | spaceAroundOperators | tightenPunctuation | stripTrailingBlanks | trimDocumentEnd | normalizeNewlines
  deriving DecidableEq, Repr

namespace Rule

/-- The rules in the order in which they are applied. -/
def standard : List Rule := [
  .removeLeadingBlankLines, .collapseBlankLines, .clearBlankLines, .collapseBlanks, .indentation,
  .spaceAroundOperators, .tightenPunctuation, .stripTrailingBlanks, .trimDocumentEnd, .normalizeNewlines]

/-- The name of a rule. -/
def name : Rule → String
  | .removeLeadingBlankLines => "remove-leading-blank-lines"
  | .collapseBlankLines => "collapse-blank-lines"
  | .clearBlankLines => "whitespace-only-lines"
  | .collapseBlanks => "collapse-interior-whitespace"
  | .indentation => "indentation"
  | .spaceAroundOperators => "space-around-operators"
  | .tightenPunctuation => "tighten-punctuation"
  | .stripTrailingBlanks => "strip-trailing-whitespace"
  | .trimDocumentEnd => "trim-document-end"
  | .normalizeNewlines => "normalize-newlines"

/-- The rule with a given name. -/
def ofName? (s : String) : Option Rule := standard.find? (·.name == s)

section Application

variable [Text.Measure]

/-- Applies a rule. -/
def apply (o : Options) : Rule → List Token → List Token
  | .removeLeadingBlankLines => Lines.removeLeading
  | .collapseBlankLines => Lines.collapseBlank
  | .clearBlankLines => Lines.clearBlank
  | .collapseBlanks => Spacing.collapse
  | .indentation => indentLines o
  | .spaceAroundOperators => Spacing.spaceOperators
  | .tightenPunctuation => Spacing.tighten
  | .stripTrailingBlanks => Lines.stripTrailing
  | .trimDocumentEnd => Lines.trimEnd o
  | .normalizeNewlines => Lines.normalize o

/-- Applies rules one after the other. -/
def applyAll (o : Options) (rules : List Rule) (ts : List Token) : List Token :=
  rules.foldl (fun ts r => r.apply o ts) ts

/-- What applying a rule to `ts` reports. -/
def log (o : Options) (r : Rule) (ts : List Token) : List LogEvent :=
  let during := if r = .indentation then (Walk.run o ts).report else []
  let done := if o.trace.rules then [.applied r.name (Token.renderAll (r.apply o ts))] else []
  [.applying r.name] ++ during ++ done

/-- What applying rules one after the other reports. -/
def logAll (o : Options) : List Rule → List Token → List LogEvent
  | [], _ => []
  | r :: rules, ts => r.log o ts ++ logAll o rules (r.apply o ts)

end Application

theorem mem_standard (r : Rule) : r ∈ standard := by cases r <;> decide

end Rule

/-- The layout of a token list: all rules in their order. -/
def layout [Text.Measure] (o : Options) (ts : List Token) : List Token := Rule.applyAll o Rule.standard ts

end ScillaLayout
