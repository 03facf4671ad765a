import ScillaLayout.Layout.Options
import ScillaLayout.Token.Line

/-!
# Rules for lines

Blank lines, blanks at the ends of lines, the end of the document and the spelling of line breaks. Each rule changes
only blanks and line breaks.
-/

namespace ScillaLayout.Lines

/-- Drops blanks and line breaks before the first other token. -/
def removeLeading (ts : List Token) : List Token := ts.dropWhile (·.isSpace)

/-- Keeps at most one blank line. `breaks` line breaks and then `blanks` have been seen since the last token that is
neither; a line break after two others goes, with the blanks before it. -/
def collapseBlankFrom (breaks : Nat) (blanks : List Token) : List Token → List Token
  | [] => blanks
  | t :: ts =>
    if t.isNewline then
      if 2 ≤ breaks then collapseBlankFrom (breaks + 1) [] ts
      else blanks ++ t :: collapseBlankFrom (breaks + 1) [] ts
    else if t.isWhitespace then collapseBlankFrom breaks (blanks ++ [t]) ts
    else blanks ++ t :: collapseBlankFrom 0 [] ts

/-- Keeps at most one blank line between two lines that hold something. -/
def collapseBlank (ts : List Token) : List Token := collapseBlankFrom 0 [] ts

/-- Whether the line ends before these tokens. -/
def endsLine : List Token → Bool
  | [] => true
  | t :: _ => t.kind == .newline || t.kind == .eof

/-- Empties lines that hold one blank token and nothing else; `atStart` says that a line starts here. -/
def clearBlankFrom (atStart : Bool) : List Token → List Token
  | [] => []
  | t :: ts =>
    if t.kind == .whitespace && atStart && endsLine ts then clearBlankFrom atStart ts
    else t :: clearBlankFrom t.isNewline ts

/-- Empties lines that hold nothing but blanks. -/
def clearBlank (ts : List Token) : List Token := clearBlankFrom true ts

/-- Drops the blanks before a line break. -/
def stripStep (out : Before) (t : Token) : Before :=
  if t.isNewline then t :: out.trimmed else t :: out

/-- Drops blanks at the ends of lines. -/
def stripTrailing (ts : List Token) : List Token := (ts.foldl stripStep []).reverse

/-- A document without the blanks and line breaks at its end, with one line break there if the options ask for it. -/
def trimBody (o : Options) (body : List Token) : List Token :=
  match body.reverse.dropWhile (·.isSpace) with
  | [] => []
  | last :: before => (last :: before).reverse ++ if o.endWithNewline then [o.newlineToken] else []

/-- Drops blanks and line breaks at the end of the document, before the end mark if there is one. -/
def trimEnd (o : Options) (ts : List Token) : List Token :=
  match ts.getLast? with
  | some last =>
    if last.kind == .eof then trimBody o ts.dropLast ++ [last] else trimBody o ts
  | none => []

/-- Writes every line break as the options want it. -/
def normalize (o : Options) (ts : List Token) : List Token :=
  ts.map fun t => if t.isNewline then t.withText o.newline else t

end ScillaLayout.Lines
