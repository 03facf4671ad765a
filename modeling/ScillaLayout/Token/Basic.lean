import ScillaLayout.Source.Position
import ScillaLayout.Text.Quoted
import ScillaLayout.Token.Kind

/-!
# Tokens

A token is a classified piece of text. Tokens read from a source know their place in it; tokens made by the formatter
have none.
-/

namespace ScillaLayout

/-- A classified piece of text. -/
structure Token where
  kind : Kind
  text : String
  /-- The place in the source; `none` for a token made by the formatter. -/
  span : Option Span
  deriving DecidableEq, Repr

namespace Token

/-- A token without a place in any source. -/
def synthetic (kind : Kind) (text : String) : Token := ⟨kind, text, none⟩

/-- One space. -/
def space : Token := synthetic .whitespace " "

/-- Whether the formatter made the token. -/
def isSynthetic (t : Token) : Bool := t.span.isNone

/-- The same token with another text. -/
def withText (t : Token) (text : String) : Token := { t with text }

/-- A line of a token dump: kind, quoted text and place. -/
def describe (t : Token) : String :=
  let place := match t.span with
    | some span => span.render
    | none => "synthetic"
  s!"<{t.kind.name}:{Text.quoted t.text}>({place})"

/-- Blanks within a line. -/
abbrev isWhitespace (t : Token) : Bool := t.kind.isWhitespace

/-- Blanks and line breaks. -/
abbrev isSpace (t : Token) : Bool := t.kind.isSpace

/-- Tokens that carry program text. -/
abbrev isCode (t : Token) : Bool := t.kind.isCode

/-- Line breaks. -/
def isNewline (t : Token) : Bool := t.kind == .newline

@[simp] theorem withText_kind (t : Token) (text : String) : (t.withText text).kind = t.kind := rfl

@[simp] theorem withText_text (t : Token) (text : String) : (t.withText text).text = text := rfl

@[simp] theorem withText_span (t : Token) (text : String) : (t.withText text).span = t.span := rfl

@[simp] theorem space_kind : space.kind = .whitespace := rfl

/-- The text of a list of tokens. -/
def renderAll (ts : List Token) : String := String.join (ts.map (·.text))

end Token

end ScillaLayout
