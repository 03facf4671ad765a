/-!
# Places in a source text

A `Position` counts bytes from the start of the text, lines from one, and characters of the line from one. A carriage
return followed by a line feed breaks the line once, at the line feed; either of them alone breaks it too.
-/

namespace ScillaLayout

/-- A place in a source text, between two of its characters. -/
structure Position where
  /-- Bytes of UTF-8 before this place. -/
  offset : Nat
  /-- Line number, from one. -/
  line : Nat
  /-- Character of the line, from one. -/
  column : Nat
  deriving DecidableEq, Repr

namespace Position

/-- The start of every text. -/
def start : Position := ⟨0, 1, 1⟩

/-- The place after the character `c`, when `next` is the character that follows. -/
def step (p : Position) (c : Char) (next : Option Char) : Position :=
  if c = '\n' ∨ c = '\r' ∧ next ≠ some '\n' then ⟨p.offset + c.utf8Size, p.line + 1, 1⟩
  else ⟨p.offset + c.utf8Size, p.line, p.column + 1⟩

/-- The place after a text that does not end between a carriage return and its line feed. -/
def after (p : Position) : List Char → Position
  | [] => p
  | c :: cs => (p.step c cs.head?).after cs

/-- `line:column:offset`. -/
def render (p : Position) : String := s!"{p.line}:{p.column}:{p.offset}"

@[simp] theorem after_nil (p : Position) : p.after [] = p := rfl

@[simp] theorem after_cons (p : Position) (c : Char) (cs : List Char) :
    p.after (c :: cs) = (p.step c cs.head?).after cs := rfl

@[simp] theorem step_offset (p : Position) (c : Char) (next : Option Char) :
    (p.step c next).offset = p.offset + c.utf8Size := by
  unfold step
  split <;> rfl

end Position

/-- A stretch of the source text, from one place up to another. -/
structure Span where
  first : Position
  last : Position
  deriving DecidableEq, Repr

namespace Span

/-- Number of bytes. -/
def size (s : Span) : Nat := s.last.offset - s.first.offset

/-- Whether there are no bytes. -/
def isEmpty (s : Span) : Bool := s.first.offset == s.last.offset

/-- `line:column:offset-line:column:offset`. -/
def render (s : Span) : String := s!"{s.first.render}-{s.last.render}"

end Span

end ScillaLayout
