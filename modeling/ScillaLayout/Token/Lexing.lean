import ScillaLayout.Token.Lexer

/-!
# Reading token by token

A `Lexing` is a source that is being read. `Lexing.next?` gives its next token, until the end mark or an illegal token
has been given; an error is reported when the illegal token is made. `Lexing.collect` reads to the end.
-/

namespace ScillaLayout

/-- A source that is being read. -/
structure Lexing where
  source : List Char
  /-- The place that has been reached. -/
  position : Position
  /-- The text behind this place. -/
  rest : List Char
  /-- Whether the last token has been given. -/
  done : Bool := false
  /-- The error that stopped reading. -/
  error? : Option LexError := none
  /-- The errors that have been reported, in order. -/
  reported : List LexError := []
  deriving DecidableEq, Repr

namespace Lexing

/-- A source before anything of it is read. -/
def ofSource (source : String) : Lexing := { source := source.toList, position := .start, rest := source.toList }

/-- Stops at a fault and reports it. -/
def stop (l : Lexing) (fault : LexFault) (position : Position) : Lexing :=
  let error := LexError.atPlace l.source position fault.message
  { l with done := true, error? := some error, reported := l.reported ++ [error] }

/-- The next token and what is left to read, or `none` behind the last token. -/
def next? (l : Lexing) : Option (Token × Lexing) :=
  if l.done then none
  else
    match l.rest with
    | [] => some (⟨.eof, "", some ⟨l.position, l.position⟩⟩, { l with done := true })
    | c :: cs =>
      let piece := Lexeme.read c cs
      let last := l.position.after piece.text
      let token (kind : Kind) : Token := ⟨kind, String.ofList piece.text, some ⟨l.position, last⟩⟩
      let next := { l with position := last, rest := piece.rest }
      match piece.verdict with
      | .ok kind => some (token kind, next)
      | .error fault => some (token .illegal, next.stop fault (if fault.isAtStart then l.position else last))

/-- A bound for the number of tokens to come. -/
def remaining (l : Lexing) : Nat := if l.done then 0 else l.rest.length + 1

theorem remaining_lt_of_next? {l l' : Lexing} {t : Token} (h : l.next? = some (t, l')) :
    l'.remaining < l.remaining := by
  simp only [next?] at h
  split at h
  · cases h
  · next hdone =>
    split at h
    · obtain ⟨-, rfl⟩ := Prod.mk.inj (Option.some.inj h)
      simp [remaining, hdone]
    · next c cs hrest =>
      have hlt := Lexeme.read_rest_length_lt c cs
      split at h
      · obtain ⟨-, rfl⟩ := Prod.mk.inj (Option.some.inj h)
        simpa [remaining, hdone, hrest] using hlt
      · obtain ⟨-, rfl⟩ := Prod.mk.inj (Option.some.inj h)
        simp [remaining, stop, hdone]

/-- All tokens that are left, and how reading ends. -/
def collect (l : Lexing) : List Token × Lexing :=
  match h : l.next? with
  | none => ([], l)
  | some (t, l') =>
    have := remaining_lt_of_next? h
    let (ts, last) := collect l'
    (t :: ts, last)
termination_by l.remaining

end Lexing

/-- The tokens of a source and the error that stopped reading. -/
def tokenize (source : String) : List Token × Option LexError :=
  let (tokens, last) := (Lexing.ofSource source).collect
  (tokens, last.error?)

end ScillaLayout
