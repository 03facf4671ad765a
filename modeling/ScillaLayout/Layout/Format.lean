import ScillaLayout.Layout.Rule

/-!
# Formatting a document

`format` reads a source, lays its tokens out and writes them. It changes blanks and line breaks only, and fails only
when the source cannot be read.
-/

namespace ScillaLayout

/-- The formatted text of a source. -/
def format (o : Options) (source : String) : Except LexError String :=
  match (lex source).error? source with
  | some e => .error e
  | none => .ok (Token.renderAll (layout o (lex source).tokens))

/-- Whether formatting leaves a source as it is. -/
def isFormatted (o : Options) (source : String) : Except LexError Bool :=
  (format o source).map (· == source)

/-- What reading reports when a source is formatted. -/
def lexLog (o : Options) (source : String) : List LogEvent :=
  ((lex source).logs o.trace.lexer source).flatten

/-- What formatting reports after reading; nothing when the source cannot be read. -/
def formatLog (o : Options) (source : String) : List LogEvent :=
  let l := lex source
  if l.fault.isSome then [] else .lexed l.tokens.length :: Rule.logAll o Rule.standard l.tokens

end ScillaLayout
