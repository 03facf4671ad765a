import ScillaLayout.Layout.Block
import ScillaLayout.Token.Lexer

/-!
# What the formatter reports while it works

Reading and formatting leave a log. Its entries are data; `LogEvent.message` has the wording.
-/

namespace ScillaLayout

/-- How detailed an entry is. -/
inductive LogLevel where
  | debug | trace
  deriving DecidableEq, Repr

/-- The name of a level. -/
def LogLevel.name : LogLevel → String
  | .debug => "DEBUG"
  | .trace => "TRACE"

/-- An entry of the log. -/
inductive LogEvent where
  /-- Reading stopped at a fault. -/
  | stopped (error : LexError)
  /-- A token was read. -/
  | read (t : Token)
  /-- Reading got to a place of the source. -/
  | reached (p : Position) (excerpt : String)
  /-- The source was read. -/
  | lexed (count : Nat)
  /-- A rule is about to be applied. -/
  | applying (rule : String)
  /-- The document after a rule. -/
  | applied (rule text : String)
  /-- A block was opened or closed, leaving a stack. -/
  | opened (b : Block) (stack : Stack)
  | closed (b : Block) (stack : Stack)
  /-- All blocks were closed at once. -/
  | cleared
  /-- The last token of a line closes blocks of the stack. -/
  | lineEnd (last : Kind) (stack : Stack)
  deriving DecidableEq, Repr

namespace LogEvent

/-- The level of an entry. -/
def level : LogEvent → LogLevel
  | .stopped _ | .lexed _ | .applying _ => .debug
  | _ => .trace

/-- The wording of an entry. -/
def message : LogEvent → String
  | .stopped e => s!"lexing stopped: {e.summary}"
  | .read t => t.describe
  | .reached p excerpt => s!"at {p.render}\n{excerpt}"
  | .lexed count => s!"lexed {count} tokens"
  | .applying _ => "applying rule"
  | .applied _ text => s!"after rule:\n{text}"
  | .opened b s => s!"push {b.name}: {s.render}"
  | .closed b s => s!"pop {b.name}: {s.render}"
  | .cleared => "clear"
  | .lineEnd last s => s!"line ends with {last.name}, closing {s.render}"

/-- The rule that an entry is about. -/
def rule? : LogEvent → Option String
  | .applying rule | .applied rule _ => some rule
  | _ => none

end LogEvent

namespace Stack

/-- The entries for closing the `n` innermost blocks one by one. -/
def closings : Nat → Stack → List LogEvent
  | n + 1, b :: s => .closed b s :: closings n s
  | _, _ => []

/-- The entries that a change leaves. -/
def moveLog (s : Stack) : Move → List LogEvent
  | .push b => [.opened b (b :: s)]
  | .clear => [.cleared]
  | .replaceTop b => closings 1 s ++ [.opened b (b :: s.drop 1)]
  | m => closings (s.length - (s.move m).length) s

end Stack

/-! ## The log of reading -/

/-- What to report while reading. -/
structure LexTrace where
  /-- Report the place reached after every token. -/
  positions : Bool := false
  /-- Report every token. -/
  tokens : Bool := false
  deriving DecidableEq, Repr

namespace Lexed

/-- The entries for one token: the error if this token ends the list, then the token, then the place after it. -/
def tokenLog (trace : LexTrace) (source : List Char) (error? : Option LexError) (t : Token) : List LogEvent :=
  let stopped := if t.kind = .illegal then (error?.map .stopped).toList else []
  let read := if trace.tokens then [.read t] else []
  let reached := match trace.positions, t.span with
    | true, some span => [.reached span.last ((excerpt? source span.last).getD "")]
    | _, _ => []
  stopped ++ read ++ reached

/-- The entries for each token of a source. -/
def logs (trace : LexTrace) (source : String) (l : Lexed) : List (List LogEvent) :=
  l.tokens.map (tokenLog trace source.toList (l.error? source))

end Lexed

end ScillaLayout
