import ScillaLayout.Command.Arguments
import ScillaLayout.Config.File
import ScillaLayout.Config.Schema
import ScillaLayout.Layout.Format
import ScillaLayout.Token.Lexing

/-!
# Running a command

`run` is the whole program as a function: from the tree of files, the standard input and the command line to what is
printed, the status and the tree after it.
-/

namespace ScillaLayout

/-- How a command ended. -/
inductive Status where
  | success
  | failure
  /-- The command line asks for something that there is not. -/
  | unsupported
  /-- The input that was checked is not formatted. -/
  | unformatted
  /-- The input cannot be opened or is no text. -/
  | inputUnavailable
  deriving DecidableEq, Repr

/-- The number that stands for a status. -/
def Status.code : Status → Nat
  | .success => 0
  | .failure => 1
  | .unsupported => 2
  | .unformatted => 3
  | .inputUnavailable => 4

/-- What a command leaves behind. -/
structure Outcome where
  status : Status
  /-- The standard output. -/
  out : String := ""
  /-- The standard error output. -/
  err : String := ""
  /-- What was reported on the way. -/
  log : List LogEvent := []
  tree : Tree
  deriving DecidableEq

/-! ## Input -/

/-- Where the source comes from. -/
inductive Input where
  | stdin
  | file (path : String)
  deriving DecidableEq, Repr

namespace Input

/-- Whether a path is a dash. Slashes and points behind the dash name the same path. -/
def isDash (path : String) : Bool :=
  match pathNames path with
  | name :: names => name = "-" && names.all staysThere
  | [] => false

/-- No file and a dash both mean the standard input. -/
def ofArgument : Option String → Input
  | none => .stdin
  | some path => if isDash path then .stdin else .file path

/-- What messages call the input. -/
def name : Input → String
  | .stdin => "<stdin>"
  | .file path => path

/-- The text of the input. -/
def read (t : Tree) (stdin : ByteArray) (i : Input) : Except Failure String := do
  let bytes ← match i with
    | .stdin => pure stdin
    | .file path =>
      match t.resolve path >>= t.read with
      | .ok bytes => pure bytes
      | .error e => .error (.io path e)
  match String.fromUTF8? bytes with
  | some text => return text
  | none => .error (.encoding i.name)

/-- Where the search for a configuration starts, if not in the home directory. -/
def directory? : Input → Option String
  | .stdin => none
  | .file path => pathDirectory? path

end Input

/-! ## Options -/

/-- Why there are no options to format with. -/
inductive OptionsError where
  /-- The configuration file or what it says. -/
  | configuration (f : Failure)
  /-- A value on the command line. -/
  | commandLine (e : ConfigError)
  deriving DecidableEq, Repr

/-- The wording of an options error. -/
def OptionsError.message : OptionsError → String
  | .configuration f => f.fullMessage
  | .commandLine e => s!"invalid command-line formatting option: {(Failure.config e).fullMessage}"

namespace Arguments

/-- The layout settings that the command line gives. -/
def formatterSection (a : Arguments) : FormatterSection where
  indentUnit := a.indentUnit
  indentAlternatives := if a.indentAlternatives then some true else none
  endWithNewline := if a.noFinalNewline then some false else none

/-- The tracing switches that the command line gives. -/
def traceSection (a : Arguments) : TraceSection where
  lexerPositions := if a.trace.lexerPositions then some true else none
  lexerTokens := if a.trace.lexerTokens then some true else none
  rules := if a.trace.rules then some true else none

/-- The options for an input: those of the configuration, and over them those of the command line. -/
def options [Config.Reader] (a : Arguments) (t : Tree) (i : Input) : Except OptionsError Options := do
  let c ← (t.loadConfig a.config i.directory?).mapError .configuration
  let o ← c.options.mapError (.configuration <| .config ·)
  let o ← (a.formatterSection.applyTo o).mapError .commandLine
  return { o with trace := a.traceSection.applyTo o.trace }

/-- Whether entries of the log with a given level are wanted. -/
def reports (a : Arguments) : LogLevel → Bool
  | .debug => a.trace ≠ {} || 2 ≤ a.verbosity
  | .trace => a.trace ≠ {} || 3 ≤ a.verbosity

end Arguments

/-! ## Modes -/

/-- A line of the standard error output. -/
def errorLine (text : String) : String := s!"error: {text}\n"

/-- A lexical error as it is shown for an input. -/
def lexErrorLine (i : Input) (e : LexError) : String := errorLine s!"{i.name}:{e.render}"

/-- Says whether a text was formatted already. -/
def checkFormatted (t : Tree) (i : Input) (source formatted : String) : Outcome :=
  if formatted = source then { status := .success, tree := t }
  else { status := .unformatted, err := s!"unformatted: {i.name}\n", tree := t }

/-- Puts a formatted text in its file. Nothing is written if nothing changes. -/
def writeFormatted (t : Tree) (path source formatted : String) : Outcome :=
  if formatted = source then { status := .success, tree := t }
  else match t.resolve path with
    | .ok p => { status := .success, tree := t.write p formatted.toUTF8 }
    | .error e => { status := .failure, err := errorLine (Failure.io path e).fullMessage, tree := t }

/-- Formats a source and goes on with the text, or shows why the source cannot be read. -/
def withFormatted (a : Arguments) (t : Tree) (i : Input) (o : Options) (source : String) (use : String → Outcome) :
    Outcome :=
  let outcome := match format o source with
    | .ok formatted => use formatted
    | .error e => { status := .failure, err := lexErrorLine i e, tree := t }
  { outcome with log := (lexLog o source ++ formatLog o source).filter (a.reports ·.level) }

/-- Formats a source. -/
def runFormat (a : Arguments) (t : Tree) (i : Input) (o : Options) (source : String) : Outcome :=
  match a.mode, i with
  | .check, i => withFormatted a t i o source (checkFormatted t i source)
  | .write, .stdin => { status := .failure, err := errorLine "--write needs a file argument", tree := t }
  | .write, .file path => withFormatted a t i o source (writeFormatted t path source)
  | _, _ => withFormatted a t i o source fun formatted => { status := .success, out := formatted, tree := t }

/-- Lists the tokens of a source, one to a line, up to the first error. -/
def runTokens (a : Arguments) (t : Tree) (i : Input) (o : Options) (source : String) : Outcome :=
  let (tokens, last) := (Lexing.ofSource source).collect
  { status := if last.error?.isSome then .failure else .success
    out := String.join (tokens.map fun token => token.describe ++ "\n")
    err := String.join (last.reported.map (lexErrorLine i))
    log := (lexLog o source).filter (a.reports ·.level)
    tree := t }

/-- Runs a command on its input. -/
def runInput [Config.Reader] (a : Arguments) (t : Tree) (stdin : ByteArray) : Outcome :=
  let i := Input.ofArgument a.file
  match i.read t stdin with
  | .error f => { status := .inputUnavailable, err := errorLine f.message, tree := t }
  | .ok source =>
    match a.options t i with
    | .error e => { status := .failure, err := errorLine e.message, tree := t }
    | .ok o => if a.mode = .tokens then runTokens a t i o source else runFormat a t i o source

/-- Runs a command whose arguments have been read. -/
def Arguments.run [Config.Reader] (a : Arguments) (t : Tree) (stdin : ByteArray) : Outcome :=
  match a.mode with
  | .schema => { status := .success, out := Config.schema.pretty ++ "\n", tree := t }
  | .syntaxTree =>
    { status := .unsupported, err := "unsupported: --ast: syntax tree printing is not implemented\n", tree := t }
  | _ => runInput a t stdin

/-! ## The program -/

/-- The version of the program. -/
def version : String := "0.1.0"

/-- How the program is called. -/
def usageText : String := "Usage: scilla-fmt [OPTIONS] [FILE]\n"

/-- The options and what they mean. -/
def optionTexts : List (String × String) := [
  ("-w, --write", "Rewrite the file in place"),
  ("    --tokens", "Dump one line per token instead of formatting"),
  ("    --check", "Exit with code 3 when the input is not already formatted"),
  ("    --ast", "Print the syntax tree (not implemented)"),
  ("-c, --config <CONFIG>", "Path to configuration file (.scillafmt.toml/.scillafmt.json)"),
  ("    --indent-unit <INDENT_UNIT>", "Text of one indentation unit, overriding the configuration"),
  ("    --indent-pattern-alternative", "Indent `|` alternatives one unit deeper than their match"),
  ("    --no-final-newline", "Do not end the output with a newline"),
  ("    --print-config-schema", "Print the JSON schema of the configuration file and exit"),
  ("-v, --verbose...", "Verbose output (can be used multiple times for increased verbosity)"),
  ("    --no-color", "Disable colored output"),
  ("    --trace-lexer-positions", "Log the source position after every lexed token"),
  ("    --trace-lexer-tokens", "Log every lexed token"),
  ("    --trace-rules", "Log the document after every formatting pass"),
  ("-h, --help", "Print help"),
  ("-V, --version", "Print version")]

/-- What the program does and how. -/
def helpText : String :=
  let line (option meaning : String) : String := "  " ++ option.pushn ' ' (34 - option.length) ++ meaning ++ "\n"
  "Canonical layout for Scilla smart contracts\n\n" ++ usageText ++ "\nOptions:\n"
    ++ String.join (optionTexts.map fun (option, meaning) => line option meaning)

/-- Runs the program. -/
def run [Config.Reader] (t : Tree) (stdin : ByteArray) (env : Environment) (args : List String) : Outcome :=
  match Arguments.parse env args with
  | .ok a => a.run t stdin
  | .error .usage => { status := .unsupported, err := errorLine "invalid arguments" ++ usageText, tree := t }
  | .error .version => { status := .success, out := s!"scilla-fmt {version}\n", tree := t }
  | .error .help => { status := .success, out := helpText, tree := t }

end ScillaLayout
