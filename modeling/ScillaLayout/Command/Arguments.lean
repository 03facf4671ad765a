import ScillaLayout.Layout.Options

/-!
# Command-line arguments

Arguments are read one after the other; the first that cannot be accepted, or that asks for the version or for help,
ends the reading. A long option takes its value after an equals sign or from the next argument, and short options can
stand together behind one dash. After two dashes alone there are only files.
-/

namespace ScillaLayout

/-! ## Options -/

/-- Options without a value, each of which can be given once. -/
inductive Switch where
  | write
  | tokens
  | check
  | syntaxTree
  | indentAlternatives
  | noFinalNewline
  | printSchema
  | noColor
  | traceLexerPositions
  | traceLexerTokens
  | traceRules
  deriving DecidableEq, Repr

/-- Options with a value, each of which can be given once. -/
inductive Setting where
  | config
  | indentUnit
  deriving DecidableEq, Repr

/-- All that an option can be. -/
inductive Flag where
  | switch (s : Switch)
  | setting (s : Setting)
  | verbose
  | version
  | help
  deriving DecidableEq, Repr

/-- The option behind two dashes. -/
def Flag.ofLong? : String → Option Flag
  | "write" => some (.switch .write)
  | "tokens" => some (.switch .tokens)
  | "check" => some (.switch .check)
  | "ast" => some (.switch .syntaxTree)
  | "config" => some (.setting .config)
  | "indent-unit" => some (.setting .indentUnit)
  | "indent-pattern-alternative" => some (.switch .indentAlternatives)
  | "no-final-newline" => some (.switch .noFinalNewline)
  | "print-config-schema" => some (.switch .printSchema)
  | "verbose" => some .verbose
  | "no-color" => some (.switch .noColor)
  | "trace-lexer-positions" => some (.switch .traceLexerPositions)
  | "trace-lexer-tokens" => some (.switch .traceLexerTokens)
  | "trace-rules" => some (.switch .traceRules)
  | "version" => some .version
  | "help" => some .help
  | _ => none

/-- The option behind one dash. -/
def Flag.ofShort? : Char → Option Flag
  | 'w' => some (.switch .write)
  | 'c' => some (.setting .config)
  | 'v' => some .verbose
  | 'V' => some .version
  | 'h' => some .help
  | _ => none

/-! ## Reading -/

/-- Why reading ends before there is anything to do. -/
inductive Stop where
  | usage
  | version
  | help
  deriving DecidableEq, Repr

/-- The arguments read so far. -/
structure Given where
  switches : List Switch := []
  config : Option String := none
  indentUnit : Option String := none
  file : Option String := none
  verbosity : Nat := 0
  /-- The option whose value is to come. -/
  pending : Option Setting := none
  /-- Whether only files are to come. -/
  filesOnly : Bool := false
  deriving DecidableEq, Repr

namespace Given

/-- Adds an option without a value. -/
def addFlag (g : Given) : Flag → Except Stop Given
  | .switch s => if g.switches.contains s then .error .usage else .ok { g with switches := s :: g.switches }
  | .setting s => .ok { g with pending := some s }
  | .verbose => .ok { g with verbosity := g.verbosity + 1 }
  | .version => .error .version
  | .help => .error .help

/-- Adds the value of an option. The path of a file is not empty. -/
def addValue (g : Given) (value : String) : Setting → Except Stop Given
  | .config =>
    if g.config.isSome || value.isEmpty then .error .usage
    else .ok { g with config := some value, pending := none }
  | .indentUnit =>
    if g.indentUnit.isSome then .error .usage else .ok { g with indentUnit := some value, pending := none }

/-- Adds the file. There is only one, and its path is not empty. -/
def addFile (g : Given) (path : String) : Except Stop Given :=
  if g.file.isSome || path.isEmpty then .error .usage else .ok { g with file := some path }

/-- Adds a long option, its dashes left out. -/
def addLong (g : Given) (cs : List Char) : Except Stop Given :=
  match Flag.ofLong? (String.ofList (cs.takeWhile (· ≠ '='))) with
  | none => .error .usage
  | some flag =>
    match flag, cs.dropWhile (· ≠ '=') with
    | .setting s, _ :: value => g.addValue (String.ofList value) s
    | _, _ :: _ => .error .usage
    | flag, [] => g.addFlag flag

/-- Adds short options, their dash left out. What follows one with a value is the value, with or without an equals
sign. -/
def addShorts (g : Given) : List Char → Except Stop Given
  | [] => .ok g
  | c :: cs =>
    match Flag.ofShort? c, cs with
    | none, _ => .error .usage
    | some (.setting s), '=' :: value => g.addValue (String.ofList value) s
    | some (.setting s), c :: value => g.addValue (String.ofList (c :: value)) s
    | some flag, cs => do addShorts (← g.addFlag flag) cs

/-- Adds an argument. The value of an option does not look like an option itself. -/
def add (g : Given) (arg : String) : Except Stop Given :=
  if g.filesOnly then g.addFile arg
  else
    match g.pending, arg.toList with
    | some s, ['-'] => g.addValue arg s
    | some _, '-' :: _ => .error .usage
    | some s, _ => g.addValue arg s
    | none, ['-', '-'] => .ok { g with filesOnly := true }
    | none, '-' :: '-' :: cs => g.addLong cs
    | none, '-' :: c :: cs => g.addShorts (c :: cs)
    | none, _ => g.addFile arg

end Given

/-! ## What to do -/

/-- What a command does with its input. -/
inductive Mode where
  /-- Print the formatted text. -/
  | print
  /-- Say whether the text is formatted. -/
  | check
  /-- Format the file in place. -/
  | write
  /-- List the tokens. -/
  | tokens
  | syntaxTree
  /-- Print the schema of configuration files. -/
  | schema
  deriving DecidableEq, Repr

/-- A command line as a whole. -/
structure Arguments where
  mode : Mode := .print
  file : Option String := none
  config : Option String := none
  indentUnit : Option String := none
  indentAlternatives : Bool := false
  noFinalNewline : Bool := false
  trace : Trace := {}
  verbosity : Nat := 0
  deriving DecidableEq, Repr

/-- Environment variables by name. -/
abbrev Environment := List (String × String)

/-- Whether a variable is set to anything but a word for no. -/
def Environment.isOn (env : Environment) (name : String) : Bool :=
  let no := ["", "n", "no", "f", "false", "off", "0"]
  (env.lookup name).any fun value => !no.contains value.toLower

namespace Given

/-- Whether a switch is given. -/
def has (g : Given) (s : Switch) : Bool := g.switches.contains s

/-- The modes that are asked for. -/
def modes (g : Given) : List Mode :=
  [(Switch.write, Mode.write), (.tokens, .tokens), (.check, .check), (.syntaxTree, .syntaxTree)].filterMap
    fun (s, m) => if g.has s then some m else none

/-- Checks the arguments against each other: there is one mode at most, and writing needs a file. The environment can
switch tracing on too. -/
def finish (g : Given) (env : Environment) : Except Stop Arguments := do
  if g.pending.isSome || 1 < g.modes.length || (g.has .write && g.file.isNone) then .error .usage
  return {
    mode := if g.has .printSchema then .schema else g.modes.headD .print
    file := g.file
    config := g.config
    indentUnit := g.indentUnit
    indentAlternatives := g.has .indentAlternatives
    noFinalNewline := g.has .noFinalNewline
    trace := {
      lexerPositions := g.has .traceLexerPositions || env.isOn "SCILLA_TRACE_LEXER_POS"
      lexerTokens := g.has .traceLexerTokens || env.isOn "SCILLA_TRACE_LEXER_TOKEN"
      rules := g.has .traceRules || env.isOn "SCILLA_TRACE_RULES" }
    verbosity := g.verbosity }

end Given

/-- Reads a command line. -/
def Arguments.parse (env : Environment) (args : List String) : Except Stop Arguments := do
  (← args.foldlM Given.add {}).finish env

end ScillaLayout
