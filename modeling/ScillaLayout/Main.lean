import ScillaLayout.Command.Run

/-!
# The command

Collects the files that a command line can reach, runs the command on them, and carries out what it leaves behind.
-/

open ScillaLayout

/-- The places that a path goes through, seen from a directory. -/
def placesAlong (home : Place) (path : String) : List Place :=
  let follow (p : Place) (name : String) : Place :=
    if name = "" || name = "." then p else if name = ".." then p.tail else name :: p
  let start := if path.toList.head? = some '/' then [] else home
  ((pathNames path).foldl (fun ps name => follow (ps.headD start) name :: ps) [start])

/-- A place and all places above it. -/
def placesUp : Place → List Place
  | [] => [[]]
  | name :: above => (name :: above) :: placesUp above

/-- The places that a command can look at. -/
def reachable (home : Place) (a : Arguments) : List Place :=
  let paths := a.file.toList ++ a.config.toList
  let directories := (home :: paths.flatMap (placesAlong home)).flatMap placesUp
  (directories ++ directories.flatMap fun p => Config.fileNames.map (· :: p)).eraseDups

/-- The path of a place from the root. -/
def absolutePath (p : Place) : String := "/" ++ "/".intercalate p.reverse

/-- What is at a place. -/
def lookAt (p : Place) : IO (Option Entry) := do
  try
    return some (.file (← IO.FS.readBinFile (absolutePath p)))
  catch
    | .inappropriateType .. => return some .directory
    | _ => return none

/-- All that a command can see. -/
def surroundings (a : Arguments) : IO Tree := do
  let home := ((pathNames (← IO.currentDir).toString).filter (· ≠ "")).reverse
  let entries ← (reachable home a).filterMapM fun p => do return (← lookAt p).map (p, ·)
  return { entries, home }

/-- Writes the files that are not as they were. -/
def writeChanges (before after : Tree) : IO Unit := do
  for (old, new) in before.entries.zip after.entries do
    if let ((_, .file was), (p, .file bytes)) := (old, new) then
      if was != bytes then IO.FS.writeBinFile (absolutePath p) bytes

/-- The environment variables that count. -/
def readEnvironment : IO Environment :=
  ["SCILLA_TRACE_LEXER_POS", "SCILLA_TRACE_LEXER_TOKEN", "SCILLA_TRACE_RULES"].filterMapM fun name => do
    return (← IO.getEnv name).map (name, ·)

/-- The standard input, if a command reads it. -/
def readStdin (a : Arguments) : IO ByteArray := do
  if a.mode ≠ .schema && a.mode ≠ .syntaxTree && Input.ofArgument a.file = .stdin then
    (← IO.getStdin).readBinToEnd
  else return .empty

/-- Runs the command. -/
def main (args : List String) : IO UInt32 := do
  let env ← readEnvironment
  let (tree, stdin) ← match Arguments.parse env args with
    | .ok a => pure (← surroundings a, ← readStdin a)
    | .error _ => pure ({}, .empty)
  let outcome := run tree stdin env args
  writeChanges tree outcome.tree
  let stderr ← IO.getStderr
  for e in outcome.log do
    stderr.putStrLn s!"{e.level.name} {e.message}"
  stderr.putStr outcome.err
  let stdout ← IO.getStdout
  stdout.putStr outcome.out
  stdout.flush
  return outcome.status.code.toUInt32
