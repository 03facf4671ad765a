import ScillaLayout.Token.LexError

/-!
# Errors

Everything that can go wrong, by cause, with the wording in one place for each kind.
-/

namespace ScillaLayout

/-- Why the system could not give a file or directory. -/
inductive SystemError where
  | notFound
  | notDirectory
  | isDirectory
  /-- The bytes of a file are no UTF-8 text. -/
  | notText
  /-- A cause given in words. -/
  | other (text : String)
  deriving DecidableEq, Repr

/-- The wording of a system error. -/
def SystemError.message : SystemError → String
  | .notFound => "No such file or directory (os error 2)"
  | .notDirectory => "Not a directory (os error 20)"
  | .isDirectory => "Is a directory (os error 21)"
  | .notText => "stream did not contain valid UTF-8"
  | .other text => text

/-- What can be wrong with a configuration. -/
inductive ConfigError where
  | indentUnitEmpty
  /-- An indentation unit with a character other than space and tab. -/
  | indentUnitNotBlank (unit : String)
  /-- The search for a configuration cannot start. -/
  | startMissing (cause : SystemError)
  | fileMissing (path : String)
  /-- The name of the file says nothing about its format. -/
  | formatUnknown (path : String)
  /-- The file is no configuration. -/
  | malformed (path : String)
  /-- A cause given in words. -/
  | other (text : String)
  deriving DecidableEq, Repr

/-- The wording of a configuration error. -/
def ConfigError.message : ConfigError → String
  | .indentUnitEmpty => "indent unit must not be empty"
  | .indentUnitNotBlank unit => s!"indent unit {Text.quoted unit} may only contain spaces and tabs"
  | .startMissing cause => s!"Invalid path: {cause.message}"
  | .fileMissing path => s!"Config file not found: {path}"
  | .formatUnknown path =>
    s!"Failed to load config from '{path}': unsupported file extension (expected .toml, .json, .yaml or .yml)"
  | .malformed path => s!"Failed to load config from '{path}'"
  | .other text => text

/-- Why a request failed. -/
inductive Failure where
  /-- The source cannot be read. -/
  | lex (error : LexError)
  /-- A file cannot be opened. -/
  | io (path : String) (cause : SystemError)
  /-- The input is no UTF-8 text. -/
  | encoding (path : String)
  | config (cause : ConfigError)
  /-- A cause given in words. -/
  | internal (text : String)
  deriving DecidableEq, Repr

namespace Failure

/-- The wording of a failure. -/
def message : Failure → String
  | .lex e => s!"Lex error at {e.summary}"
  | .io path cause => s!"IO error for path '{path}': {cause.message}"
  | .encoding path => s!"Invalid encoding in '{path}': input must be UTF-8"
  | .config cause => s!"Configuration error: {cause.message}"
  | .internal text => s!"Internal error: {text}"

/-- The wording of a failure and of what caused it, with a colon between. -/
def fullMessage : Failure → String
  | .io path cause => s!"{(io path cause).message}: {cause.message}"
  | f => f.message

/-- Failures to get hold of the input, whatever it says. -/
def isInputUnavailable : Failure → Bool
  | .io _ _ | .encoding _ => true
  | _ => false

end Failure

end ScillaLayout
