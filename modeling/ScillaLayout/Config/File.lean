import ScillaLayout.Config.Json
import ScillaLayout.Config.Toml
import ScillaLayout.Config.Yaml
import ScillaLayout.Project.Tree

/-!
# Configuration files

Where a configuration is looked for, and how it is loaded. Without a file that is asked for, the nearest one counts: the
search goes up from a directory, and in each directory the names are tried in order.
-/

namespace ScillaLayout

/-! ## Formats -/

/-- The formats of configuration files. -/
inductive ConfigFormat where
  | toml
  | json
  | yaml
  deriving DecidableEq, Repr

/-- The format that goes with an extension. -/
def ConfigFormat.ofExtension? : String → Option ConfigFormat
  | "toml" => some .toml
  | "json" => some .json
  | "yaml" => some .yaml
  | "yml" => some .yaml
  | _ => none

namespace Config

/-- The configuration that a text gives in a format. -/
def ofText? : ConfigFormat → String → Option Config
  | .toml, text => ofToml? text
  | .json, text => ofJson? text
  | .yaml, text => ofYaml? text

/-- A way to read configurations. -/
class Reader where
  read? : ConfigFormat → String → Option Config

/-- Every format is read by its own rules. -/
instance byFormat : Reader := ⟨ofText?⟩

end Config

/-! ## Search -/

/-- The names under which a configuration is looked for, most important first. -/
def Config.fileNames : List String :=
  [".scillafmt.toml", ".scillafmt.json", "scillafmt.yaml", "scillafmt.yml", "scillafmt.json"]

namespace Tree

/-- The configuration file in a directory. -/
def configIn? (t : Tree) (p : Place) : Option Place := (Config.fileNames.map (· :: p)).find? t.isFile

/-- The configuration file in the nearest directory that has one, going up. -/
def nearestConfig? (t : Tree) : Place → Option Place
  | [] => t.configIn? []
  | name :: above => t.configIn? (name :: above) <|> t.nearestConfig? above

/-- The configuration file for a directory given by its path. -/
def discover (t : Tree) (start : String) : Except Failure (Option Place) :=
  match t.resolve start with
  | .ok p => .ok (t.nearestConfig? p)
  | .error e => .error (.config (.startMissing e))

/-! ## Loading -/

variable [Config.Reader]

/-- The configuration in a file, which messages call by a given path. -/
def loadFile (t : Tree) (path : String) (p : Place) : Except Failure Config :=
  match t.read p with
  | .error e => .error (.io path e)
  | .ok bytes =>
    match String.fromUTF8? bytes with
    | none => .error (.io path .notText)
    | some text =>
      match p.head?.bind nameExtension? |>.bind ConfigFormat.ofExtension? with
      | none => .error (.config (.formatUnknown path))
      | some format =>
        match Config.Reader.read? format text with
        | none => .error (.config (.malformed path))
        | some c => .ok c

/-- The configuration in a file that is asked for, which has to be there, or else in the one found from a directory, or
else the standard one. -/
def loadConfig (t : Tree) (path start : Option String) : Except Failure Config :=
  match path with
  | some path =>
    match t.resolve path with
    | .ok p => t.loadFile path p
    | .error _ => .error (.config (.fileMissing path))
  | none => do
    match ← t.discover (start.getD ".") with
    | some p => t.loadFile (t.display p) p
    | none => .ok .standard

end Tree

end ScillaLayout
