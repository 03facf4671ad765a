import ScillaLayout.Error

/-!
# Trees of files

The files and directories that a command can see, as a value. A place in the tree is the list of names that leads to it,
innermost first, so that what lies around a place is the tail of the list.

A tree has no permissions: every file in it can be read, and a file that has been read can be written. Files that may be
read and not written, and disks that are full, are not described.
-/

namespace ScillaLayout

/-! ## Paths -/

/-- Cuts a text at every occurrence of a character. -/
def splitChars (sep : Char) : List Char → List (List Char)
  | [] => [[]]
  | c :: cs =>
    if c = sep then [] :: splitChars sep cs
    else match splitChars sep cs with
      | [] => [[c]]
      | word :: words => (c :: word) :: words

/-- The names between the slashes of a path. -/
def pathNames (path : String) : List String := (splitChars '/' path.toList).map String.ofList

/-- Whether a name in a path stays at the place that it is followed from. -/
def staysThere (name : String) : Bool := name = "" || name = "."

/-- The directory that the last name of a path is in, if the path says which. -/
def pathDirectory? (path : String) : Option String :=
  match (pathNames path).reverse.dropWhile staysThere with
  | [] => none
  | _ :: above =>
    match above.dropWhile staysThere with
    | [] => if path.toList.head? = some '/' then some "/" else none
    | above => some ("/".intercalate above.reverse)

/-- What follows the last point of a file name, if there is anything before the point. -/
def nameExtension? (name : String) : Option String :=
  match name.toList.reverse.dropWhile (· ≠ '.') with
  | _ :: _ :: _ => some (String.ofList (name.toList.reverse.takeWhile (· ≠ '.')).reverse)
  | _ => none

/-! ## Trees -/

/-- A place in a tree. -/
abbrev Place := List String

/-- What is at a place. -/
inductive Entry where
  | file (bytes : ByteArray)
  | directory

instance : DecidableEq Entry
  | .file a, .file b => decidable_of_iff (a.data = b.data) (by rw [← ByteArray.ext_iff, Entry.file.injEq])
  | .directory, .directory => .isTrue rfl
  | .file _, .directory => .isFalse nofun
  | .directory, .file _ => .isFalse nofun

/-- Files and directories, and the directory in which the command runs. -/
structure Tree where
  entries : List (Place × Entry) := []
  home : Place := []
  deriving DecidableEq

namespace Tree

/-- What is at a place. Every place above an entry or above the home directory is a directory. -/
def get? (t : Tree) (p : Place) : Option Entry :=
  match t.entries.lookup p with
  | some e => some e
  | none => if p.isSuffixOf t.home || t.entries.any (p.isSuffixOf ·.1) then some .directory else none

/-- Whether there is a file at a place. -/
def isFile (t : Tree) (p : Place) : Bool :=
  match t.get? p with
  | some (.file _) => true
  | _ => false

/-- Follows one name of a path from a place. An empty name and a point stay there, two points go up. -/
def step (t : Tree) (p : Place) (name : String) : Except SystemError Place :=
  match t.get? p with
  | some .directory =>
    if staysThere name then .ok p
    else if name = ".." then .ok p.tail
    else if (t.get? (name :: p)).isSome then .ok (name :: p)
    else .error .notFound
  | _ => .error .notDirectory

/-- The place that a path names, seen from the home directory. -/
def resolve (t : Tree) (path : String) : Except SystemError Place :=
  if path.isEmpty then .error .notFound
  else (pathNames path).foldlM t.step (if path.toList.head? = some '/' then [] else t.home)

/-- The bytes of a file. -/
def read (t : Tree) (p : Place) : Except SystemError ByteArray :=
  match t.get? p with
  | some (.file bytes) => .ok bytes
  | some .directory => .error .isDirectory
  | none => .error .notFound

/-- Gives a file other bytes. This cannot fail. -/
def write (t : Tree) (p : Place) (bytes : ByteArray) : Tree :=
  { t with entries := t.entries.map fun e => if e.1 = p then (p, .file bytes) else e }

/-- The path of a place, from the home directory if the place is inside. -/
def display (t : Tree) (p : Place) : String :=
  let names := if t.home.isSuffixOf p then p.take (p.length - t.home.length) else p ++ [""]
  "/".intercalate names.reverse

end Tree

end ScillaLayout
