import ScillaLayout.Yaml.Basic
import ScillaLayout.Yaml.Lexeme

/-!
# Reading YAML

`Yaml.parse?` reads a text that holds at most one document. What can stand where follows from the lexemes alone; a
value that is left out is an empty scalar.
-/

namespace ScillaLayout.Yaml

/-- Lexemes to come, and what the text has declared so far. -/
structure Reading where
  rest : List Lexeme
  /-- What the handles of tags stand for. -/
  handles : List (String × String) := []
  /-- The numbers of the names of anchors. -/
  names : List (String × Nat) := []
  /-- How many anchors there were. -/
  anchors : Nat := 0
  anchored : List Anchored := []

/-- Readers of lexemes. -/
abbrev Read := StateT Reading Option

namespace Read

/-- The next lexeme. -/
def peek? : Read (Option Lexeme) := do return (← get).rest.head?

/-- Goes over a lexeme. -/
def skip : Read Unit := modify fun r => { r with rest := r.rest.drop 1 }

/-- Goes over a given lexeme, if it is next, and says whether it was. -/
def skipIf (l : Lexeme) : Read Bool := do
  if (← peek?) = some l then
    skip
    return true
  else return false

/-- Goes over a lexeme that has to be next. -/
def expect (l : Lexeme) : Read Unit := do if !(← skipIf l) then failure

/-- Whether the next lexeme is one of some. -/
def isNext (ls : List Lexeme) : Read Bool := do return (← peek?).any ls.contains

/-! ## Anchors and tags -/

/-- The tag that a handle and what follows it stand for. -/
def resolveTag (handle suffix : String) : Read String := do
  if handle.isEmpty then return suffix
  let handles := (← get).handles ++ [("!", "!"), ("!!", "tag:yaml.org,2002:")]
  match handles.lookup handle with
  | some expansion => return expansion ++ suffix
  | none => failure

/-- An anchor, if it is next. -/
def anchor? : Read (Option String) := do
  match ← peek? with
  | some (.anchor name) =>
    skip
    return some name
  | _ => return none

/-- A tag, if it is next. -/
def tag? : Read (Option (String × String)) := do
  match ← peek? with
  | some (.tag handle suffix) =>
    skip
    return some (handle, suffix)
  | _ => return none

/-- An anchor and a tag, in either order. -/
def properties : Read (Option String × Option String) := do
  let (anchor, tag) ← do
    match ← anchor? with
    | some name => pure (some name, ← tag?)
    | none =>
      match ← tag? with
      | some tag => pure (← anchor?, some tag)
      | none => pure (none, none)
  match tag with
  | some (handle, suffix) => return (anchor, some (← resolveTag handle suffix))
  | none => return (anchor, none)

/-- Takes note of an anchor: its order and its number. -/
def declare (name : String) : Read (Nat × Nat) := do
  let r ← get
  let number := r.names.length
  let names := (name, number) :: r.names.filter (·.1 ≠ name)
  set { r with names, anchors := r.anchors + 1 }
  return (r.anchors, number)

/-- Takes note of the value of an anchor. -/
def keep (order number : Nat) (value : Yaml) : Read Unit :=
  modify fun r => { r with anchored := { order, number, value } :: r.anchored }

/-- The value of an alias, whose anchor has to be declared before. -/
def aliasOf (name : String) : Read Yaml := do
  match (← get).names.lookup name with
  | some number => return .alias number
  | none => failure

/-! ## Nodes -/

mutual

/-- A value. Blocks can stand outside of brackets and braces only (`block`), and as the value of a key a sequence needs
no indentation (`indentless`). -/
def node (block indentless : Bool) : Nat → Read Yaml
  | 0 => failure
  | fuel + 1 => do
    if let some (.alias name) ← peek? then
      skip
      return ← aliasOf name
    let (anchor, tag) ← properties
    let place ← anchor.mapM declare
    let value ← content block indentless (anchor.isSome || tag.isSome) tag fuel
    if let some (order, number) := place then keep order number value
    return value

/-- A value after its anchor and its tag. It may be left out if it has one of them (`optional`). -/
def content (block indentless optional : Bool) (tag : Option String) : Nat → Read Yaml
  | 0 => failure
  | fuel + 1 => do
    match ← peek? with
    | some (.scalar style text) =>
      skip
      return .scalar (if tag = some "!" then none else tag) style text
    | some .flowSequence =>
      skip
      return .sequence (← flowItems true fuel)
    | some .flowMapping =>
      skip
      return .mapping (← flowMembers true fuel)
    | some l =>
      if l = .blockEntry && indentless then return .sequence (← indentlessItems fuel)
      else if l = .blockSequence && block then
        skip
        return .sequence (← blockItems fuel)
      else if l = .blockMapping && block then
        skip
        return .mapping (← blockMembers fuel)
      else if optional then return .scalar tag .plain ""
      else failure
    | none => if optional then return .scalar tag .plain "" else failure

/-- A value that is left out if one of some lexemes is next. -/
def nodeUnless (ls : List Lexeme) (block indentless : Bool) : Nat → Read Yaml
  | 0 => failure
  | fuel + 1 => do if ← isNext ls then return empty else node block indentless fuel

/-- The items of a block sequence. -/
def blockItems : Nat → Read (List Yaml)
  | 0 => failure
  | fuel + 1 => do
    if ← skipIf .blockEnd then return []
    expect .blockEntry
    let v ← nodeUnless [.blockEntry, .blockEnd] true false fuel
    return v :: (← blockItems fuel)

/-- The items of a sequence without indentation. -/
def indentlessItems : Nat → Read (List Yaml)
  | 0 => failure
  | fuel + 1 => do
    if ← skipIf .blockEntry then
      let v ← nodeUnless [.blockEntry, .key, .value, .blockEnd] true false fuel
      return v :: (← indentlessItems fuel)
    else return []

/-- The members of a block mapping. -/
def blockMembers : Nat → Read (List (Yaml × Yaml))
  | 0 => failure
  | fuel + 1 => do
    if ← skipIf .blockEnd then return []
    expect .key
    let k ← nodeUnless [.key, .value, .blockEnd] true true fuel
    let v ← if ← skipIf .value then nodeUnless [.key, .value, .blockEnd] true true fuel else pure empty
    return (k, v) :: (← blockMembers fuel)

/-- The items between brackets. A key with its value can be an item. If it is left out, the lexeme after its sign is
passed over. -/
def flowItems (first : Bool) : Nat → Read (List Yaml)
  | 0 => failure
  | fuel + 1 => do
    if ← skipIf .flowSequenceEnd then return []
    if !first then expect .flowEntry
    if ← skipIf .flowSequenceEnd then return []
    if ← skipIf .key then
      let k ←
        if ← isNext [.value, .flowEntry, .flowSequenceEnd] then
          skip
          pure empty
        else node false false fuel
      let v ← if ← skipIf .value then nodeUnless [.flowEntry, .flowSequenceEnd] false false fuel else pure empty
      return .mapping [(k, v)] :: (← flowItems false fuel)
    else
      let v ← node false false fuel
      return v :: (← flowItems false fuel)

/-- The members between braces. An item without a sign is a key without a value. -/
def flowMembers (first : Bool) : Nat → Read (List (Yaml × Yaml))
  | 0 => failure
  | fuel + 1 => do
    if ← skipIf .flowMappingEnd then return []
    if !first then expect .flowEntry
    if ← skipIf .flowMappingEnd then return []
    if ← skipIf .key then
      let k ← nodeUnless [.value, .flowEntry, .flowMappingEnd] false false fuel
      let v ← if ← skipIf .value then nodeUnless [.flowEntry, .flowMappingEnd] false false fuel else pure empty
      return (k, v) :: (← flowMembers false fuel)
    else
      let k ← node false false fuel
      return (k, empty) :: (← flowMembers false fuel)

end

/-! ## Documents -/

/-- Directives before a document: at most one version, and that a known one, and at most one meaning for a handle. -/
def directives (hasVersion : Bool) : Nat → Read Unit
  | 0 => failure
  | fuel + 1 => do
    match ← peek? with
    | some (.directive (.version major minor)) =>
      if hasVersion || major ≠ 1 || (minor ≠ 1 && minor ≠ 2) then failure
      skip
      directives true fuel
    | some (.directive (.handle name expansion)) =>
      let handles := (← get).handles
      if (handles.lookup name).isSome then failure
      modify fun r => { r with handles := (name, expansion) :: handles }
      skip
      directives hasVersion fuel
    | _ => return

/-- Whether the next lexeme belongs to no document or to another one. -/
def isDocumentOver : Read Bool := do
  match ← peek? with
  | none | some (.directive _) | some .documentStart | some .documentEnd => return true
  | _ => return false

/-- The value of the only document. No document at all is an empty one. -/
def document (fuel : Nat) : Read Yaml := do
  let v ← match ← peek? with
    | none => pure empty
    | some (.directive _) | some .documentStart =>
      directives false fuel
      expect .documentStart
      if ← isDocumentOver then pure empty else node true false fuel
    | _ => node true false fuel
  modify fun r => { r with rest := r.rest.dropWhile (· = .documentEnd) }
  if (← peek?).isSome then failure
  return v

end Read

/-- The value that a whole text is. Every call reads a lexeme at least every third time, which bounds their depth. -/
def parse? (text : String) : Option View := do
  let ls ← Lexeme.ofText? text
  let (value, r) ← (Read.document (3 * ls.length + 3)).run { rest := ls }
  return { value, anchored := r.anchored }

end ScillaLayout.Yaml
