/-!
# TOML values

A document is a table that grows line by line. How a table came to be decides what may still be added to it, so every
table remembers that: `Toml.insert?`, `Toml.openTable?` and `Toml.appendTable?` refuse whatever would define a table or
a key twice.
-/

namespace ScillaLayout

/-- How a table came to be. -/
inductive TableOrigin where
  /-- It has a header of its own. -/
  | header
  /-- The header of a table below it implies it. -/
  | implied
  /-- A dotted key implies it. -/
  | dotted
  /-- It stands between braces, complete. -/
  | inline
  deriving DecidableEq, Repr

/-- A TOML value. -/
inductive Toml where
  | string (s : String)
  | integer (n : Int)
  /-- A number with a fraction or an exponent, an infinity or no number. -/
  | real
  | bool (b : Bool)
  /-- A date, a time or both. -/
  | moment
  | array (items : List Toml)
  /-- The tables of a repeated header. -/
  | tables (items : List Toml)
  | table (origin : TableOrigin) (members : List (String × Toml))
  deriving Repr

namespace Toml

/-- The members of a table. -/
abbrev Members := List (String × Toml)

/-- Gives a member another value. -/
def Members.set (name : String) (v : Toml) (ms : Members) : Members :=
  ms.map fun m => if m.1 = name then (name, v) else m

/-- Changes the table that a path leads to, adding the tables on the way that are missing. A path of dotted keys
(`dotted`) goes through no table that has a header of its own; no path goes through an inline table. Of the tables of a
repeated header, the last one is meant. -/
def descend? (dotted : Bool) (change? : TableOrigin → Members → Option Members) :
    List String → TableOrigin → Members → Option Members
  | [], origin, ms => change? origin ms
  | name :: path, _, ms =>
    match ms.lookup name with
    | none => do
      let origin := if dotted then .dotted else .implied
      let inner ← descend? dotted change? path origin []
      return ms ++ [(name, .table origin inner)]
    | some (.table origin inner) => do
      if origin = .inline || (dotted && origin = .header) then none
      let inner ← descend? dotted change? path origin inner
      return ms.set name (.table origin inner)
    | some (.tables items) => do
      match items.getLast? with
      | some (.table origin inner) =>
        let inner ← descend? dotted change? path origin inner
        return ms.set name (.tables (items.dropLast ++ [.table origin inner]))
      | _ => none
    | some _ => none

/-- Adds a value under a dotted key, given as the path before its last part and that part. The path has to end at a
table that a dotted key implied, and without a path the table is not such a one. -/
def insert? (path : List String) (name : String) (v : Toml) (origin : TableOrigin) (ms : Members) : Option Members :=
  let add (origin : TableOrigin) (ms : Members) : Option Members :=
    if (origin == .dotted) == path.isEmpty then none
    else if (ms.lookup name).isSome then none
    else some (ms ++ [(name, v)])
  descend? true add path origin ms

/-- Opens a table by its header. -/
def openTable? (path : List String) (name : String) (ms : Members) : Option Members :=
  let add (_ : TableOrigin) (ms : Members) : Option Members :=
    match ms.lookup name with
    | none => some (ms ++ [(name, .table .header [])])
    | some (.table .implied inner) => some (ms.set name (.table .header inner))
    | some _ => none
  descend? false add path .header ms

/-- Opens one more table by a repeated header. -/
def appendTable? (path : List String) (name : String) (ms : Members) : Option Members :=
  let add (_ : TableOrigin) (ms : Members) : Option Members :=
    match ms.lookup name with
    | none => some (ms ++ [(name, .tables [.table .header []])])
    | some (.tables items) => some (ms.set name (.tables (items ++ [.table .header []])))
    | some _ => none
  descend? false add path .header ms

end Toml

end ScillaLayout
