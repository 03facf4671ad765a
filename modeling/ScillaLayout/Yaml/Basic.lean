import ScillaLayout.Yaml.Scalar

/-!
# YAML values

A value as a document gives it. An alias is kept as the number of the anchor it refers to, since it may stand inside the
very value that it refers to; `Yaml.View` is a value together with what the anchors of its document stand for.
-/

namespace ScillaLayout

/-- A YAML value. -/
inductive Yaml where
  | scalar (tag : Option String) (style : Yaml.Style) (text : String)
  | sequence (items : List Yaml)
  | mapping (members : List (Yaml × Yaml))
  /-- What the anchor with a given number stands for. -/
  | alias (number : Nat)
  deriving Repr

namespace Yaml

/-- A scalar of which nothing is written. -/
def empty : Yaml := .scalar none .plain ""

/-- A value with an anchor. -/
structure Anchored where
  /-- How many anchors are before it in the text. -/
  order : Nat
  /-- How many names of anchors are in use before it. -/
  number : Nat
  value : Yaml
  deriving Repr

/-- A value and the anchored values of its document. -/
structure View where
  value : Yaml
  anchored : List Anchored := []
  deriving Repr

/-- The value itself or, for an alias, the last value whose anchor has its number. -/
def View.target? (v : View) : Option Yaml :=
  match v.value with
  | .alias n =>
    let later (best : Option Anchored) (a : Anchored) : Option Anchored :=
      if a.number = n && best.all (·.order < a.order) then some a else best
    (v.anchored.foldl later none).map (·.value)
  | value => some value

end Yaml

end ScillaLayout
