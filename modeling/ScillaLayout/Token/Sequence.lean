import ScillaLayout.Token.Line

/-!
# Editing a list of tokens by index

Insertion, removal and look-ups at an index. Where an index is out of range the answer is `none`.
-/

namespace ScillaLayout

/-- The tokens of a document, in order. -/
abbrev Sequence := List Token

namespace Sequence

/-! ## Edits -/

/-- `t` in front of the token at index `i`, or at the end. -/
def insert? (ts : Sequence) (i : Nat) (t : Token) : Option Sequence :=
  if i ≤ ts.length then some (ts.insertIdx i t) else none

/-- `t` right behind the token at index `i`. -/
def insertAfter? (ts : Sequence) (i : Nat) (t : Token) : Option Sequence :=
  if i < ts.length then some (ts.insertIdx (i + 1) t) else none

/-- The token at index `i` and the list without it. -/
def remove? (ts : Sequence) (i : Nat) : Option (Token × Sequence) :=
  ts[i]?.map fun t => (t, ts.eraseIdx i)

/-- The list with another text at index `i`. -/
def setText? (ts : Sequence) (i : Nat) (text : String) : Option Sequence :=
  ts[i]?.map fun t => ts.set i (t.withText text)

/-! ## Look-ups -/

/-- What stands before index `i`, nearest first. -/
def before? (ts : Sequence) (i : Nat) : Option Before :=
  if i ≤ ts.length then some (ts.take i).reverse else none

/-- The first index behind `i` whose token satisfies `wanted`. -/
def nextIndex? (wanted : Token → Bool) (ts : Sequence) (i : Nat) : Option Nat :=
  ((ts.drop (i + 1)).findIdx? wanted).map (i + 1 + ·)

/-- The next token that is neither blank nor line break. -/
def nextNonSpace? (ts : Sequence) (i : Nat) : Option Nat := nextIndex? (!·.isSpace) ts i

/-- The next code token. -/
def nextCode? (ts : Sequence) (i : Nat) : Option Nat := nextIndex? (·.isCode) ts i

/-- The index of the first token on the line that holds index `i`. -/
def lineStart? (ts : Sequence) (i : Nat) : Option Nat :=
  (ts.before? i).map fun before => i - before.line.length

/-- The text of the document. -/
def render (ts : Sequence) : String := Token.renderAll ts

end Sequence

end ScillaLayout
