import ScillaLayout.Source.Position
import ScillaLayout.Text.Blank

/-!
# Excerpts

The line of a source text that holds a place, with a caret under the column of that place.
-/

namespace ScillaLayout

/-- The characters of a text before and after its first `n` bytes, all of them before when there are fewer; `none` when
the cut falls inside a character. -/
def splitBytes : List Char → Nat → Option (List Char × List Char)
  | cs, 0 => some ([], cs)
  | [], _ + 1 => some ([], [])
  | c :: cs, n + 1 =>
    if n + 1 < c.utf8Size then none
    else (splitBytes cs (n + 1 - c.utf8Size)).map fun (before, after) => (c :: before, after)

/-- The stretch without line breaks around a cut of the text. -/
def lineAround (before after : List Char) : List Char :=
  (before.reverse.takeWhile (!Text.isLineBreak ·)).reverse ++ after.takeWhile (!Text.isLineBreak ·)

/-- The line that holds a place, and under it a caret at the column of the place; `none` when the offset falls inside a
character. -/
def excerpt? (source : List Char) (p : Position) : Option String :=
  (splitBytes source p.offset).map fun (before, after) =>
    String.ofList (lineAround before after ++ '\n' :: List.replicate (p.column - 1) ' ' ++ ['^'])

end ScillaLayout
