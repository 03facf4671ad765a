import ScillaLayout.Text.CellWidth
import ScillaLayout.Token.Basic

/-!
# Looking back

What stands before a place in a list of tokens. The tokens before the place are given nearest first, so that looking
back is looking into the list.
-/

namespace ScillaLayout

/-- The tokens before a place, nearest first. -/
abbrev Before := List Token

namespace Before

/-- The part that starts with the nearest token for which `wanted` holds, unless a token for which `stop` holds comes
first; empty when there is no such token. -/
def seek (wanted stop : Token → Bool) : Before → Before
  | [] => []
  | t :: before => if stop t then [] else if wanted t then t :: before else seek wanted stop before

/-- From the nearest token that is neither blank nor line break. -/
def nonSpace (b : Before) : Before := b.seek (!·.isSpace) fun _ => false

/-- From the nearest code token, across lines and comments. -/
def code (b : Before) : Before := b.seek (·.isCode) fun _ => false

/-- From the nearest token of the line that is not blank. -/
def onLine (b : Before) : Before := b.seek (!·.isWhitespace) (·.isNewline)

/-- From the nearest code token of the line, across comments. -/
def codeOnLine (b : Before) : Before := b.seek (·.isCode) (·.isNewline)

/-- Whether only blanks separate the place from the start of its line. -/
def isLineStart (b : Before) : Bool := b.onLine.isEmpty

/-- The tokens of the line before the place, nearest first. -/
def line (b : Before) : Before := b.takeWhile (!·.isNewline)

/-- The width between the start of the line and the place. -/
def lineWidth [Text.Measure] (b : Before) : Nat := b.line.foldr (Text.Measure.width ·.text + ·) 0

/-- The same list without the blanks directly before the place. -/
def trimmed (b : Before) : Before := b.dropWhile (·.isWhitespace)

/-- The index of the nearest token, counted from the start of the whole list. -/
def index? : Before → Option Nat
  | [] => none
  | _ :: before => some before.length

theorem seek_suffix (wanted stop : Token → Bool) (b : Before) : b.seek wanted stop <:+ b := by
  induction b with
  | nil => exact List.suffix_rfl
  | cons t b ih =>
    unfold seek
    split
    · exact List.nil_suffix
    split
    · exact List.suffix_rfl
    · exact ih.trans (List.suffix_cons _ _)

@[simp] theorem isLineStart_nil : isLineStart [] = true := rfl

end Before

end ScillaLayout
