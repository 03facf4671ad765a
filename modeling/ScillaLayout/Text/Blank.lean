import ScillaLayout.Text.Ranges

/-!
# White space

Characters with the Unicode property `White_Space`. Of these, the line feed and the carriage return break lines and
all others are blanks.
-/

namespace ScillaLayout.Text

/-- Code points with the property `White_Space`. -/
def whiteSpaceRanges : Ranges := [
  (0x9, 0xD), (0x20, 0x20), (0x85, 0x85), (0xA0, 0xA0), (0x1680, 0x1680), (0x2000, 0x200A), (0x2028, 0x2029),
  (0x202F, 0x202F), (0x205F, 0x205F), (0x3000, 0x3000)]

/-- White space of any script. -/
def isWhiteSpace (c : Char) : Bool := whiteSpaceRanges.has c

/-- The two characters that break lines. -/
def isLineBreak (c : Char) : Bool := c == '\n' || c == '\r'

/-- White space that does not break the line. -/
def isBlank (c : Char) : Bool := isWhiteSpace c && !isLineBreak c

theorem isBlank_space : isBlank ' ' = true := by decide

theorem isBlank_tab : isBlank '\t' = true := by decide

end ScillaLayout.Text
