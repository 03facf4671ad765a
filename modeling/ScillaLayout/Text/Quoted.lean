import ScillaLayout.Text.Extender
import ScillaLayout.Text.Printable

/-!
# Quoted text

Text between quotes, as token dumps and messages show it: quotes, backslashes, tabs, line breaks and the null character
have short escapes, and characters that a reader could not see are written by their code point.
-/

namespace ScillaLayout.Text

/-- Letters that show nothing: the fillers of Hangul syllables. -/
def isFiller (c : Char) : Bool := [0x115F, 0x1160, 0x3164, 0xFFA0].contains c.toNat

/-- The half-width voicing marks, which extend a letter but have a shape and a place of their own. -/
def isVoicingMark (c : Char) : Bool := c.toNat == 0xFF9E || c.toNat == 0xFF9F

/-- Characters that a reader could not see between quotes. -/
def isHidden (c : Char) : Bool := isExtender c && !isVoicingMark c || isFiller c || !isPrintable c

/-- A code point in braces, in small hexadecimal digits. -/
def codeEscape (c : Char) : List Char :=
  ['\\', 'u', '\x7b'] ++ Nat.toDigits 16 c.toNat ++ ['\x7d']

/-- One character inside a text quoted by `quote`. -/
def escapeChar (quote c : Char) : List Char :=
  if c = '\x00' then ['\\', '0']
  else if c = '\t' then ['\\', 't']
  else if c = '\r' then ['\\', 'r']
  else if c = '\n' then ['\\', 'n']
  else if c = '\\' || c = quote then ['\\', c]
  else if isHidden c then codeEscape c
  else [c]

/-- A text between double quotes. -/
def quoted (s : String) : String :=
  String.ofList (['\x22'] ++ s.toList.flatMap (escapeChar '\x22') ++ ['\x22'])

/-- A character between single quotes. -/
def quotedChar (c : Char) : String :=
  String.ofList (['\x27'] ++ escapeChar '\x27' c ++ ['\x27'])

end ScillaLayout.Text
