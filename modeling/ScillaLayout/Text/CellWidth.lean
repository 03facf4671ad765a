import ScillaLayout.Text.Emoji

/-!
# Cells taken by a text

`cellWidth` is the number of terminal cells that a text takes. Most characters take the cells of `charCells`. A few take
more or fewer because of what stands to their right: a carriage return before its line feed, emoji built from several
characters, letters that a script draws as one. So a text is measured from its end, and `Right` says what has been
seen to the right of the next character.
-/

namespace ScillaLayout.Text

/-- What stands to the right of a character, as far as it can change the cells of that character. -/
inductive Right where
  /-- Nothing that matters. -/
  | plain
  | lineFeed
  /-- A skin tone. -/
  | skinTone
  /-- One regional indicator, or several. -/
  | regional
  | regionals
  /-- A picture. -/
  | picture
  /-- A joiner with a picture after it, and the same before a key cap. -/
  | joined
  | joinedCap
  /-- A joiner before one regional indicator, before an even and before an odd number of them. -/
  | joinedRegional
  | joinedEven
  | joinedOdd
  /-- A joined run of tags, with the numbers of letters and of digits read so far. -/
  | joinedTag (letters digits : Nat)
  /-- An Arabic letter of the group of alef. -/
  | alef
  /-- The second letter of a ligature, with or without a joiner before it. -/
  | lamed (joiner : Bool)
  | buginese (joiner : Bool)
  | bugineseVowel
  | tifinagh (joiner : Bool)
  | tifinaghJoiner
  | lisuTone
  | orkhon (joiner : Bool)
  | khmer
  | kiratE
  | kiratAi
  deriving DecidableEq, Repr

/-- The right context of a character: what stands there, and which variation selector comes first. -/
structure Context where
  right : Right := .plain
  /-- U+FE0F stands directly to the right. -/
  asPicture : Bool := false
  /-- U+FE0E stands directly to the right. -/
  asText : Bool := false
  /-- U+FE01 stands directly to the right. -/
  asWide : Bool := false
  deriving DecidableEq, Repr

namespace Right

/-- Second letters of ligatures, which selectors and other invisible marks do not separate from the first. Kirat vowels
are not among them: a mark in between keeps them apart. -/
def isLigature : Right → Bool
  | .lamed _ | .buginese _ | .bugineseVowel | .tifinagh _ | .tifinaghJoiner | .lisuTone | .orkhon _ | .khmer => true
  | _ => false

/-- A ligature with a joiner in front. -/
def withJoiner : Right → Right
  | .lamed _ => .lamed true
  | .buginese _ => .buginese true
  | .tifinagh _ => .tifinagh true
  | .orkhon _ => .orkhon true
  | r => r

/-- What stays of the right side when a selector turns out not to apply. -/
def afterSelector (r : Right) : Right :=
  if r.isLigature || r = .alef then r else .plain

end Right

/-- Marks without a cell that may stand inside a ligature. -/
def ligatureMarkRanges : Ranges := [
  (0x34F, 0x34F), (0x17B4, 0x17B5), (0x180B, 0x180D), (0x180F, 0x180F), (0xFE00, 0xFE0F), (0xE0100, 0xE01EF)]

/-- Khmer letters that go below the letter before them. -/
def khmerCoengRanges : Ranges := [
  (0x1780, 0x1782), (0x1784, 0x1787), (0x1789, 0x178C), (0x178E, 0x1793), (0x1795, 0x1798), (0x179B, 0x179D),
  (0x17A0, 0x17A0), (0x17A2, 0x17A2), (0x17A7, 0x17A7), (0x17AB, 0x17AC), (0x17AF, 0x17AF)]

/-- Arabic letters of the group of alef. -/
def alefRanges : Ranges := [
  (0x622, 0x623), (0x625, 0x625), (0x627, 0x627), (0x671, 0x673), (0x675, 0x675), (0x773, 0x774), (0x870, 0x882)]

/-- Arabic letters of the group of lam. -/
def lamRanges : Ranges := [(0x644, 0x644), (0x6B5, 0x6B8), (0x76A, 0x76A), (0x8A6, 0x8A6), (0x8C7, 0x8C7)]

/-- Tifinagh consonants. -/
def tifinaghRanges : Ranges := [(0x2D31, 0x2D65), (0x2D6F, 0x2D6F)]

/-- The four quotation marks that have a wide form. -/
def isCurlyQuote (c : Char) : Bool := [0x2018, 0x2019, 0x201C, 0x201D].contains c.toNat

/-- The context that a character makes for the one before it, when it is not part of anything longer. -/
def contextOf (c : Char) : Context :=
  let n := c.toNat
  if n == 0x0A then { right := .lineFeed }
  else if n == 0xFE0F then { asPicture := true }
  else if n == 0xFE0E then { asText := true }
  else if n == 0xFE01 then { asWide := true }
  else if isSkinTone c then { right := .skinTone }
  else if isRegional c then { right := .regional }
  else if isEmoji c then { right := .picture }
  else if alefRanges.has c then { right := .alef }
  else if n == 0x5DC then { right := .lamed false }
  else if n == 0x1A10 then { right := .buginese false }
  else if tifinaghRanges.has c then { right := .tifinagh false }
  else if n == 0xA4FC || n == 0xA4FD then { right := .lisuTone }
  else if n == 0x10C03 then { right := .orkhon false }
  else if khmerCoengRanges.has c then { right := .khmer }
  else if n == 0x16D67 then { right := .kiratE }
  else if n == 0x16D68 then { right := .kiratAi }
  else {}

/-- The cells of a character that forms something longer with its right side, and the context that it makes in turn;
`none` when it stands for itself. -/
def combined (r : Right) (c : Char) : Option (Int × Context) :=
  let n := c.toNat
  let give (cells : Int) (right : Right) : Option (Int × Context) := some (cells, { right })
  match r with
  | .alef =>
    if lamRanges.has c then give 0 .plain else if isJoiningTransparent c then give 0 .alef else none
  | .lamed true => if n == 0x5D0 then give 0 .plain else none
  | .khmer => if n == 0x17D2 then give (-1) .plain else none
  | .buginese true => if n == 0x1A17 then give 0 .bugineseVowel else none
  | .bugineseVowel => if n == 0x1A15 then give 0 .plain else none
  | .tifinagh joiner =>
    if n == 0x2D7F then give 1 .tifinaghJoiner
    else if joiner && tifinaghRanges.has c then give 0 .plain else none
  | .tifinaghJoiner => if tifinaghRanges.has c then give (-1) .plain else none
  | .lisuTone => if 0xA4F8 ≤ n && n ≤ 0xA4FB then give 0 .plain else none
  | .orkhon true => if n == 0x10C32 then give 0 .plain else none
  | .kiratE =>
    if n == 0x16D63 || n == 0x16D69 then give 0 .plain
    else if n == 0x16D67 then give 0 .kiratAi
    else if n == 0x16D68 then give 1 .kiratE else none
  | .kiratAi => if n == 0x16D63 then give 0 .plain else none
  | .skinTone =>
    if isModifiable c then give 0 .picture else if n == 0x200D then give 0 .joined else none
  | .regional => if isRegional c then give 1 .regionals else none
  | .regionals =>
    if isRegional c then give 1 .regionals else if n == 0x200D then give 0 .joined else none
  | .picture => if n == 0x200D then give 0 .joined else none
  | .joined =>
    if n == 0x20E3 then give 0 .joinedCap
    else if isRegional c then give 1 .joinedRegional
    else if isSkinTone c then give 0 .skinTone
    else if n == 0xE007F then give 0 (.joinedTag 0 0)
    else if isEmoji c then give 0 .picture else none
  | .joinedRegional => if isRegional c then give (-1) .joinedEven else none
  | .joinedOdd =>
    if isRegional c then give (-1) .joinedEven else if n == 0x200D then give 0 .joined else none
  | .joinedEven =>
    if isRegional c then give 3 .joinedOdd else if n == 0x200D then give 0 .joined else none
  | .joinedTag letters digits =>
    if 0xE0061 ≤ n && n ≤ 0xE007A && digits == 0 && letters < 6 then give 0 (.joinedTag (letters + 1) 0)
    else if 0xE0030 ≤ n && n ≤ 0xE0039 && digits < 3 && (0 < digits || letters ≤ 4) then
      give 0 (.joinedTag letters (digits + 1))
    else if n == 0x1F3F4 && (digits == 3 || digits == 0 && 3 ≤ letters) then give 0 .picture
    else none
  | _ => none

/-- The cells of a character in its right context, and the context that it makes for the character before it. -/
def cellsIn (ctx : Context) (c : Char) : Int × Context :=
  let joins := ctx.right = .joined || ctx.right = .joinedCap
  if ctx.asPicture && takesPictureSelector c then
    (if joins then 0 else 2, { right := .picture })
  else if ctx.asText && takesTextSelector c then (1, {})
  else if ctx.asWide && isCurlyQuote c then (2, {})
  else
    let right := if ctx.asPicture || ctx.asText || ctx.asWide then ctx.right.afterSelector else ctx.right
    let alone : Int × Context := (if c == '\r' && right = .lineFeed then 0 else charCells c, contextOf c)
    if c.toNat ≤ 0xA0 then alone
    else if c.toNat == 0xFE0F then
      (0, { right := if joins && !ctx.asPicture then ctx.right else right.afterSelector, asPicture := true })
    else if c.toNat == 0xFE0E then (0, { right := right.afterSelector, asText := true })
    else if c.toNat == 0xFE01 then (0, { right := right.afterSelector, asWide := true })
    else if right.isLigature && c.toNat == 0x200D then (0, { right := right.withJoiner })
    else if right.isLigature && ligatureMarkRanges.has c then (0, { right })
    else (combined right c).getD alone

/-- The cells of a text, and the context that it makes for a character before it. -/
def cellsOf : List Char → Int × Context
  | [] => (0, {})
  | c :: cs =>
    let (after, ctx) := cellsOf cs
    let (cells, ctx) := cellsIn ctx c
    (cells + after, ctx)

/-- The number of terminal cells that a text takes. -/
def cellWidth (s : String) : Nat := (cellsOf s.toList).1.toNat

/-- A way to measure how wide a text is shown. -/
class Measure where
  width : String → Nat

/-- Texts are measured in terminal cells. -/
instance cells : Measure := ⟨cellWidth⟩

end ScillaLayout.Text
