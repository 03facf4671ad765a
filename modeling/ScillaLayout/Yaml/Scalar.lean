import ScillaLayout.Text.Digits
import ScillaLayout.Yaml.Cursor

/-!
# YAML scalars

The texts of plain, quoted and block scalars, with lines folded as each style does it.
-/

namespace ScillaLayout.Yaml

/-- How a scalar is written, as far as its meaning depends on it. -/
inductive Style where
  | plain
  /-- Between quotes, or folded. -/
  | quoted
  | literal
  deriving DecidableEq, Repr

/-! ## Plain scalars -/

/-- Characters with a meaning of their own inside brackets and braces. -/
def isFlowChar (c : Char) : Bool := [',', '[', ']', '\x7b', '\x7d'].contains c

/-- The next word of a plain scalar and what follows it. A colon ends it before a gap. Inside brackets and braces their
signs end it too, and a colon before such a sign is refused. -/
def readWord (inFlow : Bool) : List Char → Option (List Char × List Char)
  | [] => some ([], [])
  | c :: cs =>
    if isGap (some c) || (c = ':' && isGap cs.head?) || (inFlow && isFlowChar c) then some ([], c :: cs)
    else if inFlow && c = ':' && cs.head?.any (fun d => isFlowChar d || d = '?') then none
    else (readWord inFlow cs).map fun (word, rest) => (c :: word, rest)

/-- The words of a plain scalar after a gap. Outside of brackets and braces it ends at a line that starts before the
given column. The last gap is not part of the text; whether it has a line break is part of the result. -/
def readPlain (inFlow : Bool) (indent : Int) : Nat → Gap → Cursor → Option (List Char × Gap × Cursor)
  | 0, _, _ => none
  | fuel + 1, gap, c =>
    if c.isDocumentMark || c.next? = some '#' then some ([], gap, c)
    else do
      let (word, rest) ← readWord inFlow c.rest
      if word.isEmpty then return ([], gap, c)
      let after := c.skipTo rest
      let (next, d) ← Gap.read indent (rest.length + 1) {} after
      if d.index = after.index || (!inFlow && (d.column : Int) < indent) then return (gap.text ++ word, next, d)
      let (text, last, e) ← readPlain inFlow indent fuel next d
      return (gap.text ++ word ++ text, last, e)

/-! ## Quoted scalars -/

/-- The character that a one-letter escape stands for. -/
def escapedChar? : Char → Option Char
  | '0' => some '\x00'
  | 'a' => some '\x07'
  | 'b' => some '\x08'
  | 't' => some '\t'
  | '\t' => some '\t'
  | 'n' => some '\n'
  | 'v' => some '\x0b'
  | 'f' => some '\x0c'
  | 'r' => some '\r'
  | 'e' => some '\x1b'
  | ' ' => some ' '
  | '\x22' => some '\x22'
  | '/' => some '/'
  | '\\' => some '\\'
  | 'N' => some '\x85'
  | '_' => some '\xa0'
  | 'L' => some '\u2028'
  | 'P' => some '\u2029'
  | _ => none

/-- How many hexadecimal digits follow the letter of an escape. -/
def escapeDigits? : Char → Option Nat
  | 'x' => some 2
  | 'u' => some 4
  | 'U' => some 8
  | _ => none

/-- The character of an escape after its backslash, and the number of characters it takes. -/
def readEscape : List Char → Option (Char × Nat)
  | [] => none
  | c :: cs =>
    match escapeDigits? c with
    | none => (escapedChar? c).map (·, 1)
    | some n => do
      let digits := cs.take n
      if digits.length ≠ n then none
      let char ← Text.charOfCode? (← Text.numeral? 16 digits)
      return (char, n + 1)

/-- The rest of a scalar between quotes, single ones or double ones. A single quote inside is written twice; between
double quotes there are escapes, and a backslash at the end of a line takes the line break away. -/
def readQuoted (single : Bool) : Nat → Cursor → Option (List Char × Cursor)
  | 0, _ => none
  | fuel + 1, c =>
    if c.isDocumentMark then none
    else
      let go (text : List Char) (c : Cursor) : Option (List Char × Cursor) :=
        (readQuoted single fuel c).map fun (more, c) => (text ++ more, c)
      let goGap (gap : Gap) (c : Cursor) : Option (List Char × Cursor) := do
        let (gap, c) ← Gap.read 0 (c.rest.length + 1) gap c
        go gap.text c
      match c.rest with
      | [] => none
      | ch :: cs =>
        if single && ch = '\x27' then
          if cs.head? = some '\x27' then go ['\x27'] (c.skip 2) else some ([], c.skip 1)
        else if !single && ch = '\x22' then some ([], c.skip 1)
        else if !single && ch = '\\' then
          if cs.head?.any isBreak then goGap { broken := true } (c.skip 1).skipBreak
          else (readEscape cs).bind fun (char, n) => go [char] (c.skip (n + 1))
        else if isBlank ch || isBreak ch then goGap {} c
        else go [ch] (c.skip 1)

/-! ## Block scalars -/

/-- What to do with the line breaks at the end of a block scalar. -/
inductive Chomp where
  | strip
  | clip
  | keep
  deriving DecidableEq

/-- The chomping sign of a block scalar, if it is next. -/
def readChomp (c : Cursor) : Option Chomp × Cursor :=
  match c.next? with
  | some '+' => (some .keep, c.skip 1)
  | some '-' => (some .strip, c.skip 1)
  | _ => (none, c)

/-- The indentation digit of a block scalar, if it is next; it is not zero. -/
def readIncrement (c : Cursor) : Option (Option Nat × Cursor) :=
  match c.next? with
  | some d =>
    if d = '0' then none
    else if d.isDigit then some (some (d.toNat - '0'.toNat), c.skip 1)
    else some (none, c)
  | none => some (none, c)

/-- The chomping and the indentation of a block scalar, in either order. -/
def readBlockHeader (c : Cursor) : Option (Chomp × Option Nat × Cursor) := do
  match readChomp c with
  | (some chomp, c) =>
    let (increment, c) ← readIncrement c
    return (chomp, increment, c)
  | (none, c) =>
    let (increment, c) ← readIncrement c
    match increment with
    | none => return (.clip, none, c)
    | some _ =>
      let (chomp, c) := readChomp c
      return (chomp.getD .clip, increment, c)

/-- Goes over empty lines and the indentation of the next line: their line breaks and the deepest column reached. The
indentation ends at the given column, or anywhere if none is given. -/
def readEmptyLines (indent : Option Nat) : Nat → Nat → Cursor → Option (List Char × Nat × Cursor)
  | 0, _, _ => none
  | fuel + 1, deepest, c =>
    let isInside (column : Nat) : Bool := indent.all (column < ·)
    let spaces := (c.rest.takeWhile (· = ' ')).length
    let c := c.skip ((indent.map fun n => min spaces (n - c.column)).getD spaces)
    let deepest := max deepest c.column
    match c.next? with
    | some '\t' => if isInside c.column then none else some ([], deepest, c)
    | some ch =>
      if isBreak ch then
        (readEmptyLines indent fuel deepest c.skipBreak).map fun (breaks, deepest, c) =>
          (breakText ch ++ breaks, deepest, c)
      else some ([], deepest, c)
    | none => some ([], deepest, c)

/-- The lines of a block scalar from one at its indentation on. `first` is the line break before, `more` are those of
the empty lines before, and `afterBlank` says whether the line before started with a blank: such lines are not folded.
The result is the text with the line breaks that are left at the end. -/
def readBlockLines (folded : Bool) (indent : Nat) :
    Nat → List Char → List Char → Bool → Cursor → Option (List Char × List Char × List Char × Cursor)
  | 0, _, _, _, _ => none
  | fuel + 1, first, more, afterBlank, c =>
    if c.column ≠ indent || c.rest.isEmpty then some ([], first, more, c)
    else do
      let startsBlank := c.next?.any isBlank
      let joint :=
        if folded && first = ['\n'] && !afterBlank && !startsBlank then if more.isEmpty then [' '] else []
        else first
      let line := c.rest.takeWhile (!isBreak ·)
      let c := c.skip line.length
      let lineEnd := (c.next?.map breakText).getD []
      let c := c.skipBreak
      let (breaks, _, c) ← readEmptyLines (some indent) (c.rest.length + 1) 0 c
      let (text, first, rest, c) ← readBlockLines folded indent fuel lineEnd breaks startsBlank c
      return (joint ++ more ++ line ++ text, first, rest, c)

/-- A block scalar after its sign, inside a block at some column (`-1` at the top). Without a digit the first line that
is not empty sets the indentation. -/
def readBlock (folded : Bool) (parent : Int) (c : Cursor) : Option (List Char × Cursor) := do
  let (chomp, increment, c) ← readBlockHeader c
  let c ← c.skipLineEnd?
  let given := increment.map fun n => (max parent 0).toNat + n
  let (breaks, deepest, c) ← readEmptyLines given (c.rest.length + 1) 0 c
  let indent := given.getD (max (max deepest (parent + 1).toNat) 1)
  let (text, first, more, c) ← readBlockLines folded indent (c.rest.length + 1) [] breaks false c
  match chomp with
  | .strip => return (text, c)
  | .clip => return (text ++ first, c)
  | .keep => return (text ++ first ++ more, c)

end ScillaLayout.Yaml
