import ScillaLayout.Token.Line

/-!
# Rules for blanks within lines

Runs of blanks shrink to one space, operators get one space on both sides, and punctuation keeps to its neighbours.
-/

namespace ScillaLayout.Spacing

/-! ## Runs of blanks -/

/-- A blank after a token of kind `prev`: one space, unless it indents a line or follows a comment. -/
def collapsed (prev : Kind) (t : Token) : Token :=
  if t.kind == .whitespace && prev != .newline && prev != .comment then t.withText " " else t

/-- Shrinks the blanks that follow a token of kind `prev`. -/
def collapseAfter (prev : Kind) : List Token → List Token
  | [] => []
  | t :: ts => collapsed prev t :: collapseAfter t.kind ts

/-- Shrinks runs of blanks between tokens to one space. The first token stays as it is, and so do blanks at the start
of a line and after a comment. -/
def collapse : List Token → List Token
  | [] => []
  | t :: ts => t :: collapseAfter t.kind ts

/-! ## Operators -/

/-- Operators with a space on both sides. -/
def isOperator : Kind → Bool
  | .eq | .assign | .tarrow | .arrow | .fetch => true
  | _ => false

/-- What stands before an operator, with one space at its end unless the operator starts a line. -/
def beforeOperator (out : Before) : Before :=
  if out.isLineStart then out
  else
    match out with
    | t :: rest => if t.kind == .whitespace then t.withText " " :: rest else .space :: out
    | [] => []

/-- What stands before `t`, with a space in between if an operator comes last. A blank, a line break and the end mark
need none. -/
def afterOperator (out : Before) (t : Token) : Before :=
  match out with
  | last :: _ =>
    if isOperator last.kind && t.kind != .whitespace && t.kind != .newline && t.kind != .eof then .space :: out else out
  | [] => []

/-- Adds a token to those before it and puts the spaces that operators ask for. -/
def operatorStep (out : Before) (t : Token) : Before :=
  if isOperator t.kind then t :: beforeOperator (afterOperator out t)
  else if t.kind == .whitespace && out.head?.any (isOperator ·.kind) then t.withText " " :: out
  else t :: afterOperator out t

/-- Puts exactly one space on both sides of operators, none at the start and the end of a line. -/
def spaceOperators (ts : List Token) : List Token := (ts.foldl operatorStep []).reverse

/-! ## Punctuation -/

/-- Tokens with no space before them. -/
def hugsPrevious : Kind → Bool
  | .comma | .colon | .semicolon | .period | .rparen | .rsqb | .rbrace => true
  | _ => false

/-- Tokens with no space after them. -/
def hugsNext : Kind → Bool
  | .lparen | .lsqb | .lbrace | .atSign | .ampersand => true
  | _ => false

/-- What stands before a token that allows no space there: one blank goes, unless the token starts a line. -/
def beforeHugging (out : Before) : Before :=
  match out with
  | t :: rest => if t.kind == .whitespace && !out.isLineStart then rest else out
  | [] => []

/-- Removes one blank before and one behind punctuation that allows none; `out` is what stands before. -/
def tightenFrom (out : Before) : List Token → Before
  | [] => out
  | [t] => t :: if hugsPrevious t.kind then beforeHugging out else out
  | t :: next :: ts =>
    let out := if hugsPrevious t.kind then beforeHugging out else out
    if hugsNext t.kind && next.kind == .whitespace then tightenFrom (t :: out) ts
    else tightenFrom (t :: out) (next :: ts)

/-- Removes blanks before separators and closing brackets, and behind opening brackets and prefix signs. -/
def tighten (ts : List Token) : List Token := (tightenFrom [] ts).reverse

end ScillaLayout.Spacing
