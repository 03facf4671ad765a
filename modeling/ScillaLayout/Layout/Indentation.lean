import ScillaLayout.Layout.Options
import ScillaLayout.Token.Line

/-!
# Indentation

One walk over the tokens, from left to right. Keywords and brackets open and close blocks, some keywords start a line of
their own, and the first code token of every line is indented by the blocks that are open there. A clause that says more
about an address type, from `with` after `ByStr20` to its `end`, is written on one line.

The walk is a fold: `Walk.step` takes the state before a token to the state after it, so what holds after every token is
what every step keeps. Comments are never moved and open and close nothing.
-/

namespace ScillaLayout

/-! ## What keywords do -/

namespace Kind

/-- Keywords of top-level declarations. -/
def isTopLevel : Kind → Bool
  | .kwImport | .kwLibrary | .kwScillaVersion | .kwContract | .kwTransition | .kwProcedure | .kwType | .kwField => true
  | _ => false

/-- Tokens that always start a line. -/
def startsLine (k : Kind) : Bool :=
  k.isTopLevel ||
    match k with
    | .kwMatch | .kwFun | .kwTfun | .kwLet | .bar | .kwEnd => true
    | _ => false

/-- Tokens after which a `let` belongs to the binding around it. -/
def continuesBinding : Kind → Bool
  | .kwIn | .tarrow | .arrow | .fetch | .semicolon | .eq => true
  | _ => false

/-- Tokens that complete a type alternative when they end a line. -/
def endsAlternative (k : Kind) : Bool := k.isPrimitiveType || k.isAdtType || k == .id || k == .cid

/-- Tokens that can name a field. -/
def namesField (k : Kind) : Bool := k == .id || k == .cid || k == .spid

end Kind

namespace Before

/-- Whether the nearest token that is no space is the address type `ByStr20`. -/
def followsAddressType (b : Before) : Bool :=
  b.nonSpace.head?.any fun t => t.kind == .bystrType && t.text == "ByStr20"

/-- Whether the nearest code token of the line is `in`. -/
def followsIn (b : Before) : Bool := b.codeOnLine.head?.any (·.kind == .kwIn)

end Before

/-! ## The state of the walk -/

/-- The state of the walk between two tokens. -/
structure Walk where
  /-- What has been written, nearest first. -/
  out : Before := []
  /-- The open blocks. -/
  stack : Stack := []
  /-- Number of tokens written before the keyword of the field that is being declared. -/
  field : Option Nat := none
  /-- Number of blocks open below the outermost address clause, inside of one. -/
  clause : Option Nat := none
  /-- Whether a line break of the clause has just become a space. -/
  joined : Bool := false
  /-- What has been reported, newest first. -/
  log : List LogEvent := []
  deriving DecidableEq, Repr

namespace Walk

/-- Changes the stack. -/
def move (w : Walk) (m : Stack.Move) : Walk :=
  { w with stack := w.stack.move m, log := (w.stack.moveLog m).reverse ++ w.log }

/-- Writes a token. -/
def write (w : Walk) (t : Token) : Walk := { w with out := t :: w.out, joined := false }

/-- Closes all blocks and ends the field. -/
def reset (w : Walk) : Walk := { w.move .clear with field := none }

/-! ## The end of a line -/

/-- Whether a line that ends with a token of kind `last` completes a binding or a type alternative. -/
def completes (w : Walk) (last : Kind) : Bool :=
  match w.stack.base? with
  | some .letIn => last.isValue
  | some .typeDecl => last.endsAlternative
  | _ => false

/-- Closes what the line completes. A line that ends in a comment completes nothing. -/
def endLine (w : Walk) : Walk :=
  match w.out.onLine with
  | last :: _ =>
    if w.completes last.kind then { w with log := .lineEnd last.kind w.stack :: w.log }.move .closeThroughBar else w
  | [] => w

/-- A line break. Inside an address clause it becomes one space, together with the blanks around it. -/
def newline (w : Walk) (t : Token) : Walk :=
  match w.clause with
  | none => w.endLine.write t
  | some _ => { w with out := .space :: w.out.trimmed, joined := true }

/-- A comment, a blank or the end mark. Blanks behind a joined line break are dropped. -/
def trivia (w : Walk) (t : Token) : Walk :=
  if w.joined && t.isWhitespace then w else w.write t

/-! ## Code inside an address clause -/

/-- A code token inside an address clause: only further clauses open, and `end` closes. -/
def inlineCode (w : Walk) (base : Nat) (t : Token) : Walk :=
  match t.kind with
  | .kwWith => (if w.out.followsAddressType then w.move (.push .withArms) else w).write t
  | .kwEnd =>
    let w := w.move .closeBlock
    { w with clause := if w.stack.length ≤ base then none else some base }.write t
  | _ => w.write t

/-! ## Code -/

/-- What a token does once its own line is indented. -/
structure Effect where
  /-- Units that its line stands further left. -/
  dedent : Nat := 0
  /-- The block it opens. -/
  opens : Option Block := none
  /-- Whether it opens an address clause. -/
  opensClause : Bool := false
  deriving DecidableEq, Repr

/-- Opens a block. -/
def Effect.opening (b : Block) : Effect := { opens := some b }

/-- Moves a line left. -/
def Effect.dedenting (n : Nat) : Effect := { dedent := n }

/-- A declaration closes everything before it and opens a block. -/
def enterDeclaration (w : Walk) (b : Block) : Walk × Effect := (w.reset, .opening b)

/-- Functions that follow each other directly share one level. -/
def enterFunction (w : Walk) (b : Block) : Walk × Effect :=
  (w, if w.stack.top? = some b then .dedenting 1 else .opening b)

/-- Whether a `let` starts a declaration of its own. -/
def isFreshLet (w : Walk) : Bool :=
  match w.stack.base? with
  | some .typeDecl => true
  | some .letIn => !w.out.code.head?.any (·.kind.continuesBinding)
  | _ => false

/-- Bindings inside a binding share its level. -/
def enterLet (w : Walk) : Walk × Effect :=
  let w := if w.isFreshLet then w.reset else w
  (w, if w.stack.top? = some .letIn then .dedenting 1 else .opening .letIn)

/-- A closing bracket that closes nothing moves its line left. -/
def enterCloser (w : Walk) (opener : Block) : Walk × Effect :=
  (w.move (.closeBracket opener), if w.stack.top? = some opener then {} else .dedenting 1)

/-- A `with` opens a clause after an address type, and otherwise turns an open `match` into its arms. -/
def enterWith (w : Walk) : Walk × Effect :=
  if w.out.followsAddressType then (w, { opens := some .withArms, opensClause := true })
  else if w.stack.top? = some .matchArms then (w.move (.replaceTop .withArms), {})
  else (w, {})

/-- What a code token does to the open blocks, before and after its line is indented. -/
def enter (o : Options) (w : Walk) (k : Kind) : Walk × Effect :=
  match k with
  | .kwImport | .kwLibrary | .kwScillaVersion | .kwContract => (w.reset, {})
  | .kwTransition => w.enterDeclaration .transition
  | .kwProcedure => w.enterDeclaration .procedure
  | .kwType => w.enterDeclaration .typeDecl
  | .kwField => w.enterDeclaration .field
  | .kwMatch => (w, .opening .matchArms)
  | .kwFun => w.enterFunction .funBody
  | .kwTfun => w.enterFunction .tfunBody
  | .kwLet => w.enterLet
  | .bar => (w.move .closeAlternative, { dedent := if o.indentAlternatives then 0 else 1, opens := some .bar })
  | .kwWith => w.enterWith
  | .kwEnd => (w.move .closeBlock, {})
  | .kwIn => (w, if w.stack.top? = some .letIn then .dedenting 1 else {})
  | .lparen => (w, .opening .paren)
  | .lbrace => (w, .opening .brace)
  | .lsqb => (w, .opening .bracket)
  | .rparen => w.enterCloser .paren
  | .rbrace => w.enterCloser .brace
  | .rsqb => w.enterCloser .bracket
  | _ => (w, {})

/-- Whether a line break goes before a code token that is not the first of its line. -/
def breaksBefore (w : Walk) (k : Kind) : Bool := k.startsLine || w.out.followsIn

/-- Puts a line break before a code token that has to start a line and does not yet. -/
def breakLine (o : Options) (w : Walk) (k : Kind) : Walk :=
  if !w.out.isLineStart && w.breaksBefore k then w.endLine.write o.newlineToken else w

variable [Text.Measure]

/-- The width before the name of a field, when `out` has been written and the keyword stands at index `keyword`. The
name is the first code token behind the keyword, and counts if it is a name on the line of the keyword. -/
def fieldPadding (out : Before) (keyword : Nat) : Nat :=
  let behind := (out.take (out.length - (keyword + 1))).reverse
  let upToKeyword := out.drop (out.length - (keyword + 1))
  let gap := behind.takeWhile (!·.isCode)
  match behind.dropWhile (!·.isCode) with
  | name :: _ =>
    if name.kind.namesField && gap.all (!·.isNewline) then Before.lineWidth (gap.reverse ++ upToKeyword) else 0
  | [] => 0

/-- How far lines of a field declaration are moved under its name. -/
def padding (w : Walk) : Nat :=
  if Block.field ∈ w.stack then (w.field.map (fieldPadding w.out)).getD 0 else 0

/-- The text in front of a line: spaces up to the name of a field, then indentation units. -/
def indentText (o : Options) (padding units : Nat) : String :=
  "".pushn ' ' padding ++ String.join (List.replicate units o.indentUnit)

/-- Indents a line that starts here. -/
def indent (o : Options) (w : Walk) (dedent : Nat) : Walk :=
  let w := { w with out := w.out.trimmed }
  let text := indentText o w.padding (w.stack.units - dedent)
  if text.isEmpty then w else w.write (.synthetic .indent text)

/-- Opens a block, and notes where a field declaration starts. -/
def openBlock (w : Walk) (b : Block) : Walk :=
  { w with field := if b = Block.field then some w.out.length else w.field }.move (.push b)

/-- A code token outside of address clauses. -/
def code (o : Options) (w : Walk) (t : Token) : Walk :=
  let (w, effect) := (w.breakLine o t.kind).enter o t.kind
  let w := if w.out.isLineStart then w.indent o effect.dedent else w
  let w := if effect.opensClause then { w with clause := some w.stack.length } else w
  match effect.opens with
  | some b => (w.openBlock b).write t
  | none => w.write t

/-! ## The walk -/

/-- One token. -/
def step (o : Options) (w : Walk) (t : Token) : Walk :=
  if t.isNewline then w.newline t
  else if t.isCode then
    match w.clause with
    | some base => w.inlineCode base t
    | none => w.code o t
  else w.trivia t

/-- The state after all tokens. -/
def run (o : Options) (ts : List Token) : Walk := ts.foldl (step o) {}

/-- What has been written, in order. -/
def tokens (w : Walk) : List Token := w.out.reverse

/-- What has been reported, in order. -/
def report (w : Walk) : List LogEvent := w.log.reverse

end Walk

/-- Indents every line by the blocks that are open where it starts. -/
def indentLines [Text.Measure] (o : Options) (ts : List Token) : List Token := (Walk.run o ts).tokens

end ScillaLayout
