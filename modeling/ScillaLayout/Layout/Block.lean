/-!
# Open blocks

Indentation follows a stack of open blocks, innermost first. A `Move` is one change of the stack; every change that the
formatter makes is one of them.
-/

namespace ScillaLayout

/-- A block that a line can stand in. -/
inductive Block where
  | letIn | typeDecl | matchArms | withArms | funBody | tfunBody | transition | procedure
  /-- A pattern alternative. -/
  | bar
  /-- A field declaration. It aligns its lines under the name instead of indenting them. -/
  | field
  | paren | brace | bracket
  deriving DecidableEq, Repr

namespace Block

/-- Every block. -/
def all : List Block := [
  .letIn, .typeDecl, .matchArms, .withArms, .funBody, .tfunBody, .transition, .procedure, .bar, .field, .paren,
  .brace, .bracket]

/-- The spelling of what opens a block. -/
def name : Block → String
  | .letIn => "let" | .typeDecl => "type" | .matchArms => "match" | .withArms => "with" | .funBody => "fun"
  | .tfunBody => "tfun" | .transition => "transition" | .procedure => "procedure" | .bar => "|" | .field => "field"
  | .paren => "(" | .brace => "\x7b" | .bracket => "["

/-- The block opened by a spelling. -/
def ofName? (s : String) : Option Block := all.find? (·.name == s)

/-- Blocks that `end` closes. -/
def isEndTarget : Block → Bool
  | .matchArms | .withArms | .transition | .procedure => true
  | _ => false

end Block

/-- The open blocks, innermost first. -/
abbrev Stack := List Block

namespace Stack

/-- The innermost block. -/
def top? (s : Stack) : Option Block := s.head?

/-- The outermost block. -/
def base? (s : Stack) : Option Block := s.getLast?

/-- Number of indentation units that the open blocks ask for. -/
def units (s : Stack) : Nat := (s.filter (· ≠ .field)).length

/-- The stack from the outermost block to the innermost, in brackets. -/
def render (s : Stack) : String := "[" ++ " ".intercalate (s.reverse.map Block.name) ++ "]"

/-- The stack without everything up to and with the first block for which `p` holds; empty when there is none. -/
def dropThrough (p : Block → Bool) (s : Stack) : Stack := (s.dropWhile (!p ·)).drop 1

/-- The stack after `end`: what is above the innermost block that `end` closes goes with it. -/
def closeBlock (s : Stack) : Stack := s.dropThrough Block.isEndTarget

/-- The stack without its innermost alternative and all above it, or empty when there is none. -/
def closeThroughBar (s : Stack) : Stack := s.dropThrough (· = .bar)

/-- Where the search for a sibling alternative stops. -/
def boundsAlternative (b : Block) : Bool := b = .bar || b = .typeDecl || b.isEndTarget

/-- The stack when a new alternative starts: the sibling before it closes with all above it, unless a block that `end`
closes or a type declaration stands nearer. -/
def closeAlternative (s : Stack) : Stack :=
  match s.dropWhile (!boundsAlternative ·) with
  | .bar :: below => below
  | _ => s

/-- The stack after a closing bracket: the innermost block closes if it is `opener`. -/
def closeBracket (opener : Block) (s : Stack) : Stack := if s.top? = some opener then s.drop 1 else s

/-- A change of the stack. -/
inductive Move where
  | push (b : Block)
  | pop
  | clear
  /-- The innermost block gives way to another. -/
  | replaceTop (b : Block)
  | closeThroughBar
  | closeBracket (opener : Block)
  | closeAlternative
  | closeBlock
  deriving DecidableEq, Repr

/-- The stack after a change. -/
def move (s : Stack) : Move → Stack
  | .push b => b :: s
  | .pop => s.drop 1
  | .clear => []
  | .replaceTop b => b :: s.drop 1
  | .closeThroughBar => s.closeThroughBar
  | .closeBracket opener => s.closeBracket opener
  | .closeAlternative => s.closeAlternative
  | .closeBlock => s.closeBlock

theorem dropThrough_suffix (p : Block → Bool) (s : Stack) : s.dropThrough p <:+ s :=
  (List.drop_suffix _ _).trans (List.dropWhile_suffix _)

theorem closeAlternative_suffix (s : Stack) : s.closeAlternative <:+ s := by
  unfold closeAlternative
  split
  · next below h => exact (List.suffix_cons _ _).trans (h ▸ List.dropWhile_suffix _)
  · exact List.suffix_rfl

theorem closeBracket_suffix (opener : Block) (s : Stack) : s.closeBracket opener <:+ s := by
  unfold closeBracket
  split
  · exact List.drop_suffix _ _
  · exact List.suffix_rfl

end Stack

end ScillaLayout
