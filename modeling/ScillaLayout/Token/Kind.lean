/-!
# Kinds of tokens

Every token has a `Kind`. Layout looks at the kind alone, with one exception: an address type is known by its spelling.
-/

namespace ScillaLayout

/-- What a token is. -/
inductive Kind where
  -- ends of a token list
  | illegal | eof
  -- trivia
  | newline | whitespace | comment | indent
  -- literals
  | stringLit | numLit | hexLit
  -- primitive types
  | intType | stringType | bystrType | bnumType | messageType | eventType
  -- keywords
  | kwForall | kwBuiltin | kwLibrary | kwImport | kwLet | kwIn | kwMatch | kwWith | kwEnd | kwFun | kwTfun
  | kwContract | kwTransition | kwSend | kwEvent | kwField | kwAccept | kwExists | kwDelete | kwEmp | kwMap
  | kwScillaVersion | kwType | kwOf | kwTry | kwCatch | kwAs | kwProcedure | kwThrow
  -- separators
  | semicolon | colon | period | bar | lsqb | rsqb | lparen | rparen | lbrace | rbrace | comma | arrow | tarrow | eq
  | ampersand | fetch | assign | atSign | underscore
  -- names
  | id | cid | tid | spid
  -- names of the built-in data types and their constructors
  | adtBool | adtTrue | adtFalse | adtNat | adtZero | adtSucc | adtOption | adtSome | adtNone | adtList | adtCons
  | adtNil | adtPair
  deriving DecidableEq, Repr

namespace Kind

/-- Every kind, ordered by family. -/
def all : List Kind := [
  .illegal, .eof, .newline, .whitespace, .comment, .indent, .stringLit, .numLit, .hexLit, .intType, .stringType,
  .bystrType, .bnumType, .messageType, .eventType, .kwForall, .kwBuiltin, .kwLibrary, .kwImport, .kwLet, .kwIn,
  .kwMatch, .kwWith, .kwEnd, .kwFun, .kwTfun, .kwContract, .kwTransition, .kwSend, .kwEvent, .kwField, .kwAccept,
  .kwExists, .kwDelete, .kwEmp, .kwMap, .kwScillaVersion, .kwType, .kwOf, .kwTry, .kwCatch, .kwAs, .kwProcedure,
  .kwThrow, .semicolon, .colon, .period, .bar, .lsqb, .rsqb, .lparen, .rparen, .lbrace, .rbrace, .comma, .arrow,
  .tarrow, .eq, .ampersand, .fetch, .assign, .atSign, .underscore, .id, .cid, .tid, .spid, .adtBool, .adtTrue,
  .adtFalse, .adtNat, .adtZero, .adtSucc, .adtOption, .adtSome, .adtNone, .adtList, .adtCons, .adtNil, .adtPair]

/-- The name of a kind in token dumps. -/
def name : Kind → String
  | .illegal => "ILLEGAL" | .eof => "EOF"
  | .newline => "NEWLINE" | .whitespace => "WHITESPACE" | .comment => "COMMENT" | .indent => "INDENT"
  | .stringLit => "STRING_LIT" | .numLit => "NUM_LIT" | .hexLit => "HEX_LIT"
  | .intType => "INT_TYPE" | .stringType => "STRING_TYPE" | .bystrType => "BYSTR_TYPE"
  | .bnumType => "BNUM_TYPE" | .messageType => "MESSAGE_TYPE" | .eventType => "EVENT_TYPE"
  | .kwForall => "FORALL" | .kwBuiltin => "BUILTIN" | .kwLibrary => "LIBRARY" | .kwImport => "IMPORT"
  | .kwLet => "LET" | .kwIn => "IN" | .kwMatch => "MATCH" | .kwWith => "WITH" | .kwEnd => "END"
  | .kwFun => "FUN" | .kwTfun => "TFUN" | .kwContract => "CONTRACT" | .kwTransition => "TRANSITION"
  | .kwSend => "SEND" | .kwEvent => "EVENT" | .kwField => "FIELD" | .kwAccept => "ACCEPT"
  | .kwExists => "EXISTS" | .kwDelete => "DELETE" | .kwEmp => "EMP" | .kwMap => "MAP"
  | .kwScillaVersion => "SCILLA_VERSION" | .kwType => "TYPE" | .kwOf => "OF" | .kwTry => "TRY"
  | .kwCatch => "CATCH" | .kwAs => "AS" | .kwProcedure => "PROCEDURE" | .kwThrow => "THROW"
  | .semicolon => "SEMICOLON" | .colon => "COLON" | .period => "PERIOD" | .bar => "BAR"
  | .lsqb => "LSQB" | .rsqb => "RSQB" | .lparen => "LPAREN" | .rparen => "RPAREN"
  | .lbrace => "LBRACE" | .rbrace => "RBRACE" | .comma => "COMMA" | .arrow => "ARROW"
  | .tarrow => "TARROW" | .eq => "EQ" | .ampersand => "AND" | .fetch => "FETCH" | .assign => "ASSIGN"
  | .atSign => "AT" | .underscore => "UNDERSCORE"
  | .id => "ID" | .cid => "CID" | .tid => "TID" | .spid => "SPID"
  | .adtBool => "BOOL" | .adtTrue => "TRUE" | .adtFalse => "FALSE" | .adtNat => "NAT" | .adtZero => "ZERO"
  | .adtSucc => "SUCC" | .adtOption => "OPTION" | .adtSome => "SOME" | .adtNone => "NONE"
  | .adtList => "LIST" | .adtCons => "CONS" | .adtNil => "NIL" | .adtPair => "PAIR"

/-- The kind with a given name. -/
def ofName? (s : String) : Option Kind := all.find? (·.name == s)

/-- Blanks within a line: spaces, tabs and indentation made by the formatter. -/
def isWhitespace : Kind → Bool
  | .whitespace | .indent => true
  | _ => false

/-- Blanks and line breaks. -/
def isSpace : Kind → Bool
  | .whitespace | .indent | .newline => true
  | _ => false

/-- Tokens that carry program text: neither trivia nor the end mark. -/
def isCode : Kind → Bool
  | .whitespace | .indent | .newline | .comment | .eof => false
  | _ => true

/-- Names of primitive types. -/
def isPrimitiveType : Kind → Bool
  | .intType | .stringType | .bystrType | .bnumType | .messageType | .eventType => true
  | _ => false

/-- Names of the built-in algebraic data types, not of their constructors. -/
def isAdtType : Kind → Bool
  | .adtBool | .adtNat | .adtOption | .adtList | .adtPair => true
  | _ => false

/-- Tokens that can end a complete value expression. -/
def isValue : Kind → Bool
  | .id | .cid | .spid | .numLit | .hexLit | .stringLit | .adtTrue | .adtFalse | .adtZero | .rbrace => true
  | _ => false

theorem mem_all (k : Kind) : k ∈ all := by cases k <;> decide

/-- A code token is not a space. -/
theorem isSpace_eq_false_of_isCode {k : Kind} (h : k.isCode = true) : k.isSpace = false := by
  cases k <;> simp_all [isCode, isSpace]

end Kind

end ScillaLayout
