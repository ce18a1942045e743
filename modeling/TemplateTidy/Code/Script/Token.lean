import TemplateTidy.Code.Cursor

/-! # Tokens of scripts

A script is a list of tokens, each with the comments before it.  A token and a comment know the line
breaks before them and the blanks since the last one. -/

namespace TemplateTidy.Code.Script

inductive Kind where
  /-- Before the first token. -/
  | start
  /-- A parenthesis or bracket that opens. -/
  | openExpr
  /-- A parenthesis or bracket that closes. -/
  | closeExpr
  /-- A brace that opens. -/
  | openBlock
  /-- A brace that closes. -/
  | closeBlock
  /-- A name or a number. -/
  | word
  | reserved
  | semicolon
  /-- A string, a template string, a pattern or markup. -/
  | string
  | equals
  | operator
  | comma
  | dot
  /-- The end of the text. -/
  | stop
deriving DecidableEq, Repr, Inhabited

inductive CommentKind where
  | block
  /-- To the end of the line. -/
  | line
  /-- A character or a line that belongs to no token. -/
  | stray
deriving DecidableEq, Repr

/-- Where a token or a comment stands. -/
structure Gap where
  /-- The line breaks before it. -/
  breaks : Nat := 0
  /-- The blanks between the last line break and it. -/
  blanks : List Char := []
deriving DecidableEq, Repr, Inhabited

structure Comment where
  kind : CommentKind
  text : List Char
  gap : Gap
  directives : List (List Char × List Char)
deriving Repr

structure Token where
  kind : Kind
  text : String
  gap : Gap := {}
  /-- The comments before it. -/
  comments : List Comment := []
deriving Repr

/-- What stands before the first token. -/
def Token.first : Token :=
  { kind := .start, text := "" }

/-- Whether a token is one of these reserved words. -/
def Token.isReserved (t : Token) (words : List String) : Bool :=
  t.kind = .reserved && words.contains t.text

/-- Operators with which a line may end or begin. -/
def divisibleOperators : List String :=
  [">>>", "===", "!==", "&&=", "??=", "||=", "<<", "&&", ">=", "**", "!=", "==", "<=", ">>", "||",
    "??", "|>", "<", "/", "-", "+", ">", ":", "&", "%", "?", "^", "|", "*"]

/-- All operators; of two that fit, the first one is meant. -/
def operators : List String :=
  [">>>=", "...", ">>=", "<<=", "===", ">>>", "!==", "**=", "&&=", "??=", "||=", "=>", "^=", "::",
    "/=", "<<", "<=", "==", "&&", "-=", ">=", ">>", "!=", "--", "+=", "**", "||", "??", "++", "%=",
    "&=", "*=", "|=", "|>", "=", "!", "?", ">", "<", ":", "/", "^", "-", "+", "*", "&", "%", "~", "|"]

def lineStarters : List String :=
  ["continue", "try", "throw", "return", "var", "let", "const", "if", "switch", "case", "default",
    "for", "while", "break", "function", "import", "export"]

def reservedWords : List String :=
  lineStarters ++ ["do", "in", "of", "else", "get", "set", "new", "catch", "finally", "typeof",
    "yield", "async", "await", "from", "as", "class", "extends"]

end TemplateTidy.Code.Script
