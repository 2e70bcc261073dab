import FrontEnd.Token

/-!
# The symbols of Lox

The kinds of tokens of the Lox language, their numbers and names, and its keywords.
-/

namespace FrontEnd

namespace Lox

/-- A kind of token of Lox. -/
inductive Symbol where
  | leftParen
  | rightParen
  | leftBrace
  | rightBrace
  | comma
  | dot
  | minus
  | plus
  | semicolon
  | slash
  | star
  | caret
  | question
  | colon
  | bang
  | bangEqual
  | equal
  | equalEqual
  | greater
  | greaterEqual
  | less
  | lessEqual
  | identifier
  | string
  | integer
  | float
  | kwAnd
  | kwClass
  | kwConst
  | kwElse
  | kwFalse
  | kwFor
  | kwFunction
  | kwIf
  | kwLet
  | kwNull
  | kwOr
  | kwReturn
  | kwSuper
  | kwThis
  | kwTrue
  | kwWhile
  deriving DecidableEq, Repr

namespace Symbol

/-- All symbols.  Their numbers are their places in this list, counted from one. -/
def all : List Symbol :=
  [.leftParen, .rightParen, .leftBrace, .rightBrace, .comma, .dot, .minus, .plus, .semicolon,
    .slash, .star, .caret, .question, .colon, .bang, .bangEqual, .equal, .equalEqual,
    .greater, .greaterEqual, .less, .lessEqual, .identifier, .string, .integer, .float,
    .kwAnd, .kwClass, .kwConst, .kwElse, .kwFalse, .kwFor, .kwFunction, .kwIf, .kwLet,
    .kwNull, .kwOr, .kwReturn, .kwSuper, .kwThis, .kwTrue, .kwWhile]

/-- The number of a symbol. -/
def kind (s : Symbol) : TokenKind := all.idxOf s + 1

/-- The symbol with a number. -/
def ofKind? (k : TokenKind) : Option Symbol :=
  if 0 < k then all[(k - 1).toNat]? else none

/-- A readable name. -/
def name : Symbol → String
  | .leftParen => "("
  | .rightParen => ")"
  | .leftBrace => "\x7b"
  | .rightBrace => "\x7d"
  | .comma => ","
  | .dot => "."
  | .minus => "-"
  | .plus => "+"
  | .semicolon => ";"
  | .slash => "/"
  | .star => "*"
  | .caret => "^"
  | .question => "?"
  | .colon => ":"
  | .bang => "!"
  | .bangEqual => "!="
  | .equal => "="
  | .equalEqual => "=="
  | .greater => ">"
  | .greaterEqual => ">="
  | .less => "<"
  | .lessEqual => "<="
  | .identifier => "identifier"
  | .string => "string"
  | .integer => "integer"
  | .float => "float"
  | .kwAnd => "and"
  | .kwClass => "class"
  | .kwConst => "const"
  | .kwElse => "else"
  | .kwFalse => "false"
  | .kwFor => "for"
  | .kwFunction => "function"
  | .kwIf => "if"
  | .kwLet => "let"
  | .kwNull => "null"
  | .kwOr => "or"
  | .kwReturn => "return"
  | .kwSuper => "super"
  | .kwThis => "this"
  | .kwTrue => "true"
  | .kwWhile => "while"

/-- The symbols that are keywords, in the order of their names. -/
def keywords : List Symbol :=
  [.kwAnd, .kwClass, .kwConst, .kwElse, .kwFalse, .kwFor, .kwFunction, .kwIf, .kwLet, .kwNull,
    .kwOr, .kwReturn, .kwSuper, .kwThis, .kwTrue, .kwWhile]

/-- The symbols with which statements start, as far as errors are concerned. -/
def statementStarts : List Symbol :=
  [.kwClass, .kwFor, .kwFunction, .kwIf, .kwReturn, .kwLet, .kwConst, .kwWhile]

/-- The name of a symbol as a text. -/
def spelling (s : Symbol) : Text := Text.ofString s.name

/-- The keyword with a given spelling. -/
def keyword? (lexeme : Text) : Option Symbol := keywords.find? (·.spelling = lexeme)

/-- The symbol for a word: a keyword or an identifier. -/
def ofWord (lexeme : Text) : Symbol := (keyword? lexeme).getD .identifier

end Symbol

/-- A readable name for a kind of token. -/
def kindName (k : TokenKind) : Text :=
  match Symbol.ofKind? k with
  | some s => s.spelling
  | none =>
    if k = TokenKind.endOfSource then Text.ofString "<eof>"
    else if k = TokenKind.comment then Text.ofString "comment"
    else Text.ofString "<token " ++ Text.ofInt k ++ Text.ofString ">"

end Lox

end FrontEnd
