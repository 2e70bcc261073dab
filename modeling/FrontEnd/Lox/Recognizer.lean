import FrontEnd.Lox.Symbol
import FrontEnd.Number.Decimal
import FrontEnd.Number.Integer
import FrontEnd.Scanner.Scan
import FrontEnd.Text.Identifier

/-!
# Recognizing the tokens of Lox

Numbers, texts in double quotes, words and operators.  A point belongs to a number only if a
digit follows it; an exponent mark always does, and has to be followed by digits.  Texts may
run over several lines and know no escapes.
-/

namespace FrontEnd

namespace Lox

/-- The comments of Lox. -/
def comments : CommentStyle :=
  (CommentStyle.off.withLine (Text.ofString "//")).withBlock
    (Text.ofString "/*") (Text.ofString "*/")

/-- The operators of one character that never start a longer one. -/
def single? : Char → Option Symbol
  | '(' => some .leftParen
  | ')' => some .rightParen
  | '\x7b' => some .leftBrace
  | '\x7d' => some .rightBrace
  | ',' => some .comma
  | '.' => some .dot
  | '-' => some .minus
  | '+' => some .plus
  | ';' => some .semicolon
  | '/' => some .slash
  | '*' => some .star
  | '^' => some .caret
  | '?' => some .question
  | ':' => some .colon
  | _ => none

/-- The operators that an equals sign may follow, alone and with it. -/
def withEqual? : Char → Option (Symbol × Symbol)
  | '!' => some (.bang, .bangEqual)
  | '=' => some (.equal, .equalEqual)
  | '>' => some (.greater, .greaterEqual)
  | '<' => some (.less, .lessEqual)
  | _ => none

/-- Emits the text between mark and cursor as a token. -/
def emit (s : Symbol) (literal : Option Literal) : ScanAction Unit :=
  ScanAction.addToken s.kind literal

/-- Emits an integer. -/
def emitInteger : ScanAction Bool := do
  match Number.integerValue (← ScanAction.lexeme) with
  | .ok n =>
    emit .integer (some (.integer n))
    return true
  | .error e =>
    ScanAction.report e.message
    return false

/-- Emits a floating-point number. -/
def emitFloat : ScanAction Bool := do
  match Number.floatValue (← ScanAction.lexeme) with
  | .ok x =>
    emit .float (some (.float x))
    return true
  | .error e =>
    ScanAction.report e.message
    return false

/-- Moves over the point of a number and the digits behind it, if there are any. -/
def acceptFraction : ScanAction Bool := do
  let point ← ScanAction.peek?
  let next ← ScanAction.peekNext?
  if point = some '.' ∧ next.any Text.isDigit then
    let _ ← ScanAction.advance
    let _ ← ScanAction.acceptWhile Text.isDigit
    return true
  return false

/-- Moves over an exponent.  Answers whether there was one, and nothing if it has no
digits. -/
def acceptExponent : ScanAction (Option Bool) := do
  if ← ScanAction.acceptIf (fun c => c == 'e' || c == 'E') then
    let _ ← ScanAction.acceptIf (fun c => c == '+' || c == '-')
    let digits ← ScanAction.acceptWhile Text.isDigit
    return if digits = 0 then none else some true
  return some false

/-- Reads a number. -/
def number : ScanAction Bool := do
  let _ ← ScanAction.acceptWhile Text.isDigit
  let fraction ← acceptFraction
  match ← acceptExponent with
  | none =>
    ScanAction.report (Number.MalformedFloat.sign (← ScanAction.lexeme)).message
    return false
  | some exponent => if fraction || exponent then emitFloat else emitInteger

/-- Reads a text in double quotes.  The token stands for what is between the quotes. -/
def quotedText : ScanAction Bool := do
  let _ ← ScanAction.advance
  ScanAction.skipWhile (· != '"')
  if ← ScanAction.atEnd then
    ScanAction.report (Text.ofString "unterminated string")
    return false
  let _ ← ScanAction.advance
  let lexeme ← ScanAction.lexeme
  emit .string (some (.text (lexeme.drop 1).dropLast))
  return true

/-- Reads a keyword or an identifier. -/
def word : ScanAction Bool := do
  let _ ← ScanAction.acceptWhile Text.isIdentPart
  emit (Symbol.ofWord (← ScanAction.lexeme)) none
  return true

/-- Reads an operator that starts with `c`. -/
def operator (c : Char) : ScanAction Bool :=
  match single? c, withEqual? c with
  | some s, _ => do
    let _ ← ScanAction.advance
    emit s none
    return true
  | none, some (short, long) => do
    let _ ← ScanAction.advance
    let equal ← ScanAction.accept '='
    emit (if equal then long else short) none
    return true
  | none, none => return false

/-- Reads a token. -/
def recognize : ScanAction Bool := do
  match ← ScanAction.peek? with
  | none => return false
  | some c =>
    if Text.isDigit c then number
    else if c = '"' then quotedText
    else if Text.isIdentStart c then word
    else operator c

/-- The recognizer for Lox.  It remembers nothing. -/
def recognizer : Recognizer Unit where
  begin _ := pure ()
  recognize _ := do return (← recognize, ())

/-- A scanner for Lox. -/
def newScanner : Scanner := Scanner.new comments

/-- Scans a Lox text.  A Lox scan is never stuck, so there is no need to be strict. -/
def scan (s : Scanner) (text : Text) : Scanner :=
  (s.scan recognizer false () text).scanner

end Lox

end FrontEnd
