import FrontEnd.Expr.Basic
import FrontEnd.Lox.Suggest
import FrontEnd.Lox.Symbol

/-!
# The grammar of Lox expressions

```
conditional : equality ( "?" conditional ":" conditional )?
equality    : comparison ( ( "!=" | "==" ) comparison )*
comparison  : term ( ( ">" | ">=" | "<" | "<=" ) term )*
term        : factor ( ( "-" | "+" ) factor )*
factor      : unary ( ( "*" | "/" | "^" ) unary )*
unary       : ( "!" | "-" ) unary | primary
primary     : "true" | "false" | "null" | integer | float | string | "(" conditional ")"
```

The readers take the tokens in front of the cursor and return an expression with the tokens
behind it, of which there are fewer.  A reader that fails tells why, and from which token
on.
-/

namespace FrontEnd

namespace Lox

/-- Why there is no expression. -/
inductive SyntaxError where
  /-- An expression is missing. -/
  | expectedExpression
  /-- The colon of a conditional expression is missing. -/
  | expectedColon
  /-- A closing parenthesis is missing. -/
  | expectedParen
  deriving DecidableEq, Repr

/-- The wording of the error for a token that starts no expression. -/
def unexpectedMessage (t : Token) : Text :=
  let message := Text.ofString "unexpected token '" ++ t.lexeme
    ++ Text.ofString "', expected expression"
  let suggestion := if t.kind = Symbol.identifier.kind then suggest? t.lexeme else none
  match suggestion with
  | none => message
  | some keyword =>
    message ++ Text.ofString "; did you mean '" ++ keyword.spelling ++ Text.ofString "'?"

/-- The wording of an error in front of the tokens `rest`. -/
def SyntaxError.message (rest : List Token) : SyntaxError → Text
  | .expectedExpression =>
    match rest with
    | [] => Text.ofString "unexpected end of input, expected expression"
    | t :: _ => unexpectedMessage t
  | .expectedColon => Text.ofString "expect ':' in conditional expression"
  | .expectedParen => Text.ofString "expect ')' after expression"

/-- An error and the tokens in front of which it was found. -/
structure Failure where
  cause : SyntaxError
  rest : List Token
  deriving DecidableEq, Repr

/-- An expression and the tokens behind it, of which there are fewer than `bound`. -/
structure Success (bound : Nat) where
  expr : Expr
  rest : List Token
  shorter : rest.length < bound

/-- The result of reading an expression. -/
abbrev Parsed (bound : Nat) := Except Failure (Success bound)

/-- The same result under a greater bound. -/
def Parsed.weaken {m n : Nat} (h : m ≤ n) : Parsed m → Parsed n
  | .error failure => .error failure
  | .ok s => .ok ⟨s.expr, s.rest, Nat.lt_of_lt_of_le s.shorter h⟩

/-- The levels of operators with two operands, from the loosest to the tightest. -/
inductive Level where
  | equality
  | comparison
  | term
  | factor
  deriving DecidableEq, Repr

namespace Level

/-- The operators of a level. -/
def operators : Level → List Symbol
  | .equality => [.bangEqual, .equalEqual]
  | .comparison => [.greater, .greaterEqual, .less, .lessEqual]
  | .term => [.minus, .plus]
  | .factor => [.star, .slash, .caret]

/-- How many levels there are from here to the tightest one. -/
def rank : Level → Nat
  | .equality => 4
  | .comparison => 3
  | .term => 2
  | .factor => 1

end Level

/-- The operators that stand in front of their operand. -/
def unaryOperators : List Symbol := [.bang, .minus]

/-- The symbols that are expressions by themselves. -/
def leaves : List Symbol := [.kwTrue, .kwFalse, .kwNull, .integer, .float, .string]

/-- Whether a token is one of the given symbols. -/
def isOneOf (symbols : List Symbol) (t : Token) : Bool :=
  symbols.any fun s => s.kind = t.kind

/-- The token as a leaf of an expression: `true` and `false` get their values. -/
def leaf (t : Token) : Expr :=
  if t.kind = Symbol.kwTrue.kind then .literal { t with literal := some (.boolean true) }
  else if t.kind = Symbol.kwFalse.kind then
    .literal { t with literal := some (.boolean false) }
  else .literal t

mutual

/-- Reads an expression. -/
def conditional (ts : List Token) : Parsed ts.length :=
  match binary .equality ts with
  | .error failure => .error failure
  | .ok ⟨condition, [], h⟩ => .ok ⟨condition, [], h⟩
  | .ok ⟨condition, t :: rest, h⟩ =>
    if t.kind = Symbol.question.kind then
      match conditional rest with
      | .error failure => .error failure
      | .ok ⟨_, [], _⟩ => .error ⟨.expectedColon, []⟩
      | .ok ⟨yes, u :: behind, hyes⟩ =>
        if u.kind = Symbol.colon.kind then
          match conditional behind with
          | .error failure => .error failure
          | .ok ⟨no, last, hno⟩ =>
            .ok ⟨.ternary condition yes no, last, by
              simp only [List.length_cons] at h hyes; omega⟩
        else .error ⟨.expectedColon, u :: behind⟩
    else .ok ⟨condition, t :: rest, h⟩
termination_by 12 * ts.length + 11
decreasing_by
  all_goals simp only [List.length_cons, Level.rank] at *
  all_goals omega

/-- Reads operands of a level with operators of the level between them. -/
def binary (level : Level) (ts : List Token) : Parsed ts.length :=
  match operand level ts with
  | .error failure => .error failure
  | .ok ⟨left, rest, h⟩ => (chain level left rest).weaken h
termination_by 12 * ts.length + 2 * level.rank + 2
decreasing_by
  · omega
  · have : level.rank ≤ 4 := by cases level <;> decide
    omega

/-- Reads the operators of a level and the operands behind them, to the right of `left`. -/
def chain (level : Level) (left : Expr) (ts : List Token) : Parsed (ts.length + 1) :=
  match ts with
  | [] => .ok ⟨left, [], by simp⟩
  | op :: rest =>
    if isOneOf level.operators op then
      match operand level rest with
      | .error failure => .error failure
      | .ok ⟨right, behind, h⟩ =>
        (chain level (.binary left op right) behind).weaken
          (by simp only [List.length_cons]; omega)
    else .ok ⟨left, op :: rest, by simp⟩
termination_by 12 * ts.length
decreasing_by
  all_goals
    have : level.rank ≤ 4 := by cases level <;> decide
    simp only [List.length_cons] at *
    omega

/-- Reads an operand of a level: an expression of the next tighter level. -/
def operand (level : Level) (ts : List Token) : Parsed ts.length :=
  match level with
  | .equality => binary .comparison ts
  | .comparison => binary .term ts
  | .term => binary .factor ts
  | .factor => unary ts
termination_by 12 * ts.length + 2 * level.rank + 1
decreasing_by
  all_goals simp only [Level.rank]
  all_goals omega

/-- Reads an expression that is no operator with two operands. -/
def unary (ts : List Token) : Parsed ts.length :=
  match ts with
  | [] => .error ⟨.expectedExpression, []⟩
  | t :: rest =>
    if isOneOf unaryOperators t then
      match unary rest with
      | .error failure => .error failure
      | .ok ⟨right, behind, h⟩ =>
        .ok ⟨.unary t right, behind, by simp only [List.length_cons]; omega⟩
    else if isOneOf leaves t then .ok ⟨leaf t, rest, by simp⟩
    else if t.kind = Symbol.leftParen.kind then
      match conditional rest with
      | .error failure => .error failure
      | .ok ⟨_, [], _⟩ => .error ⟨.expectedParen, []⟩
      | .ok ⟨inner, u :: behind, h⟩ =>
        if u.kind = Symbol.rightParen.kind then
          .ok ⟨.grouped t inner, behind, by simp only [List.length_cons] at *; omega⟩
        else .error ⟨.expectedParen, u :: behind⟩
    else .error ⟨.expectedExpression, t :: rest⟩
termination_by 12 * ts.length + 2
decreasing_by
  all_goals simp only [List.length_cons]
  all_goals omega

end

/-- Reads an expression. -/
def parseExpr (ts : List Token) : Except Failure (Expr × List Token) :=
  match conditional ts with
  | .error failure => .error failure
  | .ok s => .ok (s.expr, s.rest)

end Lox

end FrontEnd
