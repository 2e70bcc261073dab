import FrontEnd.Expr.Basic

/-!
# Expressions in writing

`Expr.toText` writes an expression with every operator in front of its operands and in
parentheses with them, so that no rules of precedence are needed to read it.  `Expr.label`
describes an expression without its parts.
-/

namespace FrontEnd

namespace Expr

/-- A literal is written as its lexeme; one without a lexeme is the null value. -/
def literalText (t : Token) : Text :=
  if t.lexeme.isEmpty then Text.ofString "null" else t.lexeme

/-- The text for a hole. -/
def holeText : Text := Text.ofString "<nil>"

/-- Writes an expression in front of `behind`. -/
def toTextOnto (behind : Text) : Expr → Text
  | .hole => holeText ++ behind
  | .literal t => literalText t ++ behind
  | .grouped _ e =>
    Text.ofString "(group " ++ e.toTextOnto (Text.ofString ")" ++ behind)
  | .unary op e =>
    Text.ofString "(" ++ (op.lexeme ++ (Text.ofString " "
      ++ e.toTextOnto (Text.ofString ")" ++ behind)))
  | .binary l op r =>
    Text.ofString "(" ++ (op.lexeme ++ (Text.ofString " "
      ++ l.toTextOnto (Text.ofString " " ++ r.toTextOnto (Text.ofString ")" ++ behind))))
  | .ternary c y n =>
    Text.ofString "(?: " ++ c.toTextOnto (Text.ofString " "
      ++ y.toTextOnto (Text.ofString " " ++ n.toTextOnto (Text.ofString ")" ++ behind)))

/-- An expression in writing. -/
def toText (e : Expr) : Text := e.toTextOnto []

/-- A short description of an expression, without its parts. -/
def label : Expr → Text
  | .hole => holeText
  | .literal t => Text.ofString "literal " ++ literalText t
  | .grouped _ _ => Text.ofString "group"
  | .unary op _ => Text.ofString "unary " ++ op.lexeme
  | .binary _ op _ => Text.ofString "binary " ++ op.lexeme
  | .ternary _ _ _ => Text.ofString "ternary ?:"

/-- The sign of an expression in a list of operations where operands come first. -/
def operation : Expr → Text
  | .hole => holeText
  | .literal t => Text.ofString "L:" ++ t.lexeme
  | .grouped _ _ => Text.ofString "G"
  | .unary op _ => Text.ofString "U:" ++ op.lexeme
  | .binary _ op _ => Text.ofString "B:" ++ op.lexeme
  | .ternary _ _ _ => Text.ofString "T"

/-- The signs of an expression and its parts, each behind those of its own parts. -/
def operations? (e : Expr) : Option (List Text) :=
  e.fold fun e parts => parts.flatten ++ [e.operation]

/-- The labels of the expressions that a walk visits if it leaves out the parts of the
kinds in a list. -/
def visitedLabels (skipped : List Kind) (e : Expr) : List Text :=
  let visit (e : Expr) : StateM (List Text) Bool := do
    modify (e.label :: ·)
    return !skipped.contains e.kind
  ((e.walk visit).run []).2.reverse

end Expr

end FrontEnd
