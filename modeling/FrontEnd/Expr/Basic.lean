import FrontEnd.Token

/-!
# Expression trees

The trees that parsers build.  A tree may have holes, where a part of it is missing; the
trees of a parser have none.

`Expr.children` are the direct parts of an expression.  `Expr.walk` visits an expression
and its parts, each before its own parts, and `Expr.fold` computes something from the parts
upwards.
-/

namespace FrontEnd

/-- An expression. -/
inductive Expr where
  /-- A missing expression. -/
  | hole
  /-- A number, a text, a truth value or the null value. -/
  | literal (token : Token)
  /-- An expression in parentheses, with the token of the opening one. -/
  | grouped (paren : Token) (inner : Expr)
  /-- An operator in front of its operand. -/
  | unary (operator : Token) (right : Expr)
  /-- An operator between its operands. -/
  | binary (left : Expr) (operator : Token) (right : Expr)
  /-- A choice between two expressions. -/
  | ternary (condition yes no : Expr)
  deriving DecidableEq, Repr

namespace Expr

/-- The kinds of expressions. -/
inductive Kind where
  | hole
  | literal
  | grouped
  | unary
  | binary
  | ternary
  deriving DecidableEq, Repr

/-- The kind of an expression. -/
def kind : Expr → Kind
  | .hole => .hole
  | .literal _ => .literal
  | .grouped _ _ => .grouped
  | .unary _ _ => .unary
  | .binary _ _ _ => .binary
  | .ternary _ _ _ => .ternary

/-- The token that an expression itself holds. -/
def token? : Expr → Option Token
  | .hole => none
  | .literal t => some t
  | .grouped paren _ => some paren
  | .unary op _ => some op
  | .binary _ op _ => some op
  | .ternary _ _ _ => none

/-- The direct parts of an expression, from left to right. -/
def children : Expr → List Expr
  | .hole => []
  | .literal _ => []
  | .grouped _ e => [e]
  | .unary _ e => [e]
  | .binary l _ r => [l, r]
  | .ternary c y n => [c, y, n]

/-- Whether an expression has no holes. -/
def complete : Expr → Bool
  | .hole => false
  | .literal _ => true
  | .grouped _ e => e.complete
  | .unary _ e => e.complete
  | .binary l _ r => l.complete && r.complete
  | .ternary c y n => c.complete && y.complete && n.complete

/-- Where an expression starts: the location of its leftmost token.  A hole starts
nowhere. -/
def location? : Expr → Option Location
  | .hole => none
  | .literal t => some t.location
  | .grouped paren _ => some paren.location
  | .unary op _ => some op.location
  | .binary l _ _ => l.location?
  | .ternary c _ _ => c.location?

/-- The height of a tree.  A literal has height one. -/
def depth : Expr → Nat
  | .hole => 0
  | .literal _ => 1
  | .grouped _ e => e.depth + 1
  | .unary _ e => e.depth + 1
  | .binary l _ r => max l.depth r.depth + 1
  | .ternary c y n => max (max c.depth y.depth) n.depth + 1

/-- Visits an expression and then its parts.  The parts of an expression for which `visit`
says no are not visited, and neither are holes. -/
def walk {m : Type → Type} [Monad m] (visit : Expr → m Bool) : Expr → m Unit
  | .hole => pure ()
  | .literal t => do
    let _ ← visit (.literal t)
  | .grouped paren e => do
    if ← visit (.grouped paren e) then walk visit e
  | .unary op e => do
    if ← visit (.unary op e) then walk visit e
  | .binary l op r => do
    if ← visit (.binary l op r) then
      walk visit l
      walk visit r
  | .ternary c y n => do
    if ← visit (.ternary c y n) then
      walk visit c
      walk visit y
      walk visit n

/-- Computes something for an expression from itself and the results for its parts, holes
left out. -/
def fold {α : Type} (combine : Expr → List α → α) : Expr → Option α
  | .hole => none
  | .literal t => some (combine (.literal t) [])
  | .grouped paren e => some (combine (.grouped paren e) (e.fold combine).toList)
  | .unary op e => some (combine (.unary op e) (e.fold combine).toList)
  | .binary l op r =>
    some (combine (.binary l op r) ((l.fold combine).toList ++ (r.fold combine).toList))
  | .ternary c y n =>
    some (combine (.ternary c y n) ((c.fold combine).toList ++ (y.fold combine).toList
      ++ (n.fold combine).toList))

/-- The number of expressions in a tree, holes left out. -/
def size? (e : Expr) : Option Nat := e.fold fun _ parts => parts.foldr (· + ·) 1

/-- An expression and its parts with their distance from the root, each in front of its own
parts, put in front of `behind`. -/
def outlineOnto (level : Nat) (behind : List (Nat × Expr)) : Expr → List (Nat × Expr)
  | .hole => (level, .hole) :: behind
  | .literal t => (level, .literal t) :: behind
  | .grouped paren e => (level, .grouped paren e) :: e.outlineOnto (level + 1) behind
  | .unary op e => (level, .unary op e) :: e.outlineOnto (level + 1) behind
  | .binary l op r =>
    (level, .binary l op r) ::
      l.outlineOnto (level + 1) (r.outlineOnto (level + 1) behind)
  | .ternary c y n =>
    (level, .ternary c y n) ::
      c.outlineOnto (level + 1) (y.outlineOnto (level + 1) (n.outlineOnto (level + 1) behind))

/-- An expression and its parts, holes included, with their distance from the root, each in
front of its own parts. -/
def outline (e : Expr) : List (Nat × Expr) := e.outlineOnto 0 []

end Expr

end FrontEnd
