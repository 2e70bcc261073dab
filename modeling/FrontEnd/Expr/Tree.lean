import FrontEnd.Expr.Notation

/-!
# Expressions as drawn trees

An expression is flattened to a list of labels with their levels, each label in front of
those of its parts.  Such a list is drawn as a tree, one line for each label: the line shows
for its own level and all levels above whether another label of that level follows.

The list is drawn from its end, since a line depends on what follows it.
-/

namespace FrontEnd

/-- A label at a level of a tree. -/
structure LevelLabel where
  /-- The depth of the label, counted from the level at which its list starts.  No tree that fits
  into memory is so deep that a signed 64-bit word could not hold this. -/
  level : Int
  label : Text
  deriving DecidableEq, Repr

/-- How far a label is indented.  Nothing is drawn to the left of level 0. -/
def LevelLabel.indent (item : LevelLabel) : Nat := item.level.toNat

namespace Expr

/-- Adds the label of an expression and those of its parts to a list.  Each level is the depth of a
part, counted from `level`, at which the caller puts the whole expression. -/
def leveled (list : List LevelLabel) (level : Int) : Expr → List LevelLabel
  | .hole => list ++ [⟨level, label .hole⟩]
  | .literal t => list ++ [⟨level, label (.literal t)⟩]
  | .grouped paren e => e.leveled (list ++ [⟨level, label (.grouped paren e)⟩]) (level + 1)
  | .unary op e => e.leveled (list ++ [⟨level, label (.unary op e)⟩]) (level + 1)
  | .binary l op r =>
    r.leveled (l.leveled (list ++ [⟨level, label (.binary l op r)⟩]) (level + 1)) (level + 1)
  | .ternary c y n =>
    n.leveled (y.leveled (c.leveled (list ++ [⟨level, label (.ternary c y n)⟩])
      (level + 1)) (level + 1)) (level + 1)

end Expr

/-- The end of a list of labels, drawn. -/
structure Sketch where
  text : Text
  /-- For each level, whether a label of that level follows whatever is put in front and is
  not above it. -/
  follows : List Bool
  /-- How far the first label is indented, and 0 if there is none. -/
  indent : Nat
  deriving DecidableEq, Repr

namespace Sketch

/-- Nothing is drawn. -/
def empty : Sketch := ⟨[], [], 0⟩

/-- Whether a label follows, for each of the first `n` levels. -/
def firstLevels : Nat → List Bool → List Bool
  | 0, _ => []
  | n + 1, [] => false :: firstLevels n []
  | n + 1, b :: rest => b :: firstLevels n rest

/-- The line for a label in front of `s`. -/
def line (s : Sketch) (item : LevelLabel) : Text :=
  let indent := (firstLevels item.indent s.follows).flatMap fun followed =>
    if followed then Text.ofString "│ " else Text.ofString "  "
  let corner :=
    if s.follows.getD item.indent false then Text.ofString "├" else Text.ofString "└"
  let branch := if item.indent < s.indent then Text.ofString "─┬" else Text.ofString "──"
  indent ++ (corner ++ (branch ++ (item.label ++ Text.ofString "\n")))

/-- Draws one more label in front. -/
def prepend (item : LevelLabel) (s : Sketch) : Sketch where
  text := s.line item ++ s.text
  follows := firstLevels item.indent s.follows ++ [true]
  indent := item.indent

end Sketch

namespace LevelLabel

/-- The drawing of a list of labels. -/
def draw (items : List LevelLabel) : Text := (items.foldr Sketch.prepend .empty).text

end LevelLabel

namespace Expr

/-- The drawing of an expression: its tree, and an empty line behind it. -/
def drawing (e : Expr) : Text :=
  LevelLabel.draw (e.leveled [] 0) ++ Text.ofString "\n"

end Expr

end FrontEnd
