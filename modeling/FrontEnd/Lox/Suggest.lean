import FrontEnd.Lox.Symbol
import FrontEnd.Text.Rune

/-!
# Suggestions for misspelled keywords

The distance between two words is the least number of characters to insert, delete or
replace that makes one of them the other.  For a word near a keyword, the nearest keyword is
suggested.
-/

namespace FrontEnd

namespace Lox

/-- The least number of insertions, deletions and replacements between two words. -/
def distance : List Char → List Char → Nat
  | [], ys => ys.length
  | xs, [] => xs.length
  | x :: xs, y :: ys =>
    min (min (distance xs (y :: ys) + 1) (distance (x :: xs) ys + 1))
      (distance xs ys + if x = y then 0 else 1)

/-- The distances of a word to `ys` and to all ends of `ys`, where `x` is the first
character of the word and `row` holds those distances for the rest of the word. -/
def distancesCons (x : Char) : (ys : List Char) → (row : List Nat) → List Nat
  | y :: ys, here :: row =>
    match distancesCons x ys row, row with
    | next :: more, diagonal :: _ =>
      min (min (here + 1) (next + 1)) (diagonal + if x = y then 0 else 1) :: next :: more
    | _, _ => [here + 1]
  | _, here :: _ => [here + 1]
  | _, [] => []

/-- The distances of a word to `ys` and to all ends of `ys`. -/
def distances (xs ys : List Char) : List Nat :=
  xs.foldr (fun x row => distancesCons x ys row) (List.range (ys.length + 1)).reverse

/-- The distance between two words, computed row by row. -/
def editDistance (xs ys : List Char) : Nat := (distances xs ys).headD 0

/-- The greatest distance at which a keyword is suggested. -/
def maxDistance : Nat := 2

/-- The better one of the best keyword so far and `keyword`: a keyword has to be nearer than
the best one so far, and its distance has to be less than the length of the word. -/
def betterOf (word : List Char) (best : Option (Symbol × Nat)) (keyword : Symbol) :
    Option (Symbol × Nat) :=
  let d := editDistance word keyword.spelling.chars
  let bound := (best.map (·.2)).getD (maxDistance + 1)
  if d < bound ∧ d < word.length then some (keyword, d) else best

/-- The keyword nearest to a word, if the word looks like a misspelling of it.  A keyword
itself is not misspelled. -/
def suggest? (lexeme : Text) : Option Symbol :=
  let word := lexeme.chars
  if Symbol.keywords.any fun k => editDistance word k.spelling.chars = 0 then none
  else (Symbol.keywords.foldl (betterOf word) none).map (·.1)

end Lox

end FrontEnd
