import FrontEnd.Text.Blank
import FrontEnd.Text.Rune

/-!
# Words and trimmed texts

White space around a text is cut off by `trim`; `words` are the parts of a text
between stretches of white space.
-/

namespace FrontEnd

namespace Text

/-- Whether a character of a text is white space. -/
def blankRune (entry : Rune × Text) : Bool := isBlank entry.1.char

/-- A text without the white space at its front and at its end. -/
def trim (t : Text) : Text :=
  let front := t.spelling.dropWhile blankRune
  let both := (front.reverse.dropWhile blankRune).reverse
  both.flatMap (·.2)

/-- The words of a spelled text; `current` holds the bytes of the word being read, last
byte first. -/
def wordsFrom (current : Text) : List (Rune × Text) → List Text
  | [] => if current.isEmpty then [] else [current.reverse]
  | entry :: rest =>
    if blankRune entry then
      if current.isEmpty then wordsFrom [] rest
      else current.reverse :: wordsFrom [] rest
    else wordsFrom (entry.2.reverse ++ current) rest

/-- The non-empty parts of a text between stretches of white space. -/
def words (t : Text) : List Text := wordsFrom [] t.spelling

end Text

end FrontEnd
