import FrontEnd.Text.Digit
import FrontEnd.Text.Letter

/-!
# Characters of identifiers

An identifier starts with a letter or an underscore and goes on with letters, underscores
and decimal digits of any script.
-/

namespace FrontEnd

namespace Text

/-- Whether an identifier can start with a character. -/
def isIdentStart (c : Char) : Bool := c = '_' || isLetter c

/-- Whether a character can stand in an identifier behind its first one. -/
def isIdentPart (c : Char) : Bool := c = '_' || isLetter c || isDecimalDigit c

/-- The character with the number `n`, if there is one. -/
def charOfCode? (n : Int) : Option Char :=
  if 0 ≤ n ∧ n.toNat.isValidChar then some (Char.ofNat n.toNat) else none

end Text

end FrontEnd
