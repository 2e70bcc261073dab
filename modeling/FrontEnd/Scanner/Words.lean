import FrontEnd.Scanner.Action
import FrontEnd.Text.Blank

/-!
# Words and brackets

A small recognizer for texts made of words: parentheses and semicolons are tokens of their
own, and everything else between white space is a word.
-/

namespace FrontEnd

namespace Words

/-- The kind of words. -/
def word : TokenKind := 1

/-- The kind of parentheses and semicolons. -/
def mark : TokenKind := 2

/-- Whether a character is a token of its own. -/
def isMark (c : Char) : Bool := c = '(' || c = ')' || c = ';'

/-- Whether a character is part of a word. -/
def isWordPart (c : Char) : Bool := !Text.isBlank c && !isMark c

/-- Reads a word or a mark. -/
def recognize : ScanAction Bool := do
  if ← ScanAction.acceptIf isMark then
    ScanAction.addToken mark none
    return true
  let count ← ScanAction.acceptWhile isWordPart
  if count = 0 then return false
  ScanAction.addToken word none
  return true

/-- The recognizer for words and marks.  It remembers nothing. -/
def recognizer : Recognizer Unit where
  begin _ := pure ()
  recognize _ := do return (← recognize, ())

end Words

end FrontEnd
