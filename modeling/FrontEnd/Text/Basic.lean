/-!
# Texts

Source texts, lexemes and messages are sequences of bytes.  Nothing promises that
they are valid UTF-8, so they are kept as bytes and read as characters only where
a rule speaks of characters.

This module holds the texts of characters, string literals and numbers, and the
search for one text inside another.
-/

namespace FrontEnd

/-- A text is a sequence of bytes, valid UTF-8 or not. -/
abbrev Text := List UInt8

namespace Text

/-- The UTF-8 bytes of one character. -/
def ofChar (c : Char) : Text := String.utf8EncodeChar c

/-- The UTF-8 bytes of a sequence of characters. -/
def ofChars (cs : List Char) : Text := cs.flatMap ofChar

/-- The UTF-8 bytes of a string. -/
def ofString (s : String) : Text := ofChars s.toList

/-- A number in decimal notation. -/
def ofNat (n : Nat) : Text := ofChars (Nat.toDigits 10 n)

/-- An integer in decimal notation, with a sign only if it is negative. -/
def ofInt : Int → Text
  | .ofNat n => ofNat n
  | .negSucc n => ofString "-" ++ ofNat (n + 1)

/-- `n` blanks. -/
def blanks (n : Nat) : Text := List.replicate n 0x20

/-- The texts `parts`, one after the other, with `separator` between neighbours. -/
def join (separator : Text) (parts : List Text) : Text :=
  separator.intercalate parts

/-- The position of the first occurrence of `needle`, counting positions from `start`. -/
def indexFrom? (needle : Text) (start : Nat) : Text → Option Nat
  | [] => if needle.isEmpty then some start else none
  | b :: rest =>
    if needle.isPrefixOf (b :: rest) then some start
    else indexFrom? needle (start + 1) rest

/-- The position of the first occurrence of `needle` in a text. -/
def indexOf? (needle text : Text) : Option Nat := indexFrom? needle 0 text

/-- The parts of a text between separators; `current` holds the part being read,
last byte first. -/
def splitFrom (separator : UInt8) (current : Text) : Text → List Text
  | [] => [current.reverse]
  | b :: rest =>
    if b = separator then current.reverse :: splitFrom separator [] rest
    else splitFrom separator (b :: current) rest

/-- The parts of a text between separators.  There is one more of them than there are
separators. -/
def splitOn (separator : UInt8) (text : Text) : List Text := splitFrom separator [] text

end Text

end FrontEnd
