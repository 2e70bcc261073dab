import FrontEnd.Text.Rune
import FrontEnd.Text.Printable

/-!
# Quoted texts

Messages and tables show lexemes in quotes.  Printable characters stand for
themselves, the quote and the backslash get a backslash in front, the usual control
characters have one-letter escapes, and everything else is written by its number in
hexadecimal digits.  A byte that is part of no character is shown by its value.
-/

namespace FrontEnd

namespace Text

/-- `n` in hexadecimal digits, with leading zeros up to `width` digits. -/
def hex (width n : Nat) : Text :=
  let digits := Nat.toDigits 16 n
  ofChars (List.replicate (width - digits.length) '0' ++ digits)

/-- The letter that follows the backslash for a control character with a short escape. -/
def shortEscape? (c : Char) : Option Char :=
  match c.toNat with
  | 0x07 => some 'a'
  | 0x08 => some 'b'
  | 0x0C => some 'f'
  | 0x0A => some 'n'
  | 0x0D => some 'r'
  | 0x09 => some 't'
  | 0x0B => some 'v'
  | _ => none

/-- A character that does not show itself. -/
def escapeHidden (c : Char) : Text :=
  match shortEscape? c with
  | some letter => ofChars ['\\', letter]
  | none =>
    if c.toNat < 0x80 then ofString "\\x" ++ hex 2 c.toNat
    else if c.toNat < 0x10000 then ofString "\\u" ++ hex 4 c.toNat
    else ofString "\\U" ++ hex 8 c.toNat

/-- A character between quotes of the given kind. -/
def escapeChar (quote c : Char) : Text :=
  if c = quote ∨ c = '\\' then ofChars ['\\', c]
  else if isPrintable c then ofChar c
  else escapeHidden c

/-- A character of a quoted text; stray bytes are shown by their value. -/
def escapeRune (quote : Char) (r : Rune) (bytes : Text) : Text :=
  if r = Rune.stray then bytes.flatMap fun b => ofString "\\x" ++ hex 2 b.toNat
  else escapeChar quote r.char

/-- A text in double quotes. -/
def quoted (t : Text) : Text :=
  ofString "\"" ++ t.spelling.flatMap (fun (r, bytes) => escapeRune '"' r bytes)
    ++ ofString "\""

/-- A character in single quotes. -/
def quotedChar (c : Char) : Text :=
  ofString "'" ++ escapeChar '\'' c ++ ofString "'"

end Text

end FrontEnd
