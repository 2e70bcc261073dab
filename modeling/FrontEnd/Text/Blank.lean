import FrontEnd.Text.Ranges

/-!
# White space

The characters that separate words and are skipped between tokens.
-/

namespace FrontEnd

namespace Text

/-- The ranges of white space characters. -/
def blankRanges : Ranges :=
  [ (0x9, 0xD), (0x20, 0x20), (0x85, 0x85), (0xA0, 0xA0), (0x1680, 0x1680), (0x2000, 0x200A),
    (0x2028, 0x2029), (0x202F, 0x202F), (0x205F, 0x205F), (0x3000, 0x3000)]

/-- Whether a character is white space. -/
def isBlank (c : Char) : Bool := Ranges.contains c.toNat blankRanges

end Text

end FrontEnd
