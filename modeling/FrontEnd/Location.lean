import FrontEnd.Text.Basic

/-!
# Locations and spans

A location is a place in a source text as a reader sees it: line and column, both
counted from one.  A span is a range of byte offsets.
-/

namespace FrontEnd

/-- A line and a column of a source text.  Line 0 stands for "nowhere". -/
structure Location where
  line : Int
  column : Int
  deriving DecidableEq, Repr, Inhabited

namespace Location

/-- The location that is nowhere. -/
def null : Location := ⟨0, 0⟩

/-- The first character of a text. -/
def start : Location := ⟨1, 1⟩

/-- Whether a location is nowhere. -/
def isNull (l : Location) : Bool := l.line = 0

/-- The location one column to the right. -/
def nextColumn (l : Location) : Location := ⟨l.line, l.column + 1⟩

/-- The location at the start of the next line. -/
def nextLine (l : Location) : Location := ⟨l.line + 1, 1⟩

/-- A location in the form `line:column`. -/
def toText (l : Location) : Text :=
  Text.ofInt l.line ++ Text.ofString ":" ++ Text.ofInt l.column

end Location

/-- A range of byte offsets: from `first` up to, but not including, `stop`. -/
structure Span where
  first : Int
  stop : Int
  deriving DecidableEq, Repr, Inhabited

namespace Span

/-- The span that covers nothing, at the front of a text. -/
def null : Span := ⟨0, 0⟩

/-- Whether a span is the null span. -/
def isNull (s : Span) : Bool := s = null

/-- The number of bytes in a span, as a signed 64-bit word. -/
def length (s : Span) : Int := (s.stop - s.first).bmod (Nat.pow 2 64)

/-- Whether two spans have a byte in common. -/
def overlaps (s t : Span) : Bool := s.first < t.stop && t.first < s.stop

/-- A span in the form `(first…stop)`. -/
def toText (s : Span) : Text :=
  Text.ofString "(" ++ Text.ofInt s.first ++ Text.ofString "…" ++ Text.ofInt s.stop
    ++ Text.ofString ")"

end Span

end FrontEnd
