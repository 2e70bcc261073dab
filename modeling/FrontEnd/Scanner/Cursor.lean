import FrontEnd.Location
import FrontEnd.Text.Rune

/-!
# Cursors

A cursor is a place in a source text: the bytes in front of it, the number of bytes
behind it, and its location.  It moves forward one character at a time and never splits
one.

Main statements: `Cursor.total_advance`, the bytes behind and in front of a cursor always
add up to the same number, and `Cursor.length_advance_lt`, a cursor that is not at the end
has fewer bytes in front of it after a move.
-/

namespace FrontEnd

/-- A place in a source text. -/
structure Cursor where
  /-- The bytes from here to the end of the text. -/
  rest : Text
  /-- The number of bytes before this place. -/
  offset : Nat
  location : Location
  deriving DecidableEq, Repr

namespace Cursor

/-- The cursor of a scanner that has no text yet. -/
def nowhere : Cursor := ⟨[], 0, .null⟩

/-- The front of a text. -/
def start (text : Text) : Cursor := ⟨text, 0, .start⟩

/-- Whether there is nothing in front of the cursor. -/
def atEnd (c : Cursor) : Bool := c.rest.isEmpty

/-- The character in front of the cursor. -/
def peek? (c : Cursor) : Option Char := c.rest.rune?.map (·.char)

/-- The character behind the one in front of the cursor. -/
def peekNext? (c : Cursor) : Option Char :=
  match c.rest.rune? with
  | none => none
  | some r => (Text.rune? (c.rest.drop r.width)).map (·.char)

/-- Whether the text from here on starts with `marker`. -/
def startsWith (c : Cursor) (marker : Text) : Bool := marker.isPrefixOf c.rest

/-- Whether a line ends behind the character `c` if `rest` follows it: a carriage return
in front of a line feed does not end a line, since the line feed does. -/
def breaksLine (c : Char) (rest : Text) : Bool :=
  c = '\n' || (c = '\r' && rest.head? != some 0x0A)

/-- The cursor behind the character in front of it; at the end of the text it stays. -/
def advance (c : Cursor) : Cursor :=
  match c.rest.rune? with
  | none => c
  | some r =>
    let rest := c.rest.drop r.width
    { rest := rest
      offset := c.offset + r.width
      location :=
        if breaksLine r.char rest then c.location.nextLine else c.location.nextColumn }

theorem advance_of_rune? {c : Cursor} {r : Rune} (h : c.rest.rune? = some r) :
    c.advance.rest = c.rest.drop r.width ∧ c.advance.offset = c.offset + r.width := by
  simp [advance, h]

theorem advance_of_atEnd {c : Cursor} (h : c.atEnd) : c.advance = c := by
  have : c.rest = [] := by simpa [atEnd] using h
  simp [advance, this, Text.rune?]

/-- The bytes behind a cursor and those in front of it. -/
def total (c : Cursor) : Nat := c.offset + c.rest.length

/-- Moving a cursor neither loses bytes nor makes any. -/
@[simp] theorem total_advance (c : Cursor) : c.advance.total = c.total := by
  cases h : c.rest.rune? with
  | none => simp [advance, h]
  | some r =>
    have := Text.width_bounds_of_rune? h
    obtain ⟨hrest, hoffset⟩ := advance_of_rune? h
    simp only [total, hrest, hoffset, List.length_drop]
    omega

/-- A cursor never moves backwards. -/
theorem offset_le_advance (c : Cursor) : c.offset ≤ c.advance.offset := by
  cases h : c.rest.rune? with
  | none => simp [advance, h]
  | some r => rw [(advance_of_rune? h).2]; omega

/-- A cursor that is not at the end of the text moves forward. -/
theorem offset_lt_advance {c : Cursor} (h : c.atEnd = false) :
    c.offset < c.advance.offset := by
  cases hr : c.rest.rune? with
  | none => simp_all [atEnd]
  | some r =>
    have := Text.width_pos_of_rune? hr
    rw [(advance_of_rune? hr).2]; omega

theorem length_advance_lt {c : Cursor} (h : c.atEnd = false) :
    c.advance.rest.length < c.rest.length := by
  have := offset_lt_advance h
  have := total_advance c
  simp only [total] at this
  omega

/-- Moves a cursor forward while it is in front of a character and `go` holds; returns
`count` plus the number of characters passed. -/
def advanceWhile (go : Cursor → Bool) (count : Nat) (c : Cursor) : Nat × Cursor :=
  if h : c.atEnd then (count, c)
  else if go c then advanceWhile go (count + 1) c.advance
  else (count, c)
termination_by c.rest.length
decreasing_by exact length_advance_lt (by simpa using h)

/-- Moves a cursor forward until at least `offset` bytes are behind it. -/
def advanceTo (offset : Int) (c : Cursor) : Cursor :=
  (c.advanceWhile (fun c => c.offset < offset) 0).2

@[simp] theorem total_advanceWhile (go : Cursor → Bool) (count : Nat) (c : Cursor) :
    (c.advanceWhile go count).2.total = c.total := by
  fun_induction advanceWhile go count c <;> simp_all

theorem offset_le_advanceWhile (go : Cursor → Bool) (count : Nat) (c : Cursor) :
    c.offset ≤ (c.advanceWhile go count).2.offset := by
  fun_induction advanceWhile go count c with
  | case1 => simp
  | case2 count c h hgo ih => exact Nat.le_trans (offset_le_advance c) ih
  | case3 => simp

/-- A cursor in front of a character at which `go` holds moves forward. -/
theorem offset_lt_advanceWhile {go : Cursor → Bool} {count : Nat} {c : Cursor}
    (h : c.atEnd = false) (hgo : go c) :
    c.offset < (c.advanceWhile go count).2.offset := by
  rw [advanceWhile]
  simp only [h, Bool.false_eq_true, ↓reduceDIte, hgo, ↓reduceIte]
  exact Nat.lt_of_lt_of_le (offset_lt_advance h) (offset_le_advanceWhile go _ _)

/-- Where `advanceWhile` stops, the text ends or `go` fails. -/
theorem stop_advanceWhile (go : Cursor → Bool) (count : Nat) (c : Cursor) :
    (c.advanceWhile go count).2.atEnd ∨ go (c.advanceWhile go count).2 = false := by
  fun_induction advanceWhile go count c with
  | case1 count c h => exact .inl h
  | case2 count c h hgo ih => exact ih
  | case3 count c h hgo => exact .inr (by simpa using hgo)

end Cursor

end FrontEnd
