import FrontEnd.Proofs.Text.Stretch
import FrontEnd.Scanner.Cursor

/-!
# Places in a text

Where an offset of a text lies as a reader sees it, said without a cursor: the line is the
number of line ends in front of it, and the column the number of characters between it and the
last of these (`Text.locationAt`).

A cursor that has moved from the front of a text to an offset is there: what is in front of it
and its location are those of the offset (`Text.cursorAt`).  So the moves of a cursor are steps
from one boundary between characters to the next (`advance_cursorAt`, `advanceWhile_cursorAt`).
-/

namespace FrontEnd

namespace Text

/-- Whether a line ends with the byte at offset `i`: it is a line feed, or a carriage return that
no line feed follows. -/
def endsLineAt (text : Text) (i : Nat) : Bool :=
  text[i]? == some 0x0A || (text[i]? == some 0x0D && text[i + 1]? != some 0x0A)

/-- The number of lines that end in front of the offset `n`. -/
def lineEnds (text : Text) (n : Nat) : Nat := (List.range n).countP text.endsLineAt

/-- Where the line of the offset `n` starts. -/
def lineStart (text : Text) : Nat → Nat
  | 0 => 0
  | n + 1 => if text.endsLineAt n then n + 1 else text.lineStart n

/-- The part of its line in front of the offset `n`. -/
def lineHead (text : Text) (n : Nat) : Text := (text.take n).drop (text.lineStart n)

/-- The line and the column of the offset `n`. -/
def locationAt (text : Text) (n : Nat) : Location where
  line := 1 + text.lineEnds n
  column := 1 + (text.lineHead n).chars.length

/-- A character of the text starts at the offset `n`, or the text ends there. -/
inductive Boundary (text : Text) : Nat → Prop where
  | front : Boundary text 0
  | next {n : Nat} {r : Rune} (before : Boundary text n)
      (first : rune? (text.drop n) = some r) : Boundary text (n + r.width)

/-- The cursor at the offset `n`. -/
def cursorAt (text : Text) (n : Nat) : Cursor := ⟨text.drop n, n, text.locationAt n⟩

variable {text u v c : Text} {n : Nat} {r : Rune}

theorem drop_add_of_split (split : text.drop n = u ++ v) : text.drop (n + u.length) = v := by
  rw [← List.drop_drop, split, List.drop_left]

theorem take_add_of_split (split : text.drop n = u ++ v) :
    text.take (n + u.length) = text.take n ++ u := by
  rw [List.take_add, split, List.take_left]

/-! ## Lines -/

theorem lineEnds_succ (text : Text) (n : Nat) :
    text.lineEnds (n + 1) = text.lineEnds n + if text.endsLineAt n then 1 else 0 := by
  rw [lineEnds, List.range_succ, List.countP_append, List.countP_singleton, lineEnds]

theorem lineStart_le (text : Text) (n : Nat) : text.lineStart n ≤ n := by
  induction n with
  | zero => exact Nat.le_refl 0
  | succ n ih =>
      rw [lineStart]
      split
      · exact Nat.le_refl _
      · exact Nat.le_succ_of_le ih

/-- Where no line ends the line stays the same. -/
theorem line_add (text : Text) (n k : Nat)
    (inLine : ∀ i, n ≤ i → i < n + k → text.endsLineAt i = false) :
    text.lineEnds (n + k) = text.lineEnds n ∧ text.lineStart (n + k) = text.lineStart n := by
  induction k with
  | zero => exact ⟨rfl, rfl⟩
  | succ k ih =>
      obtain ⟨ends, start⟩ := ih fun i low high => inLine i low (by omega)
      have last : text.endsLineAt (n + k) = false := inLine (n + k) (by omega) (by omega)
      rw [← Nat.add_assoc, lineEnds_succ, lineStart, last]
      exact ⟨ends, start⟩

theorem lineHead_add (split : text.drop n = u ++ v) (bounded : n ≤ text.length)
    (inLine : ∀ i, n ≤ i → i < n + u.length → text.endsLineAt i = false) :
    text.lineHead (n + u.length) = text.lineHead n ++ u := by
  have low : text.lineStart n ≤ (text.take n).length := by
    rw [List.length_take, Nat.min_eq_left bounded]
    exact text.lineStart_le n
  rw [lineHead, (text.line_add n u.length inLine).2, take_add_of_split split,
    List.drop_append_of_le_length low, lineHead]

theorem lineHead_of_endsLineAt (ends : text.endsLineAt n = true) : text.lineHead (n + 1) = [] := by
  rw [lineHead, lineStart, if_pos ends]
  apply List.drop_eq_nil_of_le
  rw [List.length_take]
  exact Nat.min_le_left _ _

theorem endsLineAt_of_above {b : UInt8} (byte : text[n]? = some b) (above : 0x80 ≤ b) :
    text.endsLineAt n = false := by
  have notFeed : b ≠ 0x0A := by rintro rfl; exact absurd above (by decide)
  have notReturn : b ≠ 0x0D := by rintro rfl; exact absurd above (by decide)
  simp [endsLineAt, byte, notFeed, notReturn]

theorem getElem?_of_split (split : text.drop n = u ++ v) (i : Nat) (inside : i < u.length) :
    text[n + i]? = u[i]? := by
  rw [← List.getElem?_drop, split, List.getElem?_append_left inside]

/-- A character that ends a line is one byte, and no line ends with or inside of another one. -/
theorem endsLine_or_inLine (first : rune? (text.drop n) = some r) :
    (Cursor.breaksLine r.char (text.drop (n + r.width)) = true ∧ r.width = 1 ∧
        text.endsLineAt n = true) ∨
      (Cursor.breaksLine r.char (text.drop (n + r.width)) = false ∧
        ∀ i, n ≤ i → i < n + r.width → text.endsLineAt i = false) := by
  rcases ascii_or_above first with ⟨b, rest, split, ascii, rfl⟩ | ⟨above, bytes⟩
  · have front : text[n]? = some b := by
      rw [← Nat.add_zero n, ← List.getElem?_drop, split, List.getElem?_cons_zero]
    have feed : Char.ofNat b.toNat = '\n' ↔ b = 0x0A := by
      rw [ofNat_byte_eq_iff, ← UInt8.toNat_inj]
      rfl
    have carriage : Char.ofNat b.toNat = '\r' ↔ b = 0x0D := by
      rw [ofNat_byte_eq_iff, ← UInt8.toNat_inj]
      rfl
    have same : Cursor.breaksLine (Char.ofNat b.toNat) (text.drop (n + 1)) =
        text.endsLineAt n := by
      simp only [endsLineAt, Cursor.breaksLine, front, feed, carriage, List.head?_drop]
      rfl
    rw [same]
    cases ends : text.endsLineAt n with
    | true => exact Or.inl ⟨rfl, rfl, rfl⟩
    | false =>
        refine Or.inr ⟨rfl, fun i low high => ?_⟩
        obtain rfl : i = n := Nat.le_antisymm (Nat.le_of_lt_succ high) low
        exact ends
  · have notFeed : r.char ≠ '\n' := by
      intro same
      rw [same] at above
      exact absurd above (by decide)
    have notReturn : r.char ≠ '\r' := by
      intro same
      rw [same] at above
      exact absurd above (by decide)
    refine Or.inr ⟨?_, fun i low high => ?_⟩
    · simp only [Cursor.breaksLine, notFeed, notReturn, decide_false, Bool.false_and,
        Bool.or_false]
    · obtain ⟨k, rest, split, width, _⟩ := exists_first first
      rw [split, ← width, List.take_left] at bytes
      obtain ⟨j, rfl⟩ := Nat.exists_eq_add_of_le low
      have inside : j < k.length := by omega
      have byte : text[n + j]? = some k[j] := by
        rw [getElem?_of_split split j inside, List.getElem?_eq_getElem inside]
      exact endsLineAt_of_above byte (bytes _ (List.getElem_mem inside))

/-! ## Boundaries -/

theorem Boundary.le_length (boundary : Boundary text n) : n ≤ text.length := by
  induction boundary with
  | front => exact Nat.zero_le _
  | next _ first _ =>
      have fits := width_le_of_rune? first
      rw [List.length_drop] at fits
      have positive := width_pos_of_rune? first
      omega

/-- Behind whole characters there is a boundary again. -/
theorem Boundary.add (boundary : Boundary text n) (split : text.drop n = u ++ v)
    (whole : Whole u v) : Boundary text (n + u.length) := by
  induction whole generalizing n with
  | nil => exact boundary
  | @cons c u v r first width _ _ ih =>
      rw [List.append_assoc] at split
      rw [← split] at first
      rw [List.length_append, ← Nat.add_assoc]
      refine ih ?_ (drop_add_of_split split)
      rw [width]
      exact .next boundary first

/-- The part of a line in front of a boundary is made of whole characters. -/
theorem Boundary.whole_lineHead (boundary : Boundary text n) :
    Whole (text.lineHead n) (text.drop n) := by
  induction boundary with
  | front => exact .nil _
  | @next n r before first ih =>
      rcases endsLine_or_inLine first with ⟨_, single, ends⟩ | ⟨_, inLine⟩
      · rw [single, lineHead_of_endsLineAt ends]
        exact .nil _
      · obtain ⟨c, rest, split, width, _⟩ := exists_first first
        rw [← width] at inLine ⊢
        rw [lineHead_add split before.le_length inLine, drop_add_of_split split]
        rw [split] at ih first
        exact ih.append (.single first width rfl)

/-- The location behind a character. -/
theorem locationAt_next (boundary : Boundary text n) (first : rune? (text.drop n) = some r) :
    text.locationAt (n + r.width) =
      if Cursor.breaksLine r.char (text.drop (n + r.width)) then (text.locationAt n).nextLine
      else (text.locationAt n).nextColumn := by
  rcases endsLine_or_inLine first with ⟨breaks, single, ends⟩ | ⟨breaks, inLine⟩
  · rw [breaks, single, locationAt, lineHead_of_endsLineAt ends, lineEnds_succ, ends, chars_nil]
    rw [if_pos rfl, if_pos rfl, locationAt, Location.nextLine, List.length_nil]
    congr 1
  · obtain ⟨c, rest, split, width, _⟩ := exists_first first
    have whole := boundary.whole_lineHead
    rw [split] at whole first
    have column : (text.lineHead n ++ c).chars = (text.lineHead n).chars ++ [r.char] := by
      rw [(Whole.cut whole).chars_append, chars_single first width]
    rw [breaks]
    rw [← width] at inLine ⊢
    rw [locationAt, lineHead_add split boundary.le_length inLine,
      (text.line_add n c.length inLine).1, column, List.length_append]
    simp only [Bool.false_eq_true, ↓reduceIte, Location.nextColumn, locationAt]
    congr 1

/-! ## Cursors -/

@[simp] theorem rest_cursorAt (text : Text) (n : Nat) : (text.cursorAt n).rest = text.drop n := rfl

@[simp] theorem offset_cursorAt (text : Text) (n : Nat) : (text.cursorAt n).offset = n := rfl

theorem cursorAt_zero (text : Text) : text.cursorAt 0 = Cursor.start text := by
  rw [cursorAt, locationAt, lineHead, List.take_zero, List.drop_nil, chars_nil]
  rfl

theorem advance_cursorAt (boundary : Boundary text n) (first : rune? (text.drop n) = some r) :
    (text.cursorAt n).advance = text.cursorAt (n + r.width) := by
  unfold Cursor.advance
  simp only [rest_cursorAt, first, List.drop_drop, offset_cursorAt]
  unfold cursorAt
  rw [locationAt_next boundary first]

/-- A cursor that moves while `go` holds passes over a sweep of `go`. -/
theorem advanceWhile_cursorAt {go : Text → Bool} {ahead : Cursor → Bool}
    (boundary : Boundary text n) (split : text.drop n = u ++ v) (sweep : Sweep go u v)
    (looks : ∀ m, m ≤ text.length → ahead (text.cursorAt m) = go (text.drop m)) (count : Nat) :
    (text.cursorAt n).advanceWhile ahead count =
      (count + u.chars.length, text.cursorAt (n + u.length)) := by
  obtain ⟨stretch, stops⟩ := sweep
  induction stretch generalizing n count with
  | nil v =>
      rw [List.nil_append] at split
      rw [Cursor.advanceWhile, looks n boundary.le_length, split]
      rcases stops with rfl | stops
      · simp [Cursor.atEnd, split]
      · rw [stops]
        simp
  | @cons c u v r first width holds _ ih =>
      rw [List.append_assoc] at split
      have ahead := (looks n boundary.le_length).trans (split ▸ holds)
      have next : text.drop (n + c.length) = u ++ v := drop_add_of_split split
      have inFront : (text.cursorAt n).atEnd = false := by
        rw [Cursor.atEnd, rest_cursorAt, split, List.isEmpty_eq_false_iff, Ne, ← rune?_eq_none,
          first]
        exact Option.some_ne_none r
      have passed : (c ++ u).chars = r.char :: u.chars :=
        chars_first (rune?_front first width) width
      rw [← split] at first
      rw [Cursor.advanceWhile, advance_cursorAt boundary first]
      simp only [inFront, Bool.false_eq_true, ↓reduceDIte, ahead, ↓reduceIte]
      rw [ih (.next boundary first) (width ▸ next) (count + 1) stops, passed,
        List.length_cons, List.length_append, width, Nat.add_assoc, Nat.add_assoc,
        Nat.add_comm 1]

end Text

end FrontEnd
