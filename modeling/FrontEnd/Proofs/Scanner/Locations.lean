import FrontEnd.Proofs.Scanner.Moments
import FrontEnd.Scanner.Script
import Mathlib.Data.Set.Card

/-!
# Locations are right

A location can be counted out: the line is one more than the number of line ends in front of an
offset, and the column one more than the number of characters that start between the last of them
and the offset, in the reading of the text from its front (`Text.countedLocation`).  A scanner does
not count.  It keeps its location up to date with every character it passes, looking one byte ahead
to see whether a carriage return ends a line.  At every moment of a scan it arrives at the same
location, and so does every token (`moment_located`).  So the tokens of a scan are located one behind
the other (`Sound.pairwise_location`).
-/

namespace FrontEnd

/-- A location is on an earlier line than another one, or to the left of it. -/
def Location.Before (a b : Location) : Prop :=
  a.line < b.line ∨ a.line = b.line ∧ a.column < b.column

theorem Location.not_before_self (a : Location) : ¬ a.Before a := by
  intro before
  rcases before with earlier | ⟨_, sooner⟩
  · exact Int.lt_irrefl _ earlier
  · exact Int.lt_irrefl _ sooner

namespace Text

/-- The offsets from `first` up to `stop` at which a character of the text starts. -/
def runeStarts (text : Text) (first stop : Nat) : Set Nat :=
  {i | first ≤ i ∧ i < stop ∧ text.Boundary i}

/-- The location of the offset `n`, counted out. -/
noncomputable def countedLocation (text : Text) (n : Nat) : Location where
  line := 1 + (List.range n).countP text.endsLineAt
  column := 1 + (text.runeStarts (text.lineStart n) n).ncard

variable {text u v : Text} {n m : Nat} {r : Rune}

theorem finite_runeStarts (text : Text) (first stop : Nat) : (text.runeStarts first stop).Finite :=
  (Set.finite_lt_nat stop).subset fun _ member => member.2.1

/-- Between the start of a character and its end there is no boundary. -/
theorem Boundary.le_or_next_le (boundary : Boundary text n)
    (first : rune? (text.drop n) = some r) (other : Boundary text m) :
    m ≤ n ∨ n + r.width ≤ m := by
  -- On the sum of the two offsets, since a step back on one side exchanges their roles.
  induction size : n + m using Nat.strongRecOn generalizing n m r with
  | ind size ih =>
      cases other with
      | front => exact Or.inl (Nat.zero_le n)
      | @next k q before start =>
          have positive := width_pos_of_rune? start
          rcases ih (n + k) (by omega) boundary first before rfl with le | behind
          · rcases Nat.eq_or_lt_of_le le with rfl | lt
            · obtain rfl := Option.some.inj (first.symm.trans start)
              exact Or.inr (Nat.le_refl _)
            · rcases ih (k + n) (by omega) before start boundary rfl with back | ahead
              · omega
              · exact Or.inl ahead
          · exact Or.inr (by omega)

theorem runeStarts_next (boundary : Boundary text n) (first : rune? (text.drop n) = some r)
    {stop : Nat} (inside : n < stop) :
    text.runeStarts n stop = insert n (text.runeStarts (n + r.width) stop) := by
  have positive := width_pos_of_rune? first
  ext i
  simp only [runeStarts, Set.mem_ofPred_eq, Set.mem_insert_iff]
  constructor
  · rintro ⟨low, high, isStart⟩
    rcases boundary.le_or_next_le first isStart with le | behind
    · exact Or.inl (Nat.le_antisymm le low)
    · exact Or.inr ⟨behind, high, isStart⟩
  · rintro (rfl | ⟨low, high, isStart⟩)
    · exact ⟨Nat.le_refl _, inside, boundary⟩
    · exact ⟨by omega, high, isStart⟩

/-- Whole characters are counted by their starts. -/
theorem ncard_runeStarts (boundary : Boundary text n) (split : text.drop n = u ++ v)
    (whole : Whole u v) : (text.runeStarts n (n + u.length)).ncard = u.chars.length := by
  induction whole generalizing n with
  | nil =>
      have none : text.runeStarts n (n + ([] : Text).length) = ∅ := by
        ext i
        simp only [runeStarts, List.length_nil, Nat.add_zero, Set.mem_ofPred_eq,
          Set.mem_empty_iff_false, iff_false]
        omega
      rw [none, Set.ncard_empty, chars_nil, List.length_nil]
  | @cons c u v r first width _ _ ih =>
      rw [List.append_assoc] at split
      have passed : (c ++ u).chars = r.char :: u.chars :=
        chars_first (rune?_front first width) width
      have positive := width_pos_of_rune? first
      rw [← split] at first
      have next : text.drop (n + r.width) = u ++ v := width ▸ drop_add_of_split split
      have rest := ih (.next boundary first) next
      have notAgain : n ∉ text.runeStarts (n + r.width) (n + r.width + u.length) := by
        intro member
        have := member.1
        omega
      rw [List.length_append, width, ← Nat.add_assoc, runeStarts_next boundary first (by omega),
        Set.ncard_insert_of_notMem notAgain (finite_runeStarts text _ _), rest, passed,
        List.length_cons]

theorem Boundary.lineStart (boundary : Boundary text n) : Boundary text (text.lineStart n) := by
  induction boundary with
  | front => exact .front
  | @next n r before first ih =>
      rcases endsLine_or_inLine first with ⟨_, single, ends⟩ | ⟨_, inLine⟩
      · rw [single, Text.lineStart, if_pos ends, ← single]
        exact .next before first
      · rw [(text.line_add n r.width inLine).2]
        exact ih

theorem drop_lineStart (bounded : n ≤ text.length) :
    text.drop (text.lineStart n) = text.lineHead n ++ text.drop n ∧
      text.lineStart n + (text.lineHead n).length = n := by
  have low := text.lineStart_le n
  have length : (text.take n).length = n := by rw [List.length_take, Nat.min_eq_left bounded]
  constructor
  · have inFront : text.lineStart n ≤ (text.take n).length := low.trans_eq length.symm
    rw [lineHead, ← List.drop_append_of_le_length inFront, List.take_append_drop]
  · rw [lineHead, List.length_drop, length]
    omega

/-- At a boundary the location is the one that is counted out. -/
theorem locationAt_eq_counted (boundary : Boundary text n) :
    text.locationAt n = text.countedLocation n := by
  obtain ⟨split, stop⟩ := drop_lineStart boundary.le_length
  have count := ncard_runeStarts boundary.lineStart split boundary.whole_lineHead
  rw [stop] at count
  rw [locationAt, countedLocation, count, lineEnds]

/-! ## Locations in order -/

theorem lineEnds_mono (text : Text) (le : n ≤ m) : text.lineEnds n ≤ text.lineEnds m :=
  (List.range_sublist.mpr le).countP_le

/-- Two offsets on one line have one line start. -/
theorem lineStart_eq_of_lineEnds_eq (le : n ≤ m) (same : text.lineEnds n = text.lineEnds m) :
    text.lineStart n = text.lineStart m := by
  obtain ⟨k, rfl⟩ := Nat.exists_eq_add_of_le le
  refine (text.line_add n k fun i low high => ?_).2.symm
  by_contra ends
  have before := text.lineEnds_mono low
  have behind := text.lineEnds_mono (Nat.succ_le_of_lt high)
  rw [Nat.succ_eq_add_one, lineEnds_succ, if_pos (Bool.not_eq_false _ ▸ ends)] at behind
  omega

/-- The location of an offset is not before those of smaller offsets. -/
theorem not_before_countedLocation (le : n ≤ m) :
    ¬ (text.countedLocation m).Before (text.countedLocation n) := by
  have lines := text.lineEnds_mono le
  intro before
  rcases before with earlier | ⟨sameLine, sooner⟩
  · have : (text.lineEnds m : Int) < text.lineEnds n := Int.lt_of_add_lt_add_left earlier
    omega
  · -- On one line, every character that starts before the first offset starts before the second.
    have same : text.lineEnds n = text.lineEnds m :=
      (Int.ofNat.inj (Int.add_left_cancel sameLine)).symm
    have start := lineStart_eq_of_lineEnds_eq le same
    have subset : text.runeStarts (text.lineStart n) n ⊆ text.runeStarts (text.lineStart m) m := by
      rw [start]
      exact fun i member => ⟨member.1, member.2.1.trans_le le, member.2.2⟩
    have fewer := Set.ncard_le_ncard subset (finite_runeStarts text _ _)
    have : ((text.runeStarts (text.lineStart m) m).ncard : Int) <
        (text.runeStarts (text.lineStart n) n).ncard := Int.lt_of_add_lt_add_left sooner
    omega

end Text

namespace Scanner

/-- At every moment of a scan, and of what is done after it, the cursor is at a boundary between
characters, its location is the one that is counted out, and so is that of every token. -/
theorem moment_located {σ : Type} {r : Recognizer σ} {strict : Bool} {memory : σ} {s t : Scanner}
    {text : Text} (moment : Moment r strict memory s text t) :
    text.Boundary t.cursor.offset ∧
      t.cursor.location = text.countedLocation t.cursor.offset ∧
      ∀ x ∈ t.tokens, ∃ n : Nat, x.span.first = n ∧ text.Boundary n ∧
        x.location = text.countedLocation n := by
  have sound := moment.sound
  refine ⟨sound.cursor.boundary, ?_, fun x member => ?_⟩
  · rw [sound.cursor.location_eq, Text.locationAt_eq_counted sound.cursor.boundary]
  · obtain ⟨i, j, cut, _⟩ := sound.cut x member
    refine ⟨i, ?_, cut.first, ?_⟩
    · rw [cut.span_eq]
    · rw [cut.location_eq, Text.locationAt_eq_counted cut.first]

/-- No token is located before an earlier one. -/
theorem Sound.pairwise_location {text : Text} {s : Scanner} (sound : s.Sound text) :
    s.tokens.Pairwise fun x y => ¬ y.location.Before x.location := by
  apply sound.sorted.imp_of_mem
  intro x y first second inOrder
  obtain ⟨i, j, cut, _⟩ := sound.cut x first
  obtain ⟨k, l, cut', _⟩ := sound.cut y second
  rw [cut.span_eq, cut'.span_eq] at inOrder
  rw [cut.location_eq, cut'.location_eq, Text.locationAt_eq_counted cut.first,
    Text.locationAt_eq_counted cut'.first]
  exact Text.not_before_countedLocation (cut.le.trans (Int.ofNat_le.mp inOrder))

/-- A recognizer that starts a token in the middle of a line break, before the scan begins. -/
def splitting : Recognizer ScriptMemory :=
  scripted [.perform .advance, .perform .startToken, .perform .advance, .perform (.addToken 1 none)]
    []

theorem moment_located_splitting :
    ∃ t, Moment splitting false .empty (.new .off) [0x0D, 0x0A, 0x41] t ∧
      t.tokens = [⟨1, [0x0A], ⟨1, 2⟩, ⟨1, 2⟩, none⟩] ∧
      Text.countedLocation [0x0D, 0x0A, 0x41] 1 = ⟨1, 2⟩ ∧
      Text.countedLocation [0x0D, 0x0A, 0x41] 2 = ⟨2, 1⟩ := by
  have moment : Moment splitting false .empty (.new .off) [0x0D, 0x0A, 0x41]
      ((splitting.begin .empty).run ((Scanner.new .off).reset [0x0D, 0x0A, 0x41])).2 :=
    .opening ((splitting.begin _).reaches _) (.refl _)
  obtain ⟨_, location, located⟩ := moment_located moment
  have tokens :
      ((splitting.begin .empty).run ((Scanner.new .off).reset [0x0D, 0x0A, 0x41])).2.tokens =
        [⟨1, [0x0A], ⟨1, 2⟩, ⟨1, 2⟩, none⟩] := by
    decide
  rw [tokens] at located
  obtain ⟨n, first, _, counted⟩ := located _ List.mem_cons_self
  obtain rfl : 1 = n := Int.ofNat.inj first
  exact ⟨_, moment, tokens, counted.symm, location.symm.trans (by decide)⟩

end Scanner

end FrontEnd
