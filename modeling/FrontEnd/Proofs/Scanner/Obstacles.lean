import FrontEnd.Proofs.Scanner.Locations
import FrontEnd.Proofs.Scanner.Moves
import FrontEnd.Proofs.Text.Encoding

/-!
# Where a recognizer stops on its way

A recognizer that accepts characters of a class comes to a stop at the first obstacle: the end of
the text, a comment, or a character outside of the class.  It looks for comments at the boundaries
between characters only.  Still none starts anywhere in what it has accepted, not even in the middle
of a character (`opens_inside_eq_false`): there all bytes are continuation bytes, and a marker that
is valid UTF-8 does not start with one.

This holds at every place that a scanner can get to, whatever has happened to it before
(`Reachable`).  Main statement: `Scanner.acceptWhile_stops_first`.
-/

namespace FrontEnd

open Text (Valid)

namespace Text

variable {text t : Text} {n i k : Nat} {r : Rune}

/-! ## Inside of characters -/

/-- Behind the first byte of a character there are continuation bytes only. -/
theorem isContinuation_inside (first : rune? t = some r) (behind : 0 < k) (inside : k < r.width) :
    ∀ b ∈ (t.drop k).head?, isContinuation b = true := by
  cases t with
  | nil => cases first
  | cons x t =>
      by_cases ascii : x < 0x80
      · rw [rune?_ascii ascii] at first
        cases first
        change k < 1 at inside
        omega
      rw [rune?_not_ascii ascii] at first
      cases several : multibyte? x t with
      | none =>
          rw [several] at first
          cases first
          change k < 1 at inside
          omega
      | some r' =>
          rw [several] at first
          cases first
          obtain ⟨c, v, rfl, width, continues, _⟩ := exists_of_multibyte? several
          rw [Option.getD_some, ← width] at inside
          obtain ⟨j, rfl⟩ : ∃ j, k = j + 1 := ⟨k - 1, by omega⟩
          intro b front
          rw [List.drop_succ_cons, List.head?_drop, List.getElem?_append_left (by omega)] at front
          exact continues b (List.mem_of_getElem? front)

/-- Every offset lies in a character of the text. -/
theorem Boundary.exists_around (boundary : Boundary text n) (le : n ≤ i)
    (inside : i < text.length) :
    ∃ m r, n ≤ m ∧ Boundary text m ∧ rune? (text.drop m) = some r ∧ m ≤ i ∧ i < m + r.width := by
  induction size : i - n using Nat.strongRecOn generalizing n with
  | ind size ih =>
      have present : text.drop n ≠ [] := by
        rw [Ne, List.drop_eq_nil_iff]
        omega
      obtain ⟨r, first⟩ := exists_rune? present
      have positive := width_pos_of_rune? first
      by_cases near : i < n + r.width
      · exact ⟨n, r, Nat.le_refl n, boundary, first, le, near⟩
      · obtain ⟨m, q, ahead, around⟩ := ih (i - (n + r.width)) (by omega) (.next boundary first)
          (by omega) rfl
        exact ⟨m, q, by omega, around⟩

theorem runeStarts_self (text : Text) (n : Nat) : text.runeStarts n n = ∅ := by
  ext i
  simp only [runeStarts, Set.mem_ofPred_eq, Set.mem_empty_iff_false, iff_false]
  omega

/-- A valid text that is not empty does not occur inside of a character. -/
theorem Valid.not_inside {needle : Text} (valid : Valid needle) (present : needle ≠ [])
    (first : rune? t = some r) (behind : 0 < k) (inside : k < r.width) : ¬ needle <+: t.drop k := by
  rintro ⟨v, occurs⟩
  have starts := valid.starts present v
  have continues := isContinuation_inside first behind inside
  rw [occurs] at starts
  cases front : (t.drop k).head? with
  | none =>
      rw [List.head?_eq_none_iff, ← occurs, List.append_eq_nil_iff] at front
      exact present front.1
  | some b =>
      have isOne := continues b front
      rw [starts b front] at isOne
      cases isOne

end Text

/-- A comment does not start inside of a character. -/
theorem CommentStyle.opens_inside_eq_false {style : CommentStyle} {t : Text} {r : Rune} {k : Nat}
    (lineValid : Valid style.line) (blockValid : Valid style.blockStart)
    (first : Text.rune? t = some r) (behind : 0 < k) (inside : k < r.width) :
    style.opens (t.drop k) = false := by
  have absent {marker : Text} (valid : Valid marker) :
      (!marker.isEmpty && marker.isPrefixOf (t.drop k)) = false := by
    rw [Bool.and_eq_false_iff, Bool.not_eq_false', List.isEmpty_iff, Bool.eq_false_iff, Ne,
      List.isPrefixOf_iff_prefix, or_iff_not_imp_left]
    exact fun present => valid.not_inside present first behind inside
  rw [opens, opensLine, opensBlock, absent lineValid, absent blockValid, Bool.or_false]

/-! ## Every place that a scanner can get to -/

/-- The cursor is at a boundary between characters of the text, and the text goes on as it says. -/
structure Cursor.Placed (text : Text) (c : Cursor) : Prop where
  boundary : text.Boundary c.offset
  rest_eq : c.rest = text.drop c.offset

namespace Cursor

variable {text : Text} {c : Cursor} {r : Rune}

theorem Placed.exists_rune? (placed : c.Placed text) (inFront : c.atEnd = false) :
    ∃ r, Text.rune? (text.drop c.offset) = some r ∧ c.advance.offset = c.offset + r.width ∧
      c.advance.Placed text := by
  obtain ⟨r, first⟩ := Text.exists_rune? (List.isEmpty_eq_false_iff.mp inFront)
  obtain ⟨rest, offset⟩ := advance_of_rune? first
  rw [placed.rest_eq] at first rest
  refine ⟨r, first, offset, ?_, ?_⟩
  · rw [offset]
    exact .next placed.boundary first
  · rw [rest, offset, List.drop_drop]

theorem Placed.advance (placed : c.Placed text) : c.advance.Placed text := by
  cases ended : c.atEnd with
  | true =>
      rw [advance_of_atEnd ended]
      exact placed
  | false =>
      obtain ⟨_, _, _, next⟩ := placed.exists_rune? ended
      exact next

theorem Placed.atEnd_iff (placed : c.Placed text) : c.atEnd = true ↔ c.offset = text.length := by
  have bounded := placed.boundary.le_length
  rw [atEnd, List.isEmpty_iff, placed.rest_eq, List.drop_eq_nil_iff]
  omega

end Cursor

namespace Scanner

/-- The states that a scanner can get into: it is made, it is put to the front of a text, and it
takes single steps, in any order. -/
inductive Reachable : Scanner → Prop where
  | new (style : CommentStyle) : Reachable (.new style)
  | reset {s : Scanner} (before : Reachable s) (text : Text) : Reachable (s.reset text)
  | step {s t : Scanner} (before : Reachable s) (step : Step s t) : Reachable t

/-- All moments of a scan are among these states, and so are those after it. -/
theorem Moment.reachable {σ : Type} {r : Recognizer σ} {strict : Bool} {memory : σ}
    {s t : Scanner} {text : Text} (moment : Moment r strict memory s text t)
    (reachable : Reachable s) : Reachable t :=
  Steps.invariant (fun _ _ step before => .step before step) moment.reaches (.reset reachable text)

theorem Reachable.placed {s : Scanner} (reachable : Reachable s) : s.cursor.Placed s.text := by
  induction reachable with
  | new style => exact ⟨.front, rfl⟩
  | reset before text => exact ⟨.front, rfl⟩
  | step before step ih =>
      cases step with
      | advance => exact ih.advance
      | startToken | addToken | reportAt | lineComments | blockComments | recordComments => exact ih

end Scanner

/-! ## The first obstacle -/

/-- At the offset `i` something keeps a scanner from going on: the text ends, a comment starts, or
there is a character outside of the class `p`. -/
def ObstacleAt (style : CommentStyle) (p : Char → Bool) (text : Text) (i : Nat) : Prop :=
  i = text.length ∨ style.opens (text.drop i) = true ∨
    ∃ r, Text.rune? (text.drop i) = some r ∧ p r.char = false

/-- A scanner can go on where there is no obstacle. -/
theorem obstacleAt_iff {style : CommentStyle} {p : Char → Bool} {text : Text} {i : Nat}
    (bounded : i ≤ text.length) :
    ObstacleAt style p text i ↔ i = text.length ∨ style.outside p (text.drop i) = false := by
  refine or_congr_right' fun inText => ?_
  have present : text.drop i ≠ [] := by
    rw [Ne, List.drop_eq_nil_iff]
    omega
  obtain ⟨r, first⟩ := Text.exists_rune? present
  rw [CommentStyle.outside, Text.frontIs_of_rune? first, Bool.and_eq_false_iff,
    Bool.not_eq_false', first]
  simp

namespace Cursor

variable {text : Text} {c : Cursor}

/-- A cursor that moves while `go` holds stops at the first boundary at which the text ends or `go`
fails, and counts the characters on its way. -/
theorem Placed.advanceWhile {ahead : Cursor → Bool} {go : Text → Bool} (placed : c.Placed text)
    (looks : ∀ d, ahead d = go d.rest) (count : Nat) :
    IsLeast {i | c.offset ≤ i ∧ text.Boundary i ∧ (i = text.length ∨ go (text.drop i) = false)}
        (c.advanceWhile ahead count).2.offset ∧
      (c.advanceWhile ahead count).1 =
        count + (text.runeStarts c.offset (c.advanceWhile ahead count).2.offset).ncard := by
  fun_induction Cursor.advanceWhile ahead count c with
  | case1 count c ended =>
      have last := placed.atEnd_iff.mp ended
      refine ⟨⟨⟨Nat.le_refl _, placed.boundary, Or.inl last⟩, fun _ member => member.1⟩, ?_⟩
      simp [Text.runeStarts_self]
  | case2 count c inFront goes ih =>
      obtain ⟨r, first, offset, next⟩ := placed.exists_rune? (Bool.eq_false_iff.mpr inFront)
      have positive := Text.width_pos_of_rune? first
      obtain ⟨⟨⟨further, stop, obstacle⟩, least⟩, counted⟩ := ih next
      rw [offset] at further counted
      refine ⟨⟨⟨by omega, stop, obstacle⟩, ?_⟩, ?_⟩
      · intro i member
        obtain ⟨low, boundary, there⟩ := member
        rcases placed.boundary.le_or_next_le first boundary with le | behind
        · -- There is no obstacle where the cursor is now.
          obtain rfl := Nat.le_antisymm le low
          rcases there with last | fails
          · exact absurd (placed.atEnd_iff.mpr last) inFront
          · rw [looks, placed.rest_eq, fails] at goes
            cases goes
        · apply least
          exact ⟨offset ▸ behind, boundary, there⟩
      · rw [counted, Text.runeStarts_next placed.boundary first (by omega),
          Set.ncard_insert_of_notMem (fun again => ?_) (Text.finite_runeStarts text _ _)]
        · omega
        · have low := again.1
          omega
  | case3 count c inFront stops =>
      have fails : go (text.drop c.offset) = false := by
        rw [← placed.rest_eq, ← looks]
        exact Bool.eq_false_iff.mpr stops
      refine ⟨⟨⟨Nat.le_refl _, placed.boundary, Or.inr fails⟩, fun _ member => member.1⟩, ?_⟩
      simp [Text.runeStarts_self]

end Cursor

namespace Scanner

/-- A scanner that accepts characters of the class `p`, at any place it can get to, stops at the
first boundary between characters where there is an obstacle, and answers how many characters it
has passed; nothing but the cursor has changed.  No comment starts at any of the bytes in between,
be they at boundaries between characters or not. -/
theorem acceptWhile_stops_first {s : Scanner} (reachable : Reachable s)
    (lineValid : Valid s.comments.line) (blockValid : Valid s.comments.blockStart)
    (p : Char → Bool) :
    let start := s.cursor.offset
    let result := (ScanAction.acceptWhile p).run s
    let stop := result.2.cursor.offset
    IsLeast {i | start ≤ i ∧ s.text.Boundary i ∧ ObstacleAt s.comments p s.text i} stop ∧
      result.1 = (s.text.runeStarts start stop).ncard ∧
      result.2 = { s with cursor := result.2.cursor } ∧
      ∀ i, start ≤ i → i < stop → s.comments.opens (s.text.drop i) = false := by
  intro start result stop
  have placed := reachable.placed
  have looks (c : Cursor) : (!s.comments.startsAt c && c.peek?.any p) =
      s.comments.outside p c.rest := by
    rw [peek?_any]
    rfl
  obtain ⟨⟨⟨further, atStop, obstacle⟩, least⟩, counted⟩ := placed.advanceWhile looks 0
  have first : ∀ i, start ≤ i → s.text.Boundary i → i < stop →
      ¬ ObstacleAt s.comments p s.text i := by
    intro i low boundary before there
    have late : stop ≤ i := least ⟨low, boundary, (obstacleAt_iff boundary.le_length).mp there⟩
    omega
  refine ⟨⟨⟨further, atStop, (obstacleAt_iff atStop.le_length).mpr obstacle⟩, ?_⟩, ?_, rfl, ?_⟩
  · intro i member
    obtain ⟨low, boundary, there⟩ := member
    by_contra before
    exact first i low boundary (Nat.not_le.mp before) there
  · rw [Nat.zero_add] at counted
    exact counted
  · intro i low before
    have inText : i < s.text.length := before.trans_le atStop.le_length
    obtain ⟨n, r, behind, boundary, rune, le, inside⟩ := placed.boundary.exists_around low inText
    rcases Nat.eq_or_lt_of_le le with rfl | lt
    · have free := first n low boundary before
      rw [Bool.eq_false_iff]
      exact fun opens => free (Or.inr (Or.inl opens))
    · have free := CommentStyle.opens_inside_eq_false lineValid blockValid rune
        (Nat.sub_pos_of_lt lt) (by omega : i - n < r.width)
      rwa [List.drop_drop, Nat.add_sub_cancel' le] at free

/-- A character of two bytes, the first byte of another one, and a copyright sign. -/
def copyrightText : Text := [0xC3, 0xA9, 0xC2, 0xC2, 0xA9]

/-- A scanner in front of it, for which a copyright sign starts a comment. -/
def copyrightScanner : Scanner :=
  (Scanner.new (CommentStyle.off.withLine [0xC2, 0xA9])).reset copyrightText

theorem acceptWhile_stops_first_copyright :
    Reachable copyrightScanner ∧ Valid copyrightScanner.comments.line ∧
      Valid copyrightScanner.comments.blockStart ∧
      ((ScanAction.acceptWhile fun _ => true).run copyrightScanner).1 = 2 ∧
      ((ScanAction.acceptWhile fun _ => true).run copyrightScanner).2.cursor.offset = 3 ∧
      ∀ i < 3, copyrightScanner.comments.opens (copyrightText.drop i) = false := by
  have reachable : Reachable copyrightScanner := .reset (.new _) copyrightText
  have line : Valid copyrightScanner.comments.line := ⟨['©'], rfl⟩
  have block : Valid copyrightScanner.comments.blockStart := ⟨[], rfl⟩
  have stop : ((ScanAction.acceptWhile fun _ => true).run copyrightScanner).2.cursor.offset =
      3 := by
    decide +kernel
  obtain ⟨_, _, _, free⟩ := acceptWhile_stops_first reachable line block fun _ => true
  rw [stop] at free
  exact ⟨reachable, line, block, by decide +kernel, stop,
    fun i before => free i (Nat.zero_le i) before⟩

end Scanner

end FrontEnd
