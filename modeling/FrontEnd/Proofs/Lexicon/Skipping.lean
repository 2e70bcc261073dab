import FrontEnd.Lexicon
import FrontEnd.Proofs.Scanner.Comment
import FrontEnd.Proofs.Scanner.Locations

/-!
# Comments behind matches that are passed over

The recognizer of a lexicon passes over matches without looking for comments.  It gives the scanner
the chance to look for one only in front of a token, behind the last of these matches.  Where
something else follows, or where a match is not the last one, a comment that starts right behind the
match is not seen, and what is inside of it is read as if it were part of the program
(`recognize_passes_comment_iff`).
-/

namespace FrontEnd

theorem CommentStyle.opens_nil (style : CommentStyle) : style.opens [] = false := by
  have absent (marker : Text) : (!marker.isEmpty && marker.isPrefixOf []) = false := by
    cases marker <;> rfl
  rw [opens, opensLine, opensBlock, absent, absent]
  rfl

namespace Cursor

variable {text : Text} {c : Cursor}

theorem InText.advanceWhile (inText : c.InText text) (go : Cursor → Bool) (count : Nat) :
    (c.advanceWhile go count).2.InText text := by
  fun_induction Cursor.advanceWhile go count c with
  | case1 => exact inText
  | case2 _ _ _ _ ih => exact ih inText.advance
  | case3 => exact inText

/-- A cursor goes as far as it is told to, unless the text ends before. -/
theorem InText.le_offset_advanceTo {k : Nat} (inText : c.InText text) (inside : k ≤ text.length) :
    k ≤ (c.advanceTo k).offset := by
  have there : (c.advanceTo k).InText text := inText.advanceWhile _ 0
  rcases stop_advanceWhile (fun c => c.offset < (k : Int)) 0 c with ended | stopped
  · have nothing : (c.advanceTo k).rest = [] := List.isEmpty_iff.mp ended
    rw [there.rest_eq, List.drop_eq_nil_iff] at nothing
    exact inside.trans nothing
  · rw [decide_eq_false_iff_not] at stopped
    exact Int.ofNat_le.mp (Int.not_lt.mp stopped)

/-- A cursor goes no further than to a boundary that is not in front of where it is told to go. -/
theorem InText.offset_advanceWhile_le {m k : Nat} (inText : c.InText text) (near : m ≤ k)
    (behind : c.offset ≤ k) (boundary : text.Boundary k) (count : Nat) :
    (c.advanceWhile (fun c => c.offset < (m : Int)) count).2.offset ≤ k := by
  fun_induction Cursor.advanceWhile (fun c => c.offset < (m : Int)) count c with
  | case1 => exact behind
  | case3 => exact behind
  | case2 count c inFront before ih =>
      obtain ⟨r, first⟩ : ∃ r, Text.rune? (text.drop c.offset) = some r := by
        rw [← Option.ne_none_iff_exists', Ne, Text.rune?_eq_none, ← inText.rest_eq,
          ← List.isEmpty_iff]
        exact inFront
      have rest := inText.rest_eq
      refine ih inText.advance ?_
      rw [← rest] at first
      rw [(advance_of_rune? first).2]
      rw [rest] at first
      rw [decide_eq_true_iff] at before
      exact (inText.boundary.le_or_next_le first boundary).resolve_left (by omega)

/-- A cursor stops at the first boundary that is not in front of where it is told to go. -/
theorem InText.isLeast_advanceTo {k : Nat} (inText : c.InText text) (behind : c.offset ≤ k)
    (inside : k ≤ text.length) :
    IsLeast {i | k ≤ i ∧ text.Boundary i} (c.advanceTo k).offset := by
  have there : (c.advanceTo k).InText text := inText.advanceWhile _ 0
  refine ⟨⟨inText.le_offset_advanceTo inside, there.boundary⟩, ?_⟩
  rintro i ⟨near, boundary⟩
  exact inText.offset_advanceWhile_le near (behind.trans near) boundary 0

theorem InText.offset_advanceTo {k : Nat} (inText : c.InText text) (behind : c.offset ≤ k)
    (boundary : text.Boundary k) : (c.advanceTo k).offset = k :=
  Nat.le_antisymm (inText.offset_advanceWhile_le (Nat.le_refl k) behind boundary 0)
    (inText.le_offset_advanceTo boundary.le_length)

end Cursor

/-- A match looks at the next byte, if there is one, before it gives up. -/
theorem Regex.seen_longestFrom {α : Type} (live : Matching α) (best : Option (Nat × α))
    (seen : Nat) (t : Text) :
    seen + min 1 t.length ≤ (longestFrom live best seen t).seen ∧
      (longestFrom live best seen t).seen ≤ seen + t.length := by
  fun_induction longestFrom live best seen t with
  | case1 => exact ⟨Nat.le_refl _, Nat.le_refl _⟩
  | case2 =>
      rw [List.length_cons]
      dsimp only
      omega
  | case3 _ _ _ _ _ _ _ _ ih =>
      rw [List.length_cons]
      omega

namespace Lexicon

/-- Where the matches end that a search from `offset` on passes over. -/
def skipEnds (l : Lexicon) (offset : Nat) (rest : Text) : List Nat :=
  match _h : (l.longest rest).best with
  | none => []
  | some (n, rule) =>
    if rule.react (rest.take n) = .skip then (offset + n) :: l.skipEnds (offset + n) (rest.drop n)
    else []
termination_by rest.length
decreasing_by
  have := Regex.best_longest _h
  rw [List.length_drop]
  omega

/-- Where the thing that a search has found starts and ends. -/
def Next.extent? : Next → Option (Nat × Nat)
  | .token offset length _ _ => some (offset, offset + length)
  | .rejected offset stop _ => some (offset, stop)
  | .unrecognized offset stop _ => some (offset, stop)
  | .endOfText => none

/-- Where the recognizer goes when a search from `start` on has come to something. -/
def Next.target (start length : Nat) : Next → Nat
  | .token offset n _ _ => if start < offset then offset else offset + n
  | .rejected _ stop _ => stop
  | .unrecognized _ stop _ => stop
  | .endOfText => length

section Search

variable {l : Lexicon} {offset n : Nat} {rest : Text} {rule : Rule}

theorem skipEnds_of_skip (found : (l.longest rest).best = some (n, rule))
    (skips : rule.react (rest.take n) = .skip) :
    l.skipEnds offset rest = (offset + n) :: l.skipEnds (offset + n) (rest.drop n) := by
  rw [skipEnds]
  split
  · rename_i nothing
    rw [found] at nothing
    cases nothing
  · rename_i other
    rw [found] at other
    cases other
    rw [if_pos skips]

theorem skipEnds_of_react (found : (l.longest rest).best = some (n, rule))
    (reacts : rule.react (rest.take n) ≠ .skip) : l.skipEnds offset rest = [] := by
  rw [skipEnds]
  split
  · rfl
  · rename_i other
    rw [found] at other
    cases other
    rw [if_neg reacts]

theorem skipEnds_of_none (nothing : (l.longest rest).best = none) :
    l.skipEnds offset rest = [] := by
  rw [skipEnds]
  split
  · rfl
  · rename_i found
    rw [nothing] at found
    cases found

/-- What a search comes to where there is a match. -/
theorem next_of_best (found : (l.longest rest).best = some (n, rule)) :
    l.next offset rest = match rule.react (rest.take n) with
      | .skip => l.next (offset + n) (rest.drop n)
      | .token kind literal => .token offset n kind literal
      | .reject message => .rejected offset (offset + n) message := by
  have present : ¬ rest.isEmpty = true := by
    obtain ⟨positive, inside⟩ := Regex.best_longest found
    rw [List.isEmpty_iff, ← List.length_eq_zero_iff]
    omega
  rw [next, if_neg present]
  split
  · rename_i nothing
    rw [found] at nothing
    cases nothing
  · rename_i other
    rw [found] at other
    cases other
    rfl

theorem next_of_skip (found : (l.longest rest).best = some (n, rule))
    (skips : rule.react (rest.take n) = .skip) :
    l.next offset rest = l.next (offset + n) (rest.drop n) := by
  rw [next_of_best found, skips]

theorem next_of_none (present : rest ≠ []) (nothing : (l.longest rest).best = none) :
    l.next offset rest = .unrecognized offset (offset + (l.longest rest).seen)
      (rest.take (l.longest rest).seen) := by
  rw [next, if_neg (mt List.isEmpty_iff.mp present)]
  split
  · rfl
  · rename_i found
    rw [nothing] at found
    cases found

/-- A match looks at some bytes before it gives up. -/
theorem seen_bounds (l : Lexicon) (present : rest ≠ []) :
    0 < (l.longest rest).seen ∧ (l.longest rest).seen ≤ rest.length := by
  have positive := List.length_pos_iff.mpr present
  obtain ⟨low, high⟩ := Regex.seen_longestFrom
    ((l.rules.map fun rule => (rule, rule.pattern)).map fun (rule, r) => (rule, [r])) none 0 rest
  rw [Nat.zero_add] at low high
  exact ⟨(Nat.le_min.mpr ⟨Nat.le_refl 1, positive⟩).trans low, high⟩

end Search

/-- The matches that a search in `length` bytes passes over end behind `offset`, where it starts,
and in front of what it finds. -/
structure InOrder (offset length : Nat) (ends : List Nat) (found : Next) : Prop where
  skipped : ∀ e ∈ ends, offset < e ∧ e ≤ offset + length
  behind : ∀ first stop, found.extent? = some (first, stop) →
    offset ≤ first ∧ first < stop ∧ stop ≤ offset + length ∧ ∀ e ∈ ends, e ≤ first

section Order

variable {offset length n : Nat} {ends : List Nat} {found : Next}

theorem InOrder.first (extent : found.extent? = some (offset, offset + n)) (positive : 0 < n)
    (inside : n ≤ length) : InOrder offset length [] found := by
  refine ⟨fun _ member => absurd member List.not_mem_nil, fun first stop same => ?_⟩
  obtain ⟨rfl, rfl⟩ := Prod.mk.inj (Option.some.inj (extent.symm.trans same))
  exact ⟨Nat.le_refl _, Nat.lt_add_of_pos_right positive, Nat.add_le_add_left inside _,
    fun _ member => absurd member List.not_mem_nil⟩

theorem InOrder.skip (later : InOrder (offset + n) (length - n) ends found) (positive : 0 < n)
    (inside : n ≤ length) : InOrder offset length ((offset + n) :: ends) found := by
  have total : offset + n + (length - n) = offset + length := by omega
  refine ⟨List.forall_mem_cons.mpr ⟨by omega, fun e member => ?_⟩, fun first stop extent => ?_⟩
  · obtain ⟨low, high⟩ := later.skipped e member
    omega
  · obtain ⟨start, proper, high, behind⟩ := later.behind first stop extent
    exact ⟨by omega, proper, by omega, List.forall_mem_cons.mpr ⟨start, behind⟩⟩

theorem inOrder_next (l : Lexicon) (offset : Nat) (rest : Text) :
    InOrder offset rest.length (l.skipEnds offset rest) (l.next offset rest) := by
  fun_induction next l offset rest with
  | case1 offset rest empty =>
      obtain rfl := List.isEmpty_iff.mp empty
      rw [skipEnds_of_none rfl]
      refine ⟨fun _ member => absurd member List.not_mem_nil, fun _ _ extent => ?_⟩
      cases extent
  | case2 offset rest present nothing =>
      obtain ⟨positive, inside⟩ := seen_bounds l (mt List.isEmpty_iff.mpr present)
      rw [skipEnds_of_none nothing]
      exact .first rfl positive inside
  | case3 offset rest _ n rule found skips ih =>
      obtain ⟨positive, inside⟩ := Regex.best_longest found
      rw [skipEnds_of_skip found skips]
      rw [List.length_drop] at ih
      exact ih.skip positive inside
  | case4 offset rest _ n rule found kind literal token =>
      obtain ⟨positive, inside⟩ := Regex.best_longest found
      rw [skipEnds_of_react found (by rw [token]; exact Reaction.noConfusion)]
      exact .first rfl positive inside
  | case5 offset rest _ n rule found message reject =>
      obtain ⟨positive, inside⟩ := Regex.best_longest found
      rw [skipEnds_of_react found (by rw [reject]; exact Reaction.noConfusion)]
      exact .first rfl positive inside

/-- The recognizer never stops in front of the end of a match, and right there only if a token or
the end of the text follows. -/
theorem InOrder.le_target (order : InOrder offset length ends found) :
    found.target offset (offset + length) ≤ offset + length ∧
      ∀ e ∈ ends, e < found.target offset (offset + length) ∨
        e = found.target offset (offset + length) ∧
          (found = .endOfText ∨ ∃ length kind literal, found = .token e length kind literal) := by
  obtain ⟨skipped, behind⟩ := order
  cases found with
  | endOfText =>
      refine ⟨Nat.le_refl _, fun e member => ?_⟩
      rcases Nat.lt_or_eq_of_le (skipped e member).2 with before | last
      · exact Or.inl before
      · exact Or.inr ⟨last, Or.inl rfl⟩
  | rejected first stop =>
      obtain ⟨_, proper, inside, before⟩ := behind first stop rfl
      exact ⟨inside, fun e member => Or.inl ((before e member).trans_lt proper)⟩
  | unrecognized first stop =>
      obtain ⟨_, proper, inside, before⟩ := behind first stop rfl
      exact ⟨inside, fun e member => Or.inl ((before e member).trans_lt proper)⟩
  | token first n kind literal =>
      obtain ⟨_, proper, inside, before⟩ := behind first (first + n) rfl
      rw [Next.target]
      by_cases skips : offset < first
      · rw [if_pos skips]
        refine ⟨proper.le.trans inside, fun e member => ?_⟩
        rcases Nat.lt_or_eq_of_le (before e member) with earlier | rfl
        · exact Or.inl earlier
        · exact Or.inr ⟨rfl, Or.inr ⟨n, kind, literal, rfl⟩⟩
      · rw [if_neg skips]
        exact ⟨inside, fun e member => Or.inl ((before e member).trans_lt proper)⟩

end Order

theorem cursor_act (start : Nat) (found : Next) (s : Scanner) :
    ((act start found).run s).2.cursor =
      s.cursor.advanceTo (found.target start s.text.length : Nat) := by
  cases found with
  | token offset length kind literal =>
      rw [act, Next.target]
      split <;> rfl
  | rejected => rfl
  | unrecognized => rfl
  | endOfText => rfl

theorem cursor_recognize (l : Lexicon) {s : Scanner} {text : Text} (sound : s.Sound text) :
    (l.recognize.run s).2.cursor =
      s.cursor.advanceTo ((l.next s.cursor.offset (text.drop s.cursor.offset)).target
        s.cursor.offset text.length : Nat) := by
  have run : l.recognize.run s =
      (act s.cursor.offset (l.next s.cursor.offset s.cursor.rest)).run s := rfl
  rw [run, cursor_act, sound.cursor.rest_eq, sound.text_eq]

/-- The recognizer goes past a comment that starts right behind a match, unless it stops there
because a token follows.  The end of the match has to be between two characters then. -/
theorem recognize_passes_comment_iff (l : Lexicon) {before s : Scanner} {text : Text}
    (during : Scanner.Reaches (before.reset text) s) :
    let start := s.cursor.offset
    let ends := l.skipEnds start (text.drop start)
    let found := l.next start (text.drop start)
    let stop := (l.recognize.run s).2.cursor.offset
    (∃ e ∈ ends, start < e ∧ e < stop ∧ s.comments.opens (text.drop e) = true) ↔
      ∃ e ∈ ends, s.comments.opens (text.drop e) = true ∧
        ¬ (text.Boundary e ∧ ∃ length kind literal, found = .token e length kind literal) := by
  intro start ends found stop
  have sound := during.sound (Scanner.sound_reset before text)
  have bounded : start ≤ text.length := sound.cursor.offset_le
  have total : start + (text.drop start).length = text.length := by
    rw [List.length_drop]
    omega
  have order : InOrder start (text.drop start).length ends found := inOrder_next l _ _
  have moved : (l.recognize.run s).2.cursor =
      s.cursor.advanceTo (found.target start text.length : Nat) := l.cursor_recognize sound
  have reached : text.Boundary stop :=
    (Scanner.Reaches.sound (l.recognize.reaches s) sound).cursor.boundary
  obtain ⟨inside, passed⟩ := order.le_target
  rw [total] at inside passed
  have far : found.target start text.length ≤ stop := by
    change _ ≤ (l.recognize.run s).2.cursor.offset
    rw [moved]
    exact sound.cursor.le_offset_advanceTo inside
  constructor
  · rintro ⟨e, member, behind, before, opens⟩
    refine ⟨e, member, opens, ?_⟩
    rintro ⟨boundary, length, kind, literal, token⟩
    -- With a token at `e` the recognizer goes there, and no further.
    have there : stop = e := by
      change (l.recognize.run s).2.cursor.offset = e
      rw [moved, token, Next.target, if_pos behind]
      exact sound.cursor.offset_advanceTo behind.le boundary
    exact Nat.lt_irrefl _ (there ▸ before)
  · rintro ⟨e, member, opens, other⟩
    refine ⟨e, member, (order.skipped e member).1, ?_, opens⟩
    rcases passed e member with before | ⟨last, ended | token⟩
    · exact before.trans_le far
    · rw [last, ended, Next.target, List.drop_length, CommentStyle.opens_nil] at opens
      cases opens
    · rw [← last] at far
      apply Nat.lt_of_le_of_ne far
      rintro rfl
      exact other ⟨reached, token⟩

/-! ## A comment that is not seen -/

/-- Commas are passed over. -/
def commaRule : Rule := ⟨.byte (.single 0x2C), fun _ => .skip⟩

/-- Words in small letters, and commas. -/
def commaLexicon : Lexicon :=
  ⟨[⟨.plus (.byte ⟨[(0x61, 0x7A)], false⟩), Reaction.ofText 1⟩, commaRule]⟩

/-- The text ",#b". -/
def commaText : Text := [0x2C, 0x23, 0x62]

/-- A scanner in front of it, with comments that start with a number sign. -/
def commaScanner : Scanner := (Scanner.new (CommentStyle.off.withLine [0x23])).reset commaText

theorem longest_commaText :
    (commaLexicon.longest commaText).best = some (1, commaRule) ∧
      (commaLexicon.longest (commaText.drop 1)).best = none := ⟨rfl, rfl⟩

theorem one_mem_skipEnds : 1 ∈ commaLexicon.skipEnds 0 commaText := by
  rw [skipEnds_of_skip longest_commaText.1 rfl]
  exact List.mem_cons_self

theorem next_commaText : commaLexicon.next 0 commaText = .unrecognized 1 2 [0x23] := by
  obtain ⟨comma, nothing⟩ := longest_commaText
  have present : commaText.drop 1 ≠ [] := List.cons_ne_nil _ _
  rw [next_of_skip comma rfl, next_of_none present nothing]
  rfl

theorem commaScanner_passes_comment :
    ∃ e ∈ commaLexicon.skipEnds 0 commaText,
      0 < e ∧ e < (commaLexicon.recognize.run commaScanner).2.cursor.offset ∧
        commaScanner.comments.opens (commaText.drop e) = true := by
  refine (recognize_passes_comment_iff commaLexicon (.refl commaScanner)).mpr
    ⟨1, one_mem_skipEnds, rfl, ?_⟩
  rintro ⟨-, length, kind, literal, token⟩
  cases next_commaText.symm.trans token

theorem exists_comment_passed :
    ¬ ∀ (l : Lexicon) (before s : Scanner) (text : Text), Scanner.Reaches (before.reset text) s →
      ∀ e ∈ l.skipEnds s.cursor.offset (text.drop s.cursor.offset), s.cursor.offset < e →
        e < (l.recognize.run s).2.cursor.offset → s.comments.opens (text.drop e) = false := by
  intro seen
  have sound : commaScanner.Sound commaText := Scanner.sound_reset _ _
  have far : 2 ≤ (commaLexicon.recognize.run commaScanner).2.cursor.offset := by
    rw [commaLexicon.cursor_recognize sound]
    change 2 ≤ (commaScanner.cursor.advanceTo
      ((commaLexicon.next 0 commaText).target 0 commaText.length : Nat)).offset
    rw [next_commaText]
    exact sound.cursor.le_offset_advanceTo (Nat.le_succ 2)
  cases seen commaLexicon _ commaScanner commaText (.refl commaScanner) 1 one_mem_skipEnds
    Nat.one_pos far

end Lexicon

end FrontEnd
