import FrontEnd.Proofs.Scanner.Locations

/-!
# Every scan ends

A scan that is not strict ends after finitely many turns, at the end of its text, whatever the
markers of comments are and whatever the recognizer does.  No single place of the scan sees to it:
a line comment moves the cursor only because it does not start at white space, and an attempt only
because a recognizer that does not move costs a character.

`Recognizer.logged r` is the recognizer `r` with a log of its calls.  Its log shows that every call
is at the start of another character (`scanRest_logged`).
-/

namespace FrontEnd

/-- The recognizer with a log of the offsets at which it is called, the latest one first. -/
def Recognizer.logged {σ : Type} (r : Recognizer σ) : Recognizer (σ × List Nat) where
  begin m := do
    let memory ← r.begin m.1
    return (memory, m.2)
  recognize m := do
    let offset ← Action.read (·.cursor.offset)
    let (found, memory) ← r.recognize m.1
    return (found, memory, offset :: m.2)

namespace Scanner

variable {σ : Type}

/-- The turns of a scan, one after the other. -/
abbrev Turns (r : Recognizer σ) (strict : Bool) : σ × Scanner → σ × Scanner → Prop :=
  Steps fun a b => turn r strict a.1 a.2 = .next b.1 b.2

/-- The turn of a recognizer that keeps a log. -/
def Turn.withLog (log : List Nat) : Turn σ → Turn (σ × List Nat)
  | .done s => .done s
  | .next memory s => .next (memory, log) s
  | .stuck memory s => .stuck (memory, log) s

variable {r : Recognizer σ} {strict : Bool} {memory next : σ} {s t : Scanner} {text : Text}

/-! ## Turns that are not strict -/

/-- A turn that finds input behind white space moves the cursor. -/
theorem turn_of_input (r : Recognizer σ) (memory : σ)
    (inFront : s.skipBlanks.cursor.atEnd = false) :
    ∃ next t, turn r false memory s = .next next t ∧
      s.skipBlanks.cursor.offset < t.cursor.offset := by
  have turned : ∃ next t, turn r false memory s = .next next t := by
    rcases turn_cases r false memory s with ⟨ended, _⟩ | ⟨_, ⟨t, commented⟩ | tried⟩
    · rw [inFront] at ended
      cases ended
    · exact ⟨_, _, commented⟩
    · rw [tried]
      rcases attempt_cases r false memory s.skipBlanks.startToken with
        moved | ⟨fault, passed⟩ | ⟨isStrict, _⟩
      · exact ⟨_, _, moved⟩
      · exact ⟨_, _, passed⟩
      · cases isStrict
  obtain ⟨next, t, turned⟩ := turned
  exact ⟨next, t, turned, (turn_moves turned).2⟩

/-- A scan that is not strict comes to its last turn. -/
theorem exists_last_turn (r : Recognizer σ) (memory : σ) (s : Scanner) :
    ∃ last t, Turns r false (memory, s) last ∧ turn r false last.1 last.2 = .done t ∧
      t.cursor.atEnd = true ∧ scanRest r false memory s = ⟨t, last.1, none⟩ := by
  induction size : s.cursor.rest.length using Nat.strongRecOn generalizing memory s with
  | ind size ih =>
      cases ends : s.skipBlanks.cursor.atEnd with
      | true =>
          have done : turn r false memory s = .done s.skipBlanks := by
            rw [turn, ends]
            rfl
          exact ⟨(memory, s), s.skipBlanks, .refl _, done, ends, scanRest_of_done done⟩
      | false =>
          obtain ⟨next, t, turned, _⟩ := turn_of_input r memory ends
          obtain ⟨last, u, turns, done, ended, same⟩ :=
            ih _ (size ▸ Turn.length_lt turned) next t rfl
          have step : Turns r false (memory, s) (next, t) := .single turned
          exact ⟨last, u, step.trans turns, done, ended, (scanRest_of_next turned).trans same⟩

theorem Sound.offset_eq_length (sound : s.Sound text) (ended : s.cursor.atEnd = true) :
    s.cursor.offset = text.length := by
  rw [Cursor.atEnd, List.isEmpty_iff, sound.cursor.rest_eq, List.drop_eq_nil_iff] at ended
  exact Nat.le_antisymm sound.cursor.offset_le ended

/-! ## The log of calls -/

theorem attempt_logged (r : Recognizer σ) (strict : Bool) (memory : σ) (log : List Nat)
    (s : Scanner) :
    attempt r.logged strict (memory, log) s =
      (attempt r strict memory s).withLog (s.cursor.offset :: log) := by
  have run : (r.logged.recognize (memory, log)).run s =
      ((((r.recognize memory).run s).1.1, ((r.recognize memory).run s).1.2,
        s.cursor.offset :: log), ((r.recognize memory).run s).2) := rfl
  simp only [attempt, run]
  split
  · rfl
  split
  · rfl
  split <;> rfl

/-- A turn calls the recognizer behind white space, or not at all. -/
theorem turn_logged (r : Recognizer σ) (strict : Bool) (memory : σ) (log : List Nat)
    (s : Scanner) :
    ∃ calls, turn r.logged strict (memory, log) s =
        (turn r strict memory s).withLog (calls ++ log) ∧
      (calls = [] ∨
        calls = [s.skipBlanks.cursor.offset] ∧ s.skipBlanks.cursor.atEnd = false) := by
  simp only [turn]
  split
  · exact ⟨[], rfl, Or.inl rfl⟩
  rename_i inFront
  split
  · exact ⟨[], rfl, Or.inl rfl⟩
  · exact ⟨[s.skipBlanks.cursor.offset], attempt_logged r strict memory log _,
      Or.inr ⟨rfl, Bool.eq_false_iff.mpr inFront⟩⟩

theorem Sound.calls_of_turn (sound : s.Sound text) {calls : List Nat}
    (called : calls = [] ∨
      calls = [s.skipBlanks.cursor.offset] ∧ s.skipBlanks.cursor.atEnd = false) :
    calls.Pairwise (· > ·) ∧ ∀ n ∈ calls, n ∈ text.runeStarts s.cursor.offset text.length := by
  rcases called with rfl | ⟨rfl, inFront⟩
  · exact ⟨.nil, fun _ member => absurd member List.not_mem_nil⟩
  · have blanks := Reaches.skipBlanks s
    have skipped := blanks.sound sound
    refine ⟨List.pairwise_singleton _ _, fun n member => ?_⟩
    obtain rfl := List.mem_singleton.mp member
    refine ⟨blanks.offset_le, ?_, skipped.cursor.boundary⟩
    rw [Cursor.atEnd, List.isEmpty_eq_false_iff, skipped.cursor.rest_eq, Ne,
      List.drop_eq_nil_iff] at inFront
    exact Nat.not_le.mp inFront

/-- Keeping a log changes nothing else, and the calls of a scan are at the starts of different
characters, one behind the other. -/
theorem scanRest_logged (r : Recognizer σ) (strict : Bool) (memory : σ) (log : List Nat)
    (sound : s.Sound text) :
    ∃ calls, scanRest r.logged strict (memory, log) s =
        ⟨(scanRest r strict memory s).scanner, ((scanRest r strict memory s).memory, calls ++ log),
          (scanRest r strict memory s).stuck⟩ ∧
      calls.Pairwise (· > ·) ∧ ∀ n ∈ calls, n ∈ text.runeStarts s.cursor.offset text.length := by
  fun_induction scanRest r strict memory s generalizing log with
  | case1 memory s t turned =>
      obtain ⟨calls, same, _⟩ := turn_logged r strict memory log s
      rw [turned] at same
      exact ⟨[], scanRest_of_done same, .nil, fun _ member => absurd member List.not_mem_nil⟩
  | case2 memory s next t turned =>
      obtain ⟨calls, same, called⟩ := turn_logged r strict memory log s
      rw [turned] at same
      obtain ⟨sorted, starts⟩ := sound.calls_of_turn called
      exact ⟨calls, scanRest_of_stuck same, sorted, starts⟩
  | case3 memory s next t turned ih =>
      obtain ⟨calls, same, called⟩ := turn_logged r strict memory log s
      rw [turned] at same
      obtain ⟨sorted, starts⟩ := sound.calls_of_turn called
      obtain ⟨reaches, moved⟩ := turn_moves turned
      have blanks := Reaches.skipBlanks s
      obtain ⟨later, rest, sortedToo, startsToo⟩ :=
        ih (calls ++ log) (reaches.sound (blanks.sound sound))
      refine ⟨later ++ calls, ?_, ?_, ?_⟩
      · rw [scanRest_of_next same, rest, List.append_assoc]
      · rw [List.pairwise_append]
        refine ⟨sortedToo, sorted, fun n late m early => ?_⟩
        -- Later calls are behind the cursor of the next turn, which has moved on from here.
        have behind := (startsToo n late).1
        rcases called with rfl | ⟨rfl, _⟩
        · cases early
        · obtain rfl := List.mem_singleton.mp early
          omega
      · intro n member
        rcases List.mem_append.mp member with late | early
        · obtain ⟨low, high, isStart⟩ := startsToo n late
          exact ⟨Nat.le_trans blanks.offset_le (by omega), high, isStart⟩
        · exact starts n early

theorem length_le_of_runeStarts {calls : List Nat} (sorted : calls.Pairwise (· > ·))
    (starts : ∀ n ∈ calls, n ∈ text.runeStarts 0 text.length) :
    calls.length ≤ text.chars.length := by
  have distinct : calls.Nodup := sorted.imp fun lower => Nat.ne_of_gt lower
  have count : (text.runeStarts 0 (0 + text.length)).ncard = text.chars.length :=
    Text.ncard_runeStarts .front (List.append_nil text).symm
      (Text.whole_of_ends text fun _ member => by cases member)
  rw [Nat.zero_add] at count
  calc calls.length = calls.toFinset.card := (List.toFinset_card_of_nodup distinct).symm
    _ = (calls.toFinset : Set Nat).ncard := (Set.ncard_coe_finset _).symm
    _ ≤ (text.runeStarts 0 text.length).ncard := by
        apply Set.ncard_le_ncard _ (Text.finite_runeStarts text 0 text.length)
        intro n member
        exact starts n (List.mem_toFinset.mp member)
    _ = text.chars.length := count

/-- Every scan that is not strict ends: it comes to its last turn, and the cursor is at the end of
the text.  Every turn that finds input behind white space moves the cursor on from there.  The
recognizer is called at the starts of different characters, so at most once for each. -/
theorem scan_ends (r : Recognizer σ) (memory : σ) (s : Scanner) (text : Text) :
    (∃ last, Turns r false ((r.begin memory).run (s.reset text)) last ∧
        turn r false last.1 last.2 = .done (scan r false memory s text).scanner) ∧
      (scan r false memory s text).stuck = none ∧
      (scan r false memory s text).scanner.cursor.offset = text.length ∧
      (∀ before u, u.skipBlanks.cursor.atEnd = false →
        ∃ next t, turn r false before u = .next next t ∧
          u.skipBlanks.cursor.offset < t.cursor.offset) ∧
      ∃ calls, scan r.logged false (memory, []) s text =
          ⟨(scan r false memory s text).scanner, ((scan r false memory s text).memory, calls),
            none⟩ ∧
        calls.Pairwise (· > ·) ∧ (∀ n ∈ calls, n ∈ text.runeStarts 0 text.length) ∧
        calls.length ≤ text.chars.length := by
  have begun : ((r.begin memory).run (s.reset text)).2.Sound text :=
    Reaches.sound ((r.begin memory).reaches _) (sound_reset s text)
  obtain ⟨last, t, turns, done, atEnd, outcome⟩ := exists_last_turn r
    ((r.begin memory).run (s.reset text)).1 ((r.begin memory).run (s.reset text)).2
  obtain ⟨calls, logged, sorted, starts⟩ := scanRest_logged r false
    ((r.begin memory).run (s.reset text)).1 [] begun
  rw [List.append_nil, outcome] at logged
  have startsToo : ∀ n ∈ calls, n ∈ text.runeStarts 0 text.length := fun n member =>
    ⟨Nat.zero_le n, (starts n member).2⟩
  have ended : (scan r false memory s text).scanner.Sound text :=
    (reaches_scan r false memory s text).sound (sound_reset s text)
  have same : scan r false memory s text = ⟨t, last.1, none⟩ := outcome
  rw [same] at ended ⊢
  exact ⟨⟨last, turns, done⟩, rfl, ended.offset_eq_length atEnd,
    fun before u inFront => turn_of_input r before inFront, calls, logged, sorted, startsToo,
    length_le_of_runeStarts sorted startsToo⟩

end Scanner

end FrontEnd
