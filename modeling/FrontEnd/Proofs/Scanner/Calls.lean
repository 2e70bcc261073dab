import FrontEnd.Proofs.Scanner.CommentEnds
import FrontEnd.Proofs.Scanner.Termination

/-!
# The calls of a recognizer

A scan calls its recognizer at the start of a token: behind white space, where there is input and
no comment (`Calls`).  What a recognizer does to a scanner matters at these calls only.  So whether
a strict scan gives up (`stuck_scanRest`), and what a scan complains about (`diagnostics_scanRest`),
is a matter of what happens at each call.
-/

namespace FrontEnd

namespace Scanner

variable {σ : Type}

/-- A scan that goes on from the state `start` calls its recognizer, with the memory `memory`, in
the state of the scanner that is given last. -/
inductive Calls (r : Recognizer σ) (strict : Bool) (start : σ × Scanner) (memory : σ) :
    Scanner → Prop where
  | intro {s : Scanner} (turns : Turns r strict start (memory, s))
      (inFront : s.skipBlanks.cursor.atEnd = false)
      (noComment : s.skipBlanks.startToken.comment? = none) :
      Calls r strict start memory s.skipBlanks.startToken

variable {r : Recognizer σ} {strict : Bool} {start : σ × Scanner} {memory next : σ}
  {s t : Scanner} {text : Text}

/-! ## Where calls are made -/

theorem Turns.reaches {last : σ × Scanner} (turns : Turns r strict start last) :
    Reaches start.2 last.2 := by
  induction turns with
  | refl => exact .refl _
  | tail _ turned ih => exact ih.trans (reaches_of_turn turned)

theorem Calls.reaches (calls : Calls r strict start memory t) : Reaches start.2 t := by
  cases calls with
  | intro turns _ _ =>
      exact (turns.reaches.trans (Reaches.skipBlanks _)).trans (.single (.startToken _))

/-- A scan that starts at a token calls its recognizer at once. -/
theorem Calls.first (r : Recognizer σ) (strict : Bool) (memory : σ)
    (blanks : s.skipBlanks.startToken = s) (inFront : s.cursor.atEnd = false)
    (noComment : s.comment? = none) : Calls r strict (memory, s) memory s := by
  have calls : Calls r strict (memory, s) memory s.skipBlanks.startToken := by
    refine .intro (.refl _) ?_ ?_
    · rw [← blanks] at inFront
      exact inFront
    · rw [blanks]
      exact noComment
  rwa [blanks] at calls

/-- A call is made at the start of a token. -/
theorem Calls.marked (calls : Calls r strict start memory t) : t.mark = t.cursor := by
  cases calls with
  | intro => rfl

theorem Calls.inFront (calls : Calls r strict start memory t) : t.cursor.atEnd = false := by
  cases calls with
  | intro _ inFront _ => exact inFront

theorem Calls.sound (calls : Calls r strict start memory t) (sound : start.2.Sound text) :
    t.Sound text :=
  calls.reaches.sound sound

/-- No call is made at a comment. -/
theorem Calls.outside (calls : Calls r strict start memory t) (sound : start.2.Sound text) :
    t.comments.opens (text.drop t.cursor.offset) = false := by
  apply (calls.sound sound).comment?_eq_none_iff.mp
  cases calls with
  | intro _ _ noComment => exact noComment

/-- No call is made at white space. -/
theorem Calls.visible (calls : Calls r strict start memory t) (sound : start.2.Sound text) :
    Text.frontIs (fun c => !Text.isBlank c) (text.drop t.cursor.offset) = true := by
  rw [← (calls.sound sound).cursor.rest_eq]
  cases calls with
  | @intro s _ inFront _ =>
      have present : s.skipBlanks.cursor.rest ≠ [] := List.isEmpty_eq_false_iff.mp inFront
      obtain ⟨first, isFirst⟩ := Text.exists_rune? present
      rcases Cursor.stop_advanceWhile (fun c => c.peek?.any Text.isBlank) 0 s.cursor with
        ended | stopped
      · exact absurd ended (Bool.eq_false_iff.mp inFront)
      · rw [peek?_any] at stopped
        have notBlank : Text.isBlank first.char = false :=
          (Text.frontIs_of_rune? isFirst).symm.trans stopped
        change Text.frontIs _ s.skipBlanks.cursor.rest = true
        rw [Text.frontIs_of_rune? isFirst, notBlank, Bool.not_false]

/-! ## What a turn does -/

theorem turn_of_atEnd (ended : s.skipBlanks.cursor.atEnd = true) :
    turn r strict memory s = .done s.skipBlanks := by
  rw [turn, ended]
  rfl

theorem turn_of_comment (inFront : s.skipBlanks.cursor.atEnd = false)
    (comment : s.skipBlanks.startToken.comment? = some t) :
    turn r strict memory s = .next memory t := by
  simp only [turn, inFront, Bool.false_eq_true, ↓reduceIte, comment]

theorem turn_of_call (inFront : s.skipBlanks.cursor.atEnd = false)
    (noComment : s.skipBlanks.startToken.comment? = none) :
    turn r strict memory s = attempt r strict memory s.skipBlanks.startToken := by
  simp only [turn, inFront, Bool.false_eq_true, ↓reduceIte, noComment]

/-- A call that moves the cursor is the end of the attempt. -/
theorem attempt_of_moved
    (moved : t.cursor.offset < ((r.recognize memory).run t).2.cursor.offset) :
    attempt r strict memory t =
      .next ((r.recognize memory).run t).1.2 ((r.recognize memory).run t).2 := by
  simp only [attempt, moved, ↓reduceIte]

/-- A strict scan gives up where a call has found something without moving. -/
theorem of_attempt_eq_stuck (stuck : attempt r strict memory t = .stuck next s) :
    ((r.recognize memory).run t).1.1 = true ∧
      ¬ t.cursor.offset < ((r.recognize memory).run t).2.cursor.offset := by
  simp only [attempt] at stuck
  split at stuck
  · cases stuck
  · rename_i stays
    split at stuck
    · cases stuck
    · rename_i found
      rw [Bool.not_eq_true', Bool.not_eq_false] at found
      exact ⟨found, stays⟩

/-- The only complaint about a comment is that it has no end. -/
theorem diagnostics_of_comment (comment : s.comment? = some t) :
    t.diagnostics = s.diagnostics ∨
      t.diagnostics.toList =
        s.diagnostics.toList ++ [⟨s.mark.location, Fault.unterminatedComment.message⟩] := by
  have emitted (u : Scanner) : u.emitComment.diagnostics = u.diagnostics := by
    unfold emitComment
    split <;> rfl
  have ofLine (h : s.lineComment? = some t) : t.diagnostics = s.diagnostics := by
    simp only [lineComment?] at h
    split at h
    · cases h
      exact emitted _
    · cases h
  have ofBlock (h : s.blockComment? = some t) : t.diagnostics = s.diagnostics ∨
      t.diagnostics.toList =
        s.diagnostics.toList ++ [⟨s.mark.location, Fault.unterminatedComment.message⟩] := by
    simp only [blockComment?] at h
    split at h
    · split at h
      · cases h
        exact Or.inr (Diagnostics.toList_add _ _ _)
      · cases h
        exact Or.inl (emitted _)
    · cases h
  simp only [comment?] at comment
  split at comment <;> rcases Option.or_eq_some_iff.mp comment with first | ⟨_, second⟩
  · exact ofBlock first
  · exact Or.inl (ofLine second)
  · exact Or.inl (ofLine first)
  · exact ofBlock second

/-! ## What a scan does -/

/-- The last turn of a scan: the text is used up, or a strict scan gives up. -/
theorem exists_outcome (r : Recognizer σ) (strict : Bool) (memory : σ) (s : Scanner) :
    ∃ last : σ × Scanner, Turns r strict (memory, s) last ∧
      ((∃ t, turn r strict last.1 last.2 = .done t ∧
          scanRest r strict memory s = ⟨t, last.1, none⟩) ∨
        ∃ next t, turn r strict last.1 last.2 = .stuck next t ∧
          scanRest r strict memory s = ⟨t, next, some t.cursor.location⟩) := by
  fun_induction scanRest r strict memory s with
  | case1 memory s t turned => exact ⟨(memory, s), .refl _, Or.inl ⟨t, turned, rfl⟩⟩
  | case2 memory s next t turned => exact ⟨(memory, s), .refl _, Or.inr ⟨next, t, turned, rfl⟩⟩
  | case3 memory s next t turned ih =>
      obtain ⟨last, turns, ended⟩ := ih
      have step : Turns r strict (memory, s) (next, t) := .single turned
      exact ⟨last, step.trans turns, ended⟩

/-- A strict scan gives up nowhere if every call that finds something moves the cursor. -/
theorem stuck_scanRest
    (moves : ∀ next t, Calls r strict (memory, s) next t → ((r.recognize next).run t).1.1 = true →
      t.cursor.offset < ((r.recognize next).run t).2.cursor.offset) :
    (scanRest r strict memory s).stuck = none := by
  obtain ⟨last, turns, ⟨t, _, outcome⟩ | ⟨next, t, stuck, _⟩⟩ := exists_outcome r strict memory s
  · rw [outcome]
  · exfalso
    cases inFront : last.2.skipBlanks.cursor.atEnd with
    | true =>
        rw [turn_of_atEnd inFront] at stuck
        cases stuck
    | false =>
        cases comment : last.2.skipBlanks.startToken.comment? with
        | some u =>
            rw [turn_of_comment inFront comment] at stuck
            cases stuck
        | none =>
            rw [turn_of_call inFront comment] at stuck
            obtain ⟨found, stays⟩ := of_attempt_eq_stuck stuck
            exact stays (moves _ _ (.intro turns inFront comment) found)

section Diagnostics

variable {wording : Text → Prop}

/-- The wording of what a turn complains about. -/
theorem diagnostics_turn (unterminated : wording Fault.unterminatedComment.message)
    (calls : ∀ next t, Calls r strict start next t →
      ∀ d ∈ (attempt r strict next t).scanner.diagnostics.toList,
        d ∈ t.diagnostics.toList ∨ wording d.message)
    (turns : Turns r strict start (memory, s)) :
    ∀ d ∈ (turn r strict memory s).scanner.diagnostics.toList,
      d ∈ s.diagnostics.toList ∨ wording d.message := by
  intro d member
  cases inFront : s.skipBlanks.cursor.atEnd with
  | true =>
      rw [turn_of_atEnd inFront] at member
      exact Or.inl member
  | false =>
      cases comment : s.skipBlanks.startToken.comment? with
      | some t =>
          rw [turn_of_comment inFront comment] at member
          change d ∈ t.diagnostics.toList at member
          rcases diagnostics_of_comment comment with same | added
          · rw [same] at member
            exact Or.inl member
          · rw [added, List.mem_append, List.mem_singleton] at member
            rcases member with earlier | rfl
            · exact Or.inl earlier
            · exact Or.inr unterminated
      | none =>
          rw [turn_of_call inFront comment] at member
          exact calls _ _ (.intro turns inFront comment) d member

theorem diagnostics_turns (unterminated : wording Fault.unterminatedComment.message)
    (calls : ∀ next t, Calls r strict start next t →
      ∀ d ∈ (attempt r strict next t).scanner.diagnostics.toList,
        d ∈ t.diagnostics.toList ∨ wording d.message)
    {last : σ × Scanner} (turns : Turns r strict start last) :
    ∀ d ∈ last.2.diagnostics.toList, d ∈ start.2.diagnostics.toList ∨ wording d.message := by
  induction turns with
  | refl => exact fun d member => Or.inl member
  | @tail before after turns turned ih =>
      intro d member
      have new := diagnostics_turn unterminated calls turns d
      rw [turned] at new
      rcases new member with earlier | worded
      · exact ih d earlier
      · exact Or.inr worded

/-- A scan complains about comments without an end, and about what its calls come to. -/
theorem diagnostics_scanRest (unterminated : wording Fault.unterminatedComment.message)
    (calls : ∀ next t, Calls r strict (memory, s) next t →
      ∀ d ∈ (attempt r strict next t).scanner.diagnostics.toList,
        d ∈ t.diagnostics.toList ∨ wording d.message) :
    ∀ d ∈ (scanRest r strict memory s).scanner.diagnostics.toList,
      d ∈ s.diagnostics.toList ∨ wording d.message := by
  obtain ⟨last, turns, ended⟩ := exists_outcome r strict memory s
  have outcome : (scanRest r strict memory s).scanner =
      (turn r strict last.1 last.2).scanner := by
    rcases ended with ⟨t, done, same⟩ | ⟨next, t, stuck, same⟩
    · rw [done, same]
      rfl
    · rw [stuck, same]
      rfl
  intro d member
  rw [outcome] at member
  rcases diagnostics_turn unterminated calls turns d member with earlier | worded
  · exact diagnostics_turns unterminated calls turns d earlier
  · exact Or.inr worded

end Diagnostics

end Scanner

end FrontEnd
