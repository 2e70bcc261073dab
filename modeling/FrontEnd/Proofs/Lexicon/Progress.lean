import FrontEnd.Proofs.Lexicon.Errors
import FrontEnd.Proofs.Scanner.Calls

/-!
# The recognizer of a lexicon makes progress

A call of the recognizer of a lexicon can come to its end in five ways: with a token, in front of a
token, at the end of the text, with a match that is refused, or with nothing that matches.  Each of
them tells the cursor to go to another place, but all of these places are behind the start of the
call (`InOrder.lt_target`).  So a scan never has to pass over a character by itself, and a strict
scan never gives up (`recognize_progresses`).
-/

namespace FrontEnd

namespace Lexicon

variable {l : Lexicon} {text : Text} {s : Scanner}

/-! ## One call -/

/-- Whatever a search finds, the recognizer goes behind the place where the search has started. -/
theorem InOrder.lt_target {offset length : Nat} {ends : List Nat} {found : Next}
    (order : InOrder offset length ends found) (positive : 0 < length) :
    offset < found.target offset (offset + length) := by
  cases found with
  | endOfText => exact Nat.lt_add_of_pos_right positive
  | rejected first stop =>
      obtain ⟨behind, proper, _⟩ := order.behind first stop rfl
      exact behind.trans_lt proper
  | unrecognized first stop =>
      obtain ⟨behind, proper, _⟩ := order.behind first stop rfl
      exact behind.trans_lt proper
  | token first n =>
      obtain ⟨behind, proper, _⟩ := order.behind first (first + n) rfl
      rw [Next.target]
      split
      · assumption
      · exact behind.trans_lt proper

theorem offset_lt_recognize (l : Lexicon) (sound : s.Sound text)
    (inFront : s.cursor.atEnd = false) :
    s.cursor.offset < (l.recognize.run s).2.cursor.offset := by
  have order := inOrder_next l s.cursor.offset (text.drop s.cursor.offset)
  have present : 0 < (text.drop s.cursor.offset).length := by
    rw [← sound.cursor.rest_eq]
    exact List.length_pos_iff.mpr (List.isEmpty_eq_false_iff.mp inFront)
  have total : s.cursor.offset + (text.drop s.cursor.offset).length = text.length := by
    have bounded := sound.cursor.offset_le
    rw [List.length_drop]
    omega
  have behind := order.lt_target present
  have inside := order.le_target.1
  rw [total] at behind inside
  rw [l.cursor_recognize sound]
  exact behind.trans_le (sound.cursor.le_offset_advanceTo inside)

theorem exists_tokens_act (start : Nat) (found : Next) (s : Scanner) :
    ∃ emitted, ((act start found).run s).2.tokens = s.tokens ++ emitted ∧
      emitted.length ≤ 1 := by
  cases found with
  | token first length kind literal =>
      rw [act]
      split
      · exact ⟨[], (List.append_nil _).symm, Nat.zero_le 1⟩
      · exact ⟨_, Scanner.tokens_addToken _ kind literal, Nat.le_refl 1⟩
  | rejected => exact ⟨[], (List.append_nil _).symm, Nat.zero_le 1⟩
  | unrecognized => exact ⟨[], (List.append_nil _).symm, Nat.zero_le 1⟩
  | endOfText => exact ⟨[], (List.append_nil _).symm, Nat.zero_le 1⟩

theorem exists_diagnostics_act (start : Nat) (found : Next) (s : Scanner) :
    ∃ reported,
      ((act start found).run s).2.diagnostics.toList = s.diagnostics.toList ++ reported ∧
      reported.length = if ((act start found).run s).1 then 0 else 1 := by
  refine ⟨_, diagnostics_act start found s, ?_⟩
  rw [answer_act]
  cases found.complaint? <;> rfl

/-- What a call of the recognizer does to a scanner: the cursor moves, there is at most one more
token, and one more diagnostic exactly if nothing was found. -/
structure Progresses (l : Lexicon) (t : Scanner) : Prop where
  moves : t.cursor.offset < (l.recognize.run t).2.cursor.offset
  emits : ∃ emitted, (l.recognize.run t).2.tokens = t.tokens ++ emitted ∧ emitted.length ≤ 1
  reports : ∃ reported,
    (l.recognize.run t).2.diagnostics.toList = t.diagnostics.toList ++ reported ∧
    reported.length = if (l.recognize.run t).1 then 0 else 1

theorem progresses (l : Lexicon) (sound : s.Sound text) (inFront : s.cursor.atEnd = false) :
    l.Progresses s where
  moves := l.offset_lt_recognize sound inFront
  emits := exists_tokens_act _ _ s
  reports := exists_diagnostics_act _ _ s

theorem Progresses.attempt_eq (progresses : l.Progresses s) (strict : Bool) :
    Scanner.attempt l.recognizer strict () s = .next () (l.recognize.run s).2 :=
  Scanner.attempt_of_moved progresses.moves

/-! ## What a scan complains about -/

/-- The wording of the complaints of a scan: about a comment without an end, about something that
no rule matches, or what a rule says when it refuses a match. -/
def Complaint (l : Lexicon) (message : Text) : Prop :=
  message = Scanner.Fault.unterminatedComment.message ∨
    (∃ bytes, message = unrecognizedMessage bytes) ∨
    ∃ rule ∈ l.rules, ∃ bytes, rule.react bytes = .reject message

theorem Complains.complaint {first : Nat} {message : Text}
    (complains : l.Complains text first message) : l.Complaint message := by
  cases complains with
  | unrecognized => exact Or.inr (Or.inl ⟨_, rfl⟩)
  | @rejected _ rule _ found rejects =>
      obtain ⟨earlier, later, rules, _⟩ := found.first
      have member : rule ∈ l.rules := by
        rw [rules]
        exact List.mem_append_right _ List.mem_cons_self
      exact Or.inr (Or.inr ⟨rule, member, _, rejects⟩)

/-- A scan does not complain in its own words about a character or about its recognizer. -/
theorem Complaint.of_fault {message : Text} (complaint : l.Complaint message) {c : Char}
    (fault : message = (Scanner.Fault.unexpected c).message ∨
      message = (Scanner.Fault.stuck c).message) :
    ∃ rule ∈ l.rules, ∃ bytes, rule.react bytes = .reject message := by
  rcases complaint with unterminated | ⟨bytes, unrecognized⟩ | rejected
  · exfalso
    -- The four wordings differ in their third letter.
    have third : message[2]? = some 0x74 := by rw [unterminated]; rfl
    rcases fault with unexpected | stuck
    · rw [unexpected] at third
      cases third
    · rw [stuck] at third
      cases third
  · exfalso
    have third : message[2]? = some 0x72 := by rw [unrecognized]; rfl
    rcases fault with unexpected | stuck
    · rw [unexpected] at third
      cases third
    · rw [stuck] at third
      cases third
  · exact rejected

/-- A scan with the recognizer of a lexicon makes progress at every call, whatever the rules are and
however comments look.  So it is never stuck, also if it is strict, and it passes over no character
by itself: all of its complaints are about comments or in the words of the recognizer and its
rules. -/
theorem recognize_progresses (l : Lexicon) (strict : Bool) (before : Scanner) (text : Text) :
    let outcome := Scanner.scan l.recognizer strict () before text
    (∀ t, Scanner.Calls l.recognizer strict ((), before.reset text) () t →
      l.Progresses t ∧
        Scanner.attempt l.recognizer strict () t = .next () (l.recognize.run t).2) ∧
      outcome.stuck = none ∧
      ∀ d ∈ outcome.scanner.diagnostics.toList, l.Complaint d.message ∧
        ∀ c, d.message = (Scanner.Fault.unexpected c).message ∨
            d.message = (Scanner.Fault.stuck c).message →
          ∃ rule ∈ l.rules, ∃ bytes, rule.react bytes = .reject d.message := by
  intro outcome
  have begun : (before.reset text).Sound text := Scanner.sound_reset before text
  have each {t : Scanner}
      (calls : Scanner.Calls l.recognizer strict ((), before.reset text) () t) :
      l.Progresses t := progresses l (calls.sound begun) calls.inFront
  have worded : ∀ d ∈ outcome.scanner.diagnostics.toList,
      d ∈ (before.reset text).diagnostics.toList ∨ l.Complaint d.message := by
    refine Scanner.diagnostics_scanRest (Or.inl rfl) fun _ t calls d member => ?_
    rw [(each calls).attempt_eq strict] at member
    change d ∈ (l.recognize.run t).2.diagnostics.toList at member
    rw [diagnostics_recognize (calls.sound begun) calls.marked, List.mem_append,
      Option.mem_toList, Option.map_eq_some_iff] at member
    rcases member with earlier | ⟨message, complaint, rfl⟩
    · exact Or.inl earlier
    · obtain ⟨first, _, complains⟩ := exists_complains rfl complaint
      exact Or.inr complains.complaint
  refine ⟨fun t calls => ⟨each calls, (each calls).attempt_eq strict⟩, ?_, fun d member => ?_⟩
  · exact Scanner.stuck_scanRest fun _ t calls _ => (each calls).moves
  · have complaint := (worded d member).resolve_left List.not_mem_nil
    exact ⟨complaint, fun c fault => complaint.of_fault fault⟩

theorem calls_tildeScanner :
    Scanner.Calls commaLexicon.recognizer true ((), tildeScanner) () tildeScanner := by
  refine .first _ _ _ ?_ rfl rfl
  rw [Scanner.skipBlanks, Scanner.advanceWhile, Cursor.advanceWhile]
  rfl

/-- A call that passes over a comma and then finds nothing that matches. -/
theorem recognize_progresses_tilde :
    Scanner.Calls commaLexicon.recognizer true ((), tildeScanner) () tildeScanner ∧
      commaLexicon.Progresses tildeScanner ∧
      (commaLexicon.recognize.run tildeScanner).1 = false := by
  have calls := calls_tildeScanner
  obtain ⟨each, _⟩ := recognize_progresses commaLexicon true (.new .off) tildeText
  refine ⟨calls, (each tildeScanner calls).1, ?_⟩
  change ((act 0 (commaLexicon.next 0 (tildeText.drop 0))).run tildeScanner).1 = false
  rw [answer_act, skips_tildeText.next_eq, complains_tildeText.complaint?_next]
  rfl

end Lexicon

end FrontEnd
