import FrontEnd.Proofs.Scanner.Place
import FrontEnd.Scanner.Scan

/-!
# The moments of a scan

A recognizer is free in what it does to a scanner, as long as it takes single steps.  So little is
known about the states a scanner goes through during a scan, but each of them is reached by single
steps from the front of the text: while the recognizer prepares itself, during a turn, or when
operations are carried out after the scan (`Moment`, `Moment.reaches`).

`Sound text s` is the invariant that every single step keeps (`Sound.step`): mark and cursor are at
boundaries between characters and know their places, and the tokens are cut out of the text before
the mark, one after the other.  So it holds at every moment (`Moment.sound`).
-/

namespace FrontEnd

/-- The cursor is at a boundary between characters of the text, and what it says about the text
ahead and about its location is true. -/
structure Cursor.InText (text : Text) (c : Cursor) : Prop where
  boundary : text.Boundary c.offset
  eq_cursorAt : c = text.cursorAt c.offset

/-- The token is cut out of the text at the boundaries `i` and `j`. -/
structure Token.Cut (text : Text) (i j : Nat) (x : Token) : Prop where
  first : text.Boundary i
  stop : text.Boundary j
  le : i ≤ j
  span_eq : x.span = ⟨i, j⟩
  lexeme_eq : x.lexeme = (text.take j).drop i
  location_eq : x.location = text.locationAt i

namespace Cursor

variable {text : Text} {c : Cursor}

theorem InText.start (text : Text) : (Cursor.start text).InText text :=
  ⟨.front, (Text.cursorAt_zero text).symm⟩

theorem InText.rest_eq (inText : c.InText text) : c.rest = text.drop c.offset := by
  rw [inText.eq_cursorAt]
  rfl

theorem InText.location_eq (inText : c.InText text) : c.location = text.locationAt c.offset := by
  rw [inText.eq_cursorAt]
  rfl

theorem InText.offset_le (inText : c.InText text) : c.offset ≤ text.length :=
  inText.boundary.le_length

theorem InText.advance (inText : c.InText text) : c.advance.InText text := by
  cases first : Text.rune? (text.drop c.offset) with
  | none =>
      have ended : c.atEnd = true := by
        rw [Text.rune?_eq_none, ← inText.rest_eq] at first
        rw [atEnd, first, List.isEmpty_nil]
      rw [advance_of_atEnd ended]
      exact inText
  | some r =>
      have moved := Text.advance_cursorAt inText.boundary first
      rw [← inText.eq_cursorAt] at moved
      rw [moved]
      exact ⟨.next inText.boundary first, rfl⟩

end Cursor

namespace Scanner

/-! ## Moments -/

section Moments

variable {σ : Type}

/-- The state of the scanner after a turn. -/
def Turn.scanner : Turn σ → Scanner
  | .done s => s
  | .next _ s => s
  | .stuck _ s => s

/-- The scanner is in the state `t` at some moment of a scan that goes on from the state `s`: on
the way through the next turn, or later. -/
inductive Passes (r : Recognizer σ) (strict : Bool) : σ → Scanner → Scanner → Prop where
  | within {memory : σ} {s t : Scanner} (before : Reaches s t)
      (after : Reaches t (turn r strict memory s).scanner) : Passes r strict memory s t
  | later {memory next : σ} {s u t : Scanner} (turned : turn r strict memory s = .next next u)
      (passes : Passes r strict next u t) : Passes r strict memory s t

/-- The scanner is in the state `t` at some moment of a scan of `text`, or of the operations that
are carried out after it. -/
inductive Moment (r : Recognizer σ) (strict : Bool) (memory : σ) (s : Scanner) (text : Text)
    (t : Scanner) : Prop where
  | opening (before : Reaches (s.reset text) t)
      (after : Reaches t ((r.begin memory).run (s.reset text)).2)
  | scanning (passes : Passes r strict ((r.begin memory).run (s.reset text)).1
      ((r.begin memory).run (s.reset text)).2 t)
  | afterwards (since : Reaches (scan r strict memory s text).scanner t)

variable {r : Recognizer σ} {strict : Bool} {memory : σ} {s t : Scanner} {text : Text}

/-- What an attempt comes to: the recognizer has moved, or a character is passed over, or a strict
scan gives up. -/
theorem attempt_cases (r : Recognizer σ) (strict : Bool) (memory : σ) (s : Scanner) :
    attempt r strict memory s =
        .next ((r.recognize memory).run s).1.2 ((r.recognize memory).run s).2 ∨
      (∃ fault, attempt r strict memory s =
        .next ((r.recognize memory).run s).1.2 (((r.recognize memory).run s).2.passOver fault)) ∨
      (strict = true ∧ attempt r strict memory s =
        .stuck ((r.recognize memory).run s).1.2 ((r.recognize memory).run s).2) := by
  simp only [attempt]
  split
  · exact Or.inl rfl
  split
  · exact Or.inr (Or.inl ⟨.unexpected, rfl⟩)
  split
  · rename_i isStrict
    exact Or.inr (Or.inr ⟨isStrict, rfl⟩)
  · exact Or.inr (Or.inl ⟨.stuck, rfl⟩)

/-- What a turn comes to: behind white space there is the end of the text, a comment, or something
for the recognizer. -/
theorem turn_cases (r : Recognizer σ) (strict : Bool) (memory : σ) (s : Scanner) :
    (s.skipBlanks.cursor.atEnd = true ∧ turn r strict memory s = .done s.skipBlanks) ∨
      (s.skipBlanks.cursor.atEnd = false ∧
        ((∃ t, turn r strict memory s = .next memory t) ∨
          turn r strict memory s = attempt r strict memory s.skipBlanks.startToken)) := by
  simp only [turn]
  split
  · rename_i ended
    exact Or.inl ⟨ended, rfl⟩
  rename_i before
  refine Or.inr ⟨Bool.eq_false_iff.mpr before, ?_⟩
  split
  · exact Or.inl ⟨_, rfl⟩
  · exact Or.inr rfl

theorem reaches_attempt (r : Recognizer σ) (strict : Bool) (memory : σ) (s : Scanner) :
    Reaches s (attempt r strict memory s).scanner := by
  have reaches : Reaches s ((r.recognize memory).run s).2 := (r.recognize memory).reaches s
  rcases attempt_cases r strict memory s with moved | ⟨fault, passed⟩ | ⟨_, stuck⟩
  · rw [moved]
    exact reaches
  · rw [passed]
    exact reaches.trans (Reaches.passOver _ fault)
  · rw [stuck]
    exact reaches

theorem reaches_turn (r : Recognizer σ) (strict : Bool) (memory : σ) (s : Scanner) :
    Reaches s (turn r strict memory s).scanner := by
  have blanks := Reaches.skipBlanks s
  rcases turn_cases r strict memory s with ⟨_, done⟩ | ⟨_, ⟨t, commented⟩ | tried⟩
  · rw [done]
    exact blanks
  · rw [commented]
    exact blanks.trans (turn_moves commented).1
  · rw [tried]
    exact (blanks.trans (.single (.startToken _))).trans (reaches_attempt r strict memory _)

theorem reaches_of_turn {result : Turn σ} (turned : turn r strict memory s = result) :
    Reaches s result.scanner := by
  rw [← turned]
  exact reaches_turn r strict memory s

theorem Passes.reaches (passes : Passes r strict memory s t) : Reaches s t := by
  induction passes with
  | within before _ => exact before
  | later turned _ ih => exact (reaches_of_turn turned).trans ih

theorem reaches_scanRest (r : Recognizer σ) (strict : Bool) (memory : σ) (s : Scanner) :
    Reaches s (scanRest r strict memory s).scanner := by
  fun_induction scanRest r strict memory s with
  | case1 memory s t turned => exact reaches_of_turn turned
  | case2 memory s next t turned => exact reaches_of_turn turned
  | case3 memory s next t turned ih => exact (reaches_of_turn turned).trans ih

theorem reaches_scan (r : Recognizer σ) (strict : Bool) (memory : σ) (s : Scanner) (text : Text) :
    Reaches (s.reset text) (scan r strict memory s text).scanner :=
  ((r.begin memory).reaches (s.reset text)).trans (reaches_scanRest r strict _ _)

theorem Moment.reaches (moment : Moment r strict memory s text t) : Reaches (s.reset text) t := by
  cases moment with
  | opening before _ => exact before
  | scanning passes => exact ((r.begin memory).reaches (s.reset text)).trans passes.reaches
  | afterwards since => exact (reaches_scan r strict memory s text).trans since

end Moments

/-! ## The invariant -/

/-- Mark and cursor are at places of the text, the mark never past the cursor, and the tokens are
cut out of the text before the mark, one after the other. -/
structure Sound (text : Text) (s : Scanner) : Prop where
  text_eq : s.text = text
  cursor : s.cursor.InText text
  mark : s.mark.InText text
  mark_le : s.mark.offset ≤ s.cursor.offset
  cut : ∀ x ∈ s.tokens, ∃ i j, x.Cut text i j ∧ j ≤ s.mark.offset
  sorted : s.tokens.Pairwise fun x y => x.span.stop ≤ y.span.first

variable {text : Text} {s t : Scanner}

theorem sound_reset (s : Scanner) (text : Text) : (s.reset text).Sound text where
  text_eq := rfl
  cursor := .start text
  mark := .start text
  mark_le := Nat.le_refl _
  cut := fun _ member => absurd member List.not_mem_nil
  sorted := .nil

theorem tokens_addToken (s : Scanner) (kind : TokenKind) (literal : Option Literal) :
    (s.addToken kind literal).tokens = s.tokens ++
      [⟨kind, s.lexeme, s.mark.location, ⟨s.mark.offset, s.cursor.offset⟩, literal⟩] :=
  List.reverse_cons

theorem Sound.lexeme_eq (sound : s.Sound text) :
    s.lexeme = (text.take s.cursor.offset).drop s.mark.offset := by
  rw [lexeme, sound.mark.rest_eq, List.drop_take]

theorem Sound.advance (sound : s.Sound text) : s.advance.Sound text where
  text_eq := sound.text_eq
  cursor := sound.cursor.advance
  mark := sound.mark
  mark_le := Nat.le_trans sound.mark_le s.cursor.offset_le_advance
  cut := sound.cut
  sorted := sound.sorted

theorem Sound.startToken (sound : s.Sound text) : s.startToken.Sound text where
  text_eq := sound.text_eq
  cursor := sound.cursor
  mark := sound.cursor
  mark_le := Nat.le_refl _
  cut := by
    intro x member
    obtain ⟨i, j, cut, limited⟩ := sound.cut x member
    exact ⟨i, j, cut, Nat.le_trans limited sound.mark_le⟩
  sorted := sound.sorted

theorem Sound.addToken (sound : s.Sound text) (kind : TokenKind) (literal : Option Literal) :
    (s.addToken kind literal).Sound text where
  text_eq := sound.text_eq
  cursor := sound.cursor
  mark := sound.cursor
  mark_le := Nat.le_refl _
  cut := by
    intro x member
    rw [tokens_addToken, List.mem_append, List.mem_singleton] at member
    rcases member with earlier | rfl
    · obtain ⟨i, j, cut, limited⟩ := sound.cut x earlier
      exact ⟨i, j, cut, Nat.le_trans limited sound.mark_le⟩
    · refine ⟨s.mark.offset, s.cursor.offset, ?_, Nat.le_refl _⟩
      exact ⟨sound.mark.boundary, sound.cursor.boundary, sound.mark_le, rfl, sound.lexeme_eq,
        sound.mark.location_eq⟩
  sorted := by
    rw [tokens_addToken, List.pairwise_append]
    refine ⟨sound.sorted, List.pairwise_singleton _ _, fun x earlier y latest => ?_⟩
    obtain rfl := List.mem_singleton.mp latest
    -- The new token starts at the mark, and no earlier one goes past it.
    obtain ⟨i, j, cut, limited⟩ := sound.cut x earlier
    rw [cut.span_eq]
    exact Int.ofNat_le.mpr limited

theorem Sound.step (sound : s.Sound text) (step : Step s t) : t.Sound text := by
  cases step with
  | advance => exact sound.advance
  | startToken => exact sound.startToken
  | addToken kind literal => exact sound.addToken kind literal
  | reportAt => exact { sound with }
  | lineComments => exact { sound with }
  | blockComments => exact { sound with }
  | recordComments => exact { sound with }

theorem Reaches.sound (reaches : Reaches s t) (sound : s.Sound text) : t.Sound text :=
  Steps.invariant (fun _ _ step sound => sound.step step) reaches sound

theorem Moment.sound {σ : Type} {r : Recognizer σ} {strict : Bool} {memory : σ}
    (moment : Moment r strict memory s text t) : t.Sound text :=
  moment.reaches.sound (sound_reset s text)

end Scanner

end FrontEnd
