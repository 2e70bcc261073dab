import FrontEnd.Proofs.Lox.Classes
import FrontEnd.Proofs.Lox.Progress
import FrontEnd.Proofs.Number.Numerals

/-!
# Numbers of Lox

The recognizer goes through a number by a syntax of its own, and hands what it has passed over to a
reader of integers or of floating-point numbers.  The two agree: the lexeme has one of four shapes
(`NumberShape.Fits`), and with each comes what is made of it (`NumberShape.Finds`).  No lexeme is
handed to a reader that cannot read it, so the only fault that a reader finds is that a value is out
of range (`number_reads`).

Comments may cut a number short, also behind its point: with `5` as a marker, the text `1.5` starts
with the number `1.`, which has a point and no digits behind it.
-/

namespace FrontEnd

open Text (Whole Stretch Sweep)

namespace Lox

open Number (Digits digitsValue Numeral Power endsInNumeral)

/-- The shapes of the lexemes of numbers. -/
inductive NumberShape where
  /-- Digits that make up an integer. -/
  | integer
  /-- Digits that make up a number too great for an integer. -/
  | great
  /-- A numeral with a point, or an exponent, or both. -/
  | float
  /-- A numeral, and an exponent without digits. -/
  | unfinished
  deriving DecidableEq, Repr

namespace NumberShape

/-- The lexeme has the shape. -/
def Fits (m : Text) : NumberShape → Prop
  | .integer => IsDigits m ∧ digitsValue m < 2 ^ 63
  | .great => IsDigits m ∧ 2 ^ 63 ≤ digitsValue m
  | .float => ∃ n : Numeral, n.text = m ∧ (n.fraction ≠ none ∨ n.power ≠ none)
  | .unfinished => ∃ (n : Numeral) (mark : UInt8) (sign : Text), n.power = none ∧
      (mark = 0x65 ∨ mark = 0x45) ∧ (sign = [] ∨ sign = [0x2B] ∨ sign = [0x2D]) ∧
      m = n.text ++ mark :: sign

/-- What the readers of numbers make of a lexeme of the shape, and what is found in it. -/
def Finds (m : Text) (f : Finding) : NumberShape → Prop
  | .integer => Number.integerValue m = .ok (digitsValue m : Int) ∧
      f = .token .integer (some (.integer (digitsValue m)))
  | .great => Number.integerValue m = .error ⟨m, .range⟩ ∧
      f = .fault (Number.MalformedInteger.message ⟨m, .range⟩)
  | .float => ∀ n : Numeral, n.text = m →
      (n.value < Binary64.overflowBound → ∃ x, Number.floatValue m = .ok x ∧
        f = .token .float (some (.float x))) ∧
      (Binary64.overflowBound ≤ n.value → Number.floatValue m = .error (.body m m .range) ∧
        f = .fault (Number.MalformedFloat.body m m .range).message)
  | .unfinished => f = .fault (Number.MalformedFloat.sign m).message

end NumberShape

/-- The bytes that a scanner has passed over between two states. -/
def passedOver (before after : Scanner) : Text :=
  (before.text.take after.cursor.offset).drop before.cursor.offset

/-- A call that passes over the bytes `m` answers whether it has found a token.  It emits the token
and reports nothing, or reports the fault and emits nothing. -/
def Noted (t : Scanner) (m : Text) (after : Bool × Scanner) : Finding → Prop
  | .token symbol literal => after.1 = true ∧
      after.2.tokens = t.tokens ++ [⟨symbol.kind, m, t.cursor.location,
        ⟨t.cursor.offset, t.cursor.offset + m.length⟩, literal⟩] ∧
      after.2.diagnostics.toList = t.diagnostics.toList
  | .fault message => after.1 = false ∧ after.2.tokens = t.tokens ∧
      after.2.diagnostics.toList = t.diagnostics.toList ++ [⟨t.cursor.location, message⟩]
  | _ => False

/-! ## The shapes exclude each other -/

/-- The shape of a lexeme, read off its bytes. -/
def NumberShape.ofLexeme (m : Text) : NumberShape :=
  if Digits m then if digitsValue m < 2 ^ 63 then .integer else .great
  else if endsInNumeral m then .float else .unfinished

theorem not_digits_of_mem {m : Text} {b : UInt8} (member : b ∈ m) (other : ¬ Number.IsDigit b) :
    ¬ Digits m :=
  fun digits => other (digits b member)

theorem not_digits_numeral (n : Numeral) (more : n.fraction ≠ none ∨ n.power ≠ none) :
    ¬ Digits n.text := by
  rcases more with pointed | raised
  · obtain ⟨d, known⟩ := Option.ne_none_iff_exists'.mp pointed
    apply not_digits_of_mem (b := 0x2E) _ (by decide)
    rw [Numeral.text, Numeral.fractionText, known]
    simp
  · obtain ⟨p, known⟩ := Option.ne_none_iff_exists'.mp raised
    apply not_digits_of_mem (b := p.mark)
    · rw [Numeral.text, Numeral.powerText, known]
      simp [Power.text]
    · rcases p.isMark with mark | mark <;> rw [mark] <;> decide

theorem IsDigits.digits {m : Text} (digits : IsDigits m) : Digits m := digits.2

theorem NumberShape.eq_ofLexeme {shape : NumberShape} {m : Text} (fits : shape.Fits m) :
    shape = ofLexeme m := by
  unfold ofLexeme
  cases shape with
  | integer => rw [if_pos fits.1.digits, if_pos fits.2]
  | great => rw [if_pos fits.1.digits, if_neg (Nat.not_lt.mpr fits.2)]
  | float =>
      obtain ⟨n, rfl, more⟩ := fits
      rw [if_neg (not_digits_numeral n more), if_pos n.endsInNumeral_text]
  | unfinished =>
      obtain ⟨n, mark, sign, _, isMark, isSign, rfl⟩ := fits
      have notDigits : ¬ Digits (n.text ++ mark :: sign) := by
        apply not_digits_of_mem (b := mark)
        · exact List.mem_append_right _ List.mem_cons_self
        · rcases isMark with rfl | rfl <;> decide
      have ends : ¬ endsInNumeral (n.text ++ mark :: sign) = true := by
        rw [endsInNumeral, List.getLast?_append]
        rcases isMark with rfl | rfl <;> rcases isSign with rfl | rfl | rfl <;>
          exact Bool.false_ne_true
      rw [if_neg notDigits, if_neg ends]

/-! ## The syntax of numbers -/

section Syntax

variable {style : CommentStyle} {d e f m u v : Text}

theorem digits_of_sweep (sweep : Sweep (style.outside Text.isDigit) d v) : Digits d := by
  have stretch : Stretch (Text.frontIs Text.isDigit) d v := by
    refine sweep.stretch.weaken fun t holds => ?_
    rw [CommentStyle.outside, Bool.and_eq_true] at holds
    exact holds.2
  exact stretch_digits_iff.mp stretch

theorem Fraction.exists_part {has : Bool} (fraction : Fraction style has f v) :
    ∃ part : Option Text, (∀ d ∈ part, Digits d) ∧ part.elim [] (0x2E :: ·) = f ∧
      part.isSome = has := by
  cases fraction with
  | absent => exact ⟨none, nofun, rfl, rfl⟩
  | @present d _ _ digits =>
      refine ⟨some d, ?_, rfl, rfl⟩
      rintro _ ⟨⟩
      exact digits_of_sweep digits

theorem Sign.isSign (sign : Sign u v) : u = [] ∨ u = [0x2B] ∨ u = [0x2D] := by
  cases sign with
  | absent => exact Or.inl rfl
  | present _ isOne =>
      rcases isOne with rfl | rfl
      · exact Or.inr (Or.inl rfl)
      · exact Or.inr (Or.inr rfl)

theorem Exponent.exists_power {has : Bool} (exponent : Exponent style (some has) e v) :
    ∃ power : Option Power, power.elim [] Power.text = e ∧ power.isSome = has := by
  cases exponent with
  | absent => exact ⟨none, rfl, rfl⟩
  | @present b sign d _ mark signed present digits =>
      exact ⟨some ⟨b, sign, d, mark, signed.isSign, present, digits_of_sweep digits⟩, rfl, rfl⟩

/-- What the recognizer passes over as a number is a numeral. -/
theorem exists_numeral {hasFraction hasExponent : Bool} (present : d ≠ [])
    (digits : Sweep (style.outside Text.isDigit) d (f ++ (e ++ v)))
    (fraction : Fraction style hasFraction f (e ++ v))
    (exponent : Exponent style (some hasExponent) e v) :
    ∃ n : Numeral, n.text = d ++ (f ++ e) ∧ n.fraction.isSome = hasFraction ∧
      n.power.isSome = hasExponent := by
  obtain ⟨part, partDigits, rfl, hasPart⟩ := fraction.exists_part
  obtain ⟨power, rfl, hasPower⟩ := exponent.exists_power
  exact ⟨⟨d, part, power, present, digits_of_sweep digits, partDigits⟩, rfl, hasPart, hasPower⟩

/-- Digits are an integer, or too great for one. -/
theorem exists_shape_of_digits (digits : IsDigits m) :
    ∃ shape : NumberShape, shape.Fits m ∧ shape.Finds m (.ofInteger m) := by
  have read := Number.integerValue_of_digits digits.1 digits.digits
  rw [Finding.ofInteger]
  by_cases fits : digitsValue m < 2 ^ 63
  · rw [if_pos fits] at read
    refine ⟨.integer, ⟨digits, fits⟩, read, ?_⟩
    rw [read]
  · rw [if_neg fits] at read
    refine ⟨.great, ⟨digits, Nat.not_lt.mp fits⟩, read, ?_⟩
    rw [read]

/-- A numeral is a floating-point number, or out of range. -/
theorem finds_numeral (n : Numeral) : NumberShape.float.Finds n.text (.ofFloat n.text) := by
  intro n' same
  obtain ⟨inRange, outOfRange⟩ := n'.floatValue_text
  rw [same] at inRange outOfRange
  rw [Finding.ofFloat]
  constructor
  · intro below
    obtain ⟨x, read⟩ := inRange below
    refine ⟨x, read, ?_⟩
    rw [read]
  · intro above
    refine ⟨outOfRange above, ?_⟩
    rw [outOfRange above]

/-- In front of a digit, and outside comments, the recognizer passes over some bytes, and finds in
them what goes with their shape. -/
theorem exists_shape {t : Text} (outside : style.opens t = false)
    (digit : Text.frontIs Text.isDigit t = true) :
    ∃ m v f, t = m ++ v ∧ m ≠ [] ∧ Whole m v ∧ Closes style number [] m v f ∧
      ∃ shape : NumberShape, shape.Fits m ∧ shape.Finds m f := by
  obtain ⟨d, rest, rfl, digits⟩ := Text.exists_sweep (style.outside Text.isDigit) t
  have present : d ≠ [] := sweep_ne_nil outside digit (fun _ => id) digits
  obtain ⟨hasFraction, f, rest, rfl, fraction⟩ := exists_fraction style rest
  obtain ⟨answer, e, v, rfl, exponent⟩ := exists_exponent style rest
  have split : d ++ (f ++ (e ++ v)) = (d ++ (f ++ e)) ++ v := by
    rw [List.append_assoc, List.append_assoc]
  have bytes : d ++ (f ++ e) ≠ [] := fun none => present (List.append_eq_nil_iff.mp none).1
  cases answer with
  | none =>
      refine ⟨_, v, _, split, bytes, (Lexeme.malformed digit digits fraction exponent).whole,
        closes_malformed digits fraction exponent, .unfinished, ?_, rfl⟩
      obtain ⟨part, partDigits, rfl, _⟩ := fraction.exists_part
      cases exponent with
      | @empty b sign _ mark signed _ =>
          refine ⟨⟨d, part, none, present, digits_of_sweep digits, partDigits⟩, b, sign, rfl, mark,
            signed.isSign, ?_⟩
          rw [Numeral.text, Numeral.powerText, Option.elim_none, List.append_nil, List.append_assoc]
          rfl
  | some hasExponent =>
      refine ⟨_, v, _, split, bytes, (Lexeme.number digit digits fraction exponent).whole,
        closes_number digits fraction exponent, ?_⟩
      obtain ⟨n, text, hasPart, hasPower⟩ := exists_numeral present digits fraction exponent
      rw [← text, Finding.ofNumber]
      split
      · rename_i more
        refine ⟨.float, ⟨n, rfl, ?_⟩, finds_numeral n⟩
        rw [← Option.isSome_iff_ne_none, ← Option.isSome_iff_ne_none, hasPart, hasPower]
        exact Bool.or_eq_true_iff.mp more
      · rename_i nothing
        obtain ⟨noFraction, noExponent⟩ := Bool.or_eq_false_iff.mp (Bool.eq_false_iff.mpr nothing)
        rw [noFraction, Option.isSome_eq_false_iff, Option.isNone_iff_eq_none] at hasPart
        rw [noExponent, Option.isSome_eq_false_iff, Option.isNone_iff_eq_none] at hasPower
        have digitsOnly : n.text = n.whole := by
          rw [Numeral.text, Numeral.fractionText, Numeral.powerText, hasPart, hasPower,
            Option.elim_none, Option.elim_none, List.append_nil, List.append_nil]
        rw [digitsOnly]
        exact exists_shape_of_digits ⟨n.present, n.areDigits⟩

end Syntax

/-! ## What a call notes -/

section Call

variable {t : Scanner} {m v : Text} {f : Finding}

theorem recognize_of_digit {c : Char} (peeked : t.cursor.peek? = some c)
    (digit : Text.isDigit c = true) : recognize.run t = number.run t := by
  simp only [recognize, Action.run_bind, ScanAction.peek?, Action.run_read]
  rw [peeked]
  simp only [digit, ↓reduceIte]

theorem passedOver_note (faces : t.Faces t.cursor.offset (m ++ v)) :
    passedOver t (f.note (t.moveTo (t.cursor.offset + m.length))) = m := by
  rw [passedOver, offset_note, List.drop_take, faces.ahead, Nat.add_sub_cancel_left,
    List.take_left]

theorem noted_note (marked : t.mark = t.cursor) (faces : t.Faces t.cursor.offset (m ++ v))
    (whole : Whole m v)
    (isOne : (∃ symbol literal, f = .token symbol literal) ∨ ∃ message, f = .fault message) :
    Noted t m (f.isToken, f.note (t.moveTo (t.cursor.offset + m.length))) f := by
  rcases isOne with ⟨symbol, literal, rfl⟩ | ⟨message, rfl⟩
  · refine ⟨rfl, ?_, rfl⟩
    refine (Scanner.tokens_addToken _ symbol.kind literal).trans ?_
    rw [lexeme_moveTo marked faces whole, ← marked]
    rfl
  · refine ⟨rfl, rfl, ?_⟩
    rw [← marked]
    exact Diagnostics.toList_add _ _ _

theorem NumberShape.token_or_fault {shape : NumberShape} (fits : shape.Fits m)
    (finds : shape.Finds m f) :
    (∃ symbol literal, f = .token symbol literal) ∨ ∃ message, f = .fault message := by
  cases shape with
  | integer => exact Or.inl ⟨_, _, finds.2⟩
  | great => exact Or.inr ⟨_, finds.2⟩
  | unfinished => exact Or.inr ⟨_, finds⟩
  | float =>
      obtain ⟨n, text, _⟩ := fits
      obtain ⟨inRange, outOfRange⟩ := finds n text
      rcases lt_or_ge n.value Binary64.overflowBound with below | above
      · obtain ⟨x, _, found⟩ := inRange below
        exact Or.inl ⟨_, _, found⟩
      · exact Or.inr ⟨_, (outOfRange above).2⟩

end Call

/-- At every call in front of a digit the recognizer reads a number, of which it passes over some
bytes.  However comments look, these bytes have exactly one of the four shapes; what the readers
of numbers make of them, and what is emitted or reported, is what goes with the shape.  In no shape
does a reader reject the bytes for their syntax. -/
theorem number_reads (strict : Bool) (before : Scanner) (text : Text) {t : Scanner}
    (calls : Scanner.Calls recognizer strict ((), before.reset text) () t)
    {c : Char} (peeked : t.cursor.peek? = some c) (digit : Text.isDigit c = true) :
    let after := number.run t
    let m := passedOver t after.2
    recognize.run t = after ∧ m ≠ [] ∧ (∃! shape : NumberShape, shape.Fits m) ∧
      ∀ shape : NumberShape, shape.Fits m → ∃ f, shape.Finds m f ∧ Noted t m after f := by
  intro after m
  have begun : (before.reset text).Sound text := Scanner.sound_reset before text
  have faces := (calls.sound begun).faces
  have front : Text.frontIs Text.isDigit (text.drop t.cursor.offset) = true := by
    obtain ⟨first, isFirst, same⟩ := Option.map_eq_some_iff.mp peeked
    rw [← faces.rest_eq, Text.frontIs_of_rune? isFirst, same]
    exact digit
  obtain ⟨u, v, f, split, present, whole, closes, shape, fits, finds⟩ :=
    exists_shape (calls.outside begun) front
  rw [split] at faces
  have run : after = (f.isToken, f.note (t.moveTo (t.cursor.offset + u.length))) :=
    closes t t.cursor.offset rfl (calls.marked.trans faces.cursor_eq) faces.ahead faces
  have bytes : m = u := by
    change passedOver t after.2 = u
    rw [run]
    exact passedOver_note faces
  rw [bytes, run]
  have unique (other : NumberShape) (otherFits : other.Fits u) : other = shape := by
    rw [NumberShape.eq_ofLexeme otherFits, NumberShape.eq_ofLexeme fits]
  refine ⟨(recognize_of_digit peeked digit).trans run, present, ⟨shape, fits, unique⟩,
    fun other otherFits => ?_⟩
  rw [unique other otherFits]
  exact ⟨f, finds, noted_note calls.marked faces whole (NumberShape.token_or_fault fits finds)⟩

/-- A scanner in front of `1.5` for which comments start with `5`. -/
def cutScanner : Scanner :=
  (Scanner.new (CommentStyle.off.withLine [0x35])).reset (Text.ofString "1.5")

theorem calls_cutScanner : Scanner.Calls recognizer true ((), cutScanner) () cutScanner := by
  refine .first _ _ _ ?_ rfl rfl
  rw [Scanner.skipBlanks, Scanner.advanceWhile, Cursor.advanceWhile]
  rfl

/-- A number that a comment cuts short. -/
theorem number_reads_cut :
    let after := number.run cutScanner
    let m := passedOver cutScanner after.2
    Scanner.Calls recognizer true ((), cutScanner) () cutScanner ∧
      cutScanner.cursor.peek? = some '1' ∧
      ∃ shape : NumberShape, shape.Fits m ∧ ∃ f, shape.Finds m f ∧ Noted cutScanner m after f := by
  intro after m
  have calls := calls_cutScanner
  obtain ⟨_, _, ⟨shape, fits, _⟩, noted⟩ := number_reads true
    (.new (CommentStyle.off.withLine [0x35])) (Text.ofString "1.5") calls (c := '1') rfl rfl
  exact ⟨calls, rfl, shape, fits, noted shape fits⟩

end Lox

end FrontEnd
