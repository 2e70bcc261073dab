import FrontEnd.Number.Decimal
import FrontEnd.Number.Integer
import FrontEnd.Proofs.Binary64.Range

/-!
# Reading numerals

A decimal numeral in its parts (`Numeral`) has a text and a value, which is a fraction.  Reading its
text gives back that value: digits are an integer if they are below `2 ^ 63`
(`integerValue_of_digits`), and every numeral is a floating-point number if its value is below the
bound of these (`floatValue_text`).  The only fault of such a text is that it is out of range.

The exponent may have any number of digits.  It is brought into bounds before a power is formed,
which changes nothing (`scaled?_eq`).
-/

namespace FrontEnd

namespace Number

open Binary64 (powUp overflowBound)

/-! ## Digits -/

/-- The byte is a decimal digit. -/
def IsDigit (b : UInt8) : Prop := 0x30 ≤ b ∧ b ≤ 0x39

instance : DecidablePred IsDigit := fun _ => inferInstanceAs (Decidable (_ ∧ _))

/-- The bytes are decimal digits. -/
def Digits (t : Text) : Prop := ∀ b ∈ t, IsDigit b

instance : DecidablePred Digits := fun _ => List.decidableBAll _ _

/-- The number that digits make up behind digits with value `n`. -/
def digitsFrom (n : Nat) (t : Text) : Nat := t.foldl (fun n b => 10 * n + (b.toNat - 0x30)) n

/-- The number that digits make up. -/
def digitsValue (t : Text) : Nat := digitsFrom 0 t

variable {t u : Text} {b : UInt8}

theorem digit?_of_digit (digit : IsDigit b) : digit? b = some (b.toNat - 0x30) :=
  if_pos digit

/-- A digit is none of the other bytes. -/
theorem ne_of_digit (digit : IsDigit b) {c : UInt8} (other : ¬ IsDigit c) : b ≠ c := by
  rintro rfl
  exact other digit

theorem Digits.tail (digits : Digits (b :: t)) : Digits t :=
  fun _ member => digits _ (List.mem_cons_of_mem b member)

theorem digitsFrom_append (n : Nat) (t u : Text) :
    digitsFrom n (t ++ u) = digitsFrom (digitsFrom n t) u :=
  List.foldl_append

theorem le_digitsFrom (n : Nat) (t : Text) : n ≤ digitsFrom n t := by
  induction t generalizing n with
  | nil => exact Nat.le_refl n
  | cons b t ih =>
      have next : n ≤ 10 * n + (b.toNat - 0x30) := by omega
      exact next.trans (ih _)

/-! ## Integers -/

theorem readDigits_of_digits (digits : Digits t) {n : Nat} (fits : n < 2 ^ 64) :
    readDigits n t = if digitsFrom n t < 2 ^ 64 then .ok (digitsFrom n t) else .error .range := by
  induction t generalizing n with
  | nil => exact (if_pos fits).symm
  | cons b t ih =>
      rw [readDigits, digit?_of_digit (digits b List.mem_cons_self)]
      change (if 10 * n + (b.toNat - 0x30) < 2 ^ 64 then _ else _) = _
      by_cases fitsOn : 10 * n + (b.toNat - 0x30) < 2 ^ 64
      · rw [if_pos fitsOn, ih digits.tail fitsOn]
        rfl
      · have great : ¬ digitsFrom n (b :: t) < 2 ^ 64 :=
          fun small => fitsOn (Nat.lt_of_le_of_lt (le_digitsFrom _ t) small)
        rw [if_neg fitsOn, if_neg great]

theorem readInteger_of_digit (digit : IsDigit b) (t : Text) :
    readInteger (b :: t) =
      (readDigits 0 (b :: t) >>= fun n => if n < 2 ^ 63 then .ok (n : Int) else .error .range) := by
  unfold readInteger
  split
  case h_3 => rfl
  all_goals
    rename_i sign
    exact absurd (List.cons.inj sign).1 (ne_of_digit digit (by decide))

/-- Digits are an integer, or out of range. -/
theorem integerValue_of_digits (present : t ≠ []) (digits : Digits t) :
    integerValue t =
      if digitsValue t < 2 ^ 63 then .ok (digitsValue t : Int) else .error ⟨t, .range⟩ := by
  obtain ⟨b, t, rfl⟩ := List.exists_cons_of_ne_nil present
  rw [integerValue, readInteger_of_digit (digits b List.mem_cons_self),
    readDigits_of_digits digits (by decide), ← digitsValue]
  by_cases fits : digitsValue (b :: t) < 2 ^ 63
  · have word : digitsValue (b :: t) < 2 ^ 64 := fits.trans (by decide)
    simp only [word, fits, ↓reduceIte, bind, Except.bind]
  · by_cases word : digitsValue (b :: t) < 2 ^ 64 <;>
      simp only [word, fits, ↓reduceIte, bind, Except.bind]

/-! ## Powers -/

theorem Base.two_le_exponentRadix (base : Base) : (2 : ℚ) ≤ base.exponentRadix := by
  cases base with
  | ten => exact Nat.ofNat_le_cast.mpr (by decide)
  | sixteen => exact le_rfl

theorem Base.powUp_pos (base : Base) (e : Int) : 0 < powUp base.exponentRadix e := by
  cases base <;> exact Binary64.powUp_pos (by decide) e

/-- The two parts of a scaled value make up the fraction that it is. -/
theorem Base.scaled_eq (base : Base) (value : Nat) (e : Int) :
    ((value * powUp base.exponentRadix e : ℕ) : ℚ) / powUp base.exponentRadix (-e) =
      value * (base.exponentRadix : ℚ) ^ e := by
  have positive : 0 < base.exponentRadix := by cases base <;> decide
  rw [Nat.cast_mul, mul_div_assoc, Binary64.powUp_div_powUp positive]

theorem nearest?_of_great_exponent (base : Base) {value : Nat} (present : 0 < value) {e : Int}
    (great : 1100 ≤ e) :
    Binary64.nearest? (value * powUp base.exponentRadix e) (powUp base.exponentRadix (-e)) =
      none := by
  rw [Binary64.nearest?_eq_none_iff _ (base.powUp_pos _), base.scaled_eq]
  have atLeastOne : (1 : ℚ) ≤ value := Nat.one_le_cast.mpr present
  calc overflowBound ≤ 2 ^ (1024 : ℤ) := Binary64.overflowBound_lt.le
    _ ≤ 2 ^ e := zpow_le_zpow_right₀ one_le_two (by omega)
    _ ≤ (base.exponentRadix : ℚ) ^ e :=
      zpow_le_zpow_left₀ (by omega) zero_le_two base.two_le_exponentRadix
    _ ≤ value * (base.exponentRadix : ℚ) ^ e := le_mul_of_one_le_left (by positivity) atLeastOne

theorem nearest?_of_small_exponent (base : Base) (value : Nat) {e : Int}
    (small : e ≤ -(value.log2 + 1100 : Nat)) :
    Binary64.nearest? (value * powUp base.exponentRadix e) (powUp base.exponentRadix (-e)) =
      some ⟨0⟩ := by
  apply Binary64.nearest?_eq_zero (base.powUp_pos _)
  rw [base.scaled_eq]
  have bound := Binary64.lt_pow_log2 value
  have power : (base.exponentRadix : ℚ) ^ e ≤ 2 ^ e := by
    rw [← neg_neg e, zpow_neg, zpow_neg _ (-e)]
    exact inv_anti₀ (zpow_pos two_pos _)
      (zpow_le_zpow_left₀ (by omega) zero_le_two base.two_le_exponentRadix)
  calc (value : ℚ) * (base.exponentRadix : ℚ) ^ e ≤ value * 2 ^ e := by gcongr
    _ < 2 ^ ((value.log2 : ℤ) + 1) * 2 ^ e := by gcongr
    _ = 2 ^ ((value.log2 : ℤ) + 1 + e) := (zpow_add₀ two_ne_zero _ _).symm
    _ ≤ 2 ^ (-1075 : ℤ) := zpow_le_zpow_right₀ one_le_two (by omega)

/-- Bringing the exponent into bounds changes nothing. -/
theorem scaled?_eq (base : Base) (value : Nat) (e : Int) :
    scaled? base value e =
      Binary64.nearest? (value * powUp base.exponentRadix e) (powUp base.exponentRadix (-e)) := by
  rcases Nat.eq_zero_or_pos value with rfl | present
  · rw [scaled?, Nat.zero_mul, Nat.zero_mul, Binary64.nearest?_zero, Binary64.nearest?_zero]
  unfold scaled? clampExponent
  by_cases great : 1100 ≤ e
  · rw [nearest?_of_great_exponent base present great,
      nearest?_of_great_exponent base present (by omega)]
  by_cases small : e ≤ -(value.log2 + 1100 : Nat)
  · rw [nearest?_of_small_exponent base value small,
      nearest?_of_small_exponent base value (by omega)]
  · have same : max (-((value.log2 + 1100 : Nat) : Int)) (min 1100 e) = e := by omega
    rw [same]

theorem scaled?_eq_none_iff (value : Nat) (e : Int) :
    scaled? .ten value e = none ↔ overflowBound ≤ (value : ℚ) * 10 ^ e := by
  have ten : (Base.ten.exponentRadix : ℚ) = 10 := Nat.cast_ofNat
  rw [scaled?_eq, Binary64.nearest?_eq_none_iff _ (Base.ten.powUp_pos _), Base.ten.scaled_eq, ten]

/-! ## Numerals -/

/-- A power of ten behind a numeral, in its parts. -/
structure Power where
  mark : UInt8
  sign : Text
  digits : Text
  isMark : mark = 0x65 ∨ mark = 0x45
  isSign : sign = [] ∨ sign = [0x2B] ∨ sign = [0x2D]
  present : digits ≠ []
  areDigits : Digits digits

namespace Power

def text (p : Power) : Text := p.mark :: (p.sign ++ p.digits)

def exponent (p : Power) : Int :=
  if p.sign = [0x2D] then -(digitsValue p.digits : Int) else digitsValue p.digits

end Power

/-- A decimal numeral without sign, in its parts. -/
structure Numeral where
  whole : Text
  /-- The digits behind the point, if there is one. -/
  fraction : Option Text
  power : Option Power
  present : whole ≠ []
  areDigits : Digits whole
  fractionDigits : ∀ d ∈ fraction, Digits d

namespace Numeral

/-- The point and the digits behind it. -/
def fractionText (n : Numeral) : Text := n.fraction.elim [] (0x2E :: ·)

def powerText (n : Numeral) : Text := n.power.elim [] Power.text

def text (n : Numeral) : Text := n.whole ++ (n.fractionText ++ n.powerText)

/-- The number that all digits make up, without regard to the point. -/
def mantissa (n : Numeral) : Nat := digitsValue (n.whole ++ n.fraction.getD [])

/-- The exponent of the last digit. -/
def exponent (n : Numeral) : Int := n.power.elim 0 Power.exponent - (n.fraction.getD []).length

def value (n : Numeral) : ℚ := n.mantissa * 10 ^ n.exponent

end Numeral

/-! ### The bytes of a numeral -/

/-- The bytes that numerals are made of. -/
def IsNumeric (b : UInt8) : Prop :=
  IsDigit b ∨ b = 0x2E ∨ b = 0x65 ∨ b = 0x45 ∨ b = 0x2B ∨ b = 0x2D

instance : DecidablePred IsNumeric := fun _ => inferInstanceAs (Decidable (_ ∨ _))

theorem Digits.isNumeric (digits : Digits t) : ∀ b ∈ t, IsNumeric b :=
  fun b member => Or.inl (digits b member)

theorem Power.isNumeric (p : Power) : ∀ b ∈ p.text, IsNumeric b := by
  intro b member
  rw [Power.text, List.mem_cons, List.mem_append] at member
  rcases member with rfl | signed | digit
  · rcases p.isMark with mark | mark <;> rw [mark] <;> decide
  · rcases p.isSign with sign | sign | sign <;> rw [sign] at signed
    · cases signed
    · rw [List.mem_singleton.mp signed]
      decide
    · rw [List.mem_singleton.mp signed]
      decide
  · exact p.areDigits.isNumeric b digit

theorem Numeral.isNumeric (n : Numeral) : ∀ b ∈ n.text, IsNumeric b := by
  intro b member
  rw [Numeral.text, List.mem_append, List.mem_append] at member
  rcases member with inWhole | inFraction | inPower
  · exact n.areDigits.isNumeric b inWhole
  · rw [Numeral.fractionText] at inFraction
    cases known : n.fraction with
    | none =>
        rw [known] at inFraction
        cases inFraction
    | some d =>
        rw [known] at inFraction
        rcases List.mem_cons.mp inFraction with rfl | digit
        · decide
        · exact (n.fractionDigits d known).isNumeric b digit
  · rw [Numeral.powerText] at inPower
    cases known : n.power with
    | none =>
        rw [known] at inPower
        cases inPower
    | some p =>
        rw [known] at inPower
        exact p.isNumeric b inPower

theorem lowerByte_of_digit (digit : IsDigit b) : lowerByte b = b :=
  if_neg fun upper => absurd (UInt8.le_trans upper.1 digit.2) (by decide)

theorem IsNumeric.ne_underscore (numeric : IsNumeric b) : b ≠ 0x5F := by
  rintro rfl
  exact absurd numeric (by decide)

theorem IsNumeric.ne_baseMark (numeric : IsNumeric b) : lowerByte b ≠ 0x78 := by
  rcases numeric with digit | rfl | rfl | rfl | rfl | rfl
  · rw [lowerByte_of_digit digit]
    exact ne_of_digit digit (by decide)
  all_goals decide

theorem splitBase_of_numeric (numeric : ∀ b ∈ t, IsNumeric b) : splitBase t = (.ten, t) := by
  unfold splitBase
  split
  · rename_i x b rest
    rw [if_neg (numeric x (by simp)).ne_baseMark]
  · rfl

theorem underscoresFit_of_numeric (base : Base) (numeric : ∀ b ∈ t, IsNumeric b)
    (afterDigit : Bool) : underscoresFit base afterDigit false t = true := by
  induction t generalizing afterDigit with
  | nil => rfl
  | cons b t ih =>
      have rest := ih fun c member => numeric c (List.mem_cons_of_mem b member)
      rw [underscoresFit, if_neg (numeric b List.mem_cons_self).ne_underscore, rest, rest]
      simp

/-- Whether a text ends with a digit or a point. -/
def endsInNumeral (t : Text) : Bool :=
  t.getLast?.any fun b => decide (IsDigit b) || b == 0x2E

theorem endsInNumeral_append (t : Text) (ends : endsInNumeral u = true) :
    endsInNumeral (t ++ u) = true := by
  rw [endsInNumeral] at ends ⊢
  rw [List.getLast?_append]
  cases last : u.getLast? with
  | none =>
      rw [last] at ends
      cases ends
  | some b =>
      rw [last] at ends
      exact ends

theorem Digits.endsInNumeral (digits : Digits t) (present : t ≠ []) :
    endsInNumeral t = true := by
  rw [Number.endsInNumeral, List.getLast?_eq_some_getLast present, Option.any_some,
    Bool.or_eq_true, decide_eq_true_iff]
  exact Or.inl (digits _ (List.getLast_mem present))

/-- Numerals end with a digit or a point. -/
theorem Numeral.endsInNumeral_text (n : Numeral) : endsInNumeral n.text = true := by
  rw [Numeral.text, Numeral.powerText]
  cases n.power with
  | some p =>
      refine endsInNumeral_append _ (endsInNumeral_append _ ?_)
      exact endsInNumeral_append (p.mark :: p.sign) (p.areDigits.endsInNumeral p.present)
  | none =>
      rw [Option.elim_none, List.append_nil, Numeral.fractionText]
      cases known : n.fraction with
      | none =>
          rw [Option.elim_none, List.append_nil]
          exact n.areDigits.endsInNumeral n.present
      | some d =>
          refine endsInNumeral_append _ ?_
          by_cases present : d = []
          · rw [present]
            rfl
          · exact endsInNumeral_append [0x2E] ((n.fractionDigits d known).endsInNumeral present)

/-! ### Reading the parts -/

theorem readMantissa_digit (m : Mantissa) (digit : IsDigit b) (t : Text) :
    readMantissa .ten m (b :: t) = readMantissa .ten (m.push .ten (b.toNat - 0x30)) t := by
  have known : Base.ten.digit? b = some (b.toNat - 0x30) := digit?_of_digit digit
  rw [readMantissa, if_neg (ne_of_digit digit (by decide)), if_neg (ne_of_digit digit (by decide)),
    known]

theorem readMantissa_whole (digits : Digits t) (v : Nat) (has : Bool) (u : Text) :
    readMantissa .ten ⟨v, false, 0, has⟩ (t ++ u) =
      readMantissa .ten ⟨digitsFrom v t, false, 0, has || !t.isEmpty⟩ u := by
  induction t generalizing v has with
  | nil =>
      rw [List.isEmpty_nil, Bool.not_true, Bool.or_false]
      rfl
  | cons b t ih =>
      rw [List.cons_append, readMantissa_digit _ (digits b List.mem_cons_self)]
      refine (ih digits.tail _ true).trans ?_
      rw [List.isEmpty_cons, Bool.not_false, Bool.or_true, Bool.true_or]
      rfl

theorem readMantissa_fraction (digits : Digits t) (v k : Nat) (u : Text) :
    readMantissa .ten ⟨v, true, k, true⟩ (t ++ u) =
      readMantissa .ten ⟨digitsFrom v t, true, k + t.length, true⟩ u := by
  induction t generalizing v k with
  | nil => rfl
  | cons b t ih =>
      rw [List.cons_append, readMantissa_digit _ (digits b List.mem_cons_self)]
      refine (ih digits.tail _ (k + 1)).trans ?_
      rw [List.length_cons, Nat.add_assoc, Nat.add_comm 1]
      rfl

theorem readExponentDigits_of_digits (digits : Digits t) (e : Nat) :
    readExponentDigits e t = (digitsFrom e t, []) := by
  induction t generalizing e with
  | nil => rfl
  | cons b t ih =>
      have digit := digits b List.mem_cons_self
      rw [readExponentDigits, if_neg (ne_of_digit digit (by decide)), digit?_of_digit digit]
      exact ih digits.tail _

theorem readSignedExponent_of_power (p : Power) :
    readSignedExponent (p.sign ++ p.digits) = some (p.exponent, []) := by
  obtain ⟨d, more, split⟩ := List.exists_cons_of_ne_nil p.present
  have digits := p.areDigits
  have read := readExponentDigits_of_digits digits 0
  rw [split] at digits read ⊢
  have digit := digits d List.mem_cons_self
  have known := digit?_of_digit digit
  rw [Power.exponent, split, digitsValue]
  rcases p.isSign with sign | sign | sign <;> rw [sign]
  · have notMinus : d ≠ 0x2D := ne_of_digit digit (by decide)
    have notPlus : d ≠ 0x2B := ne_of_digit digit (by decide)
    simp only [List.nil_append, readSignedExponent, notMinus, notPlus, ↓reduceIte, known, read]
    simp
  · simp [readSignedExponent, known, read]
  · simp [readSignedExponent, known, read]

theorem Numeral.readExponent_powerText (n : Numeral) :
    readExponent .ten n.powerText = some (n.power.elim 0 Power.exponent, []) := by
  rw [Numeral.powerText]
  cases n.power with
  | none => rfl
  | some p =>
      have mark : lowerByte p.mark = Base.ten.exponentMark := by
        rcases p.isMark with mark | mark <;> rw [mark] <;> decide
      change readExponent .ten (p.mark :: (p.sign ++ p.digits)) = _
      rw [readExponent, if_pos mark]
      exact readSignedExponent_of_power p

theorem Numeral.readMantissa_powerText (n : Numeral) (m : Mantissa) :
    readMantissa .ten m n.powerText = (m, n.powerText) := by
  rw [Numeral.powerText]
  cases n.power with
  | none => rfl
  | some p =>
      change readMantissa .ten m (p.mark :: (p.sign ++ p.digits)) = (m, p.mark :: _)
      rcases p.isMark with mark | mark <;> rw [mark] <;> rfl

theorem Numeral.readMantissa_text (n : Numeral) :
    readMantissa .ten .empty n.text =
      (⟨n.mantissa, n.fraction.isSome, (n.fraction.getD []).length, true⟩, n.powerText) := by
  have some : (!n.whole.isEmpty) = true := by
    rw [List.isEmpty_eq_false_iff.mpr n.present, Bool.not_false]
  rw [Numeral.text, Mantissa.empty, readMantissa_whole n.areDigits, Bool.false_or, some,
    Numeral.fractionText, Numeral.mantissa]
  cases known : n.fraction with
  | none =>
      change readMantissa .ten _ n.powerText = _
      rw [n.readMantissa_powerText, Option.getD_none, List.append_nil]
      rfl
  | some d =>
      change readMantissa .ten ⟨_, true, 0, true⟩ (d ++ n.powerText) = _
      rw [readMantissa_fraction (n.fractionDigits d known), n.readMantissa_powerText,
        Option.getD_some, digitsValue, digitsFrom_append, Nat.zero_add]
      rfl

/-- Reading the text of a numeral. -/
theorem Numeral.readFinite_text (n : Numeral) :
    readFinite n.text =
      match scaled? .ten n.mantissa n.exponent with
      | some x => .ok x
      | none => .error .range := by
  simp only [readFinite, splitBase_of_numeric n.isNumeric, n.readMantissa_text,
    n.readExponent_powerText, underscoresFit_of_numeric _ n.isNumeric, Bool.not_true,
    Bool.false_eq_true, ↓reduceIte]
  rfl

/-! ### Floating-point numbers -/

theorem readUnsigned_of_digit (digit : IsDigit b) (t : Text) :
    readUnsigned (b :: t) = readFinite (b :: t) := by
  have notWord (c : UInt8) (rest : Text) (other : ¬ IsDigit c) :
      (b :: t).map lowerByte ≠ c :: rest := by
    rw [List.map_cons, lowerByte_of_digit digit]
    exact fun same => ne_of_digit digit other (List.cons.inj same).1
  rw [readUnsigned, if_neg, if_neg]
  · exact notWord _ _ (by decide)
  · rintro (word | word)
    · exact notWord _ _ (by decide) word
    · exact notWord _ _ (by decide) word

theorem floatValue_of_digit (digit : IsDigit b) (t : Text) :
    floatValue (b :: t) =
      match readFinite (b :: t) with
      | .ok x => .ok x
      | .error fault => .error (.body (b :: t) (b :: t) fault) := by
  have unsigned : splitSign (b :: t) = (false, b :: t) := by
    unfold splitSign
    split
    case h_3 => rfl
    all_goals
      rename_i sign
      exact absurd (List.cons.inj sign).1 (ne_of_digit digit (by decide))
  have noSign : startsWithSign (b :: t) = false := by
    unfold startsWithSign
    split
    case h_3 => rfl
    all_goals
      rename_i sign
      exact absurd (List.cons.inj sign).1 (ne_of_digit digit (by decide))
  cases read : readFinite (b :: t) <;>
    simp only [floatValue, unsigned, noSign, List.isEmpty_cons, Bool.or_self, Bool.false_eq_true,
      ↓reduceIte, readUnsigned_of_digit digit, read]

/-- The text of a numeral is a floating-point number if its value is below the bound of these, and
out of range otherwise. -/
theorem Numeral.floatValue_text (n : Numeral) :
    (n.value < overflowBound → ∃ x, floatValue n.text = .ok x) ∧
      (overflowBound ≤ n.value → floatValue n.text = .error (.body n.text n.text .range)) := by
  obtain ⟨b, rest, split⟩ := List.exists_cons_of_ne_nil n.present
  have digit : IsDigit b := n.areDigits b (by rw [split]; exact List.mem_cons_self)
  have read : floatValue n.text =
      match readFinite n.text with
      | .ok x => .ok x
      | .error fault => .error (.body n.text n.text fault) := by
    rw [Numeral.text, split]
    exact floatValue_of_digit digit _
  rw [read, n.readFinite_text, Numeral.value, ← scaled?_eq_none_iff, ← not_le,
    ← scaled?_eq_none_iff]
  constructor
  · intro inRange
    obtain ⟨x, found⟩ := Option.ne_none_iff_exists'.mp inRange
    rw [found]
    exact ⟨x, rfl⟩
  · intro outOfRange
    rw [outOfRange]

end Number

end FrontEnd
