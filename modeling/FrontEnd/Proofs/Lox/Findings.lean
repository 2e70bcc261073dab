import FrontEnd.Lox.Recognizer
import FrontEnd.Proofs.Scanner.Comment

/-!
# What a scan of Lox finds

The lexical grammar of Lox as a relation between texts, without a scanner.  `Finds style f u v`
says that the text `u ++ v` starts with the finding `f`, which takes the bytes `u`: a blank, a
comment, a token or a fault.  The markers of comments are arbitrary, and the bytes `v` matter only
as far as they keep `u` from going on.

Every text starts with something (`exists_finds`), and every finding takes some bytes
(`Finds.ne_nil`).
-/

namespace FrontEnd

open Text (Whole Stretch Sweep)

namespace Lox

/-- What a scan finds at the front of a text. -/
inductive Finding where
  | blank
  | comment
  | token (symbol : Symbol) (literal : Option Literal)
  | fault (message : Text)
  deriving DecidableEq, Repr

namespace Finding

/-- What is found in the digits `u`. -/
def ofInteger (u : Text) : Finding :=
  match Number.integerValue u with
  | .ok n => .token .integer (some (.integer n))
  | .error e => .fault e.message

/-- What is found in the floating-point number `u`. -/
def ofFloat (u : Text) : Finding :=
  match Number.floatValue u with
  | .ok x => .token .float (some (.float x))
  | .error e => .fault e.message

/-- What is found in the number `u`. -/
def ofNumber (float : Bool) (u : Text) : Finding := if float then ofFloat u else ofInteger u

end Finding

/-- The signs of an exponent. -/
def isSign (c : Char) : Bool := c == '+' || c == '-'

/-- The characters that start an exponent. -/
def isExponentMark (c : Char) : Bool := c == 'e' || c == 'E'

/-- Whether a text starts with a point and a digit. -/
def opensFraction (t : Text) : Bool :=
  t.frontIs (· == '.') && Text.frontIs Text.isDigit (t.drop 1)

/-- In front of `v` the bytes `u` are the fraction of a number, if it has one. -/
inductive Fraction (style : CommentStyle) : Bool → Text → Text → Prop where
  | absent {v : Text} (other : opensFraction v = false) : Fraction style false [] v
  | present {d v : Text} (digit : Text.frontIs Text.isDigit (d ++ v) = true)
      (digits : Sweep (style.outside Text.isDigit) d v) : Fraction style true (0x2E :: d) v

/-- In front of `v` the bytes `u` are a sign, if there is one. -/
inductive Sign : Text → Text → Prop where
  | absent {v : Text} (other : v.frontIs isSign = false) : Sign [] v
  | present {b : UInt8} (v : Text) (isOne : b = 0x2B ∨ b = 0x2D) : Sign [b] v

/-- In front of `v` the bytes `u` are the exponent of a number, if it has one.  The answer is
nothing if the exponent has no digits. -/
inductive Exponent (style : CommentStyle) : Option Bool → Text → Text → Prop where
  | absent {v : Text} (other : v.frontIs isExponentMark = false) :
      Exponent style (some false) [] v
  | empty {b : UInt8} {sign v : Text} (mark : b = 0x65 ∨ b = 0x45) (signed : Sign sign v)
      (digits : Sweep (style.outside Text.isDigit) [] v) : Exponent style none (b :: sign) v
  | present {b : UInt8} {sign d v : Text} (mark : b = 0x65 ∨ b = 0x45)
      (signed : Sign sign (d ++ v)) (present : d ≠ [])
      (digits : Sweep (style.outside Text.isDigit) d v) :
      Exponent style (some true) (b :: (sign ++ d)) v

/-- The text `u ++ v` starts with the token or the fault `f`, which takes the bytes `u`. -/
inductive Lexeme (style : CommentStyle) : Finding → Text → Text → Prop where
  | number {d f e v : Text} {hasFraction hasExponent : Bool}
      (digit : Text.frontIs Text.isDigit (d ++ (f ++ (e ++ v))) = true)
      (digits : Sweep (style.outside Text.isDigit) d (f ++ (e ++ v)))
      (fraction : Fraction style hasFraction f (e ++ v))
      (exponent : Exponent style (some hasExponent) e v) :
      Lexeme style (.ofNumber (hasFraction || hasExponent) (d ++ (f ++ e))) (d ++ (f ++ e)) v
  | malformed {d f e v : Text} {hasFraction : Bool}
      (digit : Text.frontIs Text.isDigit (d ++ (f ++ (e ++ v))) = true)
      (digits : Sweep (style.outside Text.isDigit) d (f ++ (e ++ v)))
      (fraction : Fraction style hasFraction f (e ++ v)) (exponent : Exponent style none e v) :
      Lexeme style (.fault (Number.MalformedFloat.sign (d ++ (f ++ e))).message)
        (d ++ (f ++ e)) v
  | string {body : Text} (v : Text)
      (inside : Stretch (Text.frontIs (· != '"')) body (0x22 :: v)) :
      Lexeme style (.token .string (some (.text body))) (0x22 :: (body ++ [0x22])) v
  | unterminated {body : Text} (inside : Stretch (Text.frontIs (· != '"')) body []) :
      Lexeme style (.fault (Text.ofString "unterminated string")) (0x22 :: body) []
  | word {u v : Text} (start : Text.frontIs Text.isIdentStart (u ++ v) = true)
      (parts : Sweep (style.outside Text.isIdentPart) u v) :
      Lexeme style (.token (.ofWord u) none) u v
  | single {c v : Text} {r : Rune} {s : Symbol} (first : Text.rune? (c ++ v) = some r)
      (width : c.length = r.width) (known : single? r.char = some s) :
      Lexeme style (.token s none) c v
  | short {c v : Text} {r : Rune} {s l : Symbol} (first : Text.rune? (c ++ v) = some r)
      (width : c.length = r.width) (known : withEqual? r.char = some (s, l))
      (alone : v.frontIs (· == '=') = false) : Lexeme style (.token s none) c v
  | long {c v : Text} {r : Rune} {s l : Symbol} (first : Text.rune? (c ++ 0x3D :: v) = some r)
      (width : c.length = r.width) (known : withEqual? r.char = some (s, l)) :
      Lexeme style (.token l none) (c ++ [0x3D]) v
  | unexpected {c v : Text} {r : Rune} (first : Text.rune? (c ++ v) = some r)
      (width : c.length = r.width) (notDigit : Text.isDigit r.char = false)
      (notQuote : r.char ≠ '"') (notStart : Text.isIdentStart r.char = false)
      (notSingle : single? r.char = none) (notPair : withEqual? r.char = none) :
      Lexeme style (.fault (Scanner.Fault.unexpected r.char).message) c v

/-- Whether a text starts with a character that is no white space. -/
def visible : Text → Bool := Text.frontIs fun c => !Text.isBlank c

/-- The text `u ++ v` starts with the finding `f`, which takes the bytes `u`. -/
inductive Finds (style : CommentStyle) : Finding → Text → Text → Prop where
  | blank {c v : Text} {r : Rune} (first : Text.rune? (c ++ v) = some r)
      (width : c.length = r.width) (isBlank : Text.isBlank r.char = true) :
      Finds style .blank c v
  | comment {u v : Text} (seen : visible (u ++ v) = true) (comment : Comment style true u v) :
      Finds style .comment u v
  | unclosed {u v : Text} (seen : visible (u ++ v) = true) (comment : Comment style false u v) :
      Finds style (.fault Scanner.Fault.unterminatedComment.message) u v
  | lexeme {f : Finding} {u v : Text} (seen : visible (u ++ v) = true)
      (outside : style.opens (u ++ v) = false) (lexeme : Lexeme style f u v) :
      Finds style f u v

variable {style : CommentStyle} {f : Finding} {t u v : Text}

/-! ## Bytes of numbers -/

theorem isDigit_byte_iff (b : UInt8) :
    Text.isDigit (Char.ofNat b.toNat) = true ↔ 0x30 ≤ b ∧ b ≤ 0x39 := by
  rw [Text.isDigit, Bool.and_eq_true, decide_eq_true_iff, decide_eq_true_iff, Char.le_def,
    Char.le_def, UInt32.le_iff_toNat_le, UInt32.le_iff_toNat_le, UInt8.le_iff_toNat_le,
    UInt8.le_iff_toNat_le]
  change 48 ≤ (Char.ofNat b.toNat).toNat ∧ (Char.ofNat b.toNat).toNat ≤ 57 ↔ _
  rw [Text.toNat_ofNat_of_lt b.toNat_lt]
  rfl

theorem isSign_byte_iff (b : UInt8) :
    isSign (Char.ofNat b.toNat) = true ↔ b = 0x2B ∨ b = 0x2D := by
  rw [isSign, Bool.or_eq_true, beq_iff_eq, beq_iff_eq, Text.ofNat_byte_eq_iff,
    Text.ofNat_byte_eq_iff, ← UInt8.toNat_inj, ← UInt8.toNat_inj]
  rfl

theorem isExponentMark_byte_iff (b : UInt8) :
    isExponentMark (Char.ofNat b.toNat) = true ↔ b = 0x65 ∨ b = 0x45 := by
  rw [isExponentMark, Bool.or_eq_true, beq_iff_eq, beq_iff_eq, Text.ofNat_byte_eq_iff,
    Text.ofNat_byte_eq_iff, ← UInt8.toNat_inj, ← UInt8.toNat_inj]
  rfl

theorem low_of_isDigit (c : Char) (h : Text.isDigit c = true) : c.toNat < 0x80 := by
  rw [Text.isDigit, Bool.and_eq_true, decide_eq_true_iff, decide_eq_true_iff] at h
  exact Nat.lt_of_le_of_lt (UInt32.le_iff_toNat_le.mp h.2) (by decide)

theorem low_of_isSign (c : Char) (h : isSign c = true) : c.toNat < 0x80 := by
  rw [isSign, Bool.or_eq_true, beq_iff_eq, beq_iff_eq] at h
  rcases h with rfl | rfl <;> decide

theorem low_of_isExponentMark (c : Char) (h : isExponentMark c = true) : c.toNat < 0x80 := by
  rw [isExponentMark, Bool.or_eq_true, beq_iff_eq, beq_iff_eq] at h
  rcases h with rfl | rfl <;> decide

/-! ## Every text starts with something -/

theorem exists_fraction (style : CommentStyle) (t : Text) :
    ∃ has u v, t = u ++ v ∧ Fraction style has u v := by
  by_cases opens : opensFraction t = true
  · rw [opensFraction, Bool.and_eq_true] at opens
    obtain ⟨rest, rfl⟩ := Text.exists_cons_of_frontIs (by decide) opens.1
    obtain ⟨d, v, rfl, digits⟩ := Text.exists_sweep (style.outside Text.isDigit) rest
    exact ⟨true, 0x2E :: d, v, rfl, .present opens.2 digits⟩
  · exact ⟨false, [], t, rfl, .absent (Bool.eq_false_iff.mpr opens)⟩

theorem exists_sign (t : Text) : ∃ u v, t = u ++ v ∧ Sign u v := by
  by_cases signed : t.frontIs isSign = true
  · obtain ⟨b, rest, rfl, _, isOne⟩ := Text.exists_byte_of_frontIs low_of_isSign signed
    exact ⟨[b], rest, rfl, .present rest ((isSign_byte_iff b).mp isOne)⟩
  · exact ⟨[], t, rfl, .absent (Bool.eq_false_iff.mpr signed)⟩

theorem exists_exponent (style : CommentStyle) (t : Text) :
    ∃ has u v, t = u ++ v ∧ Exponent style has u v := by
  by_cases marked : t.frontIs isExponentMark = true
  · obtain ⟨b, rest, rfl, _, mark⟩ := Text.exists_byte_of_frontIs low_of_isExponentMark marked
    have mark := (isExponentMark_byte_iff b).mp mark
    obtain ⟨sign, rest, rfl, signed⟩ := exists_sign rest
    obtain ⟨d, v, rfl, digits⟩ := Text.exists_sweep (style.outside Text.isDigit) rest
    by_cases present : d = []
    · subst present
      exact ⟨none, b :: sign, v, rfl, .empty mark signed digits⟩
    · refine ⟨some true, b :: (sign ++ d), v, ?_, .present mark signed present digits⟩
      rw [List.cons_append, List.append_assoc]
  · exact ⟨some false, [], t, rfl, .absent (Bool.eq_false_iff.mpr marked)⟩

theorem exists_number (digit : Text.frontIs Text.isDigit t = true) :
    ∃ f u v, t = u ++ v ∧ Lexeme style f u v := by
  obtain ⟨d, rest, rfl, digits⟩ := Text.exists_sweep (style.outside Text.isDigit) t
  obtain ⟨hasFraction, f, rest, rfl, fraction⟩ := exists_fraction style rest
  obtain ⟨answer, e, v, rfl, exponent⟩ := exists_exponent style rest
  have split : d ++ (f ++ (e ++ v)) = (d ++ (f ++ e)) ++ v := by
    rw [List.append_assoc, List.append_assoc]
  cases answer with
  | none => exact ⟨_, _, v, split, .malformed digit digits fraction exponent⟩
  | some hasExponent => exact ⟨_, _, v, split, .number digit digits fraction exponent⟩

theorem exists_string (quote : Text.frontIs (· == '"') t = true) :
    ∃ f u v, t = u ++ v ∧ Lexeme style f u v := by
  obtain ⟨rest, rfl⟩ := Text.exists_cons_of_frontIs (by decide) quote
  obtain ⟨body, v, rfl, inside, stops⟩ := Text.exists_sweep (Text.frontIs (· != '"')) rest
  by_cases ends : v = []
  · subst ends
    exact ⟨_, _, [], by rw [List.append_nil, List.append_nil]; rfl, .unterminated inside⟩
  · have closes : Text.frontIs (· == '"') v = true := by
      obtain ⟨r, first⟩ := Text.exists_rune? ends
      have notOther := stops.resolve_left ends
      rw [Text.frontIs_of_rune? first] at notOther ⊢
      exact beq_iff_eq.mpr (bne_eq_false_iff_eq.mp notOther)
    obtain ⟨v, rfl⟩ := Text.exists_cons_of_frontIs (by decide) closes
    refine ⟨_, _, v, ?_, .string v inside⟩
    rw [List.cons_append, List.append_assoc]
    rfl

theorem exists_operator {r : Rune} (first : Text.rune? t = some r)
    (notDigit : Text.isDigit r.char = false) (notQuote : r.char ≠ '"')
    (notStart : Text.isIdentStart r.char = false) : ∃ f u v, t = u ++ v ∧ Lexeme style f u v := by
  obtain ⟨c, v, rfl, width, _⟩ := Text.exists_first first
  cases single : single? r.char with
  | some s => exact ⟨_, c, v, rfl, .single first width single⟩
  | none =>
      rcases pair : withEqual? r.char with _ | ⟨s, l⟩
      · exact ⟨_, c, v, rfl, .unexpected first width notDigit notQuote notStart single pair⟩
      · by_cases equal : v.frontIs (· == '=') = true
        · obtain ⟨v, rfl⟩ := Text.exists_cons_of_frontIs (by decide) equal
          exact ⟨_, c ++ [0x3D], v, by rw [List.append_assoc]; rfl, .long first width pair⟩
        · exact ⟨_, c, v, rfl, .short first width pair (Bool.eq_false_iff.mpr equal)⟩

theorem exists_lexeme (style : CommentStyle) (present : t ≠ []) :
    ∃ f u v, t = u ++ v ∧ Lexeme style f u v := by
  obtain ⟨r, first⟩ := Text.exists_rune? present
  by_cases digit : Text.isDigit r.char = true
  · exact exists_number ((Text.frontIs_of_rune? first).trans digit)
  by_cases quote : r.char = '"'
  · exact exists_string ((Text.frontIs_of_rune? first).trans (beq_iff_eq.mpr quote))
  by_cases start : Text.isIdentStart r.char = true
  · obtain ⟨u, v, rfl, parts⟩ := Text.exists_sweep (style.outside Text.isIdentPart) t
    exact ⟨_, u, v, rfl, .word ((Text.frontIs_of_rune? first).trans start) parts⟩
  · exact exists_operator first (Bool.eq_false_iff.mpr digit) quote (Bool.eq_false_iff.mpr start)

/-- Every text that is not empty starts with a finding. -/
theorem exists_finds (style : CommentStyle) (present : t ≠ []) :
    ∃ f u v, t = u ++ v ∧ Finds style f u v := by
  obtain ⟨r, first⟩ := Text.exists_rune? present
  by_cases isBlank : Text.isBlank r.char = true
  · obtain ⟨c, v, rfl, width, _⟩ := Text.exists_first first
    exact ⟨.blank, c, v, rfl, .blank first width isBlank⟩
  have seen : visible t = true := by
    rw [visible, Text.frontIs_of_rune? first, Bool.eq_false_iff.mpr isBlank, Bool.not_false]
  by_cases opens : style.opens t = true
  · obtain ⟨closed, u, v, rfl, comment⟩ := exists_comment opens
    cases closed with
    | true => exact ⟨_, u, v, rfl, .comment seen comment⟩
    | false => exact ⟨_, u, v, rfl, .unclosed seen comment⟩
  · obtain ⟨f, u, v, rfl, lexeme⟩ := exists_lexeme style present
    exact ⟨f, u, v, rfl, .lexeme seen (Bool.eq_false_iff.mpr opens) lexeme⟩

/-! ## Findings take whole characters, and at least one -/

theorem Fraction.whole {has : Bool} (fraction : Fraction style has u v) : Whole u v := by
  cases fraction with
  | absent => exact .nil v
  | present _ digits => exact .ascii (by decide) rfl digits.stretch.whole

theorem Sign.whole (sign : Sign u v) : Whole u v := by
  cases sign with
  | absent => exact .nil v
  | present _ isOne => rcases isOne with rfl | rfl <;> exact .ascii (by decide) rfl (.nil v)

theorem Exponent.whole {answer : Option Bool} (exponent : Exponent style answer u v) :
    Whole u v := by
  cases exponent with
  | absent => exact .nil v
  | empty mark signed _ => rcases mark with rfl | rfl <;> exact .ascii (by decide) rfl signed.whole
  | present mark signed _ digits =>
      have tail := signed.whole.append digits.stretch.whole
      rcases mark with rfl | rfl <;> exact .ascii (by decide) rfl tail

theorem Lexeme.whole (lexeme : Lexeme style f u v) : Whole u v := by
  cases lexeme with
  | number _ digits fraction exponent =>
      rw [← List.append_assoc] at digits
      exact digits.stretch.whole.append (fraction.whole.append exponent.whole)
  | malformed _ digits fraction exponent =>
      rw [← List.append_assoc] at digits
      exact digits.stretch.whole.append (fraction.whole.append exponent.whole)
  | string v inside =>
      exact .ascii (by decide) rfl (Stretch.append inside.whole (.ascii (by decide) rfl (.nil v)))
  | unterminated inside => exact .ascii (by decide) rfl inside.whole
  | word _ parts => exact parts.stretch.whole
  | single first width _ => exact .single first width rfl
  | short first width _ _ => exact .single first width rfl
  | long first width _ =>
      exact Stretch.append (.single first width rfl) (.ascii (by decide) rfl (.nil v))
  | unexpected first width _ _ _ _ _ => exact .single first width rfl

theorem Finds.whole (finds : Finds style f u v) : Whole u v := by
  cases finds with
  | blank first width _ => exact .single first width rfl
  | comment _ comment => exact comment.whole
  | unclosed _ comment => exact comment.whole
  | lexeme _ _ lexeme => exact lexeme.whole

theorem isIdentPart_of_isIdentStart {c : Char} (start : Text.isIdentStart c = true) :
    Text.isIdentPart c = true := by
  rw [Text.isIdentStart] at start
  rw [Text.isIdentPart, start, Bool.true_or]

theorem inLine_of_visible (seen : visible t = true) : Text.inLine t = true := by
  obtain ⟨r, first, notBlank⟩ := Text.exists_rune?_of_frontIs seen
  rw [Bool.not_eq_true'] at notBlank
  rw [Text.inLine, Text.frontIs_of_rune? first, Bool.and_eq_true, bne_iff_ne, bne_iff_ne]
  constructor
  · intro feed
    rw [feed] at notBlank
    exact absurd notBlank (by decide)
  · intro carriage
    rw [carriage] at notBlank
    exact absurd notBlank (by decide)

/-- A sweep over a class that no comment keeps from starting takes some bytes. -/
theorem sweep_ne_nil {p q : Char → Bool} (outside : style.opens (u ++ v) = false)
    (front : Text.frontIs p (u ++ v) = true) (implies : ∀ c, p c = true → q c = true)
    (sweep : Sweep (style.outside q) u v) : u ≠ [] := by
  obtain ⟨r, first, holds⟩ := Text.exists_rune?_of_frontIs front
  refine sweep.ne_nil ?_ ?_
  · rw [CommentStyle.outside, outside, Text.frontIs_of_rune? first, implies _ holds]
    rfl
  · intro empty
    rw [empty] at first
    cases first

/-- A lexeme is a token or a fault. -/
theorem Lexeme.token_or_fault (lexeme : Lexeme style f u v) :
    (∃ symbol literal, f = .token symbol literal) ∨ ∃ message, f = .fault message := by
  have ofNumber (float : Bool) (u : Text) :
      (∃ symbol literal, Finding.ofNumber float u = .token symbol literal) ∨
        ∃ message, Finding.ofNumber float u = .fault message := by
    unfold Finding.ofNumber Finding.ofFloat Finding.ofInteger
    split <;> split
    all_goals first
      | exact Or.inl ⟨_, _, rfl⟩
      | exact Or.inr ⟨_, rfl⟩
  cases lexeme with
  | number => exact ofNumber _ _
  | malformed => exact Or.inr ⟨_, rfl⟩
  | unterminated => exact Or.inr ⟨_, rfl⟩
  | unexpected => exact Or.inr ⟨_, rfl⟩
  | _ => exact Or.inl ⟨_, _, rfl⟩

theorem Finds.exists_of_blank (finds : Finds style .blank u v) :
    ∃ r, Text.rune? (u ++ v) = some r ∧ u.length = r.width ∧ Text.isBlank r.char = true := by
  cases finds with
  | @blank _ _ r first width isBlank => exact ⟨r, first, width, isBlank⟩
  | lexeme _ _ lexeme => rcases lexeme.token_or_fault with ⟨_, _, none⟩ | ⟨_, none⟩ <;> cases none

theorem Finds.ne_nil (finds : Finds style f u v) : u ≠ [] := by
  cases finds with
  | blank first width _ => exact Text.ne_nil_of_width first width
  | comment seen comment => exact comment.ne_nil (inLine_of_visible seen)
  | unclosed seen comment => exact comment.ne_nil (inLine_of_visible seen)
  | lexeme _ outside lexeme =>
      cases lexeme with
      | number digit digits _ _ =>
          rw [List.append_assoc, List.append_assoc] at outside
          have some := sweep_ne_nil outside digit (fun _ => id) digits
          exact fun none => some (List.append_eq_nil_iff.mp none).1
      | malformed digit digits _ _ =>
          rw [List.append_assoc, List.append_assoc] at outside
          have some := sweep_ne_nil outside digit (fun _ => id) digits
          exact fun none => some (List.append_eq_nil_iff.mp none).1
      | string => exact List.cons_ne_nil _ _
      | unterminated => exact List.cons_ne_nil _ _
      | word start parts =>
          exact sweep_ne_nil outside start (fun _ => isIdentPart_of_isIdentStart) parts
      | single first width _ => exact Text.ne_nil_of_width first width
      | short first width _ _ => exact Text.ne_nil_of_width first width
      | long => exact List.append_ne_nil_of_right_ne_nil _ (List.cons_ne_nil _ _)
      | unexpected first width _ _ _ _ _ => exact Text.ne_nil_of_width first width

end Lox

end FrontEnd
