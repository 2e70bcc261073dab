import FrontEnd.Proofs.Lox.Findings

/-!
# The recognizer follows the lexical grammar

Where the lexical grammar finds a token or a fault, the recognizer of Lox passes over its bytes,
and emits the token or reports the fault (`recognize_of_lexeme`).  There is one statement for each
action of the recognizer; `Closes` speaks of the last one, which closes the token.
-/

namespace FrontEnd

open Text (Whole Stretch Sweep)

namespace Lox

open ScanAction

variable {style : CommentStyle} {f : Finding} {t u v w c : Text} {r : Rune}

/-! ## Numbers -/

theorem peekNext?_point (p : Char → Bool) (rest : Text) :
    (Cursor.start (0x2E :: rest)).peekNext?.any p = rest.frontIs p := by
  change (rest.rune?.map Rune.char).any p = rest.frontIs p
  rw [Option.any_map]
  rfl

theorem opensFraction_iff (t : Text) :
    (t.rune?.map Rune.char = some '.' ∧ (Cursor.start t).peekNext?.any Text.isDigit = true) ↔
      opensFraction t = true := by
  rw [opensFraction, Bool.and_eq_true]
  constructor
  · rintro ⟨point, digit⟩
    have front : t.frontIs (· == '.') = true := by
      obtain ⟨r, first, same⟩ := Option.map_eq_some_iff.mp point
      rw [Text.frontIs_of_rune? first, same]
      rfl
    obtain ⟨rest, rfl⟩ := Text.exists_cons_of_frontIs (by decide) front
    exact ⟨front, (peekNext?_point _ rest).symm.trans digit⟩
  · rintro ⟨point, digit⟩
    obtain ⟨rest, rfl⟩ := Text.exists_cons_of_frontIs (by decide) point
    exact ⟨rfl, (peekNext?_point _ rest).trans digit⟩

theorem moves_acceptFraction {has : Bool} (fraction : Fraction style has u v) :
    Moves style acceptFraction u v has := by
  unfold acceptFraction
  cases fraction with
  | absent other =>
      refine (moves_peek? v).bind_nil ((moves_peekNext? v).bind_nil ?_)
      rw [if_neg ((opensFraction_iff v).not.mpr (Bool.eq_false_iff.mp other))]
      exact .pure false v
  | @present d _ digit digits =>
      refine (moves_peek? _).bind_nil ((moves_peekNext? _).bind_nil ?_)
      have opens : opensFraction (0x2E :: (d ++ v)) = true := digit
      rw [List.cons_append, if_pos ((opensFraction_iff _).mpr opens)]
      have point : Text.rune? ([0x2E] ++ (d ++ v)) = some ⟨'.', 1⟩ := rfl
      have tail : Moves style (acceptWhile Text.isDigit >>= fun _ => pure true) d v true :=
        (moves_acceptWhile digits).bind_pure rfl
      exact Moves.bind (moves_advance point rfl) tail

theorem moves_acceptSign (sign : Sign u v) : Moves style (acceptIf isSign) u v (u ≠ []) := by
  cases sign with
  | absent other => exact moves_acceptIf_not other
  | @present b _ isOne =>
      have first : Text.rune? ([b] ++ v) = some ⟨Char.ofNat b.toNat, 1⟩ := by
        rcases isOne with rfl | rfl <;> rfl
      exact moves_acceptIf first rfl ((isSign_byte_iff b).mpr isOne)

theorem length_chars_eq_zero_iff (t : Text) : t.chars.length = 0 ↔ t = [] := by
  constructor
  · intro none
    by_contra present
    obtain ⟨r, first⟩ := Text.exists_rune? present
    rw [Text.chars_of_rune? first, List.length_cons] at none
    cases none
  · rintro rfl
    rw [Text.chars_nil, List.length_nil]

theorem moves_acceptExponent {answer : Option Bool} (exponent : Exponent style answer u v) :
    Moves style acceptExponent u v answer := by
  -- The mark, the sign and the digits are passed over one after the other.
  have marked {b : UInt8} {sign d : Text} (mark : b = 0x65 ∨ b = 0x45)
      (signed : Sign sign (d ++ v)) (digits : Sweep (style.outside Text.isDigit) d v) :
      Moves style acceptExponent (b :: (sign ++ d)) v (if d = [] then none else some true) := by
    have first : Text.rune? ([b] ++ (sign ++ d ++ v)) = some ⟨Char.ofNat b.toNat, 1⟩ := by
      rcases mark with rfl | rfl <;> rfl
    have count : (if d.chars.length = 0 then none else some true : Option Bool) =
        if d = [] then none else some true := by
      simp only [length_chars_eq_zero_iff]
    have tail := (moves_acceptWhile digits).bind_pure (f := fun n => pure
      (if n = 0 then none else some true)) (congrArg pure count)
    exact (moves_acceptIf first rfl ((isExponentMark_byte_iff b).mpr mark)).bind
      ((moves_acceptSign signed).bind tail)
  cases exponent with
  | absent other => exact (moves_acceptIf_not other).bind_nil (.pure (some false) v)
  | @empty b sign _ mark signed digits =>
      have moves := marked (d := []) mark signed digits
      rwa [List.append_nil, if_pos rfl] at moves
  | present mark signed present digits =>
      have moves := marked mark signed digits
      rwa [if_neg present] at moves

/-! ## The end of a token -/

/-- Whether a finding is a token. -/
def Finding.isToken : Finding → Bool
  | .token _ _ => true
  | _ => false

/-- The scanner, whose cursor is behind the bytes of a finding, after it has noted the
finding. -/
def Finding.note (s : Scanner) : Finding → Scanner
  | .blank => s
  | .comment => s.emitComment
  | .token symbol literal => s.addToken symbol.kind literal
  | .fault message => s.report message

/-- Behind the bytes `passed`, with which the present token starts, the action passes over `u`,
notes the finding `f` and answers whether it is a token. -/
def Closes (style : CommentStyle) (x : ScanAction Bool) (passed u v : Text) (f : Finding) : Prop :=
  ∀ (s : Scanner) (n : Nat), s.comments = style → s.mark = s.text.cursorAt n →
    s.text.drop n = passed ++ (u ++ v) → s.Faces (n + passed.length) (u ++ v) →
    x.run s = (f.isToken, f.note (s.moveTo (n + passed.length + u.length)))

section Closes

variable {α : Type} {a : α} {passed : Text}

theorem closes_bind {x : ScanAction α} {k : α → ScanAction Bool}
    (front : Moves style x u (w ++ v) a) (back : Closes style (k a) (passed ++ u) w v f) :
    Closes style (x >>= k) passed (u ++ w) v f := by
  intro s n known mark split faces
  rw [List.append_assoc] at faces
  have next := faces.moveTo front.whole
  rw [Action.run_bind, front.run_eq s _ known faces]
  rw [List.append_assoc, ← List.append_assoc] at split
  rw [List.length_append, ← Nat.add_assoc]
  rw [Nat.add_assoc, ← List.length_append] at next ⊢
  exact back (s.moveTo (n + (passed ++ u).length)) n known mark split next

theorem closes_bind_end {x : ScanAction α} {k : α → ScanAction Bool} (front : Moves style x u v a)
    (back : Closes style (k a) (passed ++ u) [] v f) : Closes style (x >>= k) passed u v f := by
  have closes : Closes style (x >>= k) passed (u ++ []) v f := closes_bind front back
  rwa [List.append_nil] at closes

/-- Behind the bytes of a token, the text between mark and cursor is what was passed over. -/
theorem lexeme_eq {s : Scanner} {n : Nat} (mark : s.mark = s.text.cursorAt n)
    (split : s.text.drop n = passed ++ t) (faces : s.Faces (n + passed.length) t) :
    s.lexeme = passed := by
  rw [Scanner.lexeme, mark, faces.cursor_eq, Text.rest_cursorAt, Text.offset_cursorAt,
    Text.offset_cursorAt, split, Nat.add_sub_cancel_left, List.take_left]

theorem closes_of_run {x : ScanAction Bool}
    (run : ∀ s : Scanner, s.lexeme = passed → x.run s = (f.isToken, f.note s)) :
    Closes style x passed [] v f := by
  intro s n known mark split faces
  rw [run s (lexeme_eq mark split faces), List.length_nil, Nat.add_zero, faces.moveTo_self]

theorem closes_emit (symbol : Symbol) (literal : Option Literal) :
    Closes style (emit symbol literal >>= fun _ => pure true) passed [] v (.token symbol literal) :=
  closes_of_run fun _ _ => rfl

theorem closes_report (message : Text) :
    Closes style (ScanAction.report message >>= fun _ => pure false) passed [] v (.fault message) :=
  closes_of_run fun _ _ => rfl

theorem closes_emitInteger : Closes style emitInteger passed [] v (.ofInteger passed) := by
  refine closes_of_run fun s lexeme => ?_
  simp only [emitInteger, Action.run_bind, ScanAction.lexeme, Action.run_read]
  rw [lexeme, Finding.ofInteger]
  cases Number.integerValue passed <;> rfl

theorem closes_emitFloat : Closes style emitFloat passed [] v (.ofFloat passed) := by
  refine closes_of_run fun s lexeme => ?_
  simp only [emitFloat, Action.run_bind, ScanAction.lexeme, Action.run_read]
  rw [lexeme, Finding.ofFloat]
  cases Number.floatValue passed <;> rfl

end Closes

/-! ## Tokens -/

theorem closes_number {d e x : Text} {hasFraction hasExponent : Bool}
    (digits : Sweep (style.outside Text.isDigit) d (x ++ (e ++ v)))
    (fraction : Fraction style hasFraction x (e ++ v))
    (exponent : Exponent style (some hasExponent) e v) :
    Closes style number [] (d ++ (x ++ e)) v
      (.ofNumber (hasFraction || hasExponent) (d ++ (x ++ e))) := by
  rw [← List.append_assoc] at digits
  refine closes_bind (moves_acceptWhile digits) (closes_bind (moves_acceptFraction fraction)
    (closes_bind_end (moves_acceptExponent exponent) ?_))
  rw [List.nil_append, List.append_assoc, Finding.ofNumber]
  change Closes style (if (hasFraction || hasExponent) = true then emitFloat else emitInteger)
    _ _ _ _
  cases hasFraction || hasExponent with
  | true => exact closes_emitFloat
  | false => exact closes_emitInteger

theorem closes_malformed {d e x : Text} {hasFraction : Bool}
    (digits : Sweep (style.outside Text.isDigit) d (x ++ (e ++ v)))
    (fraction : Fraction style hasFraction x (e ++ v)) (exponent : Exponent style none e v) :
    Closes style number [] (d ++ (x ++ e)) v
      (.fault (Number.MalformedFloat.sign (d ++ (x ++ e))).message) := by
  rw [← List.append_assoc] at digits
  refine closes_bind (moves_acceptWhile digits) (closes_bind (moves_acceptFraction fraction)
    (closes_bind_end (moves_acceptExponent exponent) ?_))
  rw [List.nil_append, List.append_assoc]
  refine closes_of_run fun s lexeme => ?_
  rw [← lexeme]
  rfl

theorem closes_string {body : Text}
    (inside : Stretch (Text.frontIs (· != '"')) body (0x22 :: v)) :
    Closes style quotedText [] (0x22 :: (body ++ [0x22])) v
      (.token .string (some (.text body))) := by
  have quote (t : Text) : Text.rune? ([0x22] ++ t) = some ⟨'"', 1⟩ := rfl
  have sweep : Sweep (Text.frontIs (· != '"')) body ([0x22] ++ v) := ⟨inside, Or.inr rfl⟩
  refine closes_bind (moves_advance (quote _) rfl) (closes_bind (moves_skipWhile sweep)
    (closes_bind (u := []) (moves_atEnd _) (closes_bind_end (moves_advance (quote v) rfl) ?_)))
  refine closes_of_run fun s lexeme => ?_
  have text : (s.lexeme.drop 1).dropLast = body := by
    rw [lexeme, List.append_nil]
    exact List.dropLast_concat
  change (true, s.addToken Symbol.string.kind (some (.text (s.lexeme.drop 1).dropLast))) = _
  rw [text]
  rfl

theorem closes_unterminated {body : Text}
    (inside : Stretch (Text.frontIs (· != '"')) body []) :
    Closes style quotedText [] (0x22 :: body) []
      (.fault (Text.ofString "unterminated string")) := by
  have quote : Text.rune? ([0x22] ++ (body ++ [])) = some ⟨'"', 1⟩ := rfl
  have sweep : Sweep (Text.frontIs (· != '"')) body [] := ⟨inside, Or.inl rfl⟩
  refine closes_bind (moves_advance quote rfl) (closes_bind_end (moves_skipWhile sweep)
    (closes_bind (u := []) (moves_atEnd _) ?_))
  exact closes_report _

theorem closes_word (parts : Sweep (style.outside Text.isIdentPart) u v) :
    Closes style word [] u v (.token (.ofWord u) none) := by
  refine closes_bind_end (moves_acceptWhile parts) (closes_of_run fun s lexeme => ?_)
  rw [List.nil_append] at lexeme
  rw [← lexeme]
  rfl

theorem closes_single {s : Symbol} (first : Text.rune? (c ++ v) = some r)
    (width : c.length = r.width) (known : single? r.char = some s) :
    Closes style (operator r.char) [] c v (.token s none) := by
  rw [operator, known]
  exact closes_bind_end (moves_advance first width) (closes_emit s none)

theorem single?_of_withEqual? {d : Char} {pair : Symbol × Symbol}
    (known : withEqual? d = some pair) : single? d = none := by
  unfold withEqual? at known
  split at known
  all_goals first
    | rfl
    | cases known

theorem closes_short {s l : Symbol} (first : Text.rune? (c ++ v) = some r)
    (width : c.length = r.width) (known : withEqual? r.char = some (s, l))
    (alone : v.frontIs (· == '=') = false) :
    Closes style (operator r.char) [] c v (.token s none) := by
  rw [operator, single?_of_withEqual? known, known]
  exact closes_bind_end (moves_advance first width)
    (closes_bind (u := []) (moves_acceptIf_not alone) (closes_emit s none))

theorem closes_long {s l : Symbol} (first : Text.rune? (c ++ 0x3D :: v) = some r)
    (width : c.length = r.width) (known : withEqual? r.char = some (s, l)) :
    Closes style (operator r.char) [] (c ++ [0x3D]) v (.token l none) := by
  rw [operator, single?_of_withEqual? known, known]
  have equal : Text.rune? ([0x3D] ++ v) = some ⟨'=', 1⟩ := rfl
  exact closes_bind (moves_advance first width)
    (closes_bind_end (moves_acceptIf equal rfl rfl) (closes_emit l none))

/-! ## The choice by the first character -/

theorem isLetter_eq_false {d : Char} (low : d.toNat < 0x41) : Text.isLetter d = false := by
  change (decide (0x41 ≤ d.toNat) && _) = false
  rw [decide_eq_false (Nat.not_le.mpr low), Bool.false_and]

theorem front_of_isIdentStart {d : Char} (start : Text.isIdentStart d = true) :
    Text.isDigit d = false ∧ d ≠ '"' := by
  have high : 0x41 ≤ d.toNat := by
    by_contra low
    rw [Text.isIdentStart, isLetter_eq_false (Nat.not_le.mp low), Bool.or_false,
      decide_eq_true_iff] at start
    subst start
    exact low (by decide)
  constructor
  · rw [Bool.eq_false_iff]
    intro digit
    rw [Text.isDigit, Bool.and_eq_true, decide_eq_true_iff, decide_eq_true_iff] at digit
    have small : d.toNat ≤ 0x39 := UInt32.le_iff_toNat_le.mp digit.2
    omega
  · rintro rfl
    exact absurd high (by decide)

theorem front_of_single? {d : Char} {s : Symbol} (known : single? d = some s) :
    Text.isDigit d = false ∧ d ≠ '"' ∧ Text.isIdentStart d = false := by
  unfold single? at known
  split at known
  all_goals first
    | exact ⟨by decide, by decide, by decide⟩
    | cases known

theorem front_of_withEqual? {d : Char} {pair : Symbol × Symbol}
    (known : withEqual? d = some pair) :
    Text.isDigit d = false ∧ d ≠ '"' ∧ Text.isIdentStart d = false := by
  unfold withEqual? at known
  split at known
  all_goals first
    | exact ⟨by decide, by decide, by decide⟩
    | cases known

theorem closes_recognize (first : Text.rune? (u ++ v) = some r)
    (back : Closes style (if Text.isDigit r.char then number
      else if r.char = '"' then quotedText
      else if Text.isIdentStart r.char then word
      else operator r.char) [] u v f) : Closes style recognize [] u v f := by
  refine closes_bind (u := []) (moves_peek? _) ?_
  rw [first]
  exact back

theorem closes_recognize_operator (first : Text.rune? (u ++ v) = some r)
    (front : Text.isDigit r.char = false ∧ r.char ≠ '"' ∧ Text.isIdentStart r.char = false)
    (back : Closes style (operator r.char) [] u v f) : Closes style recognize [] u v f := by
  obtain ⟨notDigit, notQuote, notStart⟩ := front
  apply closes_recognize first
  rw [if_neg (Bool.eq_false_iff.mp notDigit), if_neg notQuote,
    if_neg (Bool.eq_false_iff.mp notStart)]
  exact back

theorem closes_recognize_number (digit : Text.frontIs Text.isDigit (u ++ v) = true)
    (back : Closes style number [] u v f) : Closes style recognize [] u v f := by
  obtain ⟨r, first, isDigit⟩ := Text.exists_rune?_of_frontIs digit
  apply closes_recognize first
  rw [if_pos isDigit]
  exact back

/-- A token, and a fault that is more than a character no token starts with, is what the
recognizer finds. -/
theorem recognize_of_lexeme (lexeme : Lexeme style f u v) :
    Closes style recognize [] u v f ∨
      ∃ r, Text.rune? (u ++ v) = some r ∧ u.length = r.width ∧
        f = .fault (Scanner.Fault.unexpected r.char).message ∧
        (Text.isDigit r.char = false ∧ r.char ≠ '"' ∧ Text.isIdentStart r.char = false ∧
          single? r.char = none ∧ withEqual? r.char = none) ∧
        ∀ (s : Scanner) (n : Nat), s.Faces n (u ++ v) → recognize.run s = (false, s) := by
  cases lexeme with
  | number digit digits fraction exponent =>
      left
      apply closes_recognize_number _ (closes_number digits fraction exponent)
      rwa [List.append_assoc, List.append_assoc]
  | malformed digit digits fraction exponent =>
      left
      apply closes_recognize_number _ (closes_malformed digits fraction exponent)
      rwa [List.append_assoc, List.append_assoc]
  | string v inside => exact Or.inl (closes_recognize rfl (closes_string inside))
  | unterminated inside => exact Or.inl (closes_recognize rfl (closes_unterminated inside))
  | word start parts =>
      left
      obtain ⟨r, first, isStart⟩ := Text.exists_rune?_of_frontIs start
      obtain ⟨notDigit, notQuote⟩ := front_of_isIdentStart isStart
      apply closes_recognize first
      rw [if_neg (Bool.eq_false_iff.mp notDigit), if_neg notQuote, if_pos isStart]
      exact closes_word parts
  | single first width known =>
      exact Or.inl (closes_recognize_operator first (front_of_single? known)
        (closes_single first width known))
  | short first width known alone =>
      exact Or.inl (closes_recognize_operator first (front_of_withEqual? known)
        (closes_short first width known alone))
  | @long c _ r _ _ first width known =>
      left
      have whole : Text.rune? (c ++ [0x3D] ++ v) = some r := by
        rw [List.append_assoc]
        exact first
      exact closes_recognize_operator whole (front_of_withEqual? known)
        (closes_long first width known)
  | @unexpected _ _ r first width notDigit notQuote notStart notSingle notPair =>
      right
      refine ⟨r, first, width, rfl, ⟨notDigit, notQuote, notStart, notSingle, notPair⟩,
        fun s n faces => ?_⟩
      simp only [recognize, Action.run_bind, ScanAction.peek?, Action.run_read]
      rw [faces.peek?_eq, first]
      simp only [Option.map_some, notDigit, notQuote, notStart, operator, notSingle, notPair,
        Bool.false_eq_true, ↓reduceIte, Action.run_pure]

end Lox

end FrontEnd
