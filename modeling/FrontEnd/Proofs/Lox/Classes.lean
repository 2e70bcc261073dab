import FrontEnd.Proofs.Lox.Course
import FrontEnd.Proofs.Lox.Endings
import FrontEnd.Proofs.Lox.Kinds

/-!
# Lexical classes and the longest match

Which lexemes the tokens of each kind have, said byte by byte, and what they stand for.  A token
has a lexeme of its class, and no longer part of the text from its front on is a lexeme of any
class (`scan_longest_match`).

Every text of a class is found by a scan if nothing stands behind it (`exists_lexeme_of_hasLexeme`).
So a longer lexeme at the front of a token would be found there as well; but what is found at the
front of a text has only one length (`Lexeme.length_eq`).
-/

namespace FrontEnd

open Text (Whole Stretch Sweep)

namespace Lox

/-- Decimal digits, at least one. -/
def IsDigits (t : Text) : Prop := t ≠ [] ∧ ∀ b ∈ t, 0x30 ≤ b ∧ b ≤ 0x39

/-- A point and digits. -/
def IsFraction (t : Text) : Prop := ∃ d, IsDigits d ∧ t = 0x2E :: d

/-- The letter `e` or `E`, a sign or none, and digits. -/
def IsExponent (t : Text) : Prop :=
  ∃ mark sign d, (mark = 0x65 ∨ mark = 0x45) ∧ (sign = [] ∨ sign = [0x2B] ∨ sign = [0x2D]) ∧
    IsDigits d ∧ t = mark :: (sign ++ d)

/-- Digits with a fraction, or an exponent, or both. -/
def IsFloat (t : Text) : Prop :=
  ∃ d f e, IsDigits d ∧ (f = [] ∨ IsFraction f) ∧ (e = [] ∨ IsExponent e) ∧ f ++ e ≠ [] ∧
    t = d ++ (f ++ e)

/-- A text between double quotes, which are not in the text. -/
def IsQuoted (t : Text) : Prop := ∃ body, 0x22 ∉ body ∧ t = 0x22 :: (body ++ [0x22])

/-- The characters of an identifier. -/
def IsWord (t : Text) : Prop :=
  ∃ c cs, t.chars = c :: cs ∧ Text.isIdentStart c = true ∧ ∀ d ∈ cs, Text.isIdentPart d = true

namespace Symbol

/-- Whether a symbol is an operator or a keyword, and has one lexeme only. -/
def isFixed : Symbol → Bool
  | .integer | .float | .string | .identifier => false
  | _ => true

/-- The lexical class of a symbol.  No operator and no keyword is an identifier. -/
def HasLexeme (t : Text) : Symbol → Prop
  | .integer => IsDigits t
  | .float => IsFloat t
  | .string => IsQuoted t
  | .identifier => IsWord t ∧ ∀ s : Symbol, s.isFixed = true → t ≠ s.spelling
  | s => t = s.spelling

/-- What a token with a given lexeme stands for. -/
def Denotes (t : Text) (l : Option Literal) : Symbol → Prop
  | .integer => ∃ n, Number.integerValue t = .ok n ∧ l = some (.integer n)
  | .float => ∃ x, Number.floatValue t = .ok x ∧ l = some (.float x)
  | .string => ∃ body, t = 0x22 :: (body ++ [0x22]) ∧ l = some (.text body)
  | _ => l = none

theorem hasLexeme_of_isFixed {s : Symbol} (fixed : s.isFixed = true) (t : Text) :
    s.HasLexeme t ↔ t = s.spelling := by
  cases s <;> first | exact Iff.rfl | cases fixed

theorem denotes_of_isFixed {s : Symbol} (fixed : s.isFixed = true) (t : Text) :
    s.Denotes t none := by
  cases s <;> first | exact rfl | cases fixed

end Symbol

variable {t u v : Text} {s : Symbol} {l : Option Literal}

/-! ## Numbers -/

theorem stretch_digits_iff :
    Stretch (Text.frontIs Text.isDigit) u v ↔ ∀ b ∈ u, 0x30 ≤ b ∧ b ≤ 0x39 := by
  rw [Text.stretch_ascii_iff low_of_isDigit]
  refine forall_congr' fun b => forall_congr' fun _ => ?_
  rw [isDigit_byte_iff, and_iff_right_iff_imp]
  exact fun range => UInt8.lt_of_le_of_lt range.2 (by decide)

theorem isDigits_iff : IsDigits u ↔ u ≠ [] ∧ Stretch (Text.frontIs Text.isDigit) u v := by
  rw [stretch_digits_iff, IsDigits]

theorem IsDigits.frontIs (digits : IsDigits u) (v : Text) :
    Text.frontIs Text.isDigit (u ++ v) = true := by
  obtain ⟨b, rest, rfl⟩ := List.exists_cons_of_ne_nil digits.1
  have range := digits.2 b List.mem_cons_self
  have low : b < 0x80 := UInt8.lt_of_le_of_lt range.2 (by decide)
  rw [List.cons_append, Text.frontIs_ascii low, isDigit_byte_iff]
  exact range

theorem Fraction.isFraction {has : Bool} (fraction : Fraction comments has u v) :
    (u = [] ∨ IsFraction u) ∧ (has = true ↔ u ≠ []) := by
  cases fraction with
  | absent => exact ⟨Or.inl rfl, nofun, fun present => absurd rfl present⟩
  | @present d _ digit digits =>
      rw [digits_eq] at digits
      have present := digits.ne_nil_of_frontIs digit fun _ => id
      have isDigits : IsDigits d := isDigits_iff.mpr ⟨present, digits.stretch⟩
      exact ⟨Or.inr ⟨d, isDigits, rfl⟩, fun _ => List.cons_ne_nil _ _, fun _ => rfl⟩

theorem Exponent.isExponent {has : Bool} (exponent : Exponent comments (some has) u v) :
    (u = [] ∨ IsExponent u) ∧ (has = true ↔ u ≠ []) := by
  cases exponent with
  | absent => exact ⟨Or.inl rfl, nofun, fun present => absurd rfl present⟩
  | @present b sign d _ mark signed present digits =>
      rw [digits_eq] at digits
      have isSign : sign = [] ∨ sign = [0x2B] ∨ sign = [0x2D] := by
        cases signed with
        | absent => exact Or.inl rfl
        | present _ isOne =>
            rcases isOne with rfl | rfl
            · exact Or.inr (Or.inl rfl)
            · exact Or.inr (Or.inr rfl)
      have isDigits : IsDigits d := isDigits_iff.mpr ⟨present, digits.stretch⟩
      exact ⟨Or.inr ⟨b, sign, d, mark, isSign, isDigits, rfl⟩, fun _ => List.cons_ne_nil _ _,
        fun _ => rfl⟩

theorem hasLexeme_of_ofNumber {float : Bool} (found : Finding.ofNumber float u = .token s l)
    (isInteger : float = false → IsDigits u) (isFloat : float = true → IsFloat u) :
    s.HasLexeme u ∧ s.Denotes u l := by
  cases float with
  | false =>
      change Finding.ofInteger u = _ at found
      unfold Finding.ofInteger at found
      split at found
      · rename_i n value
        cases found
        exact ⟨isInteger rfl, n, value, rfl⟩
      · cases found
  | true =>
      change Finding.ofFloat u = _ at found
      unfold Finding.ofFloat at found
      split at found
      · rename_i x value
        cases found
        exact ⟨isFloat rfl, x, value, rfl⟩
      · cases found

/-- What stands behind the digits of a number, and behind its fraction, goes on with neither. -/
theorem front_of_isExponent {e : Text} (exponent : e = [] ∨ IsExponent e) :
    Text.frontIs Text.isDigit e = false ∧ opensFraction e = false := by
  rcases exponent with rfl | ⟨mark, sign, d, rfl | rfl, _, _, rfl⟩ <;> exact ⟨rfl, rfl⟩

theorem front_of_isFraction {f e : Text} (fraction : f = [] ∨ IsFraction f)
    (exponent : e = [] ∨ IsExponent e) : Text.frontIs Text.isDigit (f ++ e) = false := by
  rcases fraction with rfl | ⟨d, _, rfl⟩
  · exact (front_of_isExponent exponent).1
  · rfl

theorem exists_fraction_of_isFraction {f e : Text} (fraction : f = [] ∨ IsFraction f)
    (exponent : e = [] ∨ IsExponent e) : ∃ has, Fraction comments has f e := by
  obtain ⟨notDigit, notPoint⟩ := front_of_isExponent exponent
  rcases fraction with rfl | ⟨d, digits, rfl⟩
  · exact ⟨false, .absent notPoint⟩
  · refine ⟨true, .present (digits.frontIs e) ?_⟩
    rw [digits_eq]
    exact ⟨(isDigits_iff.mp digits).2, Or.inr notDigit⟩

theorem exists_exponent_of_isExponent {e : Text} (exponent : e = [] ∨ IsExponent e) :
    ∃ has, Exponent comments (some has) e [] := by
  rcases exponent with rfl | ⟨mark, sign, d, isMark, isSign, digits, rfl⟩
  · exact ⟨false, .absent rfl⟩
  · refine ⟨true, .present isMark ?_ digits.1 ?_⟩
    · rcases isSign with rfl | rfl | rfl
      · obtain ⟨b, rest, rfl⟩ := List.exists_cons_of_ne_nil digits.1
        have range := digits.2 b List.mem_cons_self
        refine .absent ?_
        rw [List.cons_append, Text.frontIs_ascii (UInt8.lt_of_le_of_lt range.2 (by decide)),
          Bool.eq_false_iff, Ne, isSign_byte_iff]
        rintro (rfl | rfl) <;> exact absurd range.1 (by decide)
      · exact .present _ (Or.inl rfl)
      · exact .present _ (Or.inr rfl)
    · rw [digits_eq]
      exact ⟨(isDigits_iff.mp digits).2, Or.inl rfl⟩

theorem exists_lexeme_of_number {d f e : Text} (digits : IsDigits d)
    (fraction : f = [] ∨ IsFraction f) (exponent : e = [] ∨ IsExponent e) :
    ∃ found, Lexeme comments found (d ++ (f ++ e)) [] := by
  obtain ⟨hasExponent, hasE⟩ := exists_exponent_of_isExponent exponent
  obtain ⟨hasFraction, hasF⟩ := exists_fraction_of_isFraction fraction exponent
  rw [← List.append_nil e] at hasF
  refine ⟨_, .number (digits.frontIs _) ?_ hasF hasE⟩
  rw [digits_eq, List.append_nil]
  exact ⟨(isDigits_iff.mp digits).2, Or.inr (front_of_isFraction fraction exponent)⟩

/-! ## Strings and words -/

theorem not_mem_of_stretch (stretch : Stretch (Text.frontIs (· != '"')) u v) : 0x22 ∉ u := by
  induction stretch with
  | nil => exact List.not_mem_nil
  | @cons c u v r first width holds _ ih =>
      rw [Text.frontIs_of_rune? first, bne_iff_ne] at holds
      rw [List.mem_append]
      rintro (here | there)
      · rcases Text.ascii_or_above first with ⟨b, _, split, _, rfl⟩ | ⟨_, above⟩
        · obtain ⟨x, rfl⟩ := List.length_eq_one_iff.mp width
          obtain rfl := List.mem_singleton.mp here
          obtain rfl := (List.cons.inj split).1
          exact holds rfl
        · rw [← width, List.take_left] at above
          exact absurd (above _ here) (by decide)
      · exact ih there

theorem stretch_of_not_mem (whole : Whole u v) (unquoted : 0x22 ∉ u) :
    Stretch (Text.frontIs (· != '"')) u v := by
  induction whole with
  | nil v => exact .nil v
  | @cons c u v r first width _ _ ih =>
      rw [List.mem_append, not_or] at unquoted
      refine .cons first width ?_ (ih unquoted.2)
      rw [Text.frontIs_of_rune? first, bne_iff_ne]
      intro quote
      have front : Text.frontIs (· == '"') (c ++ (u ++ v)) = true := by
        rw [Text.frontIs_of_rune? first, quote]
        rfl
      obtain ⟨rest, split⟩ := Text.exists_cons_of_frontIs (by decide) front
      obtain ⟨x, c, rfl⟩ := List.exists_cons_of_ne_nil (Text.ne_nil_of_width first width)
      obtain rfl := (List.cons.inj split).1
      exact unquoted.1 List.mem_cons_self

theorem exists_lexeme_of_isQuoted (quoted : IsQuoted t) : ∃ found, Lexeme comments found t [] := by
  obtain ⟨body, unquoted, rfl⟩ := quoted
  have whole : Whole body [0x22] := by
    refine Text.whole_of_ends body fun b member => ?_
    obtain rfl := Option.mem_some_iff.mp member
    decide
  exact ⟨_, .string [] (stretch_of_not_mem whole unquoted)⟩

theorem isWord_of_sweep (start : Text.frontIs Text.isIdentStart (u ++ v) = true)
    (parts : Sweep (Text.frontIs Text.isIdentPart) u v) (present : u ≠ []) : IsWord u := by
  obtain ⟨stretch, _⟩ := parts
  have all := stretch.forall_chars fun _ holds => holds
  cases stretch with
  | nil => exact absurd rfl present
  | @cons c u _ r first width _ _ =>
      rw [List.append_assoc, Text.frontIs_of_rune? first] at start
      have chars := Text.chars_first (Text.rune?_front first width) width
      rw [chars] at all
      exact ⟨r.char, u.chars, chars, start, (List.forall_mem_cons.mp all).2⟩

theorem lexeme_of_isWord (word : IsWord t) : Lexeme comments (.token (.ofWord t) none) t [] := by
  obtain ⟨c, cs, chars, isStart, areParts⟩ := word
  have present : t ≠ [] := by
    rintro rfl
    rw [Text.chars_nil] at chars
    cases chars
  obtain ⟨r, first⟩ := Text.exists_rune? present
  rw [Text.chars_of_rune? first] at chars
  have same : r.char = c := (List.cons.inj chars).1
  have start : Text.frontIs Text.isIdentStart (t ++ []) = true := by
    rw [List.append_nil, Text.frontIs_of_rune? first, same]
    exact isStart
  have all : ∀ d ∈ t.chars, Text.isIdentPart d = true := by
    rw [Text.chars_of_rune? first, chars]
    exact List.forall_mem_cons.mpr ⟨isIdentPart_of_isIdentStart isStart, areParts⟩
  have whole : Whole t [] := Text.whole_of_ends t (fun _ none => nomatch none)
  refine .word start ?_
  rw [parts_eq]
  exact ⟨Text.stretch_frontIs_iff.mpr ⟨whole, all⟩, Or.inl rfl⟩

theorem isFixed_of_mem_keywords (member : s ∈ Symbol.keywords) : s.isFixed = true := by
  revert s
  decide

theorem chars_spelling (s : Symbol) :
    s.spelling.chars = s.spelling.map fun b => Char.ofNat b.toNat := by
  have ascii : ∀ k ∈ Symbol.all, ∀ b ∈ k.spelling, b < 0x80 := by
    decide +kernel
  exact Text.chars_ascii _ (ascii s s.mem_all)

theorem isWord_keyword (member : s ∈ Symbol.keywords) : IsWord s.spelling := by
  have letters : ∀ k ∈ Symbol.keywords, ∀ b ∈ k.spelling,
      Text.isIdentStart (Char.ofNat b.toNat) = true := by
    decide +kernel
  have some : ∀ k ∈ Symbol.keywords, k.spelling ≠ [] := by decide
  obtain ⟨b, rest, split⟩ := List.exists_cons_of_ne_nil (some s member)
  have chars := chars_spelling s
  have letters := letters s member
  rw [split] at chars letters ⊢
  obtain ⟨isStart, areParts⟩ := List.forall_mem_cons.mp letters
  refine ⟨_, _, chars, isStart, fun d part => ?_⟩
  obtain ⟨x, inRest, rfl⟩ := List.mem_map.mp part
  exact isIdentPart_of_isIdentStart (areParts x inRest)

/-- The keywords are the only words that have a symbol of their own. -/
theorem mem_keywords_of_isWord (fixed : s.isFixed = true) (word : IsWord s.spelling) :
    s ∈ Symbol.keywords := by
  have marks : ∀ k ∈ Symbol.all, k.isFixed = true → k ∉ Symbol.keywords →
      ∀ b ∈ k.spelling.head?, Text.isIdentStart (Char.ofNat b.toNat) = false := by
    decide +kernel
  by_contra other
  obtain ⟨c, cs, chars, isStart, _⟩ := word
  rw [chars_spelling] at chars
  obtain ⟨b, rest, split, rfl, _⟩ := List.map_eq_cons_iff.mp chars
  have isMark := marks s s.mem_all fixed other b (by rw [split]; rfl)
  exact Bool.false_ne_true (isMark.symm.trans isStart)

/-- A word that is not found among the keywords is spelled unlike every operator and keyword. -/
theorem ne_spelling_of_keyword?_eq_none (word : IsWord u) (absent : Symbol.keyword? u = none)
    (fixed : s.isFixed = true) : u ≠ s.spelling := by
  intro same
  rw [same] at word absent
  have other := List.find?_eq_none.mp absent s (mem_keywords_of_isWord fixed word)
  exact other (decide_eq_true rfl)

theorem hasLexeme_ofWord (word : IsWord u) :
    (Symbol.ofWord u).HasLexeme u ∧ (Symbol.ofWord u).Denotes u none := by
  rw [Symbol.ofWord]
  cases found : Symbol.keyword? u with
  | none => exact ⟨⟨word, fun _ => ne_spelling_of_keyword?_eq_none word found⟩, rfl⟩
  | some k =>
      have fixed := isFixed_of_mem_keywords (List.mem_of_find?_eq_some found)
      have spelled : k.spelling = u := by simpa using List.find?_some found
      exact ⟨(Symbol.hasLexeme_of_isFixed fixed u).mpr spelled.symm,
        Symbol.denotes_of_isFixed fixed u⟩

/-! ## Operators -/

/-- A whole ASCII character is its byte. -/
theorem eq_byte_of_first {c : Text} {r : Rune} (first : Text.rune? (c ++ v) = some r)
    (width : c.length = r.width) (low : r.char.toNat < 0x80) :
    c = [UInt8.ofNat r.char.toNat] := by
  rcases Text.ascii_or_above first with ⟨b, rest, split, _, rfl⟩ | ⟨above, _⟩
  · obtain ⟨x, rfl⟩ := List.length_eq_one_iff.mp width
    obtain rfl : x = b := (List.cons.inj split).1
    rw [Text.toNat_ofNat_of_lt x.toNat_lt, UInt8.ofNat_toNat]
  · omega

theorem spelling_of_single? {d : Char} (known : single? d = some s) :
    d.toNat < 0x80 ∧ s.isFixed = true ∧ s.spelling = [UInt8.ofNat d.toNat] := by
  unfold single? at known
  split at known
  all_goals first
    | cases known; decide
    | cases known

theorem spelling_of_withEqual? {d : Char} {short long : Symbol}
    (known : withEqual? d = some (short, long)) :
    d.toNat < 0x80 ∧ (short.isFixed = true ∧ short.spelling = [UInt8.ofNat d.toNat]) ∧
      long.isFixed = true ∧ long.spelling = [UInt8.ofNat d.toNat, 0x3D] := by
  unfold withEqual? at known
  split at known
  all_goals first
    | cases known; decide
    | cases known

theorem exists_lexeme_of_isFixed (fixed : s.isFixed = true) :
    ∃ found, Lexeme comments found s.spelling [] := by
  by_cases keyword : s ∈ Symbol.keywords
  · exact ⟨_, lexeme_of_isWord (isWord_keyword keyword)⟩
  · cases s
    all_goals first
      | exact absurd fixed (by decide)
      | exact absurd (by decide) keyword
      | exact ⟨_, .single (c := [_]) rfl rfl rfl⟩
      | exact ⟨_, .short (c := [_]) rfl rfl rfl rfl⟩
      | exact ⟨_, .long (c := [_]) rfl rfl rfl⟩

/-! ## The longest match -/

theorem Lexeme.hasLexeme (lexeme : Lexeme comments (.token s l) u v) (present : u ≠ []) :
    s.HasLexeme u ∧ s.Denotes u l := by
  generalize found : Finding.token s l = x at lexeme
  cases lexeme with
  | @number d f e _ hasFraction hasExponent digit digits fraction exponent =>
      rw [digits_eq] at digits
      have some := digits.ne_nil_of_frontIs digit fun _ => id
      have isDigits : IsDigits d := isDigits_iff.mpr ⟨some, digits.stretch⟩
      obtain ⟨isFraction, hasF⟩ := fraction.isFraction
      obtain ⟨isExponent, hasE⟩ := exponent.isExponent
      have isMore : (hasFraction || hasExponent) = true ↔ f ++ e ≠ [] := by
        rw [Bool.or_eq_true, hasF, hasE, ← not_and_or, ← List.append_eq_nil_iff]
      refine hasLexeme_of_ofNumber found.symm ?_ ?_
      · intro none
        rw [Bool.eq_false_iff, Ne, isMore, not_not] at none
        rwa [none, List.append_nil]
      · intro some
        exact ⟨d, f, e, isDigits, isFraction, isExponent, isMore.mp some, rfl⟩
  | malformed => cases found
  | string _ inside =>
      cases found
      exact ⟨⟨_, not_mem_of_stretch inside, rfl⟩, _, rfl, rfl⟩
  | unterminated => cases found
  | word start parts =>
      cases found
      rw [parts_eq] at parts
      exact hasLexeme_ofWord (isWord_of_sweep start parts present)
  | single first width known =>
      cases found
      obtain ⟨low, fixed, spelling⟩ := spelling_of_single? known
      rw [Symbol.hasLexeme_of_isFixed fixed, spelling, eq_byte_of_first first width low]
      exact ⟨rfl, Symbol.denotes_of_isFixed fixed _⟩
  | short first width known _ =>
      cases found
      obtain ⟨low, ⟨fixed, spelling⟩, _⟩ := spelling_of_withEqual? known
      rw [Symbol.hasLexeme_of_isFixed fixed, spelling, eq_byte_of_first first width low]
      exact ⟨rfl, Symbol.denotes_of_isFixed fixed _⟩
  | long first width known =>
      cases found
      obtain ⟨low, _, fixed, spelling⟩ := spelling_of_withEqual? known
      rw [Symbol.hasLexeme_of_isFixed fixed, spelling, eq_byte_of_first first width low]
      exact ⟨rfl, Symbol.denotes_of_isFixed fixed _⟩
  | unexpected => cases found

/-- Every text of a class is found by a scan if nothing stands behind it. -/
theorem exists_lexeme_of_hasLexeme (lexeme : s.HasLexeme t) :
    ∃ found, Lexeme comments found t [] := by
  by_cases fixed : s.isFixed = true
  · rw [Symbol.hasLexeme_of_isFixed fixed] at lexeme
    rw [lexeme]
    exact exists_lexeme_of_isFixed fixed
  · cases s with
    | integer =>
        obtain ⟨found, alone⟩ := exists_lexeme_of_number (d := t) lexeme (Or.inl rfl) (Or.inl rfl)
        rw [List.append_nil, List.append_nil] at alone
        exact ⟨found, alone⟩
    | float =>
        obtain ⟨d, f, e, digits, fraction, exponent, _, rfl⟩ := lexeme
        exact exists_lexeme_of_number digits fraction exponent
    | string => exact exists_lexeme_of_isQuoted lexeme
    | identifier => exact ⟨_, lexeme_of_isWord lexeme.1⟩
    | _ => exact absurd rfl fixed

/-- What is found at the front of a text has only one length. -/
theorem Lexeme.length_eq {x y : Finding} {u' v' : Text} (lexeme : Lexeme comments x u v)
    (other : Lexeme comments y u' v') (present : u ≠ []) (presentToo : u' ≠ [])
    (same : u ++ v = u' ++ v') : u.length = u'.length := by
  -- Both are what one and the same attempt of a scanner passes over.
  have attempt := attempt_of_lexeme (newScanner.faces_reset (u ++ v)) rfl present lexeme
  have attemptToo := attempt_of_lexeme (newScanner.faces_reset (u' ++ v')) rfl presentToo other
  rw [← same, attempt] at attemptToo
  have scanners := (Scanner.Turn.next.inj attemptToo).2
  have cursors := congrArg Scanner.cursor scanners
  rw [(x.note_frame _).2.2, (y.note_frame _).2.2] at cursors
  have offsets := congrArg Cursor.offset cursors
  change 0 + u.length = 0 + u'.length at offsets
  omega

theorem not_hasLexeme_of_longer {p : Text} {other : Symbol}
    (finds : Finds comments (.token s l) u v) (inText : p <+: u ++ v)
    (longer : u.length < p.length) : ¬ other.HasLexeme p := by
  intro hasLexeme
  obtain ⟨rest, rfl⟩ : u <+: p :=
    List.prefix_of_prefix_length_le (List.prefix_append u v) inText (Nat.le_of_lt longer)
  obtain ⟨behind, rfl⟩ := (List.prefix_append_right_inj u).mp inText
  have present := finds.ne_nil
  obtain ⟨found, whole⟩ := exists_lexeme_of_hasLexeme hasLexeme
  cases finds with
  | lexeme _ _ lexeme =>
      -- The text is cut behind the longer lexeme, where both are found.
      have cut := lexeme.endsLike (endsLike_cut rest behind)
      have same := cut.length_eq whole present (List.append_ne_nil_of_left_ne_nil present rest)
        (List.append_nil _).symm
      omega

/-- A token of a text is a lexeme of the class of a symbol and stands for what the lexeme says, and
no longer part of the text from its front on is a lexeme of any class. -/
structure LongestMatch (text : Text) (t : Token) (s : Symbol) : Prop where
  kind : t.kind = s.kind
  hasLexeme : s.HasLexeme t.lexeme
  denotes : s.Denotes t.lexeme t.literal
  first : 0 ≤ t.span.first
  stop : t.span.stop = t.span.first + t.lexeme.length
  inText : t.lexeme <+: text.drop t.span.first.toNat
  longest : ∀ p, p <+: text.drop t.span.first.toNat → t.lexeme.length < p.length →
    ∀ other : Symbol, ¬ other.HasLexeme p

theorem scan_longest_match {text : Text} {t : Token}
    (member : t ∈ (scan newScanner text).tokens) : ∃ s : Symbol, LongestMatch text t s := by
  obtain ⟨s, n, v, kind, span, ahead, finds⟩ := exists_finds_of_mem_scan member
  have present := finds.ne_nil
  obtain ⟨hasLexeme, denotes⟩ : s.HasLexeme t.lexeme ∧ s.Denotes t.lexeme t.literal := by
    cases finds with
    | lexeme _ _ lexeme => exact lexeme.hasLexeme present
  have front : text.drop t.span.first.toNat = t.lexeme ++ v := by
    rw [span, Int.toNat_natCast, ahead]
  refine ⟨s, kind, hasLexeme, denotes, ?_, ?_, ?_, fun p inText longer other => ?_⟩
  · rw [span]
    exact Int.natCast_nonneg n
  · rw [span]
    exact Int.natCast_add n _
  · rw [front]
    exact List.prefix_append t.lexeme v
  · rw [front] at inText
    exact not_hasLexeme_of_longer finds inText longer

/-- The point behind an integer is not a part of it if no digit follows. -/
theorem longestMatch_before_point :
    (⟨Symbol.integer.kind, [0x31, 0x32], ⟨1, 1⟩, ⟨0, 2⟩, some (.integer 12)⟩ : Token) ∈
        (scan newScanner [0x31, 0x32, 0x2E, 0x78]).tokens ∧
      ∃ s : Symbol, LongestMatch [0x31, 0x32, 0x2E, 0x78]
        ⟨Symbol.integer.kind, [0x31, 0x32], ⟨1, 1⟩, ⟨0, 2⟩, some (.integer 12)⟩ s := by
  have member : (⟨Symbol.integer.kind, [0x31, 0x32], ⟨1, 1⟩, ⟨0, 2⟩, some (.integer 12)⟩ : Token) ∈
      (scan newScanner [0x31, 0x32, 0x2E, 0x78]).tokens := by
    decide +kernel
  exact ⟨member, scan_longest_match member⟩

end Lox

end FrontEnd
