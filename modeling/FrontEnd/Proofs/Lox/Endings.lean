import FrontEnd.Proofs.Lox.Findings

/-!
# Where tokens end

With the markers `//`, `/*` and `*/` a token depends on the text behind it only as far as that
text keeps it from going on.  `EndsLike v w` says that `w` does so wherever `v` does; then every
token in front of `v` is also a token in front of `w` (`Finds.endsLike`).  This is so if `w` is
the first part of `v` (`endsLike_cut`), and if white space and more is added behind `v`
(`endsLike_gap`).
-/

namespace FrontEnd

open Text (Whole Stretch Sweep)

namespace Lox

variable {u v w : Text} {p : Char → Bool}

/-! ## The markers of comments -/

theorem opensLine_iff (t : Text) :
    comments.opensLine t = true ↔ ∃ rest, t = 0x2F :: 0x2F :: rest := by
  rw [CommentStyle.opensLine]
  change ([0x2F, 0x2F] : Text).isPrefixOf t = true ↔ _
  rw [List.isPrefixOf_iff_prefix]
  exact exists_congr fun rest => eq_comm

theorem opensBlock_iff (t : Text) :
    comments.opensBlock t = true ↔ ∃ rest, t = 0x2F :: 0x2A :: rest := by
  rw [CommentStyle.opensBlock]
  change ([0x2F, 0x2A] : Text).isPrefixOf t = true ↔ _
  rw [List.isPrefixOf_iff_prefix]
  exact exists_congr fun rest => eq_comm

theorem opens_iff (t : Text) : comments.opens t = true ↔
    ∃ b rest, t = 0x2F :: b :: rest ∧ (b = 0x2F ∨ b = 0x2A) := by
  rw [CommentStyle.opens, Bool.or_eq_true, opensLine_iff, opensBlock_iff]
  constructor
  · rintro (⟨rest, rfl⟩ | ⟨rest, rfl⟩)
    · exact ⟨0x2F, rest, rfl, Or.inl rfl⟩
    · exact ⟨0x2A, rest, rfl, Or.inr rfl⟩
  · rintro ⟨b, rest, rfl, rfl | rfl⟩
    · exact Or.inl ⟨rest, rfl⟩
    · exact Or.inr ⟨rest, rfl⟩

/-- A class without the slash is not interrupted by comments. -/
theorem outside_eq (other : p '/' = false) : comments.outside p = Text.frontIs p := by
  funext t
  rw [CommentStyle.outside]
  cases opens : comments.opens t with
  | false => rfl
  | true =>
      obtain ⟨b, rest, rfl, _⟩ := (opens_iff t).mp opens
      rw [Text.frontIs_ascii (by decide)]
      exact other.symm

/-! ## Texts that end tokens -/

/-- A class of characters that neither a stray byte nor white space is in. -/
structure Joins (p : Char → Bool) : Prop where
  stray : p Rune.replacement = false
  space : p ' ' = false
  feed : p '\n' = false

theorem joins_isDigit : Joins Text.isDigit := ⟨by decide, by decide, by decide⟩

theorem joins_isIdentPart : Joins Text.isIdentPart := ⟨by decide +kernel, by decide, by decide⟩

theorem joins_isSign : Joins isSign := ⟨by decide, by decide, by decide⟩

theorem joins_isExponentMark : Joins isExponentMark := ⟨by decide, by decide, by decide⟩

theorem joins_equal : Joins (· == '=') := ⟨by decide, by decide, by decide⟩

/-- Behind a token, `w` ends it wherever `v` does: characters stay whole, and nothing goes on that
did not. -/
structure EndsLike (v w : Text) : Prop where
  first : ∀ {c t : Text} {r : Rune}, Text.rune? (c ++ (t ++ v)) = some r → c.length = r.width →
    Text.rune? (c ++ (t ++ w)) = some r
  stops : ∀ {p : Char → Bool}, Joins p → ∀ t : Text,
    Text.frontIs p (t ++ v) = false → Text.frontIs p (t ++ w) = false
  fraction : ∀ t : Text, opensFraction (t ++ v) = false → opensFraction (t ++ w) = false
  comment : ∀ t : Text, comments.opens (t ++ v) = false → comments.opens (t ++ w) = false

theorem opensFraction_iff_cons (t : Text) : opensFraction t = true ↔
    ∃ rest, t = 0x2E :: rest ∧ Text.frontIs Text.isDigit rest = true := by
  rw [opensFraction, Bool.and_eq_true]
  constructor
  · rintro ⟨point, digit⟩
    obtain ⟨rest, rfl⟩ := Text.exists_cons_of_frontIs (by decide) point
    exact ⟨rest, rfl, digit⟩
  · rintro ⟨rest, rfl, digit⟩
    exact ⟨rfl, digit⟩

/-- A part of what ends a token ends it. -/
theorem endsLike_cut (v w : Text) : EndsLike (v ++ w) v where
  first := by
    intro c t r first width
    rw [← List.append_assoc t] at first
    exact Text.rune?_front first width
  stops := by
    intro p joins t stops
    rw [Bool.eq_false_iff] at stops ⊢
    intro goes
    rw [← List.append_assoc] at stops
    exact stops (Text.frontIs_append joins.stray goes w)
  fraction := by
    intro t closed
    rw [Bool.eq_false_iff] at closed ⊢
    intro opens
    obtain ⟨rest, split, digit⟩ := (opensFraction_iff_cons _).mp opens
    apply closed
    rw [← List.append_assoc, split, opensFraction_iff_cons]
    exact ⟨rest ++ w, rfl, Text.frontIs_append joins_isDigit.stray digit w⟩
  comment := by
    intro t closed
    rw [Bool.eq_false_iff] at closed ⊢
    intro opens
    obtain ⟨b, rest, split, marker⟩ := (opens_iff _).mp opens
    apply closed
    rw [← List.append_assoc, split, opens_iff]
    exact ⟨b, rest ++ w, rfl, marker⟩

/-- The bytes of white space that may stand between tokens. -/
def isGap (b : UInt8) : Prop := b = 0x20 ∨ b = 0x0A

theorem low_of_isGap {b : UInt8} (gap : isGap b) : b < 0x80 := by
  rcases gap with rfl | rfl <;> decide

theorem Joins.gap {b : UInt8} (joins : Joins p) (gap : isGap b) :
    p (Char.ofNat b.toNat) = false := by
  rcases gap with rfl | rfl
  · exact joins.space
  · exact joins.feed

theorem Joins.frontIs_gap {b : UInt8} (joins : Joins p) (gap : isGap b) (t w : Text) :
    Text.frontIs p (t ++ b :: w) = Text.frontIs p t :=
  Text.frontIs_append_ascii (low_of_isGap gap) (joins.gap gap) t w

theorem opensFraction_gap {b : UInt8} (gap : isGap b) (t w : Text) :
    opensFraction (t ++ b :: w) = opensFraction t := by
  have point : Joins (· == '.') := ⟨by decide, by decide, by decide⟩
  rw [opensFraction, opensFraction, point.frontIs_gap gap]
  cases t with
  | nil => rfl
  | cons x t => rw [List.cons_append, List.drop_one, List.tail_cons, joins_isDigit.frontIs_gap gap,
      List.drop_one, List.tail_cons]

theorem opens_gap {b : UInt8} (gap : isGap b) (t w : Text) :
    comments.opens (t ++ b :: w) = comments.opens t := by
  rw [Bool.eq_iff_iff, opens_iff, opens_iff]
  rcases t with _ | ⟨x, _ | ⟨y, t⟩⟩
  · constructor
    · rintro ⟨_, _, split, _⟩
      obtain rfl := (List.cons.inj split).1
      rcases gap with gap | gap <;> cases gap
    · rintro ⟨_, _, split, _⟩
      cases split
  · constructor
    · rintro ⟨_, _, split, marker⟩
      obtain rfl := (List.cons.inj (List.cons.inj split).2).1
      rcases gap with rfl | rfl <;> rcases marker with marker | marker <;> cases marker
    · rintro ⟨_, _, split, _⟩
      cases split
  · constructor
    · rintro ⟨_, _, split, marker⟩
      cases split
      exact ⟨y, t, rfl, marker⟩
    · rintro ⟨_, _, split, marker⟩
      cases split
      exact ⟨y, t ++ b :: w, rfl, marker⟩

theorem ends_of_isGap {b : UInt8} (gap : isGap b) (w : Text) :
    ∀ x ∈ (b :: w).head?, Text.isContinuation x = false := by
  intro x member
  obtain rfl := Option.mem_some_iff.mp member
  exact Text.not_isContinuation_of_lt (low_of_isGap gap)

/-- White space behind a text ends nothing but what the text ends. -/
theorem endsLike_gap {b : UInt8} (gap : isGap b) (v w : Text) : EndsLike v (v ++ b :: w) where
  first := by
    intro c t r first width
    have present : c ++ (t ++ v) ≠ [] := by
      rw [Ne, ← Text.rune?_eq_none, first]
      exact Option.some_ne_none r
    have same := Text.rune?_append present (ends_of_isGap gap w)
    rw [List.append_assoc, List.append_assoc] at same
    rw [same, first]
  stops := by
    intro p joins t stops
    rw [← List.append_assoc, joins.frontIs_gap gap, stops]
  fraction := by
    intro t closed
    rw [← List.append_assoc, opensFraction_gap gap, closed]
  comment := by
    intro t closed
    rw [← List.append_assoc, opens_gap gap, closed]

/-! ## Tokens depend on the end only -/

namespace EndsLike

variable {t : Text} (like : EndsLike v w)

include like

theorem frontIs_eq (whole : Whole u (t ++ v)) (present : u ≠ []) :
    Text.frontIs p (u ++ (t ++ w)) = Text.frontIs p (u ++ (t ++ v)) := by
  cases whole with
  | nil => exact absurd rfl present
  | @cons c u _ r first width _ _ =>
      rw [← List.append_assoc u] at first
      have firstToo := like.first first width
      rw [List.append_assoc] at first firstToo
      rw [List.append_assoc, List.append_assoc, Text.frontIs_of_rune? first,
        Text.frontIs_of_rune? firstToo]

theorem stretch (stretch : Stretch (Text.frontIs p) u (t ++ v)) :
    Stretch (Text.frontIs p) u (t ++ w) := by
  generalize behind : t ++ v = x at stretch
  induction stretch with
  | nil => exact .nil _
  | @cons c u _ r first width holds _ ih =>
      subst behind
      rw [← List.append_assoc u] at first
      have firstToo := like.first first width
      rw [List.append_assoc] at first firstToo
      rw [Text.frontIs_of_rune? first] at holds
      exact .cons firstToo width ((Text.frontIs_of_rune? firstToo).trans holds) (ih rfl)

theorem sweep (joins : Joins p) (sweep : Sweep (Text.frontIs p) u (t ++ v)) :
    Sweep (Text.frontIs p) u (t ++ w) :=
  ⟨like.stretch sweep.stretch, Or.inr (like.stops joins t sweep.frontIs_eq_false)⟩

end EndsLike

theorem digits_eq : comments.outside Text.isDigit = Text.frontIs Text.isDigit :=
  outside_eq (by decide)

theorem parts_eq : comments.outside Text.isIdentPart = Text.frontIs Text.isIdentPart :=
  outside_eq (by decide)

theorem Fraction.endsLike {has : Bool} {t : Text} (fraction : Fraction comments has u (t ++ v))
    (like : EndsLike v w) : Fraction comments has u (t ++ w) := by
  generalize behind : t ++ v = x at fraction
  cases fraction with
  | absent other =>
      subst behind
      exact .absent (like.fraction t other)
  | present digit digits =>
      subst behind
      rw [digits_eq] at digits
      have present := digits.ne_nil_of_frontIs digit fun _ => id
      refine .present ((like.frontIs_eq digits.stretch.whole present).trans digit) ?_
      rw [digits_eq]
      exact like.sweep joins_isDigit digits

theorem Sign.endsLike {t : Text} (sign : Sign u (t ++ v)) (like : EndsLike v w) :
    Sign u (t ++ w) := by
  generalize behind : t ++ v = x at sign
  cases sign with
  | absent other =>
      subst behind
      exact .absent (like.stops joins_isSign t other)
  | present _ isOne => exact .present _ isOne

theorem Exponent.endsLike {has : Bool} (exponent : Exponent comments (some has) u v)
    (like : EndsLike v w) : Exponent comments (some has) u w := by
  cases exponent with
  | absent other => exact .absent (like.stops joins_isExponentMark [] other)
  | present mark signed present digits =>
      rw [digits_eq] at digits
      refine .present mark (signed.endsLike like) present ?_
      rw [digits_eq]
      exact like.sweep (t := []) joins_isDigit digits

theorem Lexeme.endsLike {s : Symbol} {l : Option Literal}
    (lexeme : Lexeme comments (.token s l) u v) (like : EndsLike v w) :
    Lexeme comments (.token s l) u w := by
  generalize found : Finding.token s l = f at lexeme
  cases lexeme with
  | @number d f e _ _ _ digit digits fraction exponent =>
      -- Each part ends at the next one, or at `v` if all that follow are missing.
      rw [digits_eq, ← List.append_assoc] at digits
      rw [← List.append_assoc f] at digit
      have present := digits.ne_nil_of_frontIs digit fun _ => id
      have digitToo := (like.frontIs_eq digits.stretch.whole present).trans digit
      rw [List.append_assoc] at digitToo
      refine .number digitToo ?_ (fraction.endsLike like) (exponent.endsLike like)
      rw [digits_eq, ← List.append_assoc]
      exact like.sweep joins_isDigit digits
  | malformed => cases found
  | string _ inside => exact .string w (like.stretch (t := [0x22]) inside)
  | unterminated => cases found
  | word start parts =>
      rw [parts_eq] at parts
      have present := parts.ne_nil_of_frontIs start fun _ => isIdentPart_of_isIdentStart
      refine .word ((like.frontIs_eq (t := []) parts.stretch.whole present).trans start) ?_
      rw [parts_eq]
      exact like.sweep (t := []) joins_isIdentPart parts
  | single first width known => exact .single (like.first (t := []) first width) width known
  | short first width known alone =>
      exact .short (like.first (t := []) first width) width known (like.stops joins_equal [] alone)
  | long first width known => exact .long (like.first (t := [0x3D]) first width) width known
  | unexpected => cases found

/-- A token in front of a text is one in front of every text that ends it too. -/
theorem Finds.endsLike {s : Symbol} {l : Option Literal} (finds : Finds comments (.token s l) u v)
    (like : EndsLike v w) : Finds comments (.token s l) u w := by
  have present := finds.ne_nil
  have whole := finds.whole
  cases finds with
  | lexeme seen outside lexeme =>
      refine .lexeme ?_ (like.comment u outside) (lexeme.endsLike like)
      exact (like.frontIs_eq (t := []) whole present).trans seen

end Lox

end FrontEnd
