import FrontEnd.Text.Basic

/-!
# Reading characters from bytes

A text is read from its front, one character at a time.  Bytes that do not spell a
character in UTF-8 (stray continuation bytes, cut sequences, overlong forms,
surrogates, values above U+10FFFF) are read one byte at a time as the replacement
character, so reading never fails before the text ends.

Main statements: `Text.rune?_eq_none`, reading fails at the end of the text only,
and `Text.width_pos_of_rune?`, `Text.width_le_of_rune?`, a character takes at least
one byte and no more than there are.
-/

namespace FrontEnd

/-- A character as it stands in a text: which one, and how many bytes it takes. -/
structure Rune where
  char : Char
  width : Nat
  deriving DecidableEq, Repr

namespace Rune

/-- The character that stands for a byte which is part of no character. -/
def replacement : Char := Char.ofNat 0xFFFD

/-- A byte that is part of no character. -/
def stray : Rune := ⟨replacement, 1⟩

/-- The rune for the number `n`, if `n` is the number of a character and not below `least`,
the first number that needs `width` bytes. -/
def scalar? (least n width : Nat) : Option Rune :=
  if least ≤ n ∧ n.isValidChar then some ⟨Char.ofNat n, width⟩ else none

end Rune

namespace Text

/-- Bytes behind the first one of a character have the form `10xxxxxx`. -/
def isContinuation (b : UInt8) : Bool := 0x80 ≤ b && b < 0xC0

/-- The six bits a continuation byte contributes. -/
def continuationBits (b : UInt8) : Nat := b.toNat - 0x80

/-- The character of two or more bytes that starts with `b` and goes on in `rest`. -/
def multibyte? (b : UInt8) (rest : Text) : Option Rune :=
  match rest with
  | [] => none
  | c :: rest =>
    if !isContinuation c then none
    else if b < 0xC0 then none
    else if b < 0xE0 then
      Rune.scalar? 0x80 ((b.toNat - 0xC0) * 64 + continuationBits c) 2
    else
      match rest with
      | [] => none
      | d :: rest =>
        if !isContinuation d then none
        else if b < 0xF0 then
          Rune.scalar? 0x800
            (((b.toNat - 0xE0) * 64 + continuationBits c) * 64 + continuationBits d) 3
        else
          match rest with
          | [] => none
          | e :: _ =>
            if isContinuation e && b < 0xF8 then
              Rune.scalar? 0x10000
                ((((b.toNat - 0xF0) * 64 + continuationBits c) * 64
                  + continuationBits d) * 64 + continuationBits e) 4
            else none

/-- The first character of a text; none at its end. -/
def rune? : Text → Option Rune
  | [] => none
  | b :: rest =>
    if b < 0x80 then some ⟨Char.ofNat b.toNat, 1⟩
    else some ((multibyte? b rest).getD Rune.stray)

theorem width_of_scalar? {least n width : Nat} {r : Rune}
    (h : Rune.scalar? least n width = some r) : r.width = width := by
  simp only [Rune.scalar?] at h
  split at h
  · cases h; rfl
  · simp at h

theorem width_of_multibyte? {b : UInt8} {rest : Text} {r : Rune}
    (h : multibyte? b rest = some r) : 2 ≤ r.width ∧ r.width ≤ rest.length + 1 := by
  simp only [multibyte?] at h
  split at h
  · simp at h
  · split at h
    · simp at h
    split at h
    · simp at h
    split at h
    · have := width_of_scalar? h
      simp only [List.length_cons]; omega
    split at h
    · simp at h
    split at h
    · simp at h
    split at h
    · have := width_of_scalar? h
      simp only [List.length_cons]; omega
    split at h
    · simp at h
    split at h
    · have := width_of_scalar? h
      simp only [List.length_cons]; omega
    · simp at h

/-- A text has a first character exactly if it is not empty. -/
@[simp] theorem rune?_eq_none {t : Text} : rune? t = none ↔ t = [] := by
  cases t with
  | nil => simp [rune?]
  | cons b rest => simp only [rune?]; split <;> simp

theorem width_bounds_of_rune? {t : Text} {r : Rune} (h : rune? t = some r) :
    1 ≤ r.width ∧ r.width ≤ t.length := by
  cases t with
  | nil => simp [rune?] at h
  | cons b rest =>
    simp only [rune?] at h
    split at h
    · cases h; simp
    · cases hm : multibyte? b rest with
      | none => simp [hm] at h; subst h; simp [Rune.stray]
      | some m =>
        simp [hm] at h; subst h
        have := width_of_multibyte? hm
        simp only [List.length_cons]; omega

/-- A character takes at least one byte. -/
theorem width_pos_of_rune? {t : Text} {r : Rune} (h : rune? t = some r) : 0 < r.width :=
  (width_bounds_of_rune? h).1

/-- A character takes no more bytes than the text has. -/
theorem width_le_of_rune? {t : Text} {r : Rune} (h : rune? t = some r) :
    r.width ≤ t.length :=
  (width_bounds_of_rune? h).2

/-- The characters of a text with the bytes that spell them, put in front of `done` in
reverse order. -/
def spellFrom (done : List (Rune × Text)) (t : Text) : List (Rune × Text) :=
  match _h : rune? t with
  | none => done
  | some r => spellFrom ((r, t.take r.width) :: done) (t.drop r.width)
termination_by t.length
decreasing_by
  have := width_bounds_of_rune? _h
  simp only [List.length_drop]; omega

/-- The characters of a text, each with the bytes that spell it. -/
def spelling (t : Text) : List (Rune × Text) := (spellFrom [] t).reverse

/-- All characters of a text. -/
def chars (t : Text) : List Char := t.spelling.map (·.1.char)

theorem spellFrom_of_rune? {t : Text} {r : Rune} (h : rune? t = some r)
    (done : List (Rune × Text)) :
    spellFrom done t = spellFrom ((r, t.take r.width) :: done) (t.drop r.width) := by
  rw [spellFrom]
  split
  · simp_all
  · rename_i r' h'
    obtain rfl : r = r' := Option.some.inj (h.symm.trans h')
    rfl

theorem spellFrom_append (done : List (Rune × Text)) (t : Text) :
    spellFrom done t = spellFrom [] t ++ done := by
  match h : rune? t with
  | none =>
    obtain rfl := rune?_eq_none.1 h
    simp [spellFrom, rune?]
  | some r =>
    rw [spellFrom_of_rune? h, spellFrom_of_rune? h [], spellFrom_append,
      spellFrom_append [_]]
    simp
termination_by t.length
decreasing_by
  all_goals
    have := width_bounds_of_rune? h
    simp only [List.length_drop]; omega

/-- The spelling of a text starts with its first character. -/
theorem spelling_of_rune? {t : Text} {r : Rune} (h : rune? t = some r) :
    spelling t = (r, t.take r.width) :: spelling (t.drop r.width) := by
  simp [spelling, spellFrom_of_rune? h, spellFrom_append [_]]

/-- The empty text has no characters. -/
@[simp] theorem spelling_nil : spelling [] = [] := by
  simp [spelling, spellFrom, rune?]

end Text

end FrontEnd
