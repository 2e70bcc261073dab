import FrontEnd.Text.Rune
import Mathlib.Data.List.Basic

/-!
# Characters in their surroundings

How far a character of a text depends on the bytes around it.  A character of several bytes is
made of bytes above the ASCII range only, and of continuation bytes behind the first one
(`exists_of_multibyte?`).  So a character that fits into a part of the text is the same there
(`rune?_of_append`), a character that is cut reads as a stray byte (`rune?_eq_or_stray`), and
what comes behind a text does not change its first character unless it starts with a
continuation byte (`rune?_append`).
-/

namespace FrontEnd

namespace Text

variable {b : UInt8} {t u v : Text} {r : Rune}

theorem toNat_ofNat_of_lt {n : Nat} (small : n < 0x100) : (Char.ofNat n).toNat = n := by
  have valid : n.isValidChar := Or.inl (by omega)
  rw [Char.ofNat, dif_pos valid]
  rfl

/-- The character of a byte, as a number. -/
theorem ofNat_byte_eq_iff (b : UInt8) (c : Char) : Char.ofNat b.toNat = c ↔ b.toNat = c.toNat := by
  rw [← Char.toNat_inj, toNat_ofNat_of_lt b.toNat_lt]

theorem scalar?_eq_some {least n width : Nat} (h : Rune.scalar? least n width = some r) :
    r.width = width ∧ least ≤ r.char.toNat := by
  unfold Rune.scalar? at h
  split at h
  · rename_i fits
    cases h
    refine ⟨rfl, ?_⟩
    rw [Char.ofNat, dif_pos fits.2]
    exact fits.1
  · cases h

/-- A character of several bytes is its first byte and the continuation bytes behind it. -/
theorem exists_of_multibyte? (h : multibyte? b t = some r) :
    ∃ k v, t = k ++ v ∧ k.length + 1 = r.width ∧ (∀ x ∈ k, isContinuation x = true) ∧
      0x80 ≤ r.char.toNat ∧ ∀ w, multibyte? b (k ++ w) = some r := by
  unfold multibyte? at h
  split at h
  · cases h
  rename_i c rest
  split at h
  · cases h
  rename_i isC
  rw [Bool.not_eq_true, Bool.not_eq_false'] at isC
  split at h
  · cases h
  rename_i notLow
  split at h
  · rename_i two
    obtain ⟨width, least⟩ := scalar?_eq_some h
    refine ⟨[c], rest, rfl, width.symm, by simpa using isC, least, fun w => ?_⟩
    simp [multibyte?, isC, notLow, two, h]
  rename_i notTwo
  split at h
  · cases h
  rename_i d rest
  split at h
  · cases h
  rename_i isD
  rw [Bool.not_eq_true, Bool.not_eq_false'] at isD
  split at h
  · rename_i three
    obtain ⟨width, least⟩ := scalar?_eq_some h
    refine ⟨[c, d], rest, rfl, width.symm, ?_, by omega, fun w => ?_⟩
    · simpa using ⟨isC, isD⟩
    · simp [multibyte?, isC, isD, notLow, notTwo, three, h]
  rename_i notThree
  split at h
  · cases h
  rename_i e rest
  split at h
  · rename_i four
    obtain ⟨width, least⟩ := scalar?_eq_some h
    refine ⟨[c, d, e], rest, rfl, width.symm, ?_, by omega, fun w => ?_⟩
    · simpa using ⟨isC, isD, (Bool.and_eq_true_iff.mp four).1⟩
    · simp [multibyte?, isC, isD, notLow, notTwo, notThree, four, h]
  · cases h

theorem le_of_isContinuation (h : isContinuation b = true) : 0x80 ≤ b := by
  simp only [isContinuation, Bool.and_eq_true, decide_eq_true_eq] at h
  exact h.1

theorem not_isContinuation_of_lt (h : b < 0x80) : isContinuation b = false := by
  rw [Bool.eq_false_iff]
  intro isC
  exact absurd (le_of_isContinuation isC) (UInt8.not_le.mpr h)

theorem rune?_ascii (h : b < 0x80) (t : Text) :
    rune? (b :: t) = some ⟨Char.ofNat b.toNat, 1⟩ := by
  rw [rune?, if_pos h]

theorem rune?_not_ascii (h : ¬ b < 0x80) (t : Text) :
    rune? (b :: t) = some ((multibyte? b t).getD Rune.stray) := by
  rw [rune?, if_neg h]

/-- A character is an ASCII byte, or it is above the ASCII range as are all its bytes. -/
theorem ascii_or_above (h : rune? t = some r) :
    (∃ b rest, t = b :: rest ∧ b < 0x80 ∧ r = ⟨Char.ofNat b.toNat, 1⟩) ∨
      (0x80 ≤ r.char.toNat ∧ ∀ x ∈ t.take r.width, 0x80 ≤ x) := by
  rcases t with _ | ⟨b, t⟩
  · cases h
  by_cases ascii : b < 0x80
  · rw [rune?_ascii ascii] at h
    exact Or.inl ⟨b, t, rfl, ascii, (Option.some.inj h).symm⟩
  right
  have above : 0x80 ≤ b := UInt8.not_lt.mp ascii
  rw [rune?_not_ascii ascii] at h
  cases several : multibyte? b t with
  | none =>
      rw [several] at h
      cases h
      refine ⟨by decide, fun x member => ?_⟩
      obtain rfl : x = b := by simpa [Rune.stray] using member
      exact above
  | some r' =>
      rw [several] at h
      cases h
      obtain ⟨k, v, rfl, width, continues, least, _⟩ := exists_of_multibyte? several
      refine ⟨least, fun x member => ?_⟩
      rw [Option.getD_some, ← width, List.take_succ_cons, List.take_left] at member
      rcases List.mem_cons.mp member with rfl | inside
      · exact above
      · exact le_of_isContinuation (continues x inside)

/-- A character that fits into the front part of a text is the first one of that part. -/
theorem rune?_of_append (h : rune? (u ++ v) = some r) (fits : r.width ≤ u.length) :
    rune? u = some r := by
  rcases u with _ | ⟨b, u⟩
  · have := width_pos_of_rune? h
    rw [List.length_nil] at fits
    omega
  by_cases ascii : b < 0x80
  · rw [List.cons_append, rune?_ascii ascii] at h
    rw [rune?_ascii ascii, h]
  rw [List.cons_append, rune?_not_ascii ascii] at h
  rw [rune?_not_ascii ascii, ← h]
  refine congrArg (fun m => some (Option.getD m Rune.stray)) ?_
  cases several : multibyte? b (u ++ v) with
  | some r' =>
      rw [several] at h
      cases h
      obtain ⟨k, w, split, width, _, _, always⟩ := exists_of_multibyte? several
      have short : k.length ≤ u.length := by
        rw [List.length_cons, Option.getD_some, ← width] at fits
        omega
      obtain ⟨rest, rfl⟩ := List.prefix_of_prefix_length_le ⟨w, split.symm⟩ ⟨v, rfl⟩ short
      exact always rest
  | none =>
      -- What spells a character in front of fewer bytes spells it in front of more.
      cases cut : multibyte? b u with
      | none => rfl
      | some r' =>
          obtain ⟨k, w, rfl, _, _, _, always⟩ := exists_of_multibyte? cut
          rw [List.append_assoc, always] at several
          cases several

/-- The front part of a text starts with the same character, or with a stray byte. -/
theorem rune?_eq_or_stray (present : u ≠ []) (v : Text) :
    rune? u = rune? (u ++ v) ∨ rune? u = some Rune.stray := by
  rcases u with _ | ⟨b, u⟩
  · exact absurd rfl present
  by_cases ascii : b < 0x80
  · rw [List.cons_append, rune?_ascii ascii, rune?_ascii ascii]
    exact Or.inl rfl
  rw [List.cons_append, rune?_not_ascii ascii, rune?_not_ascii ascii]
  cases cut : multibyte? b u with
  | none => exact Or.inr rfl
  | some r =>
      obtain ⟨k, w, rfl, _, _, _, always⟩ := exists_of_multibyte? cut
      rw [List.append_assoc, always]
      exact Or.inl rfl

/-- What does not start with a continuation byte does not change the character in front of
it. -/
theorem rune?_append (present : u ≠ []) (ends : ∀ b ∈ v.head?, isContinuation b = false) :
    rune? (u ++ v) = rune? u := by
  obtain ⟨r, first⟩ : ∃ r, rune? (u ++ v) = some r := by
    rw [← Option.ne_none_iff_exists', Ne, rune?_eq_none, List.append_eq_nil_iff]
    exact fun both => present both.1
  rw [first, rune?_of_append first]
  rcases u with _ | ⟨b, u⟩
  · exact absurd rfl present
  by_cases ascii : b < 0x80
  · rw [List.cons_append, rune?_ascii ascii] at first
    cases first
    exact Nat.succ_le_succ (Nat.zero_le _)
  rw [List.cons_append, rune?_not_ascii ascii] at first
  cases several : multibyte? b (u ++ v) with
  | none =>
      rw [several] at first
      cases first
      exact Nat.succ_le_succ (Nat.zero_le _)
  | some r' =>
      rw [several] at first
      cases first
      obtain ⟨k, w, split, width, continues, _, _⟩ := exists_of_multibyte? several
      rw [Option.getD_some, ← width, List.length_cons]
      -- Otherwise the first byte of `v` would be one of the continuation bytes.
      by_contra long
      have inside : u <+: k ++ w := ⟨v, split⟩
      obtain ⟨rest, rfl⟩ := List.prefix_of_prefix_length_le inside ⟨w, rfl⟩ (by omega)
      rw [List.append_assoc] at split
      obtain rfl := List.append_cancel_left split
      rcases rest with _ | ⟨x, rest⟩
      · rw [List.append_nil] at long
        exact long (Nat.le_refl _)
      · have isC := continues x (by simp)
        rw [ends x rfl] at isC
        cases isC

/-! ## Classes of characters -/

/-- Whether a text starts with a character of the class `p`. -/
def frontIs (p : Char → Bool) (t : Text) : Bool := t.rune?.any fun r => p r.char

@[simp] theorem frontIs_nil (p : Char → Bool) : frontIs p [] = false := rfl

theorem frontIs_of_rune? {p : Char → Bool} (h : rune? t = some r) : frontIs p t = p r.char := by
  rw [frontIs, h, Option.any_some]

theorem frontIs_ascii {p : Char → Bool} (h : b < 0x80) (t : Text) :
    frontIs p (b :: t) = p (Char.ofNat b.toNat) :=
  frontIs_of_rune? (rune?_ascii h t)

theorem exists_rune?_of_frontIs {p : Char → Bool} (h : frontIs p t = true) :
    ∃ r, rune? t = some r ∧ p r.char = true :=
  (Option.any_eq_true _ _).mp h

/-- A text that starts with a character of a class of ASCII characters starts with its byte. -/
theorem exists_byte_of_frontIs {p : Char → Bool}
    (low : ∀ c, p c = true → c.toNat < 0x80) (h : frontIs p t = true) :
    ∃ b rest, t = b :: rest ∧ b < 0x80 ∧ p (Char.ofNat b.toNat) = true := by
  obtain ⟨r, first, holds⟩ := exists_rune?_of_frontIs h
  rcases ascii_or_above first with ⟨b, rest, rfl, ascii, rfl⟩ | ⟨above, _⟩
  · exact ⟨b, rest, rfl, ascii, holds⟩
  · exact absurd (low _ holds) (Nat.not_lt.mpr above)

theorem exists_cons_of_frontIs {c : Char} (low : c.toNat < 0x80)
    (h : frontIs (· == c) t = true) : ∃ rest, t = UInt8.ofNat c.toNat :: rest := by
  have ascii : ∀ d : Char, (d == c) = true → d.toNat < 0x80 := by
    intro d same
    rw [beq_iff_eq.mp same]
    exact low
  obtain ⟨b, rest, rfl, _, same⟩ := exists_byte_of_frontIs ascii h
  refine ⟨rest, congrArg (· :: rest) ?_⟩
  rw [beq_iff_eq, ofNat_byte_eq_iff] at same
  rw [← same, UInt8.ofNat_toNat]

theorem chars_of_rune? (h : rune? t = some r) : chars t = r.char :: chars (t.drop r.width) := by
  rw [chars, spelling_of_rune? h, List.map_cons, chars]

@[simp] theorem chars_nil : chars [] = [] := by rw [chars, spelling_nil, List.map_nil]

theorem chars_ascii (t : Text) (ascii : ∀ b ∈ t, b < 0x80) :
    chars t = t.map fun b => Char.ofNat b.toNat := by
  induction t with
  | nil => rw [chars_nil, List.map_nil]
  | cons b t ih =>
      obtain ⟨low, ascii⟩ := List.forall_mem_cons.mp ascii
      rw [chars_of_rune? (rune?_ascii low t), List.drop_one, List.tail_cons, ih ascii,
        List.map_cons]

end Text

end FrontEnd
