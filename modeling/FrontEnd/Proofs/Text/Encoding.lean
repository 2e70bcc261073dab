import FrontEnd.Proofs.Text.Stretch
import Mathlib.Order.Bounds.Basic

/-!
# Encoded characters, and where a text occurs

A text that is valid UTF-8 keeps its characters wherever it stands: whatever bytes come behind it,
it is made of whole characters there (`Valid.whole`), and it never starts with a continuation byte
(`Valid.starts`).  So neither end of a place where it occurs is inside of a character, even if the
text around it is no valid UTF-8.

The search for a text finds the first place where it occurs (`indexOf?_eq_some_iff`).
-/

namespace FrontEnd

namespace Text

/-- The bytes are those of a sequence of characters. -/
def Valid (t : Text) : Prop := ∃ cs : List Char, t = ofChars cs

variable {t u v needle : Text}

/-! ## One character -/

theorem toNat_ofNat_byte {n : Nat} (small : n < 0x100) : (UInt8.ofNat n).toNat = n := by
  rw [UInt8.toNat_ofNat', Nat.mod_eq_of_lt small]

theorem isContinuation_ofNat {n : Nat} (six : n < 0x40) :
    isContinuation (UInt8.ofNat (n + 0x80)) = true := by
  have value : (UInt8.ofNat (n + 0x80)).toNat = n + 0x80 := toNat_ofNat_byte (by omega)
  have low : (0x80 : UInt8).toNat = 0x80 := rfl
  have high : (0xC0 : UInt8).toNat = 0xC0 := rfl
  rw [isContinuation, Bool.and_eq_true, decide_eq_true_iff, decide_eq_true_iff,
    UInt8.le_iff_toNat_le, UInt8.lt_iff_toNat_lt, value]
  omega

theorem continuationBits_ofNat {n : Nat} (six : n < 0x40) :
    continuationBits (UInt8.ofNat (n + 0x80)) = n := by
  have value : (UInt8.ofNat (n + 0x80)).toNat = n + 0x80 := toNat_ofNat_byte (by omega)
  unfold continuationBits
  omega

theorem ofNat_lt_iff {n : Nat} (byte : n < 0x100) (m : Nat) (small : m < 0x100) :
    UInt8.ofNat n < UInt8.ofNat m ↔ n < m := by
  rw [UInt8.lt_iff_toNat_lt, toNat_ofNat_byte byte, toNat_ofNat_byte small]

theorem scalar?_toNat {c : Char} {least width n : Nat} (value : n = c.toNat)
    (long : least ≤ c.toNat) : Rune.scalar? least n width = some ⟨c, width⟩ := by
  rw [value, Rune.scalar?, if_pos ⟨long, c.valid⟩, Char.ofNat_toNat]

/-- The first byte of a character of several bytes. -/
theorem lead_ofNat {n : Nat} (high : 0xC0 ≤ n) (byte : n < 0x100) :
    ¬ UInt8.ofNat n < 0x80 ∧ ¬ UInt8.ofNat n < 0xC0 ∧ isContinuation (UInt8.ofNat n) = false := by
  have lead : ¬ UInt8.ofNat n < 0xC0 := (ofNat_lt_iff byte 0xC0 (by decide)).not.mpr (by omega)
  refine ⟨(ofNat_lt_iff byte 0x80 (by decide)).not.mpr (by omega), lead, ?_⟩
  rw [isContinuation, decide_eq_false lead, Bool.and_false]

/-- The number of a character above the ASCII range is spread over the bits of its bytes. -/
theorem exists_lead {c : Char} (above : 0x80 ≤ c.toNat) :
    ∃ b rest, ofChar c = b :: rest ∧ ¬ b < 0x80 ∧ isContinuation b = false ∧
      ∀ v, multibyte? b (rest ++ v) = some ⟨c, rest.length + 1⟩ := by
  have limit : c.toNat < 0x110000 := by
    rcases c.valid with small | large
    · exact Nat.lt_trans small (by decide)
    · exact large.2
  have spelled : ofChar c = if c.toNat ≤ 0x7F then [UInt8.ofNat c.toNat]
      else if c.toNat ≤ 0x7FF then
        [UInt8.ofNat (c.toNat / 64 % 32 + 0xC0), UInt8.ofNat (c.toNat % 64 + 0x80)]
      else if c.toNat ≤ 0xFFFF then
        [UInt8.ofNat (c.toNat / 4096 % 16 + 0xE0), UInt8.ofNat (c.toNat / 64 % 64 + 0x80),
          UInt8.ofNat (c.toNat % 64 + 0x80)]
      else
        [UInt8.ofNat (c.toNat / 262144 % 8 + 0xF0), UInt8.ofNat (c.toNat / 4096 % 64 + 0x80),
          UInt8.ofNat (c.toNat / 64 % 64 + 0x80), UInt8.ofNat (c.toNat % 64 + 0x80)] := rfl
  have inside (n : Nat) : n % 64 < 0x40 := Nat.mod_lt n (by decide)
  -- One case for each number of bytes.  The bits of the bytes make up the number again, and it is
  -- not below the first one that needs so many bytes.
  rw [spelled, if_neg (by omega)]
  by_cases two : c.toNat ≤ 0x7FF
  · have byte : c.toNat / 64 % 32 + 0xC0 < 0x100 := by omega
    obtain ⟨notAscii, lead, notInside⟩ := lead_ofNat (by omega) byte
    have short : UInt8.ofNat (c.toNat / 64 % 32 + 0xC0) < 0xE0 :=
      (ofNat_lt_iff byte 0xE0 (by decide)).mpr (by omega)
    rw [if_pos two]
    refine ⟨_, _, rfl, notAscii, notInside, fun v => ?_⟩
    simp only [multibyte?, List.cons_append, lead, short, Bool.not_true, Bool.false_eq_true,
      ↓reduceIte, toNat_ofNat_byte byte, isContinuation_ofNat (inside _),
      continuationBits_ofNat (inside _)]
    exact scalar?_toNat (by omega) above
  rw [if_neg two]
  by_cases three : c.toNat ≤ 0xFFFF
  · have byte : c.toNat / 4096 % 16 + 0xE0 < 0x100 := by omega
    obtain ⟨notAscii, lead, notInside⟩ := lead_ofNat (by omega) byte
    have long : ¬ UInt8.ofNat (c.toNat / 4096 % 16 + 0xE0) < 0xE0 :=
      (ofNat_lt_iff byte 0xE0 (by decide)).not.mpr (by omega)
    have short : UInt8.ofNat (c.toNat / 4096 % 16 + 0xE0) < 0xF0 :=
      (ofNat_lt_iff byte 0xF0 (by decide)).mpr (by omega)
    rw [if_pos three]
    refine ⟨_, _, rfl, notAscii, notInside, fun v => ?_⟩
    simp only [multibyte?, List.cons_append, lead, long, short, Bool.not_true, Bool.false_eq_true,
      ↓reduceIte, toNat_ofNat_byte byte, isContinuation_ofNat (inside _),
      continuationBits_ofNat (inside _)]
    exact scalar?_toNat (by omega) (by omega)
  · have byte : c.toNat / 262144 % 8 + 0xF0 < 0x100 := by omega
    obtain ⟨notAscii, lead, notInside⟩ := lead_ofNat (by omega) byte
    have long : ¬ UInt8.ofNat (c.toNat / 262144 % 8 + 0xF0) < 0xE0 :=
      (ofNat_lt_iff byte 0xE0 (by decide)).not.mpr (by omega)
    have longer : ¬ UInt8.ofNat (c.toNat / 262144 % 8 + 0xF0) < 0xF0 :=
      (ofNat_lt_iff byte 0xF0 (by decide)).not.mpr (by omega)
    have short : UInt8.ofNat (c.toNat / 262144 % 8 + 0xF0) < 0xF8 :=
      (ofNat_lt_iff byte 0xF8 (by decide)).mpr (by omega)
    rw [if_neg three]
    refine ⟨_, _, rfl, notAscii, notInside, fun v => ?_⟩
    simp only [multibyte?, List.cons_append, lead, long, longer, short, Bool.not_true,
      Bool.false_eq_true, ↓reduceIte, toNat_ofNat_byte byte, isContinuation_ofNat (inside _),
      continuationBits_ofNat (inside _), decide_true, Bool.and_self]
    exact scalar?_toNat (by omega) (by omega)

theorem ofChar_ascii {c : Char} (ascii : c.toNat < 0x80) :
    ∃ b : UInt8, ofChar c = [b] ∧ b < 0x80 ∧ Char.ofNat b.toNat = c := by
  have byte : c.toNat < 0x100 := Nat.lt_trans ascii (by decide)
  refine ⟨UInt8.ofNat c.toNat, if_pos (Nat.le_of_lt_succ ascii), ?_, ?_⟩
  · exact (ofNat_lt_iff byte 0x80 (by decide)).mpr ascii
  · rw [toNat_ofNat_byte byte, Char.ofNat_toNat]

/-- A character is read back from its bytes, whatever comes behind them. -/
theorem rune?_ofChar (c : Char) (v : Text) :
    rune? (ofChar c ++ v) = some ⟨c, (ofChar c).length⟩ := by
  by_cases ascii : c.toNat < 0x80
  · obtain ⟨b, spelled, low, value⟩ := ofChar_ascii ascii
    rw [spelled, List.singleton_append, rune?_ascii low, value]
    rfl
  · obtain ⟨b, rest, spelled, notAscii, _, reads⟩ := exists_lead (Nat.not_lt.mp ascii)
    rw [spelled, List.cons_append, rune?_not_ascii notAscii, reads]
    rfl

theorem starts_ofChar (c : Char) (v : Text) :
    ∀ b ∈ (ofChar c ++ v).head?, isContinuation b = false := by
  obtain ⟨b, rest, spelled, other⟩ : ∃ b rest, ofChar c = b :: rest ∧ isContinuation b = false := by
    by_cases ascii : c.toNat < 0x80
    · obtain ⟨b, spelled, low, _⟩ := ofChar_ascii ascii
      exact ⟨b, [], spelled, not_isContinuation_of_lt low⟩
    · obtain ⟨b, rest, spelled, _, other, _⟩ := exists_lead (Nat.not_lt.mp ascii)
      exact ⟨b, rest, spelled, other⟩
  intro x front
  rw [spelled, List.cons_append, List.head?_cons, Option.mem_some_iff] at front
  rw [← front]
  exact other

/-! ## Valid texts -/

theorem ofChars_cons (c : Char) (cs : List Char) : ofChars (c :: cs) = ofChar c ++ ofChars cs :=
  List.flatMap_cons

theorem Valid.whole (valid : Valid u) (v : Text) : Whole u v := by
  obtain ⟨cs, rfl⟩ := valid
  induction cs with
  | nil => exact .nil v
  | cons c cs ih =>
      rw [ofChars_cons]
      exact .cons (rune?_ofChar c _) rfl rfl ih

theorem Valid.starts (valid : Valid u) (present : u ≠ []) (v : Text) :
    ∀ b ∈ (u ++ v).head?, isContinuation b = false := by
  obtain ⟨cs, rfl⟩ := valid
  cases cs with
  | nil => exact absurd rfl present
  | cons c cs =>
      rw [ofChars_cons, List.append_assoc]
      exact starts_ofChar c _

/-! ## Occurrences -/

theorem indexFrom?_eq_none {start : Nat} (missing : indexFrom? needle start t = none) :
    ∀ i, ¬ needle <+: t.drop i := by
  fun_induction indexFrom? needle start t with
  | case1 => cases missing
  | case2 start present =>
      intro i occurs
      rw [List.drop_nil, List.prefix_nil] at occurs
      exact present (List.isEmpty_iff.mpr occurs)
  | case3 => cases missing
  | case4 start b rest elsewhere ih =>
      intro i
      cases i with
      | zero => exact mt List.isPrefixOf_iff_prefix.mpr elsewhere
      | succ i => exact ih missing i

theorem indexFrom?_eq_some {start n : Nat} (found : indexFrom? needle start t = some n) :
    ∃ i, n = start + i ∧ IsLeast {i | needle <+: t.drop i} i := by
  fun_induction indexFrom? needle start t with
  | case1 start empty =>
      refine ⟨0, (Option.some.inj found).symm, ?_, fun _ _ => Nat.zero_le _⟩
      rw [List.isEmpty_iff.mp empty]
      exact List.nil_prefix
  | case2 => cases found
  | case3 start b rest here =>
      refine ⟨0, (Option.some.inj found).symm, ?_, fun _ _ => Nat.zero_le _⟩
      exact List.isPrefixOf_iff_prefix.mp here
  | case4 start b rest elsewhere ih =>
      obtain ⟨i, rfl, occurs, least⟩ := ih found
      refine ⟨i + 1, by omega, occurs, fun j earlier => ?_⟩
      cases j with
      | zero => exact absurd (List.isPrefixOf_iff_prefix.mpr earlier) elsewhere
      | succ j => exact Nat.succ_le_succ (least earlier)

theorem indexOf?_eq_none_iff : indexOf? needle t = none ↔ ∀ i, ¬ needle <+: t.drop i := by
  refine ⟨indexFrom?_eq_none, fun missing => ?_⟩
  by_contra other
  obtain ⟨n, found⟩ := Option.ne_none_iff_exists'.mp other
  obtain ⟨i, _, occurs, _⟩ := indexFrom?_eq_some found
  exact missing i occurs

theorem indexOf?_eq_some_iff {n : Nat} :
    indexOf? needle t = some n ↔ IsLeast {i | needle <+: t.drop i} n := by
  have first {m : Nat} (found : indexOf? needle t = some m) :
      IsLeast {i | needle <+: t.drop i} m := by
    obtain ⟨i, rfl, least⟩ := indexFrom?_eq_some found
    rwa [Nat.zero_add]
  refine ⟨first, fun least => ?_⟩
  cases found : indexOf? needle t with
  | none => exact absurd least.1 (indexOf?_eq_none_iff.mp found n)
  | some m => rw [(first found).unique least]

theorem exists_split_of_isLeast {n : Nat} (first : IsLeast {i | needle <+: t.drop i} n) :
    ∃ u v, t = u ++ (needle ++ v) ∧ u.length = n := by
  obtain ⟨v, occurs⟩ : needle <+: t.drop n := first.1
  refine ⟨t.take n, v, by rw [occurs, List.take_append_drop], ?_⟩
  rw [List.length_take, Nat.min_eq_left]
  by_cases inside : n ≤ t.length
  · exact inside
  · -- Past the end there is only the empty text, and that one occurs in front already.
    have ended : t.drop n = [] := List.drop_eq_nil_of_le (by omega)
    rw [ended, List.append_eq_nil_iff] at occurs
    have front : needle <+: t.drop 0 := occurs.1 ▸ List.nil_prefix
    exact (first.2 front).trans (Nat.zero_le _)

/-- The characters in front of the first occurrence of a valid text are whole. -/
theorem Valid.whole_before (valid : Valid needle)
    (first : IsLeast {i | needle <+: (u ++ (needle ++ v)).drop i} u.length) :
    Whole u (needle ++ v) := by
  by_cases present : needle = []
  · have front : needle <+: (u ++ (needle ++ v)).drop 0 := present ▸ List.nil_prefix
    obtain rfl := List.length_eq_zero_iff.mp (Nat.le_zero.mp (first.2 front))
    exact .nil _
  · exact whole_of_ends u (valid.starts present v)

end Text

end FrontEnd
