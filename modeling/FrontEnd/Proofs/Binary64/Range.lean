import FrontEnd.Binary64.Basic
import Mathlib.Data.Int.Log
import Mathlib.Algebra.Order.Field.Power
import Mathlib.Data.Rat.Floor
import Mathlib.Tactic.Linarith
import Mathlib.Tactic.Positivity
import Mathlib.Tactic.Qify
import Mathlib.Tactic.Ring

/-!
# The range of floating-point numbers

The greatest finite number is `(2 ^ 53 - 1) · 2 ^ 971`.  A fraction has no nearest number exactly if
it reaches the bound half a unit above that one (`nearest?_eq_none_iff`): on the bound itself the
even neighbour is the one that is not there.  A fraction below half the least number is nearest to
zero (`nearest?_eq_zero`).

The bits of a number are compared with those of infinity.  What this says of the fraction follows
from one fact about rounding, which is needed for even bounds only (`le_divNearest_iff`).
-/

namespace FrontEnd

namespace Binary64

/-- The least number that is too great for a finite one. -/
def overflowBound : ℚ := 2 ^ 1024 - 2 ^ 970

/-! ## Powers -/

theorem powUp_pos {base : Nat} (positive : 0 < base) (e : Int) : 0 < powUp base e :=
  Nat.pow_pos positive

/-- The two parts of a power make up the fraction that it is. -/
theorem powUp_div_powUp {base : Nat} (positive : 0 < base) (e : Int) :
    (powUp base e : ℚ) / powUp base (-e) = (base : ℚ) ^ e := by
  have nonzero : (base : ℚ) ≠ 0 := Nat.cast_ne_zero.mpr (Nat.ne_of_gt positive)
  change ((base ^ e.toNat : ℕ) : ℚ) / ((base ^ (-e).toNat : ℕ) : ℚ) = _
  rw [Nat.cast_pow, Nat.cast_pow, ← zpow_natCast, ← zpow_natCast, ← zpow_sub₀ nonzero,
    Int.toNat_sub_toNat_neg]

theorem overflowBound_eq : overflowBound = (2 ^ 53 - 1 / 2) * 2 ^ (971 : ℤ) := by
  have unit : (2 : ℚ) ^ (971 : ℤ) = 2 ^ 970 * 2 := by
    rw [← pow_succ]
    rfl
  have greatest : (2 : ℚ) ^ 1024 = 2 ^ 970 * 2 ^ 54 := by rw [← pow_add]
  rw [overflowBound, unit, greatest]
  generalize (2 : ℚ) ^ 970 = x
  ring

theorem lt_overflowBound : (2 : ℚ) ^ (1023 : ℤ) < overflowBound := by
  have split : (2 : ℚ) ^ (1023 : ℤ) = 2 ^ 52 * 2 ^ (971 : ℤ) := by
    rw [← zpow_natCast, ← zpow_add₀ two_ne_zero]
    rfl
  rw [overflowBound_eq, split]
  exact mul_lt_mul_of_pos_right (by norm_num) (zpow_pos two_pos _)

theorem overflowBound_lt : overflowBound < (2 : ℚ) ^ (1024 : ℤ) := by
  have split : (2 : ℚ) ^ (1024 : ℤ) = 2 ^ 53 * 2 ^ (971 : ℤ) := by
    rw [← zpow_natCast, ← zpow_add₀ two_ne_zero]
    rfl
  rw [overflowBound_eq, split]
  exact mul_lt_mul_of_pos_right (by norm_num) (zpow_pos two_pos _)

/-! ## The logarithm of a fraction -/

variable {num den : Nat}

theorem pow_log2_le {n : Nat} (positive : 0 < n) : (2 : ℚ) ^ (n.log2 : ℤ) ≤ n := by
  rw [zpow_natCast]
  exact_mod_cast Nat.log2_self_le (Nat.ne_of_gt positive)

theorem lt_pow_log2 (n : Nat) : (n : ℚ) < 2 ^ ((n.log2 : ℤ) + 1) := by
  rw [← Nat.cast_succ, zpow_natCast]
  exact_mod_cast Nat.lt_log2_self

/-- The logarithms of the two parts leave a choice between two exponents. -/
theorem div_bounds (numPos : 0 < num) (denPos : 0 < den) {e : ℤ}
    (difference : (num.log2 : ℤ) - den.log2 = e) :
    (2 : ℚ) ^ (e - 1) ≤ (num : ℚ) / den ∧ (num : ℚ) / den < 2 ^ (e + 1) := by
  have denCast : (0 : ℚ) < den := Nat.cast_pos.mpr denPos
  subst difference
  constructor
  · rw [le_div_iff₀ denCast]
    calc (2 : ℚ) ^ ((num.log2 : ℤ) - den.log2 - 1) * den
        ≤ 2 ^ ((num.log2 : ℤ) - den.log2 - 1) * 2 ^ ((den.log2 : ℤ) + 1) := by
          gcongr
          exact (lt_pow_log2 den).le
      _ = 2 ^ (num.log2 : ℤ) := by rw [← zpow_add₀ two_ne_zero, sub_sub, sub_add_cancel]
      _ ≤ num := pow_log2_le numPos
  · rw [div_lt_iff₀ denCast]
    calc (num : ℚ) < 2 ^ ((num.log2 : ℤ) + 1) := lt_pow_log2 num
      _ = 2 ^ ((num.log2 : ℤ) - den.log2 + 1) * 2 ^ (den.log2 : ℤ) := by
          rw [← zpow_add₀ two_ne_zero, add_right_comm, sub_add_cancel]
      _ ≤ 2 ^ ((num.log2 : ℤ) - den.log2 + 1) * den := by
          gcongr
          exact pow_log2_le denPos

theorem div_lt_pow_iff (positive : 0 < den) (e : ℤ) :
    (num : ℚ) / den < 2 ^ e ↔ num * powUp 2 (-e) < den * powUp 2 e := by
  have denPos : (0 : ℚ) < den := Nat.cast_pos.mpr positive
  have powPos : (0 : ℚ) < powUp 2 (-e) := Nat.cast_pos.mpr (powUp_pos two_pos _)
  have power := powUp_div_powUp two_pos e
  rw [Nat.cast_ofNat] at power
  rw [← power, div_lt_div_iff₀ denPos powPos, mul_comm (powUp 2 e : ℚ)]
  exact_mod_cast Iff.rfl

theorem div_pos_of_pos (numPos : 0 < num) (denPos : 0 < den) : (0 : ℚ) < (num : ℚ) / den :=
  div_pos (Nat.cast_pos.mpr numPos) (Nat.cast_pos.mpr denPos)

theorem floorLog2_eq (numPos : 0 < num) (denPos : 0 < den) :
    floorLog2 num den = Int.log 2 ((num : ℚ) / den) := by
  have unique (e : ℤ) (below : (2 : ℚ) ^ e ≤ (num : ℚ) / den)
      (above : (num : ℚ) / den < 2 ^ (e + 1)) : e = Int.log 2 ((num : ℚ) / den) := by
    have fractionPos := div_pos_of_pos numPos denPos
    have least := (Int.zpow_le_iff_le_log one_lt_two fractionPos).mp (by exact_mod_cast below)
    have greatest := (Int.lt_zpow_iff_log_lt one_lt_two fractionPos).mp (by exact_mod_cast above)
    omega
  generalize difference : (num.log2 : ℤ) - den.log2 = e
  obtain ⟨low, high⟩ := div_bounds numPos denPos difference
  simp only [floorLog2, difference, ← div_lt_pow_iff denPos]
  split
  · rename_i below
    refine unique _ low ?_
    rwa [sub_add_cancel]
  · rename_i above
    exact unique _ (not_lt.mp above) high

/-! ## Rounding -/

/-- An even number is reached by rounding from half a unit below on. -/
theorem le_divNearest_iff (positive : 0 < den) {k : Nat} (even : k % 2 = 0) :
    k ≤ divNearest num den ↔ (k : ℚ) - 1 / 2 ≤ (num : ℚ) / den := by
  have inNat : (k : ℚ) - 1 / 2 ≤ (num : ℚ) / den ↔ 2 * (k * den) ≤ 2 * num + den := by
    rw [le_div_iff₀ (Nat.cast_pos.mpr positive)]
    qify
    constructor <;> intro bound <;> linarith
  rw [inNat]
  have parts : den * (num / den) + num % den = num := Nat.div_add_mod num den
  have small : num % den < den := Nat.mod_lt num positive
  simp only [divNearest]
  generalize num / den = q at parts ⊢
  generalize num % den = r at parts small ⊢
  subst parts
  -- In each case the answer is the number next to which the fraction comes to lie.
  have between {j : Nat} (reached : 2 * (j * den) ≤ 2 * (den * q + r) + den)
      (missed : 2 * (den * q + r) + den < 2 * ((j + 1) * den)) :
      k ≤ j ↔ 2 * (k * den) ≤ 2 * (den * q + r) + den := by
    constructor
    · intro le
      have := Nat.mul_le_mul_right den le
      linarith
    · intro bound
      by_contra above
      have : (j + 1) * den ≤ k * den := Nat.mul_le_mul_right den (not_le.mp above)
      linarith
  split
  · exact between (by linarith) (by linarith)
  split
  · exact between (by linarith) (by linarith)
  · have upward : k ≤ q + q % 2 ↔ k ≤ q + 1 := by omega
    rw [upward]
    exact between (by linarith) (by linarith)

/-! ## Fractions without a nearest number -/

/-- The significand of a fraction reaches an even number from half a unit below on. -/
theorem le_significand_iff (num : Nat) (positive : 0 < den) (q : ℤ) {k : Nat}
    (even : k % 2 = 0) :
    k ≤ divNearest (num * powUp 2 (-q)) (den * powUp 2 q) ↔
      ((k : ℚ) - 1 / 2) * 2 ^ q ≤ (num : ℚ) / den := by
  have power := powUp_div_powUp two_pos q
  rw [Nat.cast_ofNat] at power
  have scaled : ((num * powUp 2 (-q) : ℕ) : ℚ) / ((den * powUp 2 q : ℕ) : ℚ) =
      (num : ℚ) / den / 2 ^ q := by
    rw [Nat.cast_mul, Nat.cast_mul, mul_div_mul_comm, ← power, div_eq_mul_inv _ (_ / _), inv_div]
  rw [le_divNearest_iff (Nat.mul_pos positive (powUp_pos two_pos q)) even, scaled,
    le_div_iff₀ (zpow_pos two_pos q)]

theorem nearest?_zero (den : Nat) : nearest? 0 den = some ⟨0⟩ := if_pos rfl

/-- The bits of the number nearest to a fraction, in terms of the unit of the numbers around it. -/
theorem nearest?_eq_bits (numPos : 0 < num) (denPos : 0 < den) {q : ℤ}
    (unit : max (Int.log 2 ((num : ℚ) / den) - 52) (-1074) = q) :
    nearest? num den =
      let bits := (q + 1074).toNat * 2 ^ 52 + divNearest (num * powUp 2 (-q)) (den * powUp 2 q)
      if bits < 2047 * 2 ^ 52 then some ⟨UInt64.ofNat bits⟩ else none := by
  rw [nearest?, if_neg (Nat.ne_of_gt numPos), floorLog2_eq numPos denPos, unit]
  rfl

/-- A fraction has no nearest number exactly if it reaches the bound. -/
theorem nearest?_eq_none_iff (num : Nat) (positive : 0 < den) :
    nearest? num den = none ↔ overflowBound ≤ (num : ℚ) / den := by
  have boundPos : 0 < overflowBound := (zpow_pos two_pos _).trans lt_overflowBound
  rcases Nat.eq_zero_or_pos num with rfl | numPos
  · rw [nearest?_zero, Nat.cast_zero, zero_div]
    exact iff_of_false (Option.some_ne_none _) (not_le.mpr boundPos)
  generalize unit : max (Int.log 2 ((num : ℚ) / den) - 52) (-1074) = q
  rw [nearest?_eq_bits numPos positive unit]
  have reaches {k : Nat} (even : k % 2 = 0) := le_significand_iff num positive q even
  generalize divNearest (num * powUp 2 (-q)) (den * powUp 2 q) = m at reaches ⊢
  have fractionPos := div_pos_of_pos numPos positive
  generalize (num : ℚ) / den = v at unit reaches fractionPos ⊢
  have low : (2 : ℚ) ^ Int.log 2 v ≤ v := Int.zpow_log_le_self one_lt_two fractionPos
  have high : v < (2 : ℚ) ^ (Int.log 2 v + 1) := Int.lt_zpow_succ_log_self one_lt_two v
  generalize Int.log 2 v = l at unit low high
  have unitPos : (0 : ℚ) < 2 ^ q := zpow_pos two_pos q
  rw [ite_eq_right_iff, imp_iff_not (Option.some_ne_none _), not_lt]
  -- The bound lies among the numbers with the greatest exponent.
  rcases lt_trichotomy l 1023 with below | rfl | above
  · have small : v < 2 ^ (1023 : ℤ) :=
      high.trans_le (zpow_le_zpow_right₀ one_le_two below)
    have few : ¬ 3 * 2 ^ 52 ≤ m := by
      rw [reaches (by decide), not_le]
      calc v < 2 ^ (l + 1) := high
        _ ≤ 2 ^ (53 + q) := zpow_le_zpow_right₀ one_le_two (by omega)
        _ = 2 ^ (53 : ℤ) * 2 ^ q := zpow_add₀ two_ne_zero _ _
        _ < _ := mul_lt_mul_of_pos_right (by norm_num) unitPos
    refine iff_of_false ?_ (not_le.mpr (small.trans lt_overflowBound))
    omega
  · have topmost : q = 971 := by omega
    have reached := reaches (k := 2 ^ 53) (by decide)
    rw [topmost, Nat.cast_pow, Nat.cast_ofNat] at reached
    rw [overflowBound_eq, ← reached]
    omega
  · have great : (2 : ℚ) ^ (1024 : ℤ) ≤ v :=
      (zpow_le_zpow_right₀ one_le_two above).trans low
    have many : 2 ^ 52 ≤ m := by
      rw [reaches (by decide)]
      calc _ ≤ (2 : ℚ) ^ (52 : ℤ) * 2 ^ q := mul_le_mul_of_nonneg_right (by norm_num) unitPos.le
        _ = 2 ^ (52 + q) := (zpow_add₀ two_ne_zero _ _).symm
        _ ≤ 2 ^ l := zpow_le_zpow_right₀ one_le_two (by omega)
        _ ≤ v := low
    refine iff_of_true ?_ (overflowBound_lt.le.trans great)
    omega

theorem divNearest_eq_zero (small : 2 * num < den) : divNearest num den = 0 := by
  have below : num < den := by omega
  simp only [divNearest, Nat.div_eq_of_lt below, Nat.mod_eq_of_lt below, small, ↓reduceIte]

/-- A fraction below half the least number is nearest to zero. -/
theorem nearest?_eq_zero (positive : 0 < den) (small : (num : ℚ) / den < 2 ^ (-1075 : ℤ)) :
    nearest? num den = some ⟨0⟩ := by
  rcases Nat.eq_zero_or_pos num with rfl | numPos
  · exact nearest?_zero den
  have fractionPos := div_pos_of_pos numPos positive
  have log : Int.log 2 ((num : ℚ) / den) < -1075 :=
    (Int.lt_zpow_iff_log_lt one_lt_two fractionPos).mp small
  have doubled : ((2 * num : ℕ) : ℚ) / den < 2 ^ (-1074 : ℤ) := by
    rw [Nat.cast_mul, mul_div_assoc, Nat.cast_ofNat]
    calc 2 * ((num : ℚ) / den) < 2 * 2 ^ (-1075 : ℤ) := by gcongr
      _ = 2 ^ (-1074 : ℤ) := (zpow_one_add₀ two_ne_zero (-1075)).symm
  have nothing : divNearest (num * powUp 2 (-(-1074))) (den * powUp 2 (-1074)) = 0 := by
    apply divNearest_eq_zero
    rw [← mul_assoc]
    exact (div_lt_pow_iff positive (-1074)).mp doubled
  rw [nearest?_eq_bits numPos positive (q := -1074) (by omega), nothing]
  rfl

end Binary64

end FrontEnd
