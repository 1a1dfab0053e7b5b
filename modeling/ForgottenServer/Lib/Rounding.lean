/-
# Rounding to a mantissa

A floating-point format keeps so many bits of a number, down to a least exponent, and rounds
to the nearest number it has, to the even one of two (`roundTo`). Numbers of the format stay
as they are, and what is below one of them is not rounded past it.

Infinity is left out: there is no greatest exponent.

Key definitions: `roundEven`, `roundTo`.
Key theorems: `roundTo_le`, `roundTo_eq_self`.
-/
import Mathlib.Algebra.Order.Floor.Ring
import Mathlib.Algebra.Group.Int.Even
import Mathlib.Data.Int.Log
import Mathlib.Tactic

namespace ForgottenServer
namespace Rounding

variable {K : Type*} [Field K] [LinearOrder K] [FloorRing K]

/-- The nearest integer, the even one of two. -/
def roundEven (x : K) : ℤ :=
  if 2 * (x - ⌊x⌋) < 1 ∨ 2 * (x - ⌊x⌋) = 1 ∧ Even ⌊x⌋ then ⌊x⌋ else ⌊x⌋ + 1

/-- The exponent of the last bit that is kept. -/
def lastBit (p : ℕ) (emin : ℤ) (x : K) : ℤ := max (Int.log 2 x + 1 - p) emin

/-- The nearest number of the format with `p` bits and no bit below that of `emin`. -/
def roundTo (p : ℕ) (emin : ℤ) (x : K) : K :=
  roundEven (x / 2 ^ lastBit p emin x) * 2 ^ lastBit p emin x

/-- A number of the format counts the last bits of a smaller number. -/
theorem mul_zpow_div (n : ℕ) {e l : ℤ} (h : l ≤ e) :
    (n : K) * 2 ^ e / 2 ^ l = ((n * 2 ^ (e - l).toNat : ℕ) : ℤ) := by
  have hsub : ((e - l).toNat : ℤ) = e - l := Int.toNat_of_nonneg (by omega)
  push_cast
  rw [mul_div_assoc, ← zpow_sub₀ two_ne_zero, ← zpow_natCast, hsub]

variable [IsStrictOrderedRing K] {p : ℕ} {emin : ℤ}

@[simp] theorem roundEven_intCast (m : ℤ) : roundEven (m : K) = m := by
  unfold roundEven
  rw [Int.floor_intCast, sub_self, mul_zero, if_pos (.inl zero_lt_one)]

/-- What is no more than an integer is not rounded past it. -/
theorem roundEven_le {x : K} {m : ℤ} (h : x ≤ m) : roundEven x ≤ m := by
  unfold roundEven
  split_ifs with hdown
  · have hfloor : (⌊x⌋ : K) ≤ m := (Int.floor_le x).trans h
    exact_mod_cast hfloor
  · -- it is rounded up, so that it is no integer
    have hpos : (⌊x⌋ : K) < x := by
      by_contra hle
      have hzero : x - ⌊x⌋ = 0 := sub_eq_zero.2 (le_antisymm (not_lt.1 hle) (Int.floor_le x))
      exact hdown (.inl (by rw [hzero, mul_zero]; exact zero_lt_one))
    have hlt : (⌊x⌋ : K) < m := hpos.trans_le h
    have hlt : ⌊x⌋ < m := by exact_mod_cast hlt
    omega

theorem lastBit_le {x : K} {e : ℤ} (hx : 0 < x) (hlt : x < 2 ^ (e + p)) (he : emin ≤ e) :
    lastBit p emin x ≤ e := by
  have hlog : Int.log 2 x < e + p := (Int.lt_zpow_iff_log_lt one_lt_two hx).1 (by exact_mod_cast hlt)
  exact max_le (by omega) he

theorem mul_zpow_lt {n : ℕ} (hn : n < 2 ^ p) (e : ℤ) : (n : K) * 2 ^ e < 2 ^ (e + p) := by
  have hcast : (n : K) < 2 ^ p := by exact_mod_cast hn
  rw [zpow_add₀ two_ne_zero, zpow_natCast, mul_comm]
  exact mul_lt_mul_of_pos_left hcast (zpow_pos two_pos e)

/-- What is no more than a number of the format is not rounded past it. -/
theorem roundTo_le {x : K} {n : ℕ} {e : ℤ} (hn : n < 2 ^ p) (he : emin ≤ e) (h : x ≤ n * 2 ^ e) :
    roundTo p emin x ≤ n * 2 ^ e := by
  have hbit : (0 : K) < 2 ^ lastBit p emin x := zpow_pos two_pos _
  unfold roundTo
  rw [← le_div_iff₀ hbit]
  rcases le_or_gt x 0 with hx | hx
  · have hneg : x / 2 ^ lastBit p emin x ≤ (0 : ℤ) := by
      rw [Int.cast_zero]
      exact div_nonpos_of_nonpos_of_nonneg hx hbit.le
    have hround : (roundEven (x / 2 ^ lastBit p emin x) : K) ≤ (0 : ℤ) := Int.cast_le.2 (roundEven_le hneg)
    rw [Int.cast_zero] at hround
    exact hround.trans (div_nonneg (mul_nonneg (Nat.cast_nonneg n) (zpow_pos two_pos e).le) hbit.le)
  · have hlast := lastBit_le hx (h.trans_lt (mul_zpow_lt hn e)) he
    rw [mul_zpow_div n hlast]
    apply Int.cast_le.2
    apply roundEven_le
    rw [← mul_zpow_div n hlast]
    exact div_le_div_of_nonneg_right h hbit.le

/-- A number of the format is not rounded. -/
theorem roundTo_eq_self {n : ℕ} {e : ℤ} (hn : n < 2 ^ p) (he : emin ≤ e) :
    roundTo p emin ((n : K) * 2 ^ e) = n * 2 ^ e := by
  rcases Nat.eq_zero_or_pos n with rfl | hpos
  · have hzero : roundEven (0 : K) = 0 := by simpa using roundEven_intCast (K := K) 0
    simp [roundTo, hzero]
  · have hx : (0 : K) < n * 2 ^ e := mul_pos (Nat.cast_pos.2 hpos) (zpow_pos two_pos e)
    have hlast := lastBit_le hx (mul_zpow_lt hn e) he
    have hbit : (0 : K) < 2 ^ lastBit p emin ((n : K) * 2 ^ e) := zpow_pos two_pos _
    unfold roundTo
    rw [mul_zpow_div n hlast, roundEven_intCast, ← mul_zpow_div n hlast, div_mul_cancel₀ _ hbit.ne']

end Rounding
end ForgottenServer
