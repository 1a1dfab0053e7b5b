/-
# Signed words in range

A sum, a difference or a negation of 32-bit words that fits is the one of the integers, and
a word without a sign that is small is the same number with a sign.

Key theorems: `toInt_add_of_range`, `toInt_toInt32_of_lt`, `toNat_toUInt32_of_nonneg`.
-/
import Mathlib.Tactic
import Mathlib.Data.UInt

namespace ForgottenServer
namespace Words

variable {a b : Int32}

theorem toInt_add_of_range (h1 : -2 ^ 31 ≤ a.toInt + b.toInt) (h2 : a.toInt + b.toInt < 2 ^ 31) :
    (a + b).toInt = a.toInt + b.toInt := by
  rw [Int32.toInt_add]
  apply Int.bmod_eq_of_le <;> omega

theorem toInt_sub_of_range (h1 : -2 ^ 31 ≤ a.toInt - b.toInt) (h2 : a.toInt - b.toInt < 2 ^ 31) :
    (a - b).toInt = a.toInt - b.toInt := by
  rw [Int32.toInt_sub]
  apply Int.bmod_eq_of_le <;> omega

theorem toInt_neg_of_range (h : -2 ^ 31 < a.toInt) : (-a).toInt = -a.toInt := by
  have hlt := a.toInt_lt
  rw [Int32.toInt_neg]
  apply Int.bmod_eq_of_le <;> omega

theorem toInt_min (a b : Int32) : (min a b).toInt = min a.toInt b.toInt := by
  rw [show min a b = if a ≤ b then a else b from rfl]
  split_ifs with h
  · exact (min_eq_left (Int32.le_iff_toInt_le.1 h)).symm
  · exact (min_eq_right (Int32.le_iff_toInt_le.not.1 h |> not_le.1 |>.le)).symm

theorem toInt_max (a b : Int32) : (max a b).toInt = max a.toInt b.toInt := by
  rw [show max a b = if a ≤ b then b else a from rfl]
  split_ifs with h
  · exact (max_eq_right (Int32.le_iff_toInt_le.1 h)).symm
  · exact (max_eq_left (Int32.le_iff_toInt_le.not.1 h |> not_le.1 |>.le)).symm

theorem toInt_toInt32_of_lt {n : UInt32} (h : n.toNat < 2 ^ 31) : n.toInt32.toInt = n.toNat :=
  BitVec.toInt_eq_toNat_of_lt (by show 2 * n.toNat < 2 ^ 32; omega)

theorem toNat_toUInt32_of_nonneg (h : 0 ≤ a.toInt) : (a.toUInt32.toNat : ℤ) = a.toInt := by
  have hlt := a.toInt_lt
  have he : a.toInt = (a.toUInt32.toNat : ℤ) ∨ a.toInt = a.toUInt32.toNat - 2 ^ 32 := by
    have := BitVec.toInt_eq_toNat_cond a.toBitVec
    change a.toInt = if 2 * a.toUInt32.toNat < 2 ^ 32 then _ else _ at this
    split_ifs at this
    · exact .inl this
    · exact .inr this
  have := a.toUInt32.toNat_lt
  omega

end Words
end ForgottenServer
