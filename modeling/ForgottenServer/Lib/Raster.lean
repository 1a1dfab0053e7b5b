/-
# The walk along a line on a grid

A walk of `a` cells to the right and `b` cells up, from the corner, that takes one or both
of the two moves at a time. Where it stands after `i` and `j` of them, `b * i - a * j` says
how far it is off the line. It compares how far off the next three cells are, and takes a
move when the cell of the other one alone is farther off; once a coordinate is reached, the
other one goes on alone.

On such a walk the longer coordinate moves each time, and no cell is off by more than half a
cell along the shorter one.

Key definitions: `off`, `next`, `OnLine`.
Key theorems: `OnLine.next_wide`, `OnLine.next_high`, `iterate_next`.
-/
import Mathlib.Tactic

namespace ForgottenServer
namespace Raster

section Walk

variable (a b : ℤ)

/-- How far a cell is off the line. -/
def off (p : ℤ × ℤ) : ℤ := b * p.1 - a * p.2

/-- Up, when the line is reached on the right, or the cell on the right is farther off. -/
def goesUp (p : ℤ × ℤ) : Prop :=
  p.2 ≠ b ∧ (p.1 = a ∨ |off a b (p.1, p.2 + 1)| < |off a b (p.1 + 1, p.2)| ∨
    |off a b (p.1 + 1, p.2 + 1)| < |off a b (p.1 + 1, p.2)|)

/-- To the right, with the height after the other move. -/
def goesRight (p : ℤ × ℤ) (height : ℤ) : Prop :=
  p.1 ≠ a ∧ (height = b ∨ |off a b (p.1 + 1, p.2)| < |off a b (p.1, p.2 + 1)| ∨
    |off a b (p.1 + 1, p.2 + 1)| < |off a b (p.1, p.2 + 1)|)

instance goesUp.decidable (p : ℤ × ℤ) : Decidable (goesUp a b p) := inferInstanceAs (Decidable (_ ∧ _))

instance goesRight.decidable (p : ℤ × ℤ) (height : ℤ) : Decidable (goesRight a b p height) :=
  inferInstanceAs (Decidable (_ ∧ _))

/-- One round of the walk. -/
def next (p : ℤ × ℤ) : ℤ × ℤ :=
  let height := if goesUp a b p then p.2 + 1 else p.2
  (if goesRight a b p height then p.1 + 1 else p.1, height)

/-- Between the corners, and off the line by at most half a cell of the shorter side. -/
structure OnLine (p : ℤ × ℤ) : Prop where
  left : 0 ≤ p.1
  right : p.1 ≤ a
  low : 0 ≤ p.2
  high : p.2 ≤ b
  near : 2 * |off a b p| ≤ max a b

end Walk

section Steps

variable {a b i j : ℤ}

theorem off_right (a b i j : ℤ) : off a b (i + 1, j) = off a b (i, j) + b := by
  unfold off
  ring

theorem off_up (a b i j : ℤ) : off a b (i, j + 1) = off a b (i, j) - a := by
  unfold off
  ring

theorem onLine_start (ha : 0 ≤ a) (hb : 0 ≤ b) : OnLine a b (0, 0) := by
  refine ⟨le_refl _, ha, le_refl _, hb, ?_⟩
  have h0 : off a b (0, 0) = 0 := by
    unfold off
    ring
  rw [h0, abs_zero, mul_zero]
  exact le_max_of_le_left ha

/-- A multiple that is small is zero. -/
theorem eq_of_mul_small {c n : ℤ} (hc : 0 < c) (h : 2 * |c * n| ≤ c) : n = 0 := by
  rw [abs_mul, abs_of_pos hc] at h
  by_contra hne
  have h1 : 1 ≤ |n| := Int.one_le_abs hne
  have h2 : c * 1 ≤ c * |n| := mul_le_mul_of_nonneg_left h1 hc.le
  linarith

/-- On the right of a wide line, the height is reached too. -/
theorem OnLine.up_of_right (h : OnLine a b (i, j)) (hab : b ≤ a) (hi : i = a) : j = b := by
  obtain ⟨h1, h2, h3, h4, h5⟩ := h
  dsimp only at h1 h2 h3 h4
  rw [max_eq_left hab] at h5
  subst hi
  rcases h1.eq_or_lt with rfl | hpos
  · omega
  · have e : off i b (i, j) = i * (b - j) := by
      unfold off
      ring
    rw [e] at h5
    have := eq_of_mul_small hpos h5
    omega

theorem OnLine.right_of_up (h : OnLine a b (i, j)) (hab : a ≤ b) (hj : j = b) : i = a := by
  obtain ⟨h1, h2, h3, h4, h5⟩ := h
  dsimp only at h1 h2 h3 h4
  rw [max_eq_right hab] at h5
  subst hj
  rcases h3.eq_or_lt with rfl | hpos
  · omega
  · have e : off a j (i, j) = j * (i - a) := by
      unfold off
      ring
    rw [e] at h5
    have := eq_of_mul_small hpos h5
    omega

/-- With equal sides there is no error. -/
theorem OnLine.off_eq_zero (h : OnLine a b (i, j)) (hab : a = b) : off a b (i, j) = 0 := by
  subst hab
  have hnear := h.near
  have hi := h.left
  have hi' := h.right
  rw [max_self] at hnear
  have e : off a a (i, j) = a * (i - j) := by
    unfold off
    ring
  rw [e] at hnear ⊢
  rcases (hi.trans hi').eq_or_lt with h0 | hpos
  · rw [← h0, zero_mul]
  · rw [eq_of_mul_small hpos hnear, mul_zero]

theorem onLine_iff : OnLine a b (i, j) ↔
    0 ≤ i ∧ i ≤ a ∧ 0 ≤ j ∧ j ≤ b ∧ 2 * ((off a b (i, j)).natAbs : ℤ) ≤ max a b := by
  rw [← Int.abs_eq_natAbs]
  exact ⟨fun h => ⟨h.left, h.right, h.low, h.high, h.near⟩,
    fun ⟨h1, h2, h3, h4, h5⟩ => ⟨h1, h2, h3, h4, h5⟩⟩

/-- The two choices, by the error alone. -/
theorem goesUp_iff : goesUp a b (i, j) ↔ j ≠ b ∧ (i = a ∨
    (off a b (i, j) - a).natAbs < (off a b (i, j) + b).natAbs ∨
    (off a b (i, j) + b - a).natAbs < (off a b (i, j) + b).natAbs) := by
  unfold goesUp
  dsimp only
  rw [off_up, off_right, off_up, off_right, Int.abs_eq_natAbs, Int.abs_eq_natAbs, Int.abs_eq_natAbs,
    Nat.cast_lt, Nat.cast_lt]

theorem goesRight_iff {height : ℤ} : goesRight a b (i, j) height ↔ i ≠ a ∧ (height = b ∨
    (off a b (i, j) + b).natAbs < (off a b (i, j) - a).natAbs ∨
    (off a b (i, j) + b - a).natAbs < (off a b (i, j) - a).natAbs) := by
  unfold goesRight
  dsimp only
  rw [off_up, off_right, off_up, off_right, Int.abs_eq_natAbs, Int.abs_eq_natAbs, Int.abs_eq_natAbs,
    Nat.cast_lt, Nat.cast_lt]

theorem next_of_up (h : goesUp a b (i, j)) :
    next a b (i, j) = (if goesRight a b (i, j) (j + 1) then i + 1 else i, j + 1) := by
  unfold next
  rw [if_pos h]

theorem next_of_not_up (h : ¬ goesUp a b (i, j)) :
    next a b (i, j) = (if goesRight a b (i, j) j then i + 1 else i, j) := by
  unfold next
  rw [if_neg h]

/-- A round on a wide line: one to the right, and up or not. -/
theorem OnLine.next_wide (h : OnLine a b (i, j)) (hab : b ≤ a) (hi : i ≠ a) :
    (next a b (i, j)).1 = i + 1 ∧ ((next a b (i, j)).2 = j ∨ (next a b (i, j)).2 = j + 1) ∧
      OnLine a b (next a b (i, j)) := by
  have hdiag := h.off_eq_zero
  have he : off a b (i, j) = b * i - a * j := rfl
  obtain ⟨h1, h2, h3, h4, h5⟩ := onLine_iff.1 h
  -- whatever the height, the cell above is farther off than the one across
  have hright : ∀ height, j ≤ height → height ≤ b → goesRight a b (i, j) height := by
    intro height hj hhb
    rw [goesRight_iff]
    omega
  by_cases hup : goesUp a b (i, j)
  · obtain ⟨hj, hcase⟩ := goesUp_iff.1 hup
    rw [next_of_up hup, if_pos (hright (j + 1) (by omega) (by omega)), onLine_iff, off_up, off_right]
    refine ⟨rfl, .inr rfl, ?_⟩
    omega
  · rw [next_of_not_up hup, if_pos (hright j (le_refl _) h4), onLine_iff, off_right]
    refine ⟨rfl, .inl rfl, ?_⟩
    rw [goesUp_iff] at hup
    rcases eq_or_ne j b with rfl | hj
    · -- at the height of the end the error does not get past the line
      have hle : j * (i + 1 - a) ≤ 0 := mul_nonpos_of_nonneg_of_nonpos h3 (by omega)
      have e : off a j (i, j) + j = j * (i + 1 - a) := by
        rw [he]
        ring
      omega
    · omega

/-- A round on a high line: one up, and to the right or not. -/
theorem OnLine.next_high (h : OnLine a b (i, j)) (hab : a < b) (hj : j ≠ b) :
    (next a b (i, j)).2 = j + 1 ∧ ((next a b (i, j)).1 = i ∨ (next a b (i, j)).1 = i + 1) ∧
      OnLine a b (next a b (i, j)) := by
  have he : off a b (i, j) = b * i - a * j := rfl
  obtain ⟨h1, h2, h3, h4, h5⟩ := onLine_iff.1 h
  have hup : goesUp a b (i, j) := by
    rw [goesUp_iff]
    omega
  rw [next_of_up hup]
  by_cases hright : goesRight a b (i, j) (j + 1)
  · obtain ⟨hi, hcase⟩ := goesRight_iff.1 hright
    rw [if_pos hright, onLine_iff, off_up, off_right]
    refine ⟨rfl, .inr rfl, ?_⟩
    rcases hcase with hlast | hcase
    · -- the last row is reached only next to the end
      have hge : 0 ≤ b * (a - i - 1) := mul_nonneg (by omega) (by omega)
      have e : off a b (i, j) + b - a = -(b * (a - i - 1)) := by
        rw [he, ← hlast]
        ring
      omega
    · omega
  · rw [if_neg hright, onLine_iff, off_up]
    refine ⟨rfl, .inl rfl, ?_⟩
    rw [goesRight_iff] at hright
    rcases eq_or_ne i a with rfl | hi
    · have hge : 0 ≤ i * (b - (j + 1)) := mul_nonneg h1 (by omega)
      have e : off i b (i, j) - i = i * (b - (j + 1)) := by
        rw [he]
        ring
      omega
    · omega

/-- One round, on any line that is not at its end. -/
theorem OnLine.next_spec (h : OnLine a b (i, j)) (hne : (i, j) ≠ (a, b)) :
    OnLine a b (next a b (i, j)) ∧
      ((next a b (i, j)).1 = i ∨ (next a b (i, j)).1 = i + 1) ∧
      ((next a b (i, j)).2 = j ∨ (next a b (i, j)).2 = j + 1) ∧
      (b ≤ a → (next a b (i, j)).1 = i + 1) ∧ (a ≤ b → (next a b (i, j)).2 = j + 1) := by
  rcases lt_or_ge a b with hab | hab
  · have hj : j ≠ b := fun hj => hne (by rw [h.right_of_up hab.le hj, hj])
    obtain ⟨hup, hside, hline⟩ := h.next_high hab hj
    exact ⟨hline, hside, .inr hup, fun hba => absurd hab hba.not_gt, fun _ => hup⟩
  · have hi : i ≠ a := fun hi => hne (by rw [h.up_of_right hab hi, hi])
    obtain ⟨hright, hside, hline⟩ := h.next_wide hab hi
    refine ⟨hline, .inr hright, hside, fun _ => hright, fun hba => ?_⟩
    have h0 := h.off_eq_zero (le_antisymm hba hab)
    have hj : j ≠ b := fun hj => hi (h.right_of_up hba hj)
    obtain ⟨h1, h2, -⟩ := onLine_iff.1 h
    have hup : goesUp a b (i, j) := by
      rw [goesUp_iff]
      omega
    rw [next_of_up hup]

end Steps

/-! ### The whole walk -/

section Rounds

variable {a b : ℤ}

/-- Where the walk is after `n` rounds. -/
theorem iterate_next (ha : 0 ≤ a) (hb : 0 ≤ b) : ∀ n : ℕ, (n : ℤ) ≤ max a b →
    OnLine a b ((next a b)^[n] (0, 0)) ∧ (b ≤ a → ((next a b)^[n] (0, 0)).1 = n) ∧
      (a ≤ b → ((next a b)^[n] (0, 0)).2 = n)
  | 0, _ => ⟨onLine_start ha hb, fun _ => rfl, fun _ => rfl⟩
  | n + 1, hn => by
    obtain ⟨hline, hwide, hhigh⟩ := iterate_next ha hb n (by push_cast at hn; omega)
    rw [Function.iterate_succ_apply']
    set p := (next a b)^[n] (0, 0)
    have hne : (p.1, p.2) ≠ (a, b) := by
      intro he
      obtain ⟨h1, h2⟩ := Prod.mk.inj he
      push_cast at hn
      rcases le_total b a with hab | hab
      · have := hwide hab
        omega
      · have := hhigh hab
        omega
    obtain ⟨hline', -, -, hright, hup⟩ := hline.next_spec hne
    refine ⟨hline', fun hab => ?_, fun hab => ?_⟩
    · rw [hright hab, hwide hab]
      push_cast
      rfl
    · rw [hup hab, hhigh hab]
      push_cast
      rfl

theorem iterate_next_end (ha : 0 ≤ a) (hb : 0 ≤ b) {n : ℕ} (hn : (n : ℤ) = max a b) :
    (next a b)^[n] (0, 0) = (a, b) := by
  obtain ⟨hline, hwide, hhigh⟩ := iterate_next ha hb n hn.le
  rcases le_total b a with hab | hab
  · rw [max_eq_left hab] at hn
    have h1 := (hwide hab).trans hn
    exact Prod.ext h1 (OnLine.up_of_right hline hab h1)
  · rw [max_eq_right hab] at hn
    have h2 := (hhigh hab).trans hn
    exact Prod.ext (OnLine.right_of_up hline hab h2) h2

theorem iterate_next_ne (ha : 0 ≤ a) (hb : 0 ≤ b) {n : ℕ} (hn : (n : ℤ) < max a b) :
    (next a b)^[n] (0, 0) ≠ (a, b) := by
  obtain ⟨-, hwide, hhigh⟩ := iterate_next ha hb n hn.le
  intro he
  rw [he] at hwide hhigh
  dsimp only at hwide hhigh
  omega

end Rounds

end Raster
end ForgottenServer
