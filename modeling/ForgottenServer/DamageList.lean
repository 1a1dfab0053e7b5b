/-
# The damage list of a damage condition

`ConditionDamage::generateDamageList` splits an amount into a list of values from
`start` down to 1. For each value it has a target, the part of the amount that is
due by then, and adds copies of the value as long as the running sum gets nearer to
the target. The body of the loop runs before its test, so each value is there at
least once: the sum cannot be less than `start * (start + 1) / 2`. It is the amount
whenever the amount is at least that much (`exactFill_sum_iff`).

The sums and products have 32 bits and a sign. One that does not fit has no meaning in the
language, and neither has the list then (`none`). For a start up to the amount that is where
`start * amount` does not fit (`fill_eq_exactFill`). Where the source compares
floating point numbers, the quotients are exact here.

Key definitions: `addCopies`, `fill`, `exactFill`, `generateDamageList`, `ConditionDamage.init`.
Key theorems: `exactCopies_spec`, `exactFill_triangle`, `exactFill_sum_iff`, `fill_eq_exactFill`.
-/
import Mathlib.Tactic
import Mathlib.Data.Rat.Floor

namespace ForgottenServer
namespace DamageList

/-! ### The list -/

/-- How far `sum` is from `med`, as a part of `med`: `x2`, and `x1` with another value. -/
def farness (sum med : ℕ) : ℚ := |1 - (sum : ℚ) / med|

theorem farness_lt_iff {sum i med : ℕ} (hi : 0 < i) (hmed : 0 < med) :
    farness (sum + i) med < farness sum med ↔ 2 * sum + i < 2 * med := by
  have hm : (0 : ℚ) < med := by exact_mod_cast hmed
  have hi' : (0 : ℚ) < i := by exact_mod_cast hi
  have e : ∀ n : ℕ, farness n med = |(med : ℚ) - n| / med := fun n => by
    rw [farness, one_sub_div hm.ne', abs_div, abs_of_pos hm]
  rw [e, e, div_lt_div_iff_of_pos_right hm, ← sq_lt_sq]
  push_cast
  constructor
  · intro h
    have h2 : (i : ℚ) * (2 * sum + i) < i * (2 * med) := by linarith [h]
    have h3 : ((2 * sum + i : ℕ) : ℚ) < (2 * med : ℕ) := by
      push_cast
      exact lt_of_mul_lt_mul_left h2 hi'.le
    exact_mod_cast h3
  · intro h
    have h3 : ((2 * sum + i : ℕ) : ℚ) < (2 * med : ℕ) := by exact_mod_cast h
    push_cast at h3
    have h2 := mul_lt_mul_of_pos_left h3 hi'
    linarith

theorem farness_lt {sum i med : ℕ} (h : farness (sum + i) med < farness sum med) :
    0 < i ∧ sum < med := by
  rcases Nat.eq_zero_or_pos i with rfl | hi
  · exact absurd h (lt_irrefl _)
  rcases Nat.eq_zero_or_pos med with rfl | hmed
  · simp [farness] at h
  · have := (farness_lt_iff hi hmed).1 h
    omega

/-- A sum or product of 31 bits, as an `int32_t` that is not negative has them. -/
def Fits (n : ℕ) : Prop := n < 2 ^ 31

instance (n : ℕ) : Decidable (Fits n) := inferInstanceAs (Decidable (n < 2 ^ 31))

/-- The `do` loop: `i` is added, and again as long as that brings the sum nearer to
`med`. Gives the new sum and what has been pushed back. -/
def addCopies (i med sum : ℕ) : Option (ℕ × List ℕ) :=
  if Fits (sum + i) then
    if farness (sum + i + i) med < farness (sum + i) med then
      (addCopies i med (sum + i)).map fun r => (r.1, i :: r.2)
    else some (sum + i, [i])
  else none
termination_by med - sum
decreasing_by
  all_goals
    next h =>
      have := farness_lt h
      omega

/-- The `for` loop from `i` on. -/
def fill (amount start : ℕ) : ℕ → ℕ → Option (List ℕ)
  | 0, _ => some []
  | i + 1, sum =>
    let n := start + 1 - (i + 1)
    if Fits (n * amount) then
      let med := n * amount / start
      (addCopies (i + 1) med sum).bind fun r => (fill amount start i r.1).map (r.2 ++ ·)
    else none

/-- `ConditionDamage::generateDamageList` -/
def generateDamageList (amount start : ℤ) : Option (List ℤ) :=
  (fill amount.natAbs start.toNat start.toNat 0).map (List.map (↑))

/-! ### Numbers without bounds -/

/-- The `do` loop when every sum fits. -/
def exactCopies (i med sum : ℕ) : ℕ × List ℕ :=
  if farness (sum + i + i) med < farness (sum + i) med then
    ((exactCopies i med (sum + i)).1, i :: (exactCopies i med (sum + i)).2)
  else (sum + i, [i])
termination_by med - sum
decreasing_by
  all_goals
    next h =>
      have := farness_lt h
      omega

/-- The `for` loop when everything fits. -/
def exactFill (amount start : ℕ) : ℕ → ℕ → List ℕ
  | 0, _ => []
  | i + 1, sum =>
    let r := exactCopies (i + 1) ((start + 1 - (i + 1)) * amount / start) sum
    r.2 ++ exactFill amount start i r.1

theorem exactCopies_fst (i med sum : ℕ) :
    (exactCopies i med sum).1 = sum + (exactCopies i med sum).2.sum := by
  induction sum using exactCopies.induct i med with
  | case1 sum h ih =>
    rw [exactCopies, if_pos h]
    dsimp only
    rw [ih, List.sum_cons, Nat.add_assoc]
  | case2 sum h =>
    rw [exactCopies, if_neg h]
    exact congrArg (sum + ·) List.sum_singleton.symm

/-- The sums grow, so all of them fit if the last one does. -/
theorem addCopies_eq (i med sum : ℕ) :
    addCopies i med sum =
      if Fits (exactCopies i med sum).1 then some (exactCopies i med sum) else none := by
  induction sum using exactCopies.induct i med with
  | case1 sum h ih =>
    rw [addCopies, exactCopies, if_pos h, if_pos h]
    dsimp only
    have hgrow : sum + i ≤ (exactCopies i med (sum + i)).1 := by
      rw [exactCopies_fst]
      exact Nat.le_add_right _ _
    by_cases hlast : Fits (exactCopies i med (sum + i)).1
    · have hfirst : Fits (sum + i) := hgrow.trans_lt hlast
      rw [if_pos hfirst, if_pos hlast, ih, if_pos hlast]
      rfl
    · rw [if_neg hlast, ih, if_neg hlast]
      exact ite_self none
  | case2 sum h =>
    rw [addCopies, exactCopies, if_neg h, if_neg h]

/-! ### One value -/

/-- The copies of one value: at least one of them, enough to come as near to the
target as copies can, and after the first one no more than that. -/
structure Copies (i med sum k : ℕ) : Prop where
  pos : 1 ≤ k
  enough : 2 * med ≤ 2 * (sum + k * i) + i
  few : k = 1 ∨ 2 * (sum + k * i) < 2 * med + i

theorem exactCopies_spec {i med : ℕ} (hi : 0 < i) (hmed : 0 < med) (sum : ℕ) :
    ∃ k, exactCopies i med sum = (sum + k * i, List.replicate k i) ∧ Copies i med sum k := by
  induction sum using exactCopies.induct i med with
  | case1 sum h ih =>
    obtain ⟨k, he, hpos, henough, hfew⟩ := ih
    have hlt := (farness_lt_iff hi hmed).1 h
    have hk : sum + i + k * i = sum + (k + 1) * i := by ring
    rw [hk] at he henough hfew
    refine ⟨k + 1, ?_, by omega, henough, .inr ?_⟩
    · rw [exactCopies, if_pos h, he]
      rfl
    · rcases hfew with rfl | hfew
      · have : sum + (1 + 1) * i = sum + i + i := by ring
        omega
      · exact hfew
  | case2 sum h =>
    have hle := mt (farness_lt_iff hi hmed).2 h
    refine ⟨1, ?_, le_refl _, by omega, .inl rfl⟩
    rw [exactCopies, if_neg h, one_mul]
    rfl

/-! ### The order of the list -/

/-- The target of a value that is not past `start`. -/
theorem med_pos {amount start i : ℕ} (hi : i + 1 ≤ start) (h : start ≤ amount) :
    0 < (start + 1 - (i + 1)) * amount / start := by
  apply Nat.div_pos _ (by omega)
  calc start ≤ amount := h
    _ = 1 * amount := (one_mul _).symm
    _ ≤ (start + 1 - (i + 1)) * amount := Nat.mul_le_mul_right _ (by omega)

/-- The first values are copies of the one it starts with. -/
theorem exactFill_succ {amount start i : ℕ} (hi : i + 1 ≤ start) (h : start ≤ amount) (sum : ℕ) :
    ∃ k, Copies (i + 1) ((start + 1 - (i + 1)) * amount / start) sum k ∧
      exactFill amount start (i + 1) sum =
        List.replicate k (i + 1) ++ exactFill amount start i (sum + k * (i + 1)) := by
  obtain ⟨k, he, hk⟩ := exactCopies_spec (Nat.succ_pos i) (med_pos hi h) sum
  refine ⟨k, hk, ?_⟩
  rw [exactFill, he]

theorem mem_exactFill {amount start : ℕ} (h : start ≤ amount) {v : ℕ} :
    ∀ {i : ℕ}, i ≤ start → ∀ sum, v ∈ exactFill amount start i sum ↔ 1 ≤ v ∧ v ≤ i
  | 0, _, _ => by simp [exactFill]; omega
  | i + 1, hi, sum => by
    obtain ⟨k, hk, he⟩ := exactFill_succ hi h sum
    have hpos := hk.pos
    rw [he, List.mem_append, List.mem_replicate, mem_exactFill h (by omega)]
    omega

theorem exactFill_pairwise {amount start : ℕ} (h : start ≤ amount) :
    ∀ {i : ℕ}, i ≤ start → ∀ sum, (exactFill amount start i sum).Pairwise (· ≥ ·)
  | 0, _, _ => List.Pairwise.nil
  | i + 1, hi, sum => by
    obtain ⟨k, _, he⟩ := exactFill_succ hi h sum
    rw [he, List.pairwise_append]
    refine ⟨List.pairwise_replicate.2 (.inr (le_refl _)), exactFill_pairwise h (by omega) _, ?_⟩
    intro a ha b hb
    have h1 := (List.mem_replicate.1 ha).2
    have h2 := (mem_exactFill h (by omega) _).1 hb
    show b ≤ a
    omega

theorem head_exactFill {amount start i : ℕ} (hi : i + 1 ≤ start) (h : start ≤ amount) (sum : ℕ) :
    (exactFill amount start (i + 1) sum).head? = some (i + 1) := by
  obtain ⟨k, hk, he⟩ := exactFill_succ hi h sum
  obtain ⟨k, rfl⟩ := Nat.exists_eq_add_of_le hk.pos
  rw [he, Nat.add_comm, List.replicate_succ]
  rfl

theorem getLast_exactFill {amount start : ℕ} (h : start ≤ amount) :
    ∀ {i : ℕ}, i + 1 ≤ start → ∀ sum, (exactFill amount start (i + 1) sum).getLast? = some 1
  | 0, hi, sum => by
    obtain ⟨k, hk, he⟩ := exactFill_succ hi h sum
    obtain ⟨k, rfl⟩ := Nat.exists_eq_add_of_le hk.pos
    rw [he, exactFill, List.append_nil, List.getLast?_replicate, if_neg (by omega)]
  | i + 1, hi, sum => by
    obtain ⟨k, _, he⟩ := exactFill_succ hi h sum
    rw [he, List.getLast?_append, getLast_exactFill h (by omega)]
    rfl

/-! ### The sum of the list -/

/-- `1 + 2 + ... + i` -/
def triangle (i : ℕ) : ℕ := i * (i + 1) / 2

theorem two_mul_triangle (i : ℕ) : 2 * triangle i = i * (i + 1) :=
  Nat.mul_div_cancel' (Nat.even_mul_succ_self i).two_dvd

theorem triangle_succ (i : ℕ) : triangle (i + 1) = triangle i + (i + 1) := by
  have h1 := two_mul_triangle i
  have h2 := two_mul_triangle (i + 1)
  have h3 : (i + 1) * (i + 1 + 1) = i * (i + 1) + 2 * (i + 1) := by ring
  omega

theorem le_triangle (i : ℕ) : i ≤ triangle i := by
  induction i with
  | zero => exact Nat.zero_le _
  | succ i ih =>
    rw [triangle_succ]
    omega

/-- The body of the `do` loop runs at least once. -/
theorem le_sum_exactCopies (i med sum : ℕ) : i ≤ (exactCopies i med sum).2.sum := by
  rw [exactCopies]
  split_ifs
  · exact Nat.le_add_right _ _
  · exact (List.sum_singleton).ge

/-- Each value comes at least once, whatever the targets are. -/
theorem triangle_le_sum (amount start : ℕ) :
    ∀ i sum, triangle i ≤ (exactFill amount start i sum).sum
  | 0, _ => Nat.zero_le _
  | i + 1, sum => by
    rw [exactFill, List.sum_append, triangle_succ, Nat.add_comm]
    exact Nat.add_le_add (le_sum_exactCopies _ _ _) (triangle_le_sum amount start i _)

/-- What is left for the values below `i + 1` when their target is still to come. -/
theorem rest_of_target {amount start i : ℕ} (hi : i + 1 ≤ start) (h : triangle start ≤ amount) :
    2 * ((start + 1 - (i + 1)) * amount / start) + i * (i + 2) ≤ 2 * amount := by
  obtain ⟨j, rfl⟩ := Nat.exists_eq_add_of_le hi
  have hn : i + 1 + j + 1 - (i + 1) = j + 1 := by omega
  rw [hn]
  have hT := two_mul_triangle (i + 1 + j)
  have hdiv := Nat.div_mul_le_self ((j + 1) * amount) (i + 1 + j)
  set q := (j + 1) * amount / (i + 1 + j)
  have hlow : i * (i + 2) ≤ i * (i + 1 + j + 1) := Nat.mul_le_mul_left _ (by omega)
  have hall : i * ((i + 1 + j) * (i + 1 + j + 1)) ≤ i * (2 * amount) :=
    Nat.mul_le_mul_left _ (by omega)
  have key : (2 * q + i * (i + 2)) * (i + 1 + j) ≤ 2 * amount * (i + 1 + j) := by
    calc (2 * q + i * (i + 2)) * (i + 1 + j)
        = 2 * (q * (i + 1 + j)) + i * (i + 2) * (i + 1 + j) := by ring
      _ ≤ 2 * ((j + 1) * amount) + i * (i + 1 + j + 1) * (i + 1 + j) :=
        Nat.add_le_add (Nat.mul_le_mul_left _ hdiv) (Nat.mul_le_mul_right _ hlow)
      _ = 2 * ((j + 1) * amount) + i * ((i + 1 + j) * (i + 1 + j + 1)) := by ring
      _ ≤ 2 * ((j + 1) * amount) + i * (2 * amount) := Nat.add_le_add_left hall _
      _ = 2 * amount * (i + 1 + j) := by ring
  exact Nat.le_of_mul_le_mul_right key (by omega)

/-- The copies of one value leave room for one of each value below. -/
theorem Copies.room {amount start i sum k : ℕ}
    (hk : Copies (i + 1) ((start + 1 - (i + 1)) * amount / start) sum k) (hi : i + 1 ≤ start)
    (h : triangle start ≤ amount) (hroom : sum + triangle (i + 1) ≤ amount) :
    sum + k * (i + 1) + triangle i ≤ amount := by
  rcases hk.few with rfl | hfew
  · rw [triangle_succ] at hroom
    omega
  · have hrest := rest_of_target hi h
    have hT := two_mul_triangle i
    have e : i * (i + 2) = i * (i + 1) + i := by ring
    omega

/-- As long as one of each value has room, the sum comes to the amount. -/
theorem exactFill_triangle {amount start : ℕ} (h : triangle start ≤ amount) (hs : start ≤ amount) :
    ∀ {i : ℕ}, i + 1 ≤ start → ∀ sum, sum + triangle (i + 1) ≤ amount →
      sum + (exactFill amount start (i + 1) sum).sum = amount
  | 0, hi, sum, hroom => by
    obtain ⟨k, hk, he⟩ := exactFill_succ hi hs sum
    have hle := hk.room hi h hroom
    have henough := hk.enough
    have hmed : (start + 1 - (0 + 1)) * amount / start = amount := by
      rw [Nat.zero_add, Nat.add_sub_cancel]
      exact Nat.mul_div_cancel_left _ (by omega)
    rw [hmed] at henough
    rw [he, exactFill, List.append_nil, List.sum_replicate, smul_eq_mul]
    omega
  | i + 1, hi, sum, hroom => by
    obtain ⟨k, hk, he⟩ := exactFill_succ hi hs sum
    have ih := exactFill_triangle h hs (by omega) _ (hk.room hi h hroom)
    rw [he, List.sum_append, List.sum_replicate, smul_eq_mul]
    omega

/-- The sum of the list is the amount if and only if one of each value fits. -/
theorem exactFill_sum_iff {amount start : ℕ} (h1 : 1 ≤ start) :
    (exactFill amount start start 0).sum = amount ↔ triangle start ≤ amount := by
  constructor
  · intro h
    rw [← h]
    exact triangle_le_sum amount start start 0
  · intro h
    have hs := (le_triangle start).trans h
    obtain ⟨i, rfl⟩ := Nat.exists_eq_add_of_le' h1
    have := exactFill_triangle h hs (le_refl _) 0 (by omega)
    omega

/-! ### What fits -/

/-- The copies of one value leave room in the product for one of each value below. -/
theorem Copies.room_mul {amount start i sum k : ℕ}
    (hk : Copies (i + 1) ((start + 1 - (i + 1)) * amount / start) sum k) (hi : i + 1 ≤ start)
    (hs : start ≤ amount) (hroom : sum + triangle (i + 1) ≤ start * amount) :
    sum + k * (i + 1) + triangle i ≤ start * amount := by
  rcases hk.few with rfl | hfew
  · rw [triangle_succ] at hroom
    omega
  obtain ⟨j, rfl⟩ := Nat.exists_eq_add_of_le hi
  have hn : i + 1 + j + 1 - (i + 1) = j + 1 := by omega
  rw [hn] at hfew
  have hmed : (j + 1) * amount / (i + 1 + j) ≤ amount := by
    apply Nat.div_le_of_le_mul
    exact Nat.mul_le_mul_right _ (by omega)
  have hT := two_mul_triangle i
  have hlow : i * (i + 2) ≤ 2 * ((i + j) * amount) := by
    calc i * (i + 2) ≤ i * (2 * (i + 1)) := Nat.mul_le_mul_left _ (by omega)
      _ = 2 * (i * (i + 1)) := by ring
      _ ≤ 2 * ((i + j) * amount) := Nat.mul_le_mul_left _ (Nat.mul_le_mul (by omega) (by omega))
  have hall : (i + 1 + j) * amount = amount + (i + j) * amount := by ring
  have hsquare : i * (i + 2) = i * (i + 1) + i := by ring
  omega

/-- No sum is more than the product. -/
theorem exactFill_sum_le {amount start : ℕ} (hs : start ≤ amount) :
    ∀ {i : ℕ}, i ≤ start → ∀ {sum : ℕ}, sum + triangle i ≤ start * amount →
      sum + (exactFill amount start i sum).sum ≤ start * amount
  | 0, _, sum, hroom => hroom
  | i + 1, hi, sum, hroom => by
    obtain ⟨k, hk, he⟩ := exactFill_succ hi hs sum
    have ih := exactFill_sum_le hs (by omega) (hk.room_mul hi hs hroom)
    rw [he, List.sum_append, List.sum_replicate, smul_eq_mul]
    omega

/-- With products that fit, the list has a meaning if the last sum fits. -/
theorem fill_eq {amount start : ℕ} (hfits : Fits (start * amount)) :
    ∀ {i : ℕ}, i ≤ start → ∀ {sum : ℕ}, Fits sum →
      fill amount start i sum =
        if Fits (sum + (exactFill amount start i sum).sum) then some (exactFill amount start i sum) else none
  | 0, _, sum, hsum => by
    rw [fill, exactFill, List.sum_nil, Nat.add_zero, if_pos hsum]
  | i + 1, hi, sum, hsum => by
    have hproduct : Fits ((start + 1 - (i + 1)) * amount) :=
      (Nat.mul_le_mul_right amount (by omega : start + 1 - (i + 1) ≤ start)).trans_lt hfits
    rw [fill, exactFill]
    dsimp only
    rw [if_pos hproduct, addCopies_eq]
    generalize hr : exactCopies (i + 1) ((start + 1 - (i + 1)) * amount / start) sum = r
    have hfst : r.1 = sum + r.2.sum := by
      rw [← hr]
      exact exactCopies_fst _ _ _
    have hsplit : sum + (r.2 ++ exactFill amount start i r.1).sum =
        r.1 + (exactFill amount start i r.1).sum := by
      rw [List.sum_append, hfst, Nat.add_assoc]
    rw [hsplit]
    by_cases hcopies : Fits r.1
    · rw [if_pos hcopies, Option.bind_some, fill_eq hfits (by omega) hcopies]
      split_ifs
      · rfl
      · rfl
    · have hlast : ¬ Fits (r.1 + (exactFill amount start i r.1).sum) := fun h =>
        hcopies ((Nat.le_add_right _ _).trans_lt h)
      rw [if_neg hcopies, if_neg hlast]
      rfl

/-- The product for the value 1 is computed whatever the other values come to. -/
theorem fill_of_not_fits {amount start : ℕ} (hfits : ¬ Fits (start * amount)) :
    ∀ {i : ℕ}, i + 1 ≤ start → ∀ sum, fill amount start (i + 1) sum = none
  | 0, _, sum => by
    rw [fill]
    exact if_neg hfits
  | i + 1, hi, sum => by
    rw [fill]
    dsimp only
    split
    · cases hcopies : addCopies (i + 1 + 1) ((start + 1 - (i + 1 + 1)) * amount / start) sum with
      | none => rfl
      | some r =>
        rw [Option.bind_some, fill_of_not_fits hfits (by omega) r.1]
        rfl
    · rfl

/-- For a start up to the amount, everything fits if their product does. -/
theorem fill_eq_exactFill {amount start : ℕ} (h1 : 1 ≤ start) (hs : start ≤ amount) :
    fill amount start start 0 =
      if Fits (start * amount) then some (exactFill amount start start 0) else none := by
  by_cases hfits : Fits (start * amount)
  · have htriangle : 0 + triangle start ≤ start * amount := by
      have hT := two_mul_triangle start
      have hmul : start * (start + 1) ≤ start * (2 * amount) := Nat.mul_le_mul_left _ (by omega)
      have hcomm : start * (2 * amount) = 2 * (start * amount) := by ring
      omega
    have hlast : Fits (0 + (exactFill amount start start 0).sum) :=
      (exactFill_sum_le hs le_rfl htriangle).trans_lt hfits
    rw [fill_eq hfits le_rfl (by decide), if_pos hlast, if_pos hfits]
  · obtain ⟨i, rfl⟩ := Nat.exists_eq_add_of_le' h1
    rw [fill_of_not_fits hfits le_rfl, if_neg hfits]

/-- The list of the source when everything fits. -/
def exactList (amount start : ℤ) : List ℤ := (exactFill amount.natAbs start.toNat start.toNat 0).map (↑)

theorem generateDamageList_eq {amount start : ℤ} (h1 : 1 ≤ start) (hs : start ≤ amount) :
    generateDamageList amount start =
      if start * amount < 2 ^ 31 then some (exactList amount start) else none := by
  obtain ⟨a, rfl⟩ := Int.eq_ofNat_of_zero_le (zero_le_one.trans (h1.trans hs))
  obtain ⟨s, rfl⟩ := Int.eq_ofNat_of_zero_le (zero_le_one.trans h1)
  have hfits : Fits (s * a) ↔ (s : ℤ) * a < 2 ^ 31 := by
    unfold Fits
    exact_mod_cast Iff.rfl
  unfold generateDamageList exactList
  rw [Int.natAbs_natCast, Int.toNat_natCast, fill_eq_exactFill (by omega) (by omega)]
  by_cases h : Fits (s * a)
  · rw [if_pos h, if_pos (hfits.1 h)]
    rfl
  · rw [if_neg h, if_neg (mt hfits.2 h)]
    rfl

theorem exactList_sum_iff {amount start : ℤ} (ha : 0 ≤ amount) (h1 : 1 ≤ start) :
    (exactList amount start).sum = amount ↔ start * (start + 1) / 2 ≤ amount := by
  obtain ⟨a, rfl⟩ := Int.eq_ofNat_of_zero_le ha
  obtain ⟨s, rfl⟩ := Int.eq_ofNat_of_zero_le (zero_le_one.trans h1)
  have hT : (s : ℤ) * (s + 1) / 2 = (triangle s : ℕ) := by
    unfold triangle
    push_cast
    rfl
  unfold exactList
  rw [Int.natAbs_natCast, Int.toNat_natCast, hT, ← Nat.cast_list_sum, Nat.cast_inj, Nat.cast_le]
  exact exactFill_sum_iff (by omega)

/-- A list that has a meaning is that of numbers without bounds. -/
theorem eq_exactList {amount start : ℤ} (ha : 0 ≤ amount) (h1 : 1 ≤ start) {list : List ℤ}
    (h : generateDamageList amount start = some list) : start * amount < 2 ^ 31 ∧ list = exactList amount start := by
  obtain ⟨a, rfl⟩ := Int.eq_ofNat_of_zero_le ha
  obtain ⟨s, rfl⟩ := Int.eq_ofNat_of_zero_le (zero_le_one.trans h1)
  unfold generateDamageList at h
  rw [Int.natAbs_natCast, Int.toNat_natCast] at h
  by_cases hfits : Fits (s * a)
  · rw [fill_eq hfits le_rfl (by decide)] at h
    split at h
    · obtain rfl : exactList a s = list := by simpa [exactList] using h
      exact ⟨by exact_mod_cast hfits, rfl⟩
    · exact nomatch h
  · obtain ⟨i, rfl⟩ : ∃ i, s = i + 1 := Nat.exists_eq_add_of_le' (by omega)
    rw [fill_of_not_fits hfits le_rfl] at h
    exact nomatch h

/-- The sum of the list is the amount if and only if one of each value fits into it, and the product
into 32 bits. -/
theorem sum_generateDamageList_iff {amount start : ℤ} (ha : 0 ≤ amount) (h1 : 1 ≤ start) :
    (∃ list, generateDamageList amount start = some list ∧ list.sum = amount) ↔
      start * (start + 1) / 2 ≤ amount ∧ start * amount < 2 ^ 31 := by
  rw [← exactList_sum_iff ha h1]
  constructor
  · rintro ⟨list, hlist, htotal⟩
    obtain ⟨hproduct, rfl⟩ := eq_exactList ha h1 hlist
    exact ⟨htotal, hproduct⟩
  · rintro ⟨htotal, hproduct⟩
    have hle : start * (start + 1) / 2 ≤ amount := (exactList_sum_iff ha h1).1 htotal
    have hs : start ≤ amount := by
      have hmul : start * 2 ≤ start * (start + 1) := mul_le_mul_of_nonneg_left (by omega) (by omega)
      omega
    refine ⟨exactList amount start, ?_, htotal⟩
    rw [generateDamageList_eq h1 hs, if_pos hproduct]

/-- The order of the list. -/
theorem exactList_order {amount start : ℤ} (h1 : 1 ≤ start) (hs : start ≤ amount) :
    (exactList amount start).Pairwise (· ≥ ·) ∧
      (exactList amount start).head? = some start ∧
      (exactList amount start).getLast? = some 1 ∧
      ∀ v, v ∈ exactList amount start ↔ 1 ≤ v ∧ v ≤ start := by
  obtain ⟨a, rfl⟩ := Int.eq_ofNat_of_zero_le (zero_le_one.trans (h1.trans hs))
  obtain ⟨s, rfl⟩ := Int.eq_ofNat_of_zero_le (zero_le_one.trans h1)
  have hle : s ≤ a := by omega
  unfold exactList
  rw [Int.natAbs_natCast, Int.toNat_natCast]
  obtain ⟨i, rfl⟩ := Nat.exists_eq_add_of_le' (show 1 ≤ s by omega)
  refine ⟨?_, ?_, ?_, fun v => ?_⟩
  · rw [List.pairwise_map]
    exact (exactFill_pairwise hle (le_refl _) 0).imp fun h => Nat.cast_le.2 h
  · rw [List.head?_map, head_exactFill (le_refl _) hle]
    rfl
  · rw [List.getLast?_map, getLast_exactFill hle (le_refl _)]
    rfl
  · rw [List.mem_map]
    constructor
    · rintro ⟨w, hw, rfl⟩
      have := (mem_exactFill hle (le_refl _) 0).1 hw
      omega
    · intro hv
      refine ⟨v.toNat, (mem_exactFill hle (le_refl _) 0).2 (by omega), by omega⟩

/-! ### The condition -/

/-- `IntervalInfo` -/
structure IntervalInfo where
  timeLeft : ℤ
  value : ℤ
  interval : ℤ
  deriving DecidableEq, Repr

/-- The members of `ConditionDamage` that `init` reads. The three bounds come from
`std::abs`; `ticks` is counted without bounds. -/
structure ConditionDamage where
  periodDamage : ℤ := 0
  minDamage : ℕ := 0
  maxDamage : ℕ := 0
  startDamage : ℕ := 0
  tickInterval : ℤ := 2000
  ticks : ℤ := 0
  damageList : List IntervalInfo := []
  deriving DecidableEq, Repr

namespace ConditionDamage

/-- `EVENT_CREATURE_THINK_INTERVAL` -/
def thinkInterval : ℤ := 1000

/-- `addDamage` with one round -/
def addDamage (c : ConditionDamage) (time value : ℤ) : ConditionDamage :=
  let time := max time thinkInterval
  if 0 < c.periodDamage then c
  else
    { c with
      damageList := c.damageList ++ [⟨time, value, time⟩]
      ticks := if c.ticks ≠ -1 then c.ticks + time else c.ticks }

/-- What `init` makes of `startDamage`, which its list starts with. -/
def startUsed (c : ConditionDamage) (amount : ℤ) : ℕ :=
  if c.maxDamage < c.startDamage then c.maxDamage
  else if c.startDamage = 0 then (max 1 ⌈(amount : ℚ) / 20⌉).toNat
  else c.startDamage

/-- `ConditionDamage::init`; `amount` is what `uniform_random` gives. -/
def init (c : ConditionDamage) (amount : ℤ) : Option (Bool × ConditionDamage) :=
  if c.periodDamage ≠ 0 then some (true, c)
  else if c.damageList ≠ [] then some (true, c)
  else
    let c := { c with ticks := 0 }
    if amount ≠ 0 then
      let c := { c with startDamage := c.startUsed amount }
      (generateDamageList amount c.startDamage).map fun list =>
        let c := list.foldl (fun c value => c.addDamage c.tickInterval (-value)) c
        (!c.damageList.isEmpty, c)
    else some (!c.damageList.isEmpty, c)

/-- The damage the condition is going to do. -/
def total (c : ConditionDamage) : ℤ := -(c.damageList.map IntervalInfo.value).sum

theorem foldl_addDamage (l : List ℤ) : ∀ {c : ConditionDamage}, c.periodDamage = 0 →
    (l.foldl (fun c value => c.addDamage c.tickInterval (-value)) c).total = c.total + l.sum := by
  induction l with
  | nil => intro c _; exact (add_zero _).symm
  | cons v l ih =>
    intro c hc
    have hstep : c.addDamage c.tickInterval (-v) = { c with
        damageList := c.damageList ++
          [⟨max c.tickInterval thinkInterval, -v, max c.tickInterval thinkInterval⟩]
        ticks := if c.ticks ≠ -1 then c.ticks + max c.tickInterval thinkInterval else c.ticks } :=
      if_neg (by rw [hc]; exact lt_irrefl _)
    rw [List.foldl_cons, ih (by rw [hstep]; exact hc), hstep]
    simp [total]
    ring

/-- What `init` makes of a condition without damage. -/
theorem total_init {c : ConditionDamage} (hp : c.periodDamage = 0) (hl : c.damageList = [])
    {amount : ℤ} (ha : amount ≠ 0) :
    (c.init amount).map (fun r => r.2.total) =
      (generateDamageList amount (c.startUsed amount)).map List.sum := by
  have h0 : ({ c with ticks := 0, startDamage := c.startUsed amount } : ConditionDamage).total = 0 := by
    simp [total, hl]
  rw [init, if_neg (not_not.2 hp), if_neg (not_not.2 hl)]
  dsimp only
  rw [if_pos ha, Option.map_map]
  refine congrArg (Option.map · _) (funext fun list => ?_)
  refine (foldl_addDamage list (by exact hp)).trans ?_
  exact (congrArg (· + _) h0).trans (zero_add _)

theorem total_init_iff {c : ConditionDamage} (hp : c.periodDamage = 0) (hl : c.damageList = [])
    {amount : ℤ} (ha : 1 ≤ amount) :
    (∃ r, c.init amount = some r ∧ r.2.total = amount) ↔ 1 ≤ c.startUsed amount ∧
      (c.startUsed amount : ℤ) * (c.startUsed amount + 1) / 2 ≤ amount ∧ c.startUsed amount * amount < 2 ^ 31 := by
  have hlist : (∃ r, c.init amount = some r ∧ r.2.total = amount) ↔
      ∃ list, generateDamageList amount (c.startUsed amount) = some list ∧ list.sum = amount := by
    rw [← Option.map_eq_some_iff, ← Option.map_eq_some_iff, total_init hp hl (by omega)]
  rw [hlist]
  rcases Nat.eq_zero_or_pos (c.startUsed amount) with h0 | hpos
  · rw [h0]
    refine iff_of_false ?_ fun h => Nat.not_succ_le_zero 0 h.1
    rintro ⟨list, hempty, htotal⟩
    obtain rfl : [] = list := Option.some.inj hempty
    rw [List.sum_nil] at htotal
    omega
  · rw [sum_generateDamageList_iff (by omega) (by omega)]
    exact (and_iff_right hpos).symm

end ConditionDamage

/-- **What the list deals.** It goes from `start` down to 1 with every value in
between, and its sum is the amount if and only if one of each value fits. `init`
then deals the amount it has rolled if and only if the start it uses fits. -/
theorem generateDamageList_deals (amount start : ℤ) (h1 : 1 ≤ start) (hs : start ≤ amount)
    (hfits : start * amount < 2 ^ 31) (c : ConditionDamage) (hp : c.periodDamage = 0) (hl : c.damageList = [])
    (rolled : ℤ) (hr : 1 ≤ rolled) :
    (∃ list, generateDamageList amount start = some list ∧ list.Pairwise (· ≥ ·) ∧
      list.head? = some start ∧ list.getLast? = some 1 ∧ (∀ v, v ∈ list ↔ 1 ≤ v ∧ v ≤ start) ∧
      (list.sum = amount ↔ start * (start + 1) / 2 ≤ amount)) ∧
    ((∃ r, c.init rolled = some r ∧ r.2.total = rolled) ↔ 1 ≤ c.startUsed rolled ∧
      (c.startUsed rolled : ℤ) * (c.startUsed rolled + 1) / 2 ≤ rolled ∧ c.startUsed rolled * rolled < 2 ^ 31) := by
  obtain ⟨hsort, hhead, hlast, hmem⟩ := exactList_order h1 hs
  refine ⟨⟨exactList amount start, ?_, hsort, hhead, hlast, hmem, exactList_sum_iff (by omega) h1⟩,
    ConditionDamage.total_init_iff hp hl hr⟩
  rw [generateDamageList_eq h1 hs, if_pos hfits]

/-- 100 points in a list that starts with 5, and in a condition that rolls them. -/
theorem generateDamageList_deals_hundred :
    (∃ list, generateDamageList 100 5 = some list ∧ list.sum = 100) ∧
      ∃ r, ConditionDamage.init { minDamage := 100, maxDamage := 100 } 100 = some r ∧ r.2.total = 100 := by
  have h := generateDamageList_deals 100 5 (by decide) (by decide) (by decide)
    { minDamage := 100, maxDamage := 100 } rfl rfl 100 (by decide)
  have hs : ConditionDamage.startUsed { minDamage := 100, maxDamage := 100 } 100 = 5 := by
    unfold ConditionDamage.startUsed
    norm_num
    rfl
  rw [hs] at h
  obtain ⟨⟨list, hlist, -, -, -, -, hsum⟩, hinit⟩ := h
  exact ⟨⟨list, hlist, hsum.2 (by decide)⟩, hinit.2 (by decide)⟩

/-- Two points in a list that starts with 2 are three, and 2200000 points in one that starts
with 1000 overflow. -/
theorem generateDamageList_two_two :
    (generateDamageList 2 2 = some [2, 1] ∧ ([2, 1] : List ℤ).sum ≠ 2) ∧
      generateDamageList 2200000 1000 = none := by
  have e2 : addCopies 2 1 0 = some (2, [2]) := by
    rw [addCopies, if_pos (by decide), if_neg (by rw [farness_lt_iff] <;> decide)]
  have e1 : addCopies 1 2 2 = some (3, [1]) := by
    rw [addCopies, if_pos (by decide), if_neg (by rw [farness_lt_iff] <;> decide)]
  have h1 : fill 2 2 1 2 = some [1] := by
    rw [fill]
    show (addCopies 1 2 2).bind _ = _
    rw [e1]
    rfl
  have h2 : fill 2 2 2 0 = some [2, 1] := by
    rw [fill]
    show (addCopies 2 1 0).bind _ = _
    rw [e2, Option.bind_some, h1]
    rfl
  refine ⟨⟨?_, by decide⟩, ?_⟩
  · show (fill 2 2 2 0).map _ = _
    rw [h2]
    rfl
  · rw [generateDamageList_eq (by decide) (by decide), if_neg (by decide)]

end DamageList
end ForgottenServer
