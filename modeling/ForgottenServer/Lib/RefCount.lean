/-
# Reference counters

Objects refer to one another (`refs o x` times `o` refers to `x`) and are referred
to from outside (`outside x`). Each object has a counter. `Counted` says that the
counters are the numbers of these references, and that what is referred to is live.

A reference is taken, let go or handed on (`Counted.change`, `Counted.rebalance`);
an object is made (`Counted.alloc`), or buried when its counter is zero
(`Counted.bury`): then the references it had are loose, and whoever buries it has
to let them go.

Key definitions: `Counted`.
Key theorems: `Counted.change`, `Counted.rebalance`, `Counted.alloc`, `Counted.bury`,
`Counted.count_eq_zero_iff`.
-/
import Mathlib.Algebra.BigOperators.Group.Finset.Basic
import Mathlib.Algebra.BigOperators.Intervals
import Mathlib.Algebra.Order.BigOperators.Group.Finset
import Mathlib.Tactic

namespace ForgottenServer
namespace RefCount

variable {ι : Type*}

/-- Every counter is the number of the references there are, and only live objects
are referred to. -/
structure Counted (live : Finset ι) (count : ι → ℕ) (refs : ι → ι → ℕ) (outside : ι → ℕ) : Prop where
  count_eq : ∀ x, count x = outside x + ∑ o ∈ live, refs o x
  live : ∀ x, count x ≠ 0 → x ∈ live

namespace Counted

variable {live : Finset ι} {count count' : ι → ℕ} {refs refs' : ι → ι → ℕ} {outside outside' : ι → ℕ} {o x : ι}

theorem mem_of_outside (h : Counted live count refs outside) (hx : outside x ≠ 0) : x ∈ live := by
  apply h.live
  rw [h.count_eq]
  omega

theorem le_count (h : Counted live count refs outside) (ho : o ∈ live) : outside x + refs o x ≤ count x := by
  rw [h.count_eq]
  exact Nat.add_le_add_left (Finset.single_le_sum (f := (refs · x)) (fun _ _ => Nat.zero_le _) ho) _

theorem mem_of_refs (h : Counted live count refs outside) (ho : o ∈ live) (hx : refs o x ≠ 0) : x ∈ live := by
  apply h.live
  have hle := h.le_count (x := x) ho
  omega

/-- A counter is zero if and only if nobody refers to the object. -/
theorem count_eq_zero_iff (h : Counted live count refs outside) :
    count x = 0 ↔ outside x = 0 ∧ ∀ o ∈ live, refs o x = 0 := by
  rw [h.count_eq, Nat.add_eq_zero_iff, Finset.sum_eq_zero_iff]

/-- Only references from outside change, and the counters with them. -/
theorem rebalance (h : Counted live count refs outside) (hrefs : ∀ y ∈ live, ∀ x, refs' y x = refs y x)
    (hbalance : ∀ x, count' x + outside x = count x + outside' x) (hlive : ∀ x, count' x ≠ 0 → x ∈ live) :
    Counted live count' refs' outside' where
  count_eq x := by
    have hsum : ∑ y ∈ live, refs' y x = ∑ y ∈ live, refs y x := Finset.sum_congr rfl fun y hy => hrefs y hy x
    have hold := h.count_eq x
    rw [hsum]
    have := hbalance x
    omega
  live := hlive

variable [DecidableEq ι]

/-- The references of one object change, and those from outside, and the counters
with them. -/
theorem change (h : Counted live count refs outside) (ho : o ∈ live)
    (hrefs : ∀ y ∈ live, y ≠ o → ∀ x, refs' y x = refs y x)
    (hbalance : ∀ x, count' x + outside x + refs o x = count x + outside' x + refs' o x)
    (hlive : ∀ x, count' x ≠ 0 → x ∈ live) : Counted live count' refs' outside' where
  count_eq x := by
    have hsum : ∑ y ∈ live.erase o, refs' y x = ∑ y ∈ live.erase o, refs y x :=
      Finset.sum_congr rfl fun y hy => hrefs y (Finset.mem_of_mem_erase hy) (Finset.ne_of_mem_erase hy) x
    have hold := h.count_eq x
    rw [← Finset.add_sum_erase live (refs · x) ho] at hold
    rw [← Finset.add_sum_erase live (refs' · x) ho, hsum]
    have := hbalance x
    omega
  live := hlive

/-- A new object refers to nothing. -/
theorem alloc (h : Counted live count refs outside) (hx : x ∉ live) (hnew : ∀ y, refs' x y = 0)
    (hrefs : ∀ o ∈ live, ∀ y, refs' o y = refs o y) (hcount : ∀ y, count' y = count y) :
    Counted (insert x live) count' refs' outside where
  count_eq y := by
    rw [Finset.sum_insert hx, hnew, hcount, h.count_eq, zero_add]
    exact congrArg _ (Finset.sum_congr rfl fun o ho => (hrefs o ho y).symm)
  live y hy := Finset.mem_insert_of_mem (h.live y (by rwa [← hcount y]))

/-- An object nobody refers to goes; its references are left over. -/
theorem bury (h : Counted live count refs outside) (hx : x ∈ live) (hzero : count x = 0)
    (hrefs : ∀ o ∈ live, o ≠ x → ∀ y, refs' o y = refs o y) (hcount : ∀ y, count' y = count y)
    (hout : ∀ y, outside' y = outside y + refs x y) : Counted (live.erase x) count' refs' outside' where
  count_eq y := by
    have hsum : ∑ o ∈ live.erase x, refs' o y = ∑ o ∈ live.erase x, refs o y :=
      Finset.sum_congr rfl fun o ho => hrefs o (Finset.mem_of_mem_erase ho) (Finset.ne_of_mem_erase ho) y
    have hold := h.count_eq y
    rw [← Finset.add_sum_erase live (refs · y) hx] at hold
    rw [hsum, hcount, hout]
    omega
  live y hy := by
    rw [hcount] at hy
    refine Finset.mem_erase_of_ne_of_mem ?_ (h.live y hy)
    rintro rfl
    exact hy hzero

end Counted

end RefCount
end ForgottenServer
