/-
# Totals of contributions

A total that is kept by adding what a source contributes when it is switched
on, and by taking something off when it is switched off, equals the sum over
the sources that are on as long as what is taken off is what was added. For
numbers the sum is the one of a commutative group (`sum_on_insert`,
`sum_on_erase`); for bit masks, where switching on sets bits and switching off
clears them, it is the bitwise or (`orOf_insert`, `orOf_erase_iff`).

Key definitions: `onSum`, `orOf`.
-/
import Mathlib.Algebra.BigOperators.Group.Finset.Basic
import Mathlib.Algebra.BigOperators.Fin
import Mathlib.Data.Fintype.Basic

namespace ForgottenServer
namespace Ledger

variable {ι : Type*}

/-- The wrapping 32-bit integers are a commutative group. -/
scoped instance int32_addCommGroup : AddCommGroup Int32 where
  add_assoc := Int32.add_assoc
  zero_add := Int32.zero_add
  add_zero := Int32.add_zero
  neg_add_cancel := Int32.add_left_neg
  add_comm := Int32.add_comm
  sub_eq_add_neg := Int32.sub_eq_add_neg
  nsmul := nsmulRec
  zsmul := zsmulRec

/-! ### Sums -/

section Sums

variable [Fintype ι] {G : Type*} [AddCommGroup G]

/-- The sum of the contributions of the sources that are on. -/
def onSum (on : ι → Bool) (f : ι → G) : G := ∑ i, if on i then f i else 0

theorem onSum_eq_zero {on : ι → Bool} (h : ∀ i, on i = false) (f : ι → G) : onSum on f = 0 :=
  Finset.sum_eq_zero fun i _ => by rw [h i]; rfl

variable [DecidableEq ι]

theorem onSum_eq_add (on : ι → Bool) (f : ι → G) (i : ι) :
    onSum on f = (if on i then f i else 0) + ∑ j ∈ Finset.univ.erase i, if on j then f j else 0 :=
  (Finset.add_sum_erase _ _ (Finset.mem_univ i)).symm

/-- Away from one source only the others count. -/
theorem onSum_update (on : ι → Bool) (f : ι → G) (i : ι) (b : Bool) (c : G) :
    onSum (Function.update on i b) (Function.update f i c) =
      (if b then c else 0) + ∑ j ∈ Finset.univ.erase i, if on j then f j else 0 := by
  rw [onSum_eq_add _ _ i, Function.update_self, Function.update_self]
  congr 1
  apply Finset.sum_congr rfl
  intro j hj
  have hne : j ≠ i := Finset.ne_of_mem_erase hj
  rw [Function.update_of_ne hne, Function.update_of_ne hne]

/-- A source that is switched on adds its contribution. -/
theorem onSum_insert {on : ι → Bool} {f : ι → G} {i : ι} (h : on i = false) (c : G) :
    onSum (Function.update on i true) (Function.update f i c) = onSum on f + c := by
  rw [onSum_update, onSum_eq_add on f i, h, if_pos rfl, if_neg (by simp), zero_add, add_comm]

/-- The contribution of a source that is off does not count. -/
theorem onSum_off {on : ι → Bool} {i : ι} (h : on i = false) (f : ι → G) (c : G) :
    onSum on (Function.update f i c) = onSum on f := by
  have hu := onSum_update on f i false c
  rw [show Function.update on i false = on from by rw [← h, Function.update_eq_self]] at hu
  rw [hu, onSum_eq_add on f i, h]
  rfl

/-- A source that is switched off takes its contribution with it. -/
theorem onSum_erase {on : ι → Bool} {f : ι → G} {i : ι} (h : on i = true) :
    onSum (Function.update on i false) f = onSum on f - f i := by
  have hu := onSum_update on f i false (f i)
  rw [Function.update_eq_self] at hu
  rw [hu, onSum_eq_add on f i, h, if_pos rfl, if_neg (by simp), zero_add, add_sub_cancel_left]

end Sums

/-! ### Masks -/

section Masks

variable {w : ℕ}

/-- The bitwise or of the masks of the sources that are on. -/
def orOf (sources : List ι) (on : ι → Bool) (mask : ι → BitVec w) : BitVec w :=
  sources.foldr (fun i m => (if on i then mask i else 0#w) ||| m) 0#w

theorem getLsbD_orOf (on : ι → Bool) (mask : ι → BitVec w) (k : ℕ) : ∀ sources : List ι,
    (orOf sources on mask).getLsbD k = sources.any fun i => on i && (mask i).getLsbD k
  | [] => by simp [orOf]
  | i :: sources => by
    have ih := getLsbD_orOf on mask k sources
    unfold orOf at ih ⊢
    rw [List.foldr_cons, BitVec.getLsbD_or, ih, List.any_cons]
    cases on i <;> simp

variable [DecidableEq ι] {sources : List ι} {on : ι → Bool} {mask : ι → BitVec w} {i : ι}

/-- The mask of a source that is off does not count. -/
theorem orOf_off (h : on i = false) (m : BitVec w) :
    orOf sources on (Function.update mask i m) = orOf sources on mask := by
  unfold orOf
  congr 1
  funext j x
  by_cases hji : j = i
  · subst hji
    rw [h, if_neg Bool.false_ne_true, if_neg Bool.false_ne_true]
  · rw [Function.update_of_ne hji]

/-- A source that is switched on sets its bits. -/
theorem orOf_insert (hi : i ∈ sources) (h : on i = false) (m : BitVec w) :
    orOf sources (Function.update on i true) (Function.update mask i m) =
      orOf sources on mask ||| m := by
  apply BitVec.eq_of_getLsbD_eq
  intro k _
  rw [BitVec.getLsbD_or, getLsbD_orOf, getLsbD_orOf, Bool.eq_iff_iff, Bool.or_eq_true,
    List.any_eq_true, List.any_eq_true]
  constructor
  · intro ⟨j, hj, hk⟩
    by_cases hji : j = i
    · subst hji
      rw [Function.update_self, Function.update_self, Bool.true_and] at hk
      exact Or.inr hk
    · rw [Function.update_of_ne hji, Function.update_of_ne hji] at hk
      exact Or.inl ⟨j, hj, hk⟩
  · intro hk
    rcases hk with ⟨j, hj, hk⟩ | hk
    · have hji : j ≠ i := fun e => by subst e; simp [h] at hk
      exact ⟨j, hj, by rwa [Function.update_of_ne hji, Function.update_of_ne hji]⟩
    · exact ⟨i, hi, by rwa [Function.update_self, Function.update_self, Bool.true_and]⟩

variable (mask) in
/-- Clearing the bits of a source that is switched off leaves the or of the
others exactly when none of them has a bit of it. -/
theorem orOf_erase_iff (hi : i ∈ sources) (h : on i = true) :
    orOf sources on mask &&& ~~~ mask i = orOf sources (Function.update on i false) mask ↔
      ∀ j ∈ sources, j ≠ i → on j → mask i &&& mask j = 0#w := by
  constructor
  · intro he j hj hji hon
    apply BitVec.eq_of_getLsbD_eq
    intro k hk
    have hb := congrArg (fun m => m.getLsbD k) he
    simp only [BitVec.getLsbD_and, BitVec.getLsbD_not, getLsbD_orOf, hk, decide_true,
      Bool.true_and] at hb
    rw [BitVec.getLsbD_and, BitVec.getLsbD_zero, Bool.and_eq_false_iff]
    by_contra hc
    simp only [not_or, Bool.not_eq_false] at hc
    rw [hc.1, Bool.not_true, Bool.and_false] at hb
    have hf := List.any_eq_false.1 hb.symm j hj
    simp [Function.update_of_ne hji, hon, hc.2] at hf
  · intro hd
    apply BitVec.eq_of_getLsbD_eq
    intro k hk
    rw [BitVec.getLsbD_and, BitVec.getLsbD_not, getLsbD_orOf, getLsbD_orOf, Bool.eq_iff_iff,
      Bool.and_eq_true, List.any_eq_true, List.any_eq_true]
    constructor
    · intro ⟨⟨j, hj, hjk⟩, hn⟩
      have hji : j ≠ i := fun e => by
        subst e
        rw [(Bool.and_eq_true_iff.1 hjk).2, Bool.not_true, Bool.and_false] at hn
        exact Bool.noConfusion hn
      exact ⟨j, hj, by rwa [Function.update_of_ne hji]⟩
    · intro ⟨j, hj, hjk⟩
      have hji : j ≠ i := fun e => by subst e; simp at hjk
      rw [Function.update_of_ne hji, Bool.and_eq_true] at hjk
      refine ⟨⟨j, hj, by simp [hjk]⟩, ?_⟩
      have hz := congrArg (fun m => m.getLsbD k) (hd j hj hji hjk.1)
      simp only [BitVec.getLsbD_and, BitVec.getLsbD_zero, hjk.2, Bool.and_true] at hz
      rw [hz, decide_eq_true hk]; rfl

end Masks

end Ledger
end ForgottenServer
