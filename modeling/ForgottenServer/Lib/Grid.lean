/-
# Arrays changed in place

Loops that move the entries of an array by one place, and loops that write
cells of a table, in closed form. An array is a function on its indices, a
table a function on rows and columns; what lies outside the loops' bounds stays
as it is.

Key definitions: `shiftDown`, `shiftUp`, `setCell`.
Key theorems: `shiftDown_apply`, `shiftUp_apply`, `foldl_write_of_mem`.
-/
import Mathlib.Logic.Function.Basic
import Mathlib.Data.List.Basic
import Mathlib.Tactic.Common

namespace ForgottenServer
namespace Grid

variable {α : Type*}

/-- `for (i = 0; i < n; ++i) a[i] = a[i + 1]` -/
def shiftDown (n : ℕ) (a : ℕ → α) : ℕ → α :=
  (List.range n).foldl (fun a i => Function.update a i (a (i + 1))) a

/-- `for (i = n; --i >= 0;) a[i + 1] = a[i]` -/
def shiftUp (n : ℕ) (a : ℕ → α) : ℕ → α :=
  (List.range n).reverse.foldl (fun a i => Function.update a (i + 1) (a i)) a

theorem shiftDown_apply (a : ℕ → α) : ∀ (n j : ℕ),
    shiftDown n a j = if j < n then a (j + 1) else a j
  | 0, j => by simp [shiftDown]
  | n + 1, j => by
    have ih := shiftDown_apply a n
    unfold shiftDown at ih ⊢
    rw [List.range_succ, List.foldl_append, List.foldl_cons, List.foldl_nil]
    by_cases hj : j = n
    · subst hj
      rw [Function.update_self, ih, if_neg (by omega), if_pos (by omega)]
    · rw [Function.update_of_ne hj, ih]
      by_cases hlt : j < n
      · rw [if_pos hlt, if_pos (by omega)]
      · rw [if_neg hlt, if_neg (by omega)]

theorem shiftUp_apply (a : ℕ → α) (n j : ℕ) :
    shiftUp n a j = if 0 < j ∧ j ≤ n then a (j - 1) else a j := by
  induction n generalizing a with
  | zero => simp [shiftUp]; omega
  | succ n ih =>
    unfold shiftUp at ih ⊢
    rw [List.range_succ, List.reverse_append, List.reverse_singleton, List.singleton_append,
      List.foldl_cons, ih]
    by_cases hj : 0 < j ∧ j ≤ n
    · rw [if_pos hj, if_pos ⟨hj.1, by omega⟩, Function.update_of_ne (by omega)]
    · rw [if_neg hj]
      by_cases he : j = n + 1
      · subst he
        rw [Function.update_self, if_pos ⟨by omega, Nat.le_refl _⟩, Nat.add_sub_cancel]
      · rw [Function.update_of_ne he, if_neg (by omega)]

/-- `a[y][x] = v` -/
def setCell (a : ℕ → ℕ → α) (y x : ℕ) (v : α) : ℕ → ℕ → α :=
  Function.update a y (Function.update (a y) x v)

theorem setCell_apply (a : ℕ → ℕ → α) (y x : ℕ) (v : α) (r k : ℕ) :
    setCell a y x v r k = if r = y ∧ k = x then v else a r k := by
  unfold setCell
  by_cases hr : r = y
  · subst hr
    rw [Function.update_self]
    by_cases hk : k = x
    · rw [hk, Function.update_self, if_pos ⟨rfl, rfl⟩]
    · rw [Function.update_of_ne hk, if_neg fun h => hk h.2]
  · rw [Function.update_of_ne hr, if_neg fun h => hr h.1]

section Write

variable {β : Type*} (P : β → Prop) [DecidablePred P] (row col : β → ℕ) (v : ℕ → ℕ → α)

/-- A loop that writes into each cell it meets the value that belongs there;
it may skip some of its turns. -/
def write (l : List β) (a : ℕ → ℕ → α) : ℕ → ℕ → α :=
  l.foldl (fun a j => if P j then setCell a (row j) (col j) (v (row j) (col j)) else a) a

theorem write_of_not_mem {r k : ℕ} : ∀ (l : List β) (a : ℕ → ℕ → α),
    (∀ j ∈ l, P j → ¬ (row j = r ∧ col j = k)) → write P row col v l a r k = a r k
  | [], a, _ => rfl
  | j :: l, a, h => by
    have hl := write_of_not_mem l (if P j then setCell a (row j) (col j) (v (row j) (col j)) else a)
      fun i hi => h i (List.mem_cons_of_mem _ hi)
    refine hl.trans ?_
    by_cases hP : P j
    · rw [if_pos hP, setCell_apply, if_neg fun e => h j (List.mem_cons_self ..) hP ⟨e.1.symm, e.2.symm⟩]
    · rw [if_neg hP]

theorem write_of_mem : ∀ (l : List β) (a : ℕ → ℕ → α) {j : β}, j ∈ l → P j →
    write P row col v l a (row j) (col j) = v (row j) (col j)
  | i :: l, a, j, hj, hP => by
    by_cases hlater : ∃ i' ∈ l, P i' ∧ row i' = row j ∧ col i' = col j
    · obtain ⟨i', hi', hP', hr, hc⟩ := hlater
      have hl := write_of_mem l (if P i then setCell a (row i) (col i) (v (row i) (col i)) else a)
        hi' hP'
      rw [hr, hc] at hl
      exact hl
    · -- the first turn is the last that writes this cell
      have he : i = j := by
        rcases List.mem_cons.1 hj with e | e
        · exact e.symm
        · exact absurd ⟨j, e, hP, rfl, rfl⟩ hlater
      subst he
      have hl := write_of_not_mem P row col v l
        (if P i then setCell a (row i) (col i) (v (row i) (col i)) else a)
        (r := row i) (k := col i) fun i' hi' hP' e => hlater ⟨i', hi', hP', e⟩
      refine hl.trans ?_
      rw [if_pos hP, setCell_apply, if_pos ⟨rfl, rfl⟩]

end Write

/-- A loop over rows that changes each of them by itself. -/
theorem foldl_rows (f : (ℕ → α) → ℕ → α) : ∀ (l : List ℕ) (a : ℕ → ℕ → α), l.Nodup → ∀ r,
    l.foldl (fun a y => Function.update a y (f (a y))) a r = if r ∈ l then f (a r) else a r
  | [], a, _, r => by simp
  | y :: l, a, hn, r => by
    rw [List.foldl_cons, foldl_rows f l _ (List.nodup_cons.1 hn).2]
    by_cases hr : r = y
    · subst hr
      rw [if_neg (List.nodup_cons.1 hn).1, Function.update_self, if_pos (List.mem_cons_self ..)]
    · rw [Function.update_of_ne hr]
      simp only [List.mem_cons, hr, false_or]

end Grid
end ForgottenServer
