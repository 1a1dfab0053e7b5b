/-
# A walk through holders, breadth first

Holders stand in a queue. The first is taken, the things it holds are listed, and
those of them that hold something are put at the end.

Where nothing holds itself, the walk comes to all that lies inside the holders of
the queue, to each thing once (`sum_walk`, `walk_coe`), if it may go on for as
many rounds as there are holders and things inside.

Key definition: `walk`.
Key theorems: `sum_walk`, `walk_coe`, `walk_before`.
-/
import ForgottenServer.Lib.Nesting
import Mathlib.Algebra.BigOperators.Group.Finset.Basic
import Mathlib.Algebra.GroupWithZero.Nat
import Mathlib.Algebra.Order.BigOperators.Group.List
import Mathlib.Algebra.Order.Group.Nat

namespace ForgottenServer
namespace BreadthFirst

open Nesting Ancestry Relation

variable {α : Type*} {holder : α → Option α} {S : Finset α} {items : α → List α} {opens : α → Bool}

/-- The things listed for a queue of holders; the first argument bounds the rounds. -/
def walk (items : α → List α) (opens : α → Bool) : ℕ → List α → List α
  | 0, _ => []
  | _, [] => []
  | n + 1, q :: queue => items q ++ walk items opens n (queue ++ (items q).filter opens)

/-- What is not opened adds nothing. -/
theorem sum_filter_opens {M : Type*} [AddCommMonoid M] {l : List α} {f : α → M}
    (h : ∀ x, opens x = false → f x = 0) : ((l.filter opens).map f).sum = (l.map f).sum := by
  induction l with
  | nil => rfl
  | cons x l ih =>
    cases hx : opens x with
    | true => rw [List.filter_cons_of_pos hx, List.map_cons, List.map_cons, List.sum_cons, List.sum_cons, ih]
    | false =>
      rw [List.filter_cons_of_neg (by rw [hx]; exact Bool.false_ne_true), List.map_cons, List.sum_cons, h x hx,
        zero_add, ih]

section Walk

variable {M : Type*} [AddCommMonoid M]

/-- How many rounds are enough for a holder. -/
noncomputable def rounds (S : Finset α) (holder : α → Option α) (q : α) : ℕ := 1 + (inside S holder q).card

theorem sum_rounds (h : Nested S holder) (hmem : ∀ q r, r ∈ items q ↔ holder r = some q)
    (hnodup : ∀ q, (items q).Nodup) (q : α) : ((items q).map (rounds S holder)).sum = (inside S holder q).card := by
  rw [Finset.card_eq_sum_ones, sum_inside h (fun _ => 1) hmem hnodup]
  refine congrArg List.sum (List.map_congr_left fun r _ => ?_)
  unfold rounds
  rw [Finset.card_eq_sum_ones]

theorem sum_inside_of_nil (h : Nested S holder) (hmem : ∀ q r, r ∈ items q ↔ holder r = some q)
    (hnodup : ∀ q, (items q).Nodup) {q : α} (hnil : items q = []) (f : α → M) :
    ∑ x ∈ inside S holder q, f x = 0 := by
  rw [sum_inside h f hmem hnodup, hnil]
  rfl

/-- A round of the walk is one less to go. -/
theorem rounds_next (h : Nested S holder) (hmem : ∀ q r, r ∈ items q ↔ holder r = some q)
    (hnodup : ∀ q, (items q).Nodup) {n : ℕ} {q : α} {queue : List α}
    (hn : ((q :: queue).map (rounds S holder)).sum ≤ n + 1) :
    ((queue ++ (items q).filter opens).map (rounds S holder)).sum ≤ n := by
  have hle : (((items q).filter opens).map (rounds S holder)).sum ≤ ((items q).map (rounds S holder)).sum :=
    (List.filter_sublist.map _).sum_le_sum fun _ _ => Nat.zero_le _
  rw [sum_rounds h hmem hnodup] at hle
  rw [List.map_cons, List.sum_cons] at hn
  unfold rounds at hn hle ⊢
  rw [List.map_append, List.sum_append]
  omega

/-- A sum over the walk is one over all that lies inside the holders of the queue. -/
theorem sum_walk (h : Nested S holder) (hmem : ∀ q r, r ∈ items q ↔ holder r = some q)
    (hnodup : ∀ q, (items q).Nodup) (hopens : ∀ x, opens x = false → items x = []) (f : α → M) :
    ∀ {n : ℕ} {queue : List α}, (queue.map (rounds S holder)).sum ≤ n →
      ((walk items opens n queue).map f).sum = (queue.map fun q => ∑ x ∈ inside S holder q, f x).sum
  | 0, [], _ => rfl
  | 0, q :: queue, hn => by
    rw [List.map_cons, List.sum_cons] at hn
    unfold rounds at hn
    omega
  | _ + 1, [], _ => rfl
  | n + 1, q :: queue, hn => by
    have hzero (x : α) (hx : opens x = false) : ∑ y ∈ inside S holder x, f y = 0 :=
      sum_inside_of_nil h hmem hnodup (hopens x hx) f
    unfold walk
    rw [List.map_append, List.sum_append, sum_walk h hmem hnodup hopens f (rounds_next h hmem hnodup hn), List.map_append, List.sum_append,
      sum_filter_opens hzero, List.map_cons, List.sum_cons, sum_inside h f hmem hnodup q, List.sum_map_add, add_assoc]
    exact congrArg _ (add_comm _ _)

/-- The walk comes to all that lies inside, to each thing once. -/
theorem walk_coe (h : Nested S holder) (hmem : ∀ q r, r ∈ items q ↔ holder r = some q)
    (hnodup : ∀ q, (items q).Nodup) (hopens : ∀ x, opens x = false → items x = []) {n : ℕ} {q : α}
    (hn : (inside S holder q).card < n) : (walk items opens n [q] : Multiset α) = (inside S holder q).val := by
  have hone : ([q].map (rounds S holder)).sum ≤ n := by
    rw [List.map_singleton, List.sum_singleton]
    unfold rounds
    omega
  have hsum := sum_walk h hmem hnodup hopens (fun x => ({x} : Multiset α)) hone
  rw [List.map_singleton, List.sum_singleton, Finset.sum_multiset_singleton] at hsum
  rw [← hsum, ← Multiset.sum_coe, ← Multiset.map_coe, Multiset.sum_map_singleton]

end Walk

/-! ### The order of the walk -/

section Order

variable {a b : List α} {c q x : α}

/-- Something that is listed is held by a holder of the queue, or by one that was listed. -/
theorem walk_holder : ∀ {n : ℕ} {queue a b : List α} {x : α}, walk items opens n queue = a ++ x :: b →
    ∃ y, x ∈ items y ∧ (y ∈ queue ∨ y ∈ a)
  | 0, _, a, b, x, h => by simp [walk] at h
  | _ + 1, [], a, b, x, h => by simp [walk] at h
  | n + 1, q :: queue, a, b, x, h => by
    rw [walk] at h
    rcases List.append_eq_append_iff.1 h with ⟨a', rfl, hwalk⟩ | ⟨b', hitems, hb⟩
    · -- it is listed after the things in the first holder
      obtain ⟨y, hxy, hy⟩ := walk_holder hwalk
      refine ⟨y, hxy, ?_⟩
      rw [List.mem_append, List.mem_filter] at hy
      rw [List.mem_cons, List.mem_append]
      tauto
    · cases b' with
      | nil =>
        -- it is the first of those after them
        rw [List.append_nil] at hitems
        obtain ⟨y, hxy, hy⟩ := walk_holder (a := []) hb.symm
        refine ⟨y, hxy, ?_⟩
        rw [List.mem_append, List.mem_filter, hitems] at hy
        rw [List.mem_cons]
        have hnil : y ∉ ([] : List α) := List.not_mem_nil
        tauto
      | cons z b' =>
        obtain rfl : x = z := (List.cons.inj hb).1
        exact ⟨q, hitems ▸ by simp, .inl List.mem_cons_self⟩

/-- What holds something at any depth, and lies inside itself, is listed before it. -/
theorem walk_before (h : Nested S holder) (hmem : ∀ q r, r ∈ items q ↔ holder r = some q) {n : ℕ}
    (hwalk : walk items opens n [q] = a ++ x :: b) (hx : TransGen (Parent holder) x c)
    (hc : TransGen (Parent holder) c q) : c ∈ a := by
  induction hx using TransGen.head_induction_on generalizing a b with
  | @single x hxc =>
    obtain ⟨y, hxy, hy⟩ := walk_holder hwalk
    obtain rfl : y = c := Option.some.inj (((hmem y x).1 hxy).symm.trans hxc)
    refine hy.resolve_left fun hyq => ?_
    exact h.acyclic q (List.mem_singleton.1 hyq ▸ hc)
  | @head x z hxz hzc ih =>
    obtain ⟨y, hxy, hy⟩ := walk_holder hwalk
    obtain rfl : y = z := Option.some.inj (((hmem y x).1 hxy).symm.trans hxz)
    rcases hy with hyq | hy
    · exact absurd (hc.trans (List.mem_singleton.1 hyq ▸ hzc)) (h.acyclic c)
    · obtain ⟨a₁, a₂, rfl⟩ := List.append_of_mem hy
      rw [List.append_assoc, List.cons_append] at hwalk
      exact List.mem_append_left _ (ih hwalk)

end Order

end BreadthFirst
end ForgottenServer
