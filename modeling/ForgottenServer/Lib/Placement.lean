/-
# Things that lie in places

Every thing has a place or none, and a thing can be a place for others. What
lies in some places, in things that lie there and so on, is inside of them
(`Inside`). A thing that goes from one of the places to another changes nothing
of this; one that leaves, or comes from nowhere, is the only difference where
nothing lies in it.

Key definitions: `Inside`, `Reaches`, `held`.
Key theorems: `Inside.persists`, `Reaches.inside_cons`, `inside_update_some`,
`inside_update_none`, `inside_update_new`, `sum_held_change`, `sum_held_new`.
-/
import Mathlib.Algebra.BigOperators.Group.Finset.Basic
import Mathlib.Logic.Relation
import Mathlib.Tactic.Common

namespace ForgottenServer
namespace Placement

open Relation

variable {α ρ : Type*} {place place' : α → Option ρ} {within : α → ρ} {cs cs' : List ρ} {x y q r : α} {c d : ρ}

/-- The thing lies in one of the places, or in a thing that is inside of them. -/
inductive Inside (place : α → Option ρ) (within : α → ρ) (cs : List ρ) : α → Prop
  | here {x : α} {c : ρ} (hx : place x = some c) (hc : c ∈ cs) : Inside place within cs x
  | deep {x q : α} (hx : place x = some (within q)) (hq : Inside place within cs q) : Inside place within cs x

namespace Inside

theorem mono (h : Inside place within cs x) (hsub : cs ⊆ cs') : Inside place within cs' x := by
  induction h with
  | here hx hc => exact .here hx (hsub hc)
  | deep hx _ ih => exact .deep hx ih

theorem place_ne_none (h : Inside place within cs x) : place x ≠ none := by
  cases h with
  | here hx _ => exact fun e => nomatch hx.symm.trans e
  | deep hx _ => exact fun e => nomatch hx.symm.trans e

/-- What is inside of a thing that is inside is inside. -/
theorem of_cons (hq : Inside place within cs q) (h : Inside place within (within q :: cs) x) :
    Inside place within cs x := by
  induction h with
  | here hx hc =>
    rcases List.mem_cons.1 hc with rfl | hc
    · exact .deep hx hq
    · exact .here hx hc
  | deep hx _ ih => exact .deep hx ih

/-- A thing whose way out does not come by `r` is inside wherever `r` goes. -/
theorem persists (h : Inside place within cs x)
    (hnot : ¬ ReflTransGen (fun x y => place x = some (within y)) x r)
    (hplace : ∀ y, y ≠ r → ∀ e, place y = some e → place' y = some e) : Inside place' within cs x := by
  induction h with
  | @here x c hx hc =>
    have hne : x ≠ r := fun e => hnot (e ▸ .refl)
    exact .here (hplace x hne c hx) hc
  | @deep x q hx _ ih =>
    have hne : x ≠ r := fun e => hnot (e ▸ .refl)
    exact .deep (hplace x hne _ hx) (ih fun hq => hnot (.head hx hq))

end Inside

/-- One of the places, or a thing that is inside of them. -/
def Reaches (place : α → Option ρ) (within : α → ρ) (cs : List ρ) (c : ρ) : Prop :=
  c ∈ cs ∨ ∃ q, c = within q ∧ Inside place within cs q

theorem inside_iff_reaches : Inside place within cs x ↔ ∃ c, place x = some c ∧ Reaches place within cs c := by
  constructor
  · intro h
    cases h with
    | here hx hc => exact ⟨_, hx, .inl hc⟩
    | deep hx hq => exact ⟨_, hx, .inr ⟨_, rfl, hq⟩⟩
  · rintro ⟨c, hx, hc | ⟨q, rfl, hq⟩⟩
    · exact .here hx hc
    · exact .deep hx hq

/-- A place that is reached holds nothing that was not inside. -/
theorem Reaches.inside_cons (h : Reaches place within cs c) :
    Inside place within (c :: cs) x ↔ Inside place within cs x := by
  refine ⟨fun hx => ?_, fun hx => hx.mono (List.subset_cons_self c cs)⟩
  rcases h with hc | ⟨q, rfl, hq⟩
  · exact hx.mono (List.cons_subset.2 ⟨hc, List.Subset.refl cs⟩)
  · exact hq.of_cons hx

section Update

variable [DecidableEq α]

/-- A thing goes from one of the places to another. -/
theorem inside_update_some (hr : place r = some c) (hc : c ∈ cs) (hd : d ∈ cs) :
    Inside (Function.update place r (some d)) within cs x ↔ Inside place within cs x := by
  constructor
  · intro h
    induction h with
    | @here x e hx he =>
      by_cases hxr : x = r
      · exact hxr ▸ .here hr hc
      · rw [Function.update_of_ne hxr] at hx
        exact .here hx he
    | @deep x q hx _ ih =>
      by_cases hxr : x = r
      · exact hxr ▸ .here hr hc
      · rw [Function.update_of_ne hxr] at hx
        exact .deep hx ih
  · intro h
    have hself : Function.update place r (some d) r = some d := Function.update_self ..
    induction h with
    | @here x e hx he =>
      by_cases hxr : x = r
      · exact hxr.symm ▸ .here hself hd
      · exact .here ((Function.update_of_ne hxr ..).trans hx) he
    | @deep x q hx _ ih =>
      by_cases hxr : x = r
      · exact hxr.symm ▸ .here hself hd
      · exact .deep ((Function.update_of_ne hxr ..).trans hx) ih

/-- A thing that nothing lies in is taken away. -/
theorem inside_update_none (hleaf : ∀ x, place x ≠ some (within r)) :
    Inside (Function.update place r none) within cs x ↔ x ≠ r ∧ Inside place within cs x := by
  constructor
  · intro h
    have hne : x ≠ r := by
      rintro rfl
      exact h.place_ne_none (Function.update_self ..)
    refine ⟨hne, ?_⟩
    induction h with
    | here hx he =>
      rw [Function.update_of_ne hne] at hx
      exact .here hx he
    | deep hx hq ih =>
      rw [Function.update_of_ne hne] at hx
      refine .deep hx (ih ?_)
      rintro rfl
      exact hq.place_ne_none (Function.update_self ..)
  · rintro ⟨hne, h⟩
    induction h with
    | here hx he => exact .here ((Function.update_of_ne hne ..).trans hx) he
    | @deep x q hx _ ih =>
      refine .deep ((Function.update_of_ne hne ..).trans hx) (ih ?_)
      rintro rfl
      exact hleaf x hx

/-- A thing that nothing lies in comes from nowhere. -/
theorem inside_update_new (hr : place r = none) (hleaf : ∀ x, place x ≠ some (within r)) (hd : d ∈ cs) :
    Inside (Function.update place r (some d)) within cs x ↔ x = r ∨ Inside place within cs x := by
  constructor
  · intro h
    induction h with
    | @here x e hx he =>
      by_cases hxr : x = r
      · exact .inl hxr
      · rw [Function.update_of_ne hxr] at hx
        exact .inr (.here hx he)
    | @deep x q hx _ ih =>
      by_cases hxr : x = r
      · exact .inl hxr
      · rw [Function.update_of_ne hxr] at hx
        refine .inr (ih.elim ?_ (.deep hx))
        rintro rfl
        exact absurd hx (hleaf x)
  · rintro (rfl | h)
    · exact .here (Function.update_self ..) hd
    · have hne {y : α} {e : ρ} (hy : place y = some e) : y ≠ r := by
        rintro rfl
        exact nomatch hr.symm.trans hy
      induction h with
      | here hx he => exact .here ((Function.update_of_ne (hne hx) ..).trans hx) he
      | deep hx _ ih => exact .deep ((Function.update_of_ne (hne hx) ..).trans hx) ih

end Update

/-! ### Sums over what is inside -/

section Held

variable {M : Type*} [AddCommMonoid M] {S S' : Finset α} {μ μ' : α → M}

open scoped Classical in
/-- What is inside of the places, among `S`. -/
noncomputable def held (S : Finset α) (place : α → Option ρ) (within : α → ρ) (cs : List ρ) : Finset α :=
  S.filter (Inside place within cs)

theorem mem_held : x ∈ held S place within cs ↔ x ∈ S ∧ Inside place within cs x := by
  classical
  unfold held
  rw [Finset.mem_filter]

/-- Where the same things are inside and only one of them is changed, the sum changes with it. -/
theorem sum_held_change (hheld : ∀ x, x ∈ held S' place' within cs' ↔ x ∈ held S place within cs)
    (hr : r ∈ held S place within cs) (hμ : ∀ x, x ≠ r → μ' x = μ x) :
    ∑ x ∈ held S' place' within cs', μ' x + μ r = ∑ x ∈ held S place within cs, μ x + μ' r := by
  classical
  have hrest : ∑ x ∈ (held S place within cs).erase r, μ' x = ∑ x ∈ (held S place within cs).erase r, μ x :=
    Finset.sum_congr rfl fun x hx => hμ x (Finset.ne_of_mem_erase hx)
  rw [Finset.ext hheld, ← Finset.sum_erase_add _ μ' hr, ← Finset.sum_erase_add _ μ hr, hrest, add_assoc,
    add_assoc, add_comm (μ' r)]

/-- One thing more is inside. -/
theorem sum_held_new (hheld : ∀ x, x ∈ held S' place' within cs' ↔ x = r ∨ x ∈ held S place within cs)
    (hr : r ∉ held S place within cs) (hμ : ∀ x, x ≠ r → μ' x = μ x) :
    ∑ x ∈ held S' place' within cs', μ' x = ∑ x ∈ held S place within cs, μ x + μ' r := by
  classical
  have heq : held S' place' within cs' = insert r (held S place within cs) := by
    ext x
    rw [hheld, Finset.mem_insert]
  rw [heq, Finset.sum_insert hr, add_comm]
  congr 1
  refine Finset.sum_congr rfl fun x hx => hμ x ?_
  rintro rfl
  exact hr hx

end Held

end Placement
end ForgottenServer
