/-
# Recursion to a depth

A function that calls itself with no measure is run to a depth: a call below it
gives `Stop.depth`, and a call that cannot go on `Stop.fault`. The recursion
comes to an end where the result is the same from some depth on and the depth
does not stop it (`Settles`).

Where the calls go along the edges of a finite graph, there is an end of them
just where no way from the first node comes to a node that lies on a cycle
(`acc_iff_acyclic`).

Key definitions: `Stop`, `Settles`, `Acyclic`.
Key theorems: `Settles.bind`, `acc_iff_acyclic`.
-/
import Mathlib.Data.Fintype.Order
import Mathlib.Logic.Relation
import Mathlib.Order.WellFounded
import Mathlib.Tactic.Common

namespace ForgottenServer
namespace Depth

/-- Why a call has no result: it cannot go on, or the depth is used up. -/
inductive Stop
  | fault | depth
  deriving DecidableEq, Repr

/-! ### Calls that come to an end -/

section Settles

variable {α β : Type} {P : α → Prop} {Q : β → Prop} {a : α}

/-- From some depth on the result is the same, a fault or a value with the property. -/
def Settles (f : ℕ → Except Stop α) (P : α → Prop) : Prop :=
  ∃ n r, (∀ m, n ≤ m → f m = r) ∧ r ≠ .error .depth ∧ ∀ a, r = .ok a → P a

theorem Settles.ok (h : P a) : Settles (fun _ => .ok a) P := by
  refine ⟨0, .ok a, fun _ _ => rfl, nofun, ?_⟩
  rintro b ⟨⟩
  exact h

theorem Settles.fault : Settles (fun _ => .error .fault) P :=
  ⟨0, .error .fault, fun _ _ => rfl, nofun, nofun⟩

/-- One call after the other. -/
theorem Settles.bind {f : ℕ → Except Stop α} {g : α → ℕ → Except Stop β} (hf : Settles f P)
    (hg : ∀ a, P a → Settles (g a) Q) : Settles (fun n => f n >>= fun a => g a n) Q := by
  obtain ⟨n, r, hr, hne, hval⟩ := hf
  cases r with
  | error e =>
    refine ⟨n, .error e, fun m hm => ?_, fun he => hne (congrArg _ (Except.error.inj he)), nofun⟩
    show f m >>= _ = _
    rw [hr m hm]
    rfl
  | ok a =>
    obtain ⟨k, r', hr', hne', hval'⟩ := hg a (hval a rfl)
    refine ⟨max n k, r', fun m hm => ?_, hne', hval'⟩
    show f m >>= _ = _
    rw [hr m (le_trans (le_max_left n k) hm)]
    exact hr' m (le_trans (le_max_right n k) hm)

/-- A call made one level deeper. -/
theorem Settles.of_succ {f : ℕ → Except Stop α} (h : Settles (fun n => f (n + 1)) P) : Settles f P := by
  obtain ⟨n, r, hr, hne, hval⟩ := h
  refine ⟨n + 1, r, fun m hm => ?_, hne, hval⟩
  obtain ⟨k, rfl⟩ := Nat.exists_eq_add_of_le' hm
  exact hr (k + n) (Nat.le_add_left n k)

theorem Settles.ends {f : ℕ → Except Stop α} (h : Settles f P) : ∃ n, f n ≠ .error .depth := by
  obtain ⟨n, r, hr, hne, -⟩ := h
  exact ⟨n, hr n le_rfl ▸ hne⟩

end Settles

/-! ### Graphs without a way back -/

section Acyclic

variable {α : Type*} {r : α → α → Prop} {a : α}

open Relation

/-- No way from the node comes to a node that lies on a cycle. -/
def Acyclic (r : α → α → Prop) (a : α) : Prop := ∀ b, ReflTransGen r a b → ¬ TransGen r b b

theorem not_transGen_of_acc (h : Acc (fun b a => r a b) a) : ¬ TransGen r a a := by
  induction h with
  | intro a _ ih =>
    intro hcycle
    obtain ⟨b, hab, hba⟩ := TransGen.head'_iff.1 hcycle
    exact ih b hab (TransGen.tail' hba hab)

theorem acc_of_reflTransGen {b : α} (h : Acc (fun b a => r a b) a) (hab : ReflTransGen r a b) :
    Acc (fun b a => r a b) b := by
  induction hab with
  | refl => exact h
  | tail _ hbc ih => exact ih.inv hbc

/-- On a finite graph the ways from a node end just where none of them comes to
a cycle. -/
theorem acc_iff_acyclic [Finite α] : Acc (fun b a => r a b) a ↔ Acyclic r a := by
  constructor
  · intro h b hab
    exact not_transGen_of_acc (acc_of_reflTransGen h hab)
  · intro h
    -- on the nodes that are reached, being reached from one another is an order
    let after (c b : α) : Prop := ReflTransGen r a b ∧ TransGen r b c
    have htrans : IsTrans α after := ⟨fun c d e hcd hde => ⟨hde.1, hde.2.trans hcd.2⟩⟩
    have hirrefl : Std.Irrefl after := ⟨fun b hb => h b hb.1 hb.2⟩
    have hwf : WellFounded after := Finite.wellFounded_of_trans_of_irrefl after
    suffices hall : ∀ b, ReflTransGen r a b → Acc (fun c b => r b c) b from hall a .refl
    intro b
    induction b using hwf.induction with
    | _ b ih =>
      intro hab
      exact ⟨b, fun c hbc => ih c ⟨hab, .single hbc⟩ (hab.tail hbc)⟩

end Acyclic

end Depth
end ForgottenServer
