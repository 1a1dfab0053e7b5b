/-
# Tries of one depth

A trie keeps values at the ends of paths. `Deep n` says that all its values
are at depth `n`. `grow` makes the end of a path, unless there is a value
already, and changes no other path (`find_grow`); `Distinct` says that no two
paths end at one value, which `grow` keeps when its value is new.

Key definitions: `find`, `grow`, `Deep`, `Distinct`.
Key theorems: `find_grow`, `Distinct.grow`.
-/
import Mathlib.Data.List.Basic
import Mathlib.Logic.Function.Basic
import Mathlib.Tactic.Common

namespace ForgottenServer
namespace Tries

inductive Trie (β α : Type*)
  | empty
  | leaf (a : α)
  | node (child : β → Trie β α)

variable {β α : Type*}

/-- The value at the end of a path. -/
def find : Trie β α → List β → Option α
  | .leaf a, _ => some a
  | .node child, b :: l => find (child b) l
  | .node _, [] => none
  | .empty, _ => none

/-- All values are at depth `n`. -/
inductive Deep : ℕ → Trie β α → Prop
  | empty (n : ℕ) : Deep n .empty
  | leaf (a : α) : Deep 0 (.leaf a)
  | node {n : ℕ} {child : β → Trie β α} : (∀ b, Deep n (child b)) → Deep (n + 1) (.node child)

@[simp] theorem find_empty (l : List β) : find (.empty : Trie β α) l = none := by
  cases l <;> rfl

@[simp] theorem find_leaf (a : α) (l : List β) : find (.leaf a : Trie β α) l = some a := by
  cases l <;> rfl

@[simp] theorem find_node (child : β → Trie β α) (b : β) (l : List β) :
    find (.node child) (b :: l) = find (child b) l := rfl

section Grow

variable [DecidableEq β]

/-- The trie with `a` at the end of the path, unless there is a value. -/
def grow : Trie β α → List β → α → Trie β α
  | .leaf a', _, _ => .leaf a'
  | .empty, [], a => .leaf a
  | .empty, b :: l, a => .node (Function.update (fun _ => .empty) b (grow .empty l a))
  | .node child, [], _ => .node child
  | .node child, b :: l, a => .node (Function.update child b (grow (child b) l a))

/-- An inner node without children grows as no node at all. -/
theorem grow_bare (b : β) (l : List β) (a : α) :
    grow (.node fun _ => .empty) (b :: l) a = grow .empty (b :: l) a := rfl

theorem Deep.grow {n : ℕ} {t : Trie β α} {l : List β} (h : Deep n t) (hl : l.length = n) (a : α) :
    Deep n (grow t l a) := by
  subst hl
  induction l generalizing t with
  | nil =>
    cases h with
    | empty => exact .leaf a
    | leaf a' => exact .leaf a'
  | cons b l ih =>
    have hchild : ∀ child : β → Trie β α, (∀ b, Deep l.length (child b)) →
        Deep (l.length + 1) (.node (Function.update child b (Tries.grow (child b) l a))) := by
      intro child hc
      apply Deep.node
      intro b'
      by_cases hb : b' = b
      · rw [hb, Function.update_self]
        exact ih (hc b)
      · rw [Function.update_of_ne hb]
        exact hc b'
    cases h with
    | empty => exact hchild _ fun _ => .empty _
    | node hc => exact hchild _ hc

/-- **Only the end of the path changes**, and only when it had no value. -/
theorem find_grow {n : ℕ} {t : Trie β α} {l l' : List β} (h : Deep n t) (hl : l.length = n)
    (hl' : l'.length = n) (a : α) :
    find (grow t l a) l' = if l' = l then some ((find t l).getD a) else find t l' := by
  subst hl
  induction l generalizing t l' with
  | nil =>
    rw [List.length_eq_zero_iff.1 hl', if_pos rfl]
    cases h with
    | empty => rfl
    | leaf a' => rfl
  | cons b l ih =>
    obtain _ | ⟨b', l'⟩ := l'
    · exact absurd hl' (Nat.succ_ne_zero _).symm
    replace hl' : l'.length = l.length := Nat.succ.inj hl'
    have hchild : ∀ child : β → Trie β α, (∀ b, Deep l.length (child b)) →
        find (Function.update child b (grow (child b) l a) b') l' =
          if b' :: l' = b :: l then some ((find (child b) l).getD a) else find (child b') l' := by
      intro child hc
      by_cases hb : b' = b
      · rw [hb, Function.update_self, ih (hc b) hl']
        simp only [List.cons.injEq, true_and]
      · rw [Function.update_of_ne hb, if_neg fun e => hb (List.cons.inj e).1]
    cases h with
    | empty =>
      have he := hchild _ fun _ => .empty _
      rw [find_empty] at he ⊢
      exact he
    | node hc => exact hchild _ hc

/-- A path that has a value does not grow. -/
theorem grow_of_find {t : Trie β α} {l : List β} {a' : α} (h : find t l = some a') (a : α) :
    grow t l a = t := by
  induction l generalizing t with
  | nil =>
    cases t with
    | empty => nomatch h
    | leaf => rfl
    | node => rfl
  | cons b l ih =>
    cases t with
    | empty => nomatch h
    | leaf => rfl
    | node child =>
      rw [grow, ih h, Function.update_eq_self]

end Grow

/-- No two paths of length `n` end at one value. -/
def Distinct (n : ℕ) (t : Trie β α) : Prop :=
  ∀ l l' a, l.length = n → l'.length = n → find t l = some a → find t l' = some a → l = l'

theorem Distinct.grow [DecidableEq β] {n : ℕ} {t : Trie β α} {l : List β} (h : Distinct n t)
    (hd : Deep n t) (hl : l.length = n) {a : α} (ha : ∀ l', l'.length = n → find t l' ≠ some a) :
    Distinct n (grow t l a) := by
  -- a value of the grown trie is new and at the end of the path, or it was there
  have hcases : ∀ l' a', l'.length = n → find (Tries.grow t l a) l' = some a' →
      l' = l ∧ a' = a ∧ find t l = none ∨ find t l' = some a' := by
    intro l' a' hl' hf
    rw [find_grow hd hl hl'] at hf
    by_cases he : l' = l
    · rw [if_pos he] at hf
      cases hfind : find t l with
      | none =>
        rw [hfind] at hf
        exact .inl ⟨he, (Option.some.inj hf).symm, rfl⟩
      | some b =>
        rw [hfind] at hf
        exact .inr (he ▸ hfind.trans hf)
    · rw [if_neg he] at hf
      exact .inr hf
  intro l₁ l₂ a' h₁ h₂ hf₁ hf₂
  rcases hcases l₁ a' h₁ hf₁ with ⟨e₁, ha', -⟩ | hold₁
  · rcases hcases l₂ a' h₂ hf₂ with ⟨e₂, -, -⟩ | hold₂
    · exact e₁.trans e₂.symm
    · exact absurd (ha' ▸ hold₂) (ha l₂ h₂)
  · rcases hcases l₂ a' h₂ hf₂ with ⟨-, ha', -⟩ | hold₂
    · exact absurd (ha' ▸ hold₁) (ha l₁ h₁)
    · exact h l₁ l₂ a' h₁ h₂ hold₁ hold₂

end Tries
end ForgottenServer
