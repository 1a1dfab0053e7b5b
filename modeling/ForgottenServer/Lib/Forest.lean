/-
# Ordered forests

A forest is a list of trees, each a label and the forest of its children; it
is kept as its first root, that root's children and its siblings, so that one
structural recursion goes down and along.

Key definitions: `Forest`, `Forest.append`, `Forest.map`, `Forest.prune`,
`Forest.All`, `Forest.Rel`, `Forest.depth`, `Forest.size`.
Key theorems: `Forest.rel_map`, `Forest.append_assoc`.
-/
import Mathlib.Tactic

inductive Forest (α : Type*)
  | nil
  | cons (a : α) (children siblings : Forest α)
  deriving DecidableEq, Repr

namespace Forest

variable {α β : Type*}

/-- The trees of one forest before those of another. -/
def append : Forest α → Forest α → Forest α
  | nil, g => g
  | cons a c s, g => cons a c (append s g)

instance : Append (Forest α) := ⟨append⟩

/-- The number of trees. -/
def length : Forest α → ℕ
  | nil => 0
  | cons _ _ s => length s + 1

/-- The number of nodes. -/
def size : Forest α → ℕ
  | nil => 0
  | cons _ c s => size c + size s + 1

/-- The number of nodes on the longest way down. -/
def depth : Forest α → ℕ
  | nil => 0
  | cons _ c s => max (depth c + 1) (depth s)

def map (f : α → β) : Forest α → Forest β
  | nil => nil
  | cons a c s => cons (f a) (map f c) (map f s)

/-- The first tree. -/
def head? : Forest α → Option (α × Forest α)
  | nil => none
  | cons a c _ => some (a, c)

/-- The forest without the nodes that fail `p` and what is below them. -/
def prune (p : α → Bool) : Forest α → Forest α
  | nil => nil
  | cons a c s => if p a then cons a (prune p c) (prune p s) else prune p s

/-- A property of every node and its children. -/
def All (P : α → Forest α → Prop) : Forest α → Prop
  | nil => True
  | cons a c s => P a c ∧ All P c ∧ All P s

/-- The same shape, with related labels. -/
def Rel (R : α → β → Prop) : Forest α → Forest β → Prop
  | nil, nil => True
  | cons a c s, cons b d t => R a b ∧ Rel R c d ∧ Rel R s t
  | _, _ => False

@[simp] theorem nil_append (g : Forest α) : nil ++ g = g := rfl

@[simp] theorem cons_append (a : α) (c s g : Forest α) : cons a c s ++ g = cons a c (s ++ g) := rfl

@[simp] theorem append_nil : ∀ f : Forest α, f ++ nil = f
  | nil => rfl
  | cons a c s => by rw [cons_append, append_nil s]

theorem append_assoc : ∀ f g h : Forest α, f ++ g ++ h = f ++ (g ++ h)
  | nil, _, _ => rfl
  | cons a c s, g, h => by simp only [cons_append, append_assoc s]

@[simp] theorem length_append : ∀ f g : Forest α, (f ++ g).length = f.length + g.length
  | nil, g => by simp [length]
  | cons a c s, g => by simp only [cons_append, length, length_append s]; omega

@[simp] theorem length_map (f : α → β) : ∀ t : Forest α, (t.map f).length = t.length
  | nil => rfl
  | cons a c s => by simp only [map, length, length_map f s]

theorem head?_map (f : α → β) : ∀ t : Forest α,
    (t.map f).head? = t.head?.map fun p => (f p.1, p.2.map f)
  | nil => rfl
  | cons _ _ _ => rfl

theorem length_le_size : ∀ f : Forest α, f.length ≤ f.size
  | nil => le_rfl
  | cons a c s => by have := length_le_size s; simp only [length, size]; omega

theorem depth_le_size : ∀ f : Forest α, f.depth ≤ f.size
  | nil => le_rfl
  | cons a c s => by
    have := depth_le_size c
    have := depth_le_size s
    simp only [depth, size]
    omega

theorem All.and {P Q : α → Forest α → Prop} : ∀ {t : Forest α}, t.All P → t.All Q →
    t.All fun a c => P a c ∧ Q a c
  | nil, _, _ => trivial
  | cons _ _ _, ⟨p, pc, ps⟩, ⟨q, qc, qs⟩ => ⟨⟨p, q⟩, pc.and qc, ps.and qs⟩

theorem All.imp {P Q : α → Forest α → Prop} (h : ∀ a c, P a c → Q a c) : ∀ {t : Forest α},
    t.All P → t.All Q
  | nil, _ => trivial
  | cons _ _ _, ⟨ha, hc, hs⟩ => ⟨h _ _ ha, hc.imp h, hs.imp h⟩

theorem prune_of_all {p : α → Bool} : ∀ {t : Forest α}, (t.All fun a _ => p a) → t.prune p = t
  | nil, _ => rfl
  | cons a c s, ⟨ha, hc, hs⟩ => by rw [prune, if_pos ha, prune_of_all hc, prune_of_all hs]

theorem All.prune {P : α → Prop} {p : α → Bool} : ∀ {t : Forest α}, (t.All fun a _ => P a) →
    (t.prune p).All fun a _ => P a ∧ p a
  | nil, _ => trivial
  | cons a c s, ⟨ha, hc, hs⟩ => by
    unfold Forest.prune
    split
    · next hp => exact ⟨⟨ha, hp⟩, hc.prune, hs.prune⟩
    · exact hs.prune

/-- Relabelling relates the labels if it does so at every node. -/
theorem rel_map {R : α → β → Prop} {f : α → β} {P : α → Forest α → Prop}
    (h : ∀ a c, P a c → R a (f a)) : ∀ {t : Forest α}, t.All P → t.Rel R (t.map f)
  | nil, _ => trivial
  | cons _ _ _, ⟨ha, hc, hs⟩ => ⟨h _ _ ha, rel_map h hc, rel_map h hs⟩

end Forest
