/-
# Maps with ordered keys

A `std::map` with number keys is the list of its pairs in the order of their
keys; an assignment replaces the pair of the key or puts a new one in its
place. Whatever the order of the assignments, pairs with distinct keys end up
as the one sorted list of them.

Key definitions: `SortedMap.insert`, `SortedMap.ofList`, `SortedMap.Sorted`.
Key theorems: `SortedMap.ofList_eq`, `SortedMap.lookup_eq`.
-/
import Mathlib.Tactic

namespace SortedMap

variable {β : Type*}

/-- `m[k] = v` -/
def insert (k : ℕ) (v : β) : List (ℕ × β) → List (ℕ × β)
  | [] => [(k, v)]
  | p :: m => if k < p.1 then (k, v) :: p :: m else if k = p.1 then (k, v) :: m else p :: insert k v m

/-- The assignments of a list of pairs, in order. -/
def ofList (l : List (ℕ × β)) : List (ℕ × β) := l.foldl (fun m p => insert p.1 p.2 m) []

/-- The keys increase. -/
def Sorted (m : List (ℕ × β)) : Prop := m.Pairwise fun p q => p.1 < q.1

theorem Sorted.nodup_keys {m : List (ℕ × β)} (h : Sorted m) : (m.map Prod.fst).Nodup :=
  (List.pairwise_map.2 (h.imp fun hlt => Nat.ne_of_lt hlt) : List.Pairwise _ _)

theorem insert_perm {k : ℕ} {v : β} : ∀ {m : List (ℕ × β)}, k ∉ m.map Prod.fst →
    (insert k v m).Perm ((k, v) :: m)
  | [], _ => .refl _
  | p :: m, h => by
    simp only [List.map_cons, List.mem_cons, not_or] at h
    unfold insert
    split
    · exact .refl _
    · rw [if_neg h.1]
      exact ((insert_perm h.2).cons p).trans (.swap _ _ _)

theorem mem_insert {k : ℕ} {v : β} {q : ℕ × β} : ∀ {m : List (ℕ × β)}, q ∈ insert k v m →
    q = (k, v) ∨ q ∈ m
  | [], h => .inl (List.mem_singleton.1 h)
  | p :: m, h => by
    unfold insert at h
    split at h
    · exact List.mem_cons.1 h
    · split at h
      · exact (List.mem_cons.1 h).imp_right (List.mem_cons_of_mem _)
      · rcases List.mem_cons.1 h with rfl | h
        · exact .inr List.mem_cons_self
        · exact (mem_insert h).imp_right (List.mem_cons_of_mem _)

theorem insert_sorted {k : ℕ} {v : β} : ∀ {m : List (ℕ × β)}, Sorted m → Sorted (insert k v m)
  | [], _ => List.pairwise_singleton _ _
  | p :: m, hm => by
    have hp := List.pairwise_cons.1 hm
    unfold insert
    split
    · next hk =>
      refine List.pairwise_cons.2 ⟨fun q hq => ?_, hm⟩
      rcases List.mem_cons.1 hq with rfl | hq
      · exact hk
      · exact hk.trans (hp.1 q hq)
    · next hk =>
      split
      · next he => exact List.pairwise_cons.2 ⟨fun q hq => he ▸ hp.1 q hq, hp.2⟩
      · next hne =>
        refine List.pairwise_cons.2 ⟨fun q hq => ?_, insert_sorted hp.2⟩
        rcases mem_insert hq with rfl | hq
        · simp only
          omega
        · exact hp.1 q hq

theorem foldl_insert : ∀ (l m : List (ℕ × β)), Sorted m → ((l ++ m).map Prod.fst).Nodup →
    (l.foldl (fun m p => insert p.1 p.2 m) m).Perm (l ++ m) ∧
      Sorted (l.foldl (fun m p => insert p.1 p.2 m) m)
  | [], m, hm, _ => ⟨.refl _, hm⟩
  | p :: l, m, hm, h => by
    simp only [List.cons_append, List.map_cons, List.nodup_cons] at h
    have hk : p.1 ∉ m.map Prod.fst := fun hc => h.1 (by simp only [List.map_append, List.mem_append]; exact .inr hc)
    have hperm : (l ++ insert p.1 p.2 m).Perm (p :: (l ++ m)) :=
      ((insert_perm hk).append_left l).trans List.perm_middle
    obtain ⟨h1, h2⟩ := foldl_insert l (insert p.1 p.2 m) (insert_sorted hm)
      ((hperm.map _).nodup_iff.2 (by simpa using h))
    exact ⟨h1.trans hperm, h2⟩

/-- Pairs with distinct keys, assigned in any order, are their sorted list. -/
theorem ofList_eq {l m : List (ℕ × β)} (hm : Sorted m) (h : l.Perm m) : ofList l = m := by
  obtain ⟨h1, h2⟩ := foldl_insert l [] List.Pairwise.nil (by
    rw [List.append_nil]; exact (h.map _).nodup_iff.2 hm.nodup_keys)
  rw [List.append_nil] at h1
  refine List.Perm.eq_of_pairwise (fun a b _ _ hab hba => ?_) h2 hm (h1.trans h)
  exact absurd (hab.trans hba) (lt_irrefl _)

theorem lookup_eq_none {k : ℕ} {m : List (ℕ × β)} (h : ∀ p ∈ m, p.1 ≠ k) : m.lookup k = none := by
  rw [List.lookup_eq_none_iff]
  intro p hp
  simpa using fun hk => h p hp hk.symm

/-- Looking up a pair of a sorted map. -/
theorem lookup_eq {k : ℕ} {v : β} : ∀ {m : List (ℕ × β)}, Sorted m → (k, v) ∈ m →
    m.lookup k = some v
  | p :: m, hm, h => by
    have hp := List.pairwise_cons.1 hm
    rcases List.mem_cons.1 h with rfl | h
    · simp
    · have hb : (k == p.1) = false := by
        have := hp.1 _ h
        simp only [beq_eq_false_iff_ne]
        omega
      rw [List.lookup_cons, hb]
      exact lookup_eq hp.2 h

end SortedMap
