/-
# Creatures in memory

In every run the counters are right, and no list and no summon leads to a creature
that has been deleted (`never_dangling`). A creature that has been in the game is in
memory for as long as somebody refers to it (`in_memory_iff_used`), and for ever if a
script has taken it from its master. `Sound` is what every call keeps, and what holds
while references are still to be let go.

Key definitions: `State.outside`, `Sound`, `State.used`, `State.Stray`, `Tends`.
Key theorems: `Sound.release`, `sound_step`, `never_dangling`, `tends_act`,
`in_memory_iff_used`.
-/
import Mathlib.Algebra.BigOperators.Fin
import ForgottenServer.Creatures
import ForgottenServer.Lib.RefCount

namespace ForgottenServer
namespace Creatures

open RefCount

variable {s s' s'' : State} {c m o x : ℕ} {work : List ℕ}

/-! ### The counters are right -/

/-- The references that no creature keeps, with those of `work`, which are still to
be let go. -/
def State.outside (s : State) (work : List ℕ) (x : ℕ) : ℕ :=
  s.listed.count x + ∑ i, (s.checkCreatureLists i).count x + s.toReleaseCreatures.count x + s.held.count x +
    s.lost.count x + work.count x

/-- The creatures are in order, while the references of `work` are to be let go. -/
structure Sound (s : State) (work : List ℕ) : Prop where
  counted : Counted s.memory s.referenceCounter (fun o x => (s.refs o).count x) (s.outside work)
  below : ∀ c ∈ s.memory, c < s.next
  listed : ∀ c, s.listed.count c =
    if c ∈ s.memory ∧ s.hasParent c = true ∧ s.isInternalRemoved c = false then 1 else 0
  checked : ∀ c, ∑ i, (s.checkCreatureLists i).count c =
    if c ∈ s.memory ∧ s.inCheckCreaturesVector c = true then 1 else 0
  removed : ∀ c ∈ s.memory, s.isInternalRemoved c = true → s.hasParent c = true ∧ s.creatureCheck c = false
  watched : ∀ c ∈ s.memory, s.creatureCheck c = true → s.inCheckCreaturesVector c = true
  summons : ∀ m ∈ s.memory, ∀ c ∈ s.memory, (s.summons m).count c = if s.master c = some m then 1 else 0
  master : ∀ c ∈ s.memory, ∀ m, s.master c = some m → m ∈ s.memory
  placed : ∀ m ∈ s.memory, ∀ c ∈ s.summons m, s.hasParent c = true

theorem sound_init : Sound init [] where
  counted := ⟨fun x => by simp [init, State.outside], fun x hx => absurd rfl hx⟩
  below c hc := by simp [init] at hc
  listed c := by simp [init]
  checked c := by simp [init]
  removed c hc := by simp [init] at hc
  watched c hc := by simp [init] at hc
  summons m hm := by simp [init] at hm
  master c hc := by simp [init] at hc
  placed m hm := by simp [init] at hm

theorem State.count_refs (s : State) (o x : ℕ) :
    (s.refs o).count x = (s.targetList o).count x + (s.friendList o).count x + (s.summons o).count x := by
  simp only [State.refs, List.count_append]

theorem Sound.mem_of_work (h : Sound s work) (hc : c ∈ work) : c ∈ s.memory := by
  apply h.counted.mem_of_outside
  have hpos := List.count_pos_iff.2 hc
  unfold State.outside
  omega

theorem Sound.mem_of_refs (h : Sound s work) (ho : o ∈ s.memory) (hc : c ∈ s.refs o) : c ∈ s.memory :=
  h.counted.mem_of_refs ho (List.count_pos_iff.2 hc).ne'

theorem Sound.mem_of_summons (h : Sound s work) (ho : o ∈ s.memory) (hc : c ∈ s.summons o) : c ∈ s.memory :=
  h.mem_of_refs ho (List.mem_append_right _ hc)

theorem Sound.master_of_summons (h : Sound s work) (hm : m ∈ s.memory) (hc : c ∈ s.summons m) :
    s.master c = some m := by
  have hcount := h.summons m hm c (h.mem_of_summons hm hc)
  have hpos := List.count_pos_iff.2 hc
  by_contra hne
  rw [if_neg hne] at hcount
  omega

theorem Sound.mem_of_listed (h : Sound s work) (hc : c ∈ s.listed) : c ∈ s.memory := by
  apply h.counted.mem_of_outside
  have hpos := List.count_pos_iff.2 hc
  unfold State.outside
  omega

theorem Sound.mem_of_toReleaseCreatures (h : Sound s work) (hc : c ∈ s.toReleaseCreatures) : c ∈ s.memory := by
  apply h.counted.mem_of_outside
  have hpos := List.count_pos_iff.2 hc
  unfold State.outside
  omega

theorem Sound.mem_listed (h : Sound s work) :
    c ∈ s.listed ↔ c ∈ s.memory ∧ s.hasParent c = true ∧ s.isInternalRemoved c = false := by
  rw [← List.count_pos_iff, h.listed]
  split_ifs with hc
  · simp [hc]
  · simp [hc]

theorem Sound.decrement (h : Sound s (c :: work)) : Sound (decrement s c) work := by
  refine { h with counted := h.counted.rebalance (fun _ _ _ => rfl) (fun x => ?_) fun x hx => ?_ }
  · have hle := h.counted.count_eq c
    simp only [Creatures.decrement, State.outside, Function.update_apply, List.count_cons, beq_iff_eq] at hle ⊢
    by_cases hx : x = c
    · subst hx
      simp only [if_true] at hle ⊢
      omega
    · simp only [hx, Ne.symm hx, if_false]
      omega
  · apply h.counted.live
    simp only [Creatures.decrement, Function.update_apply] at hx
    split_ifs at hx with hxc
    · subst hxc
      omega
    · exact hx

theorem Sound.destroy (h : Sound s work) (hc : c ∈ s.memory) (hzero : s.referenceCounter c = 0) :
    Sound (destroy s c) (s.refs c ++ work) where
  counted := by
    refine h.counted.bury hc hzero (fun _ _ _ _ => rfl) (fun _ => rfl) fun y => ?_
    simp only [State.outside, Creatures.destroy, List.count_append]
    omega
  below x hx := h.below x (Finset.mem_of_mem_erase hx)
  listed x := by
    have hx := h.listed x
    have hout := (h.counted.count_eq_zero_iff.1 hzero).1
    simp only [State.outside] at hout
    simp only [Creatures.destroy, Finset.mem_erase]
    by_cases hxc : x = c
    · subst hxc
      simp only [ne_eq, not_true, false_and, if_false]
      omega
    · simpa only [ne_eq, hxc, not_false_iff, true_and] using hx
  checked x := by
    have hx := h.checked x
    have hout := (h.counted.count_eq_zero_iff.1 hzero).1
    simp only [State.outside] at hout
    simp only [Creatures.destroy, Finset.mem_erase]
    by_cases hxc : x = c
    · subst hxc
      simp only [ne_eq, not_true, false_and, if_false]
      omega
    · simpa only [ne_eq, hxc, not_false_iff, true_and] using hx
  removed x hx := h.removed x (Finset.mem_of_mem_erase hx)
  watched x hx := h.watched x (Finset.mem_of_mem_erase hx)
  summons m hm x hx := by
    obtain ⟨hmc, hm⟩ := Finset.mem_erase.1 hm
    obtain ⟨-, hx⟩ := Finset.mem_erase.1 hx
    have hcount := h.summons m hm x hx
    simp only [Creatures.destroy]
    by_cases hsummon : x ∈ s.summons c
    · -- a summon of the one that goes has no other master
      simpa [hsummon, h.master_of_summons hc hsummon, Ne.symm hmc] using hcount
    · simpa only [hsummon, if_false] using hcount
  master x hx m hm := by
    have hxs : x ∈ s.memory := Finset.mem_of_mem_erase hx
    simp only [Creatures.destroy] at hm ⊢
    split_ifs at hm with hsummon
    refine Finset.mem_erase_of_ne_of_mem ?_ (h.master x hxs m hm)
    rintro rfl
    have hcount := h.summons m hc x hxs
    rw [if_pos hm] at hcount
    exact hsummon (List.count_pos_iff.1 (by omega))
  placed m hm := h.placed m (Finset.mem_of_mem_erase hm)

/-- Whatever is let go, and whoever is deleted with it, the creatures stay in order. -/
theorem Sound.release {rest : List ℕ} (h : Sound s (work ++ rest)) : Sound (release s work) rest := by
  fun_induction Creatures.release s work with
  | case1 s => exact h
  | case2 s c work hc hone ih =>
    apply ih
    rw [List.append_assoc]
    have hdecrement : Sound (Creatures.decrement s c) (work ++ rest) := h.decrement
    exact hdecrement.destroy hc (by simp [Creatures.decrement, hone])
  | case3 s c work hc hone ih => exact ih h.decrement
  | case4 s c work hc ih => exact absurd (h.mem_of_work List.mem_cons_self) hc

theorem Sound.create (h : Sound s work) (kind : Kind) (health : ℤ) : Sound (create s kind health) work := by
  have hnew : s.next ∉ s.memory := fun hm => (h.below _ hm).false
  have hne : ∀ x ∈ s.memory, x ≠ s.next := fun x hx => (h.below x hx).ne
  have hzero : s.referenceCounter s.next = 0 := by
    by_contra hpos
    exact hnew (h.counted.live _ hpos)
  have hout := (h.counted.count_eq_zero_iff.1 hzero).1
  simp only [State.outside] at hout
  refine ⟨?_, fun x hx => ?_, fun x => ?_, fun x => ?_, fun x hx => ?_, fun x hx => ?_, fun m hm x hx => ?_,
    fun x hx => ?_, fun m hm x hx => ?_⟩
  · refine h.counted.alloc hnew (fun y => ?_) (fun o ho y => ?_) fun y => ?_
    · simp [State.refs, Creatures.create]
    · simp [State.refs, Creatures.create, hne o ho]
    · simp only [Creatures.create, Function.update_apply]
      split_ifs with hy
      · rw [hy, hzero]
      · rfl
  · simp only [Creatures.create, Finset.mem_insert] at hx ⊢
    rcases hx with rfl | hx
    · omega
    · have := h.below x hx
      omega
  · have hx := h.listed x
    simp only [Creatures.create, Finset.mem_insert, Function.update_apply]
    by_cases hxn : x = s.next
    · subst hxn
      simp
      omega
    · simpa [hxn] using hx
  · have hx := h.checked x
    simp only [Creatures.create, Finset.mem_insert, Function.update_apply]
    by_cases hxn : x = s.next
    · subst hxn
      simp
      intro i
      have hi := Finset.single_le_sum (f := fun i => (s.checkCreatureLists i).count s.next)
        (fun _ _ => Nat.zero_le _) (Finset.mem_univ i)
      omega
    · simpa [hxn] using hx
  · simp only [Creatures.create, Finset.mem_insert, Function.update_apply] at hx ⊢
    by_cases hxn : x = s.next
    · simp [hxn]
    · simpa [hxn] using h.removed x (hx.resolve_left hxn)
  · simp only [Creatures.create, Finset.mem_insert, Function.update_apply] at hx ⊢
    by_cases hxn : x = s.next
    · simp [hxn]
    · simpa [hxn] using h.watched x (hx.resolve_left hxn)
  · simp only [Creatures.create, Finset.mem_insert, Function.update_apply] at hm hx ⊢
    have hlone : ∀ m ∈ s.memory, (s.summons m).count s.next = 0 := fun m hm =>
      List.count_eq_zero.2 fun hmem => hnew (h.mem_of_summons hm hmem)
    by_cases hmn : m = s.next
    · by_cases hxn : x = s.next
      · simp [hmn, hxn]
      · have hmaster : s.master x ≠ some s.next := fun he => hnew (h.master x (hx.resolve_left hxn) _ he)
        simp [hmn, hxn, hmaster]
    · by_cases hxn : x = s.next
      · simpa [hmn, hxn] using hlone m (hm.resolve_left hmn)
      · simpa [hmn, hxn] using h.summons m (hm.resolve_left hmn) x (hx.resolve_left hxn)
  · simp only [Creatures.create, Finset.mem_insert, Function.update_apply] at hx ⊢
    intro m hm
    split_ifs at hm with hxn
    exact .inr (h.master x (hx.resolve_left hxn) m hm)
  · simp only [Creatures.create, Finset.mem_insert, Function.update_apply] at hm hx ⊢
    split_ifs at hx with hmn
    · simp at hx
    · have hxs := h.mem_of_summons (hm.resolve_left hmn) hx
      simpa [hne x hxs] using h.placed m (hm.resolve_left hmn) x hx

theorem Sound.discard (h : Sound s work) (hc : c ∈ s.memory) (hzero : s.referenceCounter c = 0) :
    Sound (discard s c) work :=
  (h.destroy hc hzero).release

theorem count_concat (l : List ℕ) (c x : ℕ) : (l ++ [c]).count x = l.count x + if x = c then 1 else 0 := by
  rw [List.count_append, List.count_singleton]
  by_cases hxc : x = c
  · simp [hxc]
  · simp [hxc, Ne.symm hxc]

/-- A counter that is increased belongs to a creature in memory. -/
theorem Sound.live_increment (h : Sound s work) (hc : c ∈ s.memory)
    (hx : (increment s c).referenceCounter x ≠ 0) : x ∈ s.memory := by
  simp only [increment, Function.update_apply] at hx
  split_ifs at hx with hxc
  · rwa [hxc]
  · exact h.counted.live x hx

theorem Sound.internalPlaceCreature (h : Sound s work) (hc : c ∈ s.memory) :
    Sound (internalPlaceCreature s c) work := by
  unfold Creatures.internalPlaceCreature
  split_ifs with hparent
  · exact h
  have hremoved : s.isInternalRemoved c = false := by
    by_contra hr
    exact hparent (h.removed c hc (by simpa using hr)).1
  have hsame : ∀ x ∈ s.memory, s.hasParent x = true → Function.update s.hasParent c true x = true := by
    intro x _ hx
    simp only [Function.update_apply]
    split_ifs <;> simp [hx]
  refine { h with
    counted := h.counted.rebalance (fun _ _ _ => rfl) (fun x => ?_) fun x hx => h.live_increment hc hx
    listed := fun x => ?_
    removed := fun x hx hr => ⟨hsame x hx (h.removed x hx hr).1, (h.removed x hx hr).2⟩
    placed := fun m hm x hx => hsame x (h.mem_of_summons hm hx) (h.placed m hm x hx) }
  · simp only [increment, State.outside, Function.update_apply, count_concat]
    split_ifs with hxc
    · rw [hxc]
      omega
    · omega
  · have hx := h.listed x
    simp only [increment, Function.update_apply, count_concat]
    by_cases hxc : x = c
    · subst hxc
      simp [hparent] at hx
      simp [hc, hremoved, hx]
    · simpa [hxc] using hx

theorem sum_update_count (lists : Fin 10 → List ℕ) (i : Fin 10) (l : List ℕ) (x : ℕ) :
    ∑ j, (Function.update lists i l j).count x + (lists i).count x = ∑ j, (lists j).count x + l.count x := by
  rw [← Finset.add_sum_erase _ _ (Finset.mem_univ i), ← Finset.add_sum_erase _ (fun j => (lists j).count x)
    (Finset.mem_univ i)]
  have hrest : ∑ j ∈ Finset.univ.erase i, (Function.update lists i l j).count x =
      ∑ j ∈ Finset.univ.erase i, (lists j).count x :=
    Finset.sum_congr rfl fun j hj => by rw [Function.update_of_ne (Finset.ne_of_mem_erase hj)]
  rw [hrest, Function.update_self]
  omega

/-- A list of the checks gets longer by a creature. -/
theorem sum_count_update (lists : Fin 10 → List ℕ) (i : Fin 10) (c x : ℕ) :
    ∑ j, (Function.update lists i (lists i ++ [c]) j).count x =
      ∑ j, (lists j).count x + if x = c then 1 else 0 := by
  have hsum := sum_update_count lists i (lists i ++ [c]) x
  rw [count_concat] at hsum
  omega

theorem Sound.addCreatureCheck (h : Sound s work) (hc : c ∈ s.memory) (hr : s.isInternalRemoved c = false)
    (i : Fin 10) : Sound (addCreatureCheck s c i) work := by
  have hremoved : ∀ x ∈ s.memory, s.isInternalRemoved x = true →
      s.hasParent x = true ∧ Function.update s.creatureCheck c true x = false := by
    intro x hx hrx
    have hne : x ≠ c := by
      rintro rfl
      simp [hr] at hrx
    simpa [hne] using h.removed x hx hrx
  simp only [Creatures.addCreatureCheck]
  split_ifs with hin
  · refine { h with removed := hremoved, watched := fun x hx hw => ?_ }
    by_cases hxc : x = c
    · rwa [hxc]
    · exact h.watched x hx (by simpa [hxc] using hw)
  · refine { h with
      counted := h.counted.rebalance (fun _ _ _ => rfl) (fun x => ?_) fun x hx => h.live_increment hc hx
      checked := fun x => ?_
      removed := hremoved
      watched := fun x hx hw => ?_ }
    · simp only [increment, State.outside, sum_count_update]
      simp only [Function.update_apply]
      split_ifs with hxc
      · rw [hxc]
        omega
      · omega
    · have hx := h.checked x
      simp only [increment, sum_count_update]
      simp only [Function.update_apply]
      by_cases hxc : x = c
      · subst hxc
        simp only [hc, hin, true_and, Bool.false_eq_true, if_false] at hx
        simp [hc, hx]
      · simpa [hxc] using hx
    · simp only [increment, Function.update_apply] at hw ⊢
      split_ifs at hw ⊢ with hxc
      · rfl
      · exact h.watched x hx hw

theorem Sound.removeCreatureCheck (h : Sound s work) (c : ℕ) : Sound (removeCreatureCheck s c) work := by
  unfold Creatures.removeCreatureCheck
  split_ifs with hin
  · refine { h with removed := fun x hx hr => ⟨(h.removed x hx hr).1, ?_⟩, watched := fun x hx hw => ?_ }
    · simp only [Function.update_apply]
      split_ifs
      · rfl
      · exact (h.removed x hx hr).2
    · simp only [Function.update_apply] at hw
      split_ifs at hw
      exact h.watched x hx hw
  · exact h

theorem Sound.placeCreature (h : Sound s work) (hc : c ∈ s.memory) (i : Fin 10) :
    Sound (placeCreature s c i) work := by
  unfold Creatures.placeCreature
  split_ifs with hparent
  · exact h
  have hplaced : (Creatures.internalPlaceCreature s c).memory = s.memory ∧
      (Creatures.internalPlaceCreature s c).isInternalRemoved = s.isInternalRemoved := by
    unfold Creatures.internalPlaceCreature
    split <;> exact ⟨rfl, rfl⟩
  apply (h.internalPlaceCreature hc).addCreatureCheck
  · rwa [hplaced.1]
  · rw [hplaced.2]
    by_contra hr
    exact hparent (h.removed c hc (by simpa using hr)).1

theorem count_filter_add (q : ℕ → Bool) (l : List ℕ) (x : ℕ) :
    (l.filter (!q ·)).count x + (l.filter q).count x = l.count x := by
  induction l with
  | nil => rfl
  | cons a l ih =>
    cases hq : q a <;> simp only [List.filter_cons, hq, Bool.not_false, Bool.not_true, if_true, List.count_cons,
      Bool.false_eq_true, if_false] <;> omega

theorem Sound.dropTargets (h : Sound s work) (ho : o ∈ s.memory) (q : ℕ → Bool) :
    Sound (dropTargets s o q) work := by
  apply Sound.release
  refine { h with counted := h.counted.change ho (fun y _ hy x => ?_) (fun x => ?_) h.counted.live }
  · simp [State.refs, hy]
  · have hcount := count_filter_add q (s.targetList o) x
    simp only [State.outside, State.count_refs, Function.update_self, List.count_append]
    omega

theorem Sound.dropFriends (h : Sound s work) (ho : o ∈ s.memory) (q : ℕ → Bool) :
    Sound (dropFriends s o q) work := by
  apply Sound.release
  refine { h with counted := h.counted.change ho (fun y _ hy x => ?_) (fun x => ?_) h.counted.live }
  · simp [State.refs, hy]
  · have hcount := count_filter_add q (s.friendList o) x
    simp only [State.outside, State.count_refs, Function.update_self, List.count_append]
    omega

theorem count_cons_eq (l : List ℕ) (c x : ℕ) : (c :: l).count x = l.count x + if x = c then 1 else 0 := by
  rw [← List.perm_append_singleton c l |>.count_eq, count_concat]

/-- The counter of `c` goes up, as `c` is put into a list that `o` keeps. -/
theorem Sound.store (h : Sound s work) (ho : o ∈ s.memory) (hc : c ∈ s.memory) {refs' : ℕ → ℕ → ℕ}
    (hrefs : ∀ y ∈ s.memory, y ≠ o → ∀ x, refs' y x = (s.refs y).count x)
    (hself : ∀ x, refs' o x = (s.refs o).count x + if x = c then 1 else 0) :
    Counted s.memory (increment s c).referenceCounter refs' (s.outside work) := by
  refine h.counted.change ho hrefs (fun x => ?_) fun x hx => h.live_increment hc hx
  simp only [hself, increment, Function.update_apply]
  split_ifs with hxc
  · rw [hxc]
    omega
  · omega

theorem Sound.addTarget (h : Sound s work) (ho : o ∈ s.memory) (hc : c ∈ s.memory) (pushFront : Bool) :
    Sound (addTarget s o c pushFront) work := by
  unfold Creatures.addTarget
  by_cases hmem : c ∈ s.targetList o
  · rwa [if_pos hmem]
  rw [if_neg hmem]
  refine { h with counted := h.store ho hc (fun y _ hy x => ?_) fun x => ?_ }
  · simp [State.refs, increment, hy]
  · have hlist : (if pushFront then c :: s.targetList o else s.targetList o ++ [c]).count x =
        (s.targetList o).count x + if x = c then 1 else 0 := by
      split
      · exact count_cons_eq _ c x
      · exact count_concat _ c x
    simp only [increment, State.count_refs, Function.update_self, hlist]
    omega

theorem Sound.addFriend (h : Sound s work) (ho : o ∈ s.memory) (hc : c ∈ s.memory) :
    Sound (addFriend s o c) work := by
  unfold Creatures.addFriend
  by_cases hmem : c ∈ s.friendList o
  · rwa [if_pos hmem]
  rw [if_neg hmem]
  refine { h with counted := h.store ho hc (fun y _ hy x => ?_) fun x => ?_ }
  · simp [State.refs, increment, hy]
  · simp only [increment, State.count_refs, Function.update_self, count_cons_eq]
    omega

theorem Sound.updateTargetList (h : Sound s work) (ho : o ∈ s.listed) (unseen : List ℕ) :
    Sound (updateTargetList s o unseen) work := by
  have hfriends := h.dropFriends (h.mem_of_listed ho) fun c => decide (s.health c ≤ 0) || unseen.contains c
  refine hfriends.dropTargets (hfriends.mem_of_listed ?_) _
  rwa [(dropFriends_keeps s o _).listed]

theorem Sound.onFollowCreatureComplete (h : Sound s work) (ho : o ∈ s.memory) (c : ℕ) (hasFollowPath : Bool) :
    Sound (onFollowCreatureComplete s o c hasFollowPath) work := by
  simp only [Creatures.onFollowCreatureComplete]
  split_ifs with hc hpath hmaster
  · refine { h with counted := h.counted.change ho (fun y _ hy x => ?_) (fun x => ?_) h.counted.live }
    · simp [State.refs, hy]
    · have hcount := (List.perm_cons_erase hc).count_eq x
      simp only [State.outside, State.count_refs, Function.update_self]
      omega
  · refine { h with counted := h.counted.change ho (fun y _ hy x => ?_) (fun x => ?_) h.counted.live }
    · simp [State.refs, hy]
    · have hcount := (List.perm_cons_erase hc).count_eq x
      simp only [State.outside, State.count_refs, Function.update_self, count_concat, count_cons_eq] at hcount ⊢
      omega
  · apply Sound.release
    refine { h with counted := h.counted.change ho (fun y _ hy x => ?_) (fun x => ?_) h.counted.live }
    · simp [State.refs, hy]
    · have hcount := (List.perm_cons_erase hc).count_eq x
      simp only [State.outside, State.count_refs, Function.update_self, List.singleton_append, count_cons_eq]
        at hcount ⊢
      omega
  · exact h

theorem Sound.setIdle (h : Sound s work) (hmem : c ∈ s.memory) {idle : Bool} (hc : idle = true → c ∈ s.listed)
    (i : Fin 10) : Sound (setIdle s c idle i) work := by
  unfold Creatures.setIdle
  split_ifs with hgone hidle
  · exact h
  · have htargets : Sound (clearTargetList s c) work := h.dropTargets hmem _
    refine Sound.removeCreatureCheck (htargets.dropFriends (htargets.mem_of_listed ?_) _) c
    rw [clearTargetList, (dropTargets_keeps s c _).listed]
    exact hc hidle
  · exact h.addCreatureCheck hmem (by simp_all) i

theorem Sound.removeSummon (h : Sound s work) (hm : m ∈ s.memory) (c : ℕ) : Sound (removeSummon s m c) work := by
  unfold Creatures.removeSummon
  split_ifs with hc
  · have hmaster := h.master_of_summons hm hc
    apply Sound.release
    refine { h with
      counted := h.counted.change hm (fun y _ hy x => ?_) (fun x => ?_) h.counted.live
      summons := fun p hp x hx => ?_
      master := fun x hx p hp => ?_
      placed := fun p hp x hx => ?_ }
    · simp [State.refs, hy]
    · have hcount := (List.perm_cons_erase hc).count_eq x
      simp only [State.outside, State.count_refs, Function.update_self, List.singleton_append, count_cons_eq]
        at hcount ⊢
      omega
    · have hcount := h.summons p hp x hx
      simp only [Function.update_apply]
      by_cases hxc : x = c
      · subst hxc
        by_cases hpm : p = m
        · subst hpm
          simp only [hmaster, if_true] at hcount ⊢
          simp [List.count_erase_self, hcount]
        · simpa [hpm, hmaster, Ne.symm hpm] using hcount
      · by_cases hpm : p = m
        · subst hpm
          simpa [hxc, List.count_erase_of_ne hxc] using hcount
        · simpa [hxc, hpm] using hcount
    · simp only [Function.update_apply] at hp
      split_ifs at hp
      exact h.master x hx p hp
    · simp only [Function.update_apply] at hx
      split_ifs at hx with hpm
      · subst hpm
        exact h.placed p hp x (List.mem_of_mem_erase hx)
      · exact h.placed p hp x hx
  · exact h

theorem Sound.addSummon (h : Sound s work) (hm : m ∈ s.memory) (hc : c ∈ s.memory) (hfree : s.master c = none)
    (hparent : s.hasParent c = true) : Sound (addSummon s m c) work := by
  refine { h with
    counted := h.store hm hc (fun y _ hy x => ?_) fun x => ?_
    summons := fun p hp x hx => ?_
    master := fun x hx p hp => ?_
    placed := fun p hp x hx => ?_ }
  · simp [State.refs, Creatures.addSummon, increment, hy]
  · simp only [Creatures.addSummon, increment, State.count_refs, Function.update_self, count_concat]
    omega
  · have hcount := h.summons p hp x hx
    simp only [Creatures.addSummon, Function.update_apply]
    by_cases hxc : x = c
    · subst hxc
      by_cases hpm : p = m
      · subst hpm
        simp [hfree] at hcount
        simp [hcount]
      · simpa [hpm, Ne.symm hpm, hfree] using hcount
    · by_cases hpm : p = m
      · subst hpm
        simpa only [hxc, if_true, if_false, count_concat, add_zero] using hcount
      · simpa [hxc, hpm] using hcount
  · simp only [Creatures.addSummon, Function.update_apply] at hp
    split_ifs at hp with hxc
    · rw [Option.some_inj] at hp
      rwa [← hp]
    · exact h.master x hx p hp
  · simp only [Creatures.addSummon, Function.update_apply] at hx
    split_ifs at hx with hpm
    · subst hpm
      rcases List.mem_append.1 hx with hx | hx
      · exact h.placed p hp x hx
      · rw [List.mem_singleton.1 hx]
        exact hparent
    · exact h.placed p hp x hx

theorem Sound.leavePresentMaster (h : Sound s work) (hc : c ∈ s.memory) : Sound (leavePresentMaster s c) work := by
  unfold Creatures.leavePresentMaster
  split
  · exact h
  · next m hm =>
    split
    · exact h
    · exact h.removeSummon (h.master c hc m hm) c

theorem Sound.leaveMaster (h : Sound s work) (hc : c ∈ s.memory) : Sound (leaveMaster s c) work := by
  unfold Creatures.leaveMaster
  split
  · exact h
  · next m hm => exact h.removeSummon (h.master c hc m hm) c

theorem Sound.onRemoveCreature (h : Sound s work) (hc : c ∈ s.listed) : Sound (onRemoveCreature s c) work := by
  have hleft := h.leavePresentMaster (h.mem_of_listed hc)
  simp only [Creatures.onRemoveCreature]
  split
  · have hlisted : c ∈ (Creatures.leavePresentMaster s c).listed := by
      rwa [(leavePresentMaster_keeps s c).listed]
    exact hleft.setIdle (hleft.mem_of_listed hlisted) (fun _ => hlisted) 0
  · exact hleft

theorem Sound.removeOne (h : Sound s work) (hc : c ∈ s.listed) : Sound (removeOne s c) work := by
  have hgone := h.onRemoveCreature hc
  have hkeeps := onRemoveCreature_keeps s c
  have hlisted : c ∈ (Creatures.onRemoveCreature s c).listed := by rwa [hkeeps.listed]
  obtain ⟨hmem, hparent, hremoved⟩ := hgone.mem_listed.1 hlisted
  simp only [Creatures.removeOne]
  generalize Creatures.onRemoveCreature s c = t at *
  -- the check is taken back before the mark is set, so that what is marked is not checked
  have hunchecked : (Creatures.removeCreatureCheck t c).creatureCheck c = false := by
    unfold Creatures.removeCreatureCheck
    split_ifs with hin
    · simp
    · by_contra hcheck
      exact hin (hgone.watched c hmem (by simpa using hcheck))
  have hcalm := hgone.removeCreatureCheck c
  have hcomm : Creatures.removeCreatureCheck (ReleaseCreature { t with
      listed := t.listed.erase c
      isInternalRemoved := Function.update t.isInternalRemoved c true } c) c =
      ReleaseCreature { Creatures.removeCreatureCheck t c with
        listed := t.listed.erase c
        isInternalRemoved := Function.update t.isInternalRemoved c true } c := by
    by_cases hin : t.inCheckCreaturesVector c = true <;>
      simp [Creatures.removeCreatureCheck, ReleaseCreature, hin]
  rw [hcomm]
  have hkeeps' := removeCreatureCheck_keeps t c
  refine { hcalm with
    counted := hcalm.counted.rebalance (fun _ _ _ => rfl) (fun x => ?_) hcalm.counted.live
    listed := fun x => ?_
    removed := fun x hx hr => ?_ }
  · have hcount := (List.perm_cons_erase hlisted).count_eq x
    simp only [ReleaseCreature, State.outside, count_concat, count_cons_eq, hkeeps'.listed] at hcount ⊢
    omega
  · have hx := hcalm.listed x
    simp only [ReleaseCreature, hkeeps'.listed, hkeeps'.isInternalRemoved, Function.update_apply] at hx ⊢
    by_cases hxc : x = c
    · subst hxc
      have hone := hgone.listed x
      rw [if_pos ⟨hmem, hparent, hremoved⟩] at hone
      simp [List.count_erase_self, hone]
    · simpa [hxc, List.count_erase_of_ne hxc] using hx
  · simp only [ReleaseCreature, Function.update_apply] at hr ⊢
    by_cases hxc : x = c
    · subst hxc
      exact ⟨by rwa [hkeeps'.hasParent], hunchecked⟩
    · rw [if_neg hxc] at hr
      exact hcalm.removed x hx (by rwa [hkeeps'.isInternalRemoved])

/-- Removed creatures take their summons with them, which are in the game. -/
theorem Sound.removeCreature {l : List ℕ} (h : Sound s work) (hl : ∀ x ∈ l, x ∈ s.memory → s.hasParent x = true) :
    Sound (removeCreature s l) work := by
  fun_induction Creatures.removeCreature s l with
  | case1 s => exact h
  | case2 s c rest hc _ ih =>
    have hlisted : c ∈ s.listed := h.mem_listed.2 ⟨hc.1, hl c List.mem_cons_self hc.1, hc.2⟩
    have hone := h.removeOne hlisted
    have hkept : c ∈ (Creatures.removeOne s c).memory := by
      apply hone.counted.mem_of_outside
      have hin : c ∈ (Creatures.removeOne s c).toReleaseCreatures := by
        simp only [Creatures.removeOne, Creatures.removeCreatureCheck]
        split_ifs <;> simp [ReleaseCreature]
      have hpos := List.count_pos_iff.2 hin
      unfold State.outside
      omega
    refine ih hone fun x hx hmem => ?_
    rcases List.mem_append.1 hx with hx | hx
    · exact hone.placed c hkept x hx
    · have hparent : (Creatures.removeOne s c).hasParent = s.hasParent :=
        (removeCreatureCheck_keeps _ c).hasParent.trans (onRemoveCreature_keeps s c).hasParent
      rw [hparent]
      exact hl x (List.mem_cons_of_mem c hx) (removeOne_memory s c hmem)
  | case3 s c rest hc ih => exact ih h fun x hx => hl x (List.mem_cons_of_mem c hx)

theorem Sound.changeHealth (h : Sound s work) (hc : c ∈ s.memory) (n : ℤ) (i : Fin 10) :
    Sound (changeHealth s c n i) work := by
  simp only [Creatures.changeHealth]
  split
  · have hawake : Sound (Creatures.setIdle s c false i) work := h.setIdle hc (by simp) i
    exact { hawake with }
  · exact { h with }

/-- A change of health leaves the family of the creatures alone. -/
theorem changeHealth_frame (s : State) (c : ℕ) (n : ℤ) (i : Fin 10) :
    (changeHealth s c n i).memory = s.memory ∧ (changeHealth s c n i).summons = s.summons ∧
      (changeHealth s c n i).master = s.master ∧ (changeHealth s c n i).listed = s.listed := by
  simp only [changeHealth, setIdle, addCreatureCheck, Bool.false_eq_true, if_false]
  split_ifs <;> exact ⟨rfl, rfl, rfl, rfl⟩

theorem foldl_changeHealth (f : State → ℕ → State)
    (hf : ∀ s x, ∃ n i, f s x = changeHealth s x n i) : ∀ (l : List ℕ) (s : State),
    ((l.foldl f s).memory = s.memory ∧ (l.foldl f s).summons = s.summons ∧ (l.foldl f s).master = s.master ∧
      (l.foldl f s).listed = s.listed) ∧
      ∀ {work : List ℕ}, Sound s work → (∀ x ∈ l, x ∈ s.memory) → Sound (l.foldl f s) work
  | [], s => ⟨⟨rfl, rfl, rfl, rfl⟩, fun h _ => h⟩
  | x :: l, s => by
    obtain ⟨n, i, he⟩ := hf s x
    obtain ⟨hmem, hsummons, hmaster, hlisted⟩ := changeHealth_frame s x n i
    obtain ⟨⟨hmem', hsummons', hmaster', hlisted'⟩, hsound⟩ := foldl_changeHealth f hf l (f s x)
    rw [he] at hmem' hsummons' hmaster' hlisted' hsound
    rw [List.foldl_cons, he]
    refine ⟨⟨hmem'.trans hmem, hsummons'.trans hsummons, hmaster'.trans hmaster, hlisted'.trans hlisted⟩, ?_⟩
    intro work h hl
    refine hsound (h.changeHealth (hl x List.mem_cons_self) n i) fun y hy => ?_
    rw [hmem]
    exact hl y (List.mem_cons_of_mem x hy)

theorem Sound.destroySummons (h : Sound s work) (hc : c ∈ s.memory) (draw : ℕ → Fin 10) :
    Sound (destroySummons s c draw) work := by
  simp only [Creatures.destroySummons]
  obtain ⟨⟨hmem, hsummons, -, -⟩, hsound⟩ := foldl_changeHealth
    (fun s x => Creatures.changeHealth s x (-s.health x) (draw x)) (fun s x => ⟨_, _, rfl⟩) (s.summons c) s
  have ht := hsound h fun x hx => h.mem_of_summons hc hx
  rw [← hmem] at hc
  clear hsound hmem hsummons h
  generalize List.foldl _ s (s.summons c) = t at *
  apply Sound.release
  refine { ht with
    counted := ht.counted.change hc (fun y _ hy x => ?_) (fun x => ?_) ht.counted.live
    summons := fun p hp x hx => ?_
    master := fun x hx p hp => ?_
    placed := fun p hp x hx => ?_ }
  · simp [State.refs, hy]
  · simp only [State.outside, State.count_refs, Function.update_self, List.count_append, List.count_nil]
    omega
  · have hcount := ht.summons p hp x hx
    simp only [Function.update_apply]
    by_cases hpc : p = c
    · subst hpc
      by_cases hxs : x ∈ t.summons p
      · simp [hxs]
      · rw [List.count_eq_zero.2 hxs] at hcount
        simpa [hxs] using hcount
    · by_cases hxs : x ∈ t.summons c
      · simpa [hpc, hxs, ht.master_of_summons hc hxs, Ne.symm hpc] using hcount
      · simpa only [hpc, hxs, if_false] using hcount
  · dsimp only at hp
    split_ifs at hp
    exact ht.master x hx p hp
  · simp only [Function.update_apply] at hx
    split_ifs at hx
    · simp at hx
    · exact ht.placed p hp x hx

/-- Who is in the game stays in memory while references are let go. -/
theorem destroySummons_listed (s : State) (c : ℕ) (draw : ℕ → Fin 10) :
    (destroySummons s c draw).listed = s.listed := by
  obtain ⟨⟨-, -, -, hlisted⟩, -⟩ := foldl_changeHealth
    (fun s x => Creatures.changeHealth s x (-s.health x) (draw x)) (fun s x => ⟨_, _, rfl⟩) (s.summons c) s
  simp only [Creatures.destroySummons]
  rw [(release_keeps _ _).listed]
  exact hlisted

theorem Sound.death (h : Sound s work) (hc : c ∈ s.listed) (draw : ℕ → Fin 10) : Sound (death s c draw) work := by
  have hsummons := h.destroySummons (h.mem_of_listed hc) draw
  have htargets : Sound (clearTargetList (Creatures.destroySummons s c draw) c) work :=
    hsummons.dropTargets (hsummons.mem_of_listed (by rwa [destroySummons_listed])) _
  refine htargets.dropFriends (htargets.mem_of_listed ?_) _
  rwa [clearTargetList, (dropTargets_keeps _ c _).listed, destroySummons_listed]

/-- A summon that is taken from its master has none. -/
theorem removeSummon_master (hc : c ∈ s.summons m) : (removeSummon s m c).master c = none := by
  unfold removeSummon
  rw [if_pos hc]
  exact release_master _ _ (by simp)

theorem Sound.convinceCreature (h : Sound s work) (hm : m ∈ s.listed) (hc : c ∈ s.listed) (draw : ℕ → Fin 10) :
    Sound (convinceCreature s m c draw) work := by
  unfold Creatures.convinceCreature
  split
  · next hfree =>
    obtain ⟨hmem, hparent, -⟩ := h.mem_listed.1 hc
    exact (h.addSummon (h.mem_of_listed hm) hmem hfree hparent).destroySummons hmem draw
  · next old hold =>
    split
    · exact h
    · have hmem := h.mem_of_listed hc
      have hold' := h.master c hmem old hold
      have hsummon : c ∈ s.summons old := by
        have hcount := h.summons old hold' c hmem
        rw [if_pos hold] at hcount
        exact List.count_pos_iff.1 (by omega)
      have hleft := h.removeSummon hold' c
      have hlisted := (removeSummon_keeps s old c).listed
      rw [← hlisted] at hm hc
      obtain ⟨hmem', hparent, -⟩ := hleft.mem_listed.1 hc
      exact (hleft.addSummon (hleft.mem_of_listed hm) hmem' (removeSummon_master hsummon) hparent).destroySummons
        hmem' draw

/-- A reference that is counted is still to be let go, or to be kept. -/
theorem Sound.increment (h : Sound s work) (hc : c ∈ s.memory) : Sound (increment s c) (c :: work) := by
  refine { h with
    counted := h.counted.rebalance (fun _ _ _ => rfl) (fun x => ?_) fun x hx => h.live_increment hc hx }
  simp only [Creatures.increment, State.outside, count_cons_eq, Function.update_apply]
  split_ifs with hxc
  · rw [hxc]
    omega
  · omega

theorem removeSummon_toReleaseCreatures (s : State) (m c : ℕ) :
    (removeSummon s m c).toReleaseCreatures = s.toReleaseCreatures := by
  unfold removeSummon
  split
  · exact release_toReleaseCreatures _ _
  · rfl

/-- A summon that is in the game, or is still to be released, outlives its master's
reference to it. -/
theorem Sound.luaCreatureSetMaster (h : Sound s work) (hc : c ∈ s.listed ∨ c ∈ s.toReleaseCreatures) :
    Sound (luaCreatureSetMaster s c) work := by
  have hmem : c ∈ s.memory := by
    rcases hc with hc | hc
    · exact h.mem_of_listed hc
    · exact h.mem_of_toReleaseCreatures hc
  unfold Creatures.luaCreatureSetMaster
  split
  · exact h
  · next m hm =>
    have hleft := h.removeSummon (h.master c hmem m hm) c
    have hkept : c ∈ (Creatures.removeSummon s m c).memory := by
      rcases hc with hc | hc
      · apply hleft.mem_of_listed
        rwa [(removeSummon_keeps s m c).listed]
      · apply hleft.mem_of_toReleaseCreatures
        rwa [removeSummon_toReleaseCreatures]
    have hcounted := hleft.increment hkept
    refine { hcounted with
      counted := hcounted.counted.rebalance (fun _ _ _ => rfl) (fun x => ?_) hcounted.counted.live }
    simp only [State.outside, Creatures.increment, count_cons_eq]
    omega

theorem Sound.summon (h : Sound s work) (hm : m ∈ s.memory) (health : ℤ) (room : Bool) (i : Fin 10) :
    Sound (summon s m health room i) work := by
  have hnew := h.create .monster health
  have hc : s.next ∈ (Creatures.create s .monster health).memory := by simp [Creatures.create]
  have hm' : m ∈ (Creatures.create s .monster health).memory := by simp [Creatures.create, hm]
  have hfree : (Creatures.create s .monster health).master s.next = none := by simp [Creatures.create]
  have hparent : (Creatures.create s .monster health).hasParent s.next = false := by simp [Creatures.create]
  have hin : (Creatures.create s .monster health).inCheckCreaturesVector s.next = false := by
    simp [Creatures.create]
  simp only [Creatures.summon]
  generalize Creatures.create s .monster health = t at *
  generalize s.next = c at *
  split
  · -- the summon may as well be placed before it gets its master
    have hcomm : Creatures.placeCreature (Creatures.addSummon t m c) c i =
        Creatures.addSummon (Creatures.placeCreature t c i) m c := by
      simp [Creatures.placeCreature, Creatures.internalPlaceCreature, Creatures.addSummon,
        Creatures.addCreatureCheck, Creatures.increment, hparent, hin]
    have hmemory : (Creatures.placeCreature t c i).memory = t.memory ∧
        (Creatures.placeCreature t c i).master = t.master ∧
        (Creatures.placeCreature t c i).hasParent c = true := by
      simp [Creatures.placeCreature, Creatures.internalPlaceCreature, Creatures.addCreatureCheck,
        Creatures.increment, hparent, hin]
    obtain ⟨hmemory, hmaster, hplaced⟩ := hmemory
    rw [hcomm]
    refine (hnew.placeCreature hc i).addSummon ?_ ?_ ?_ hplaced
    · rwa [hmemory]
    · rwa [hmemory]
    · rwa [hmaster]
  · -- what is left of the summon is a reference that was counted
    have hlone : c ∉ t.summons m := by
      intro hmem
      have hplaced := hnew.placed m hm' c hmem
      simp [hparent] at hplaced
    have hundo : Creatures.removeSummon (Creatures.addSummon t m c) m c =
        Creatures.release (Creatures.increment t c) [c] := by
      have hmaster : Function.update t.master c none = t.master := by
        rw [← hfree, Function.update_eq_self]
      have herase : (t.summons m ++ [c]).erase c = t.summons m := by
        simp [List.erase_append_right _ hlone]
      simp [Creatures.removeSummon, Creatures.addSummon, Creatures.increment, herase, hmaster]
    rw [hundo]
    exact (hnew.increment hc).release

theorem Sound.cleanup (h : Sound s work) : Sound (cleanup s) work := by
  apply Sound.release
  refine { h with counted := h.counted.rebalance (fun _ _ _ => rfl) (fun x => ?_) h.counted.live }
  simp only [State.outside, List.count_append, List.count_nil]
  omega

theorem Sound.checkNext (h : Sound s work) : Sound (checkNext s) work := by
  unfold Creatures.checkNext
  split
  · exact h
  · next k hk =>
    split
    · exact h
    · next c hget =>
      split_ifs with hcheck
      · exact { h with }
      · obtain ⟨hlt, rfl⟩ := List.getElem?_eq_some_iff.1 hget
        generalize hl : s.checkCreatureLists s.index = l at *
        have hsum : ∀ x, ∑ j, (Function.update s.checkCreatureLists s.index (l.eraseIdx k) j).count x +
            (if x = l[k] then 1 else 0) = ∑ j, (s.checkCreatureLists j).count x := by
          intro x
          have hupdate := sum_update_count s.checkCreatureLists s.index (l.eraseIdx k) x
          have hperm := (List.getElem_cons_eraseIdx_perm hlt).count_eq x
          rw [count_cons_eq] at hperm
          rw [hl] at hupdate
          omega
        have hmem : l[k] ∈ s.memory := by
          apply h.counted.mem_of_outside
          have hx := hsum l[k]
          simp only [if_true] at hx
          unfold State.outside
          omega
        refine { h with
          counted := h.counted.rebalance (fun _ _ _ => rfl) (fun x => ?_) h.counted.live
          checked := fun x => ?_
          watched := fun x hx hw => ?_ }
        · have hx := hsum x
          simp only [ReleaseCreature, State.outside, count_concat] at hx ⊢
          omega
        · have hx := hsum x
          have hold := h.checked x
          change ∑ j, (Function.update s.checkCreatureLists s.index (l.eraseIdx k) j).count x =
            if x ∈ s.memory ∧ Function.update s.inCheckCreaturesVector l[k] false x = true then 1 else 0
          by_cases hxc : x = l[k]
          · rw [if_pos hxc] at hx
            rw [if_neg (by simp [hxc])]
            split_ifs at hold <;> omega
          · rw [if_neg hxc, add_zero] at hx
            rw [hx, Function.update_of_ne hxc]
            exact hold
        · simp only [ReleaseCreature, Function.update_apply] at hw ⊢
          have hxc : x ≠ l[k] := by
            rintro rfl
            exact hcheck hw
          rw [if_neg hxc]
          exact h.watched x hx hw

/-! ### Runs -/

theorem sound_act (h : Sound s []) {a : Act} (ha : possible s a) : Sound (act s a) [] := by
  cases a with
  | create kind health => exact h.create kind health
  | discard c => exact h.discard ha.1 ha.2
  | internalPlaceCreature c => exact h.internalPlaceCreature ha
  | placeCreature c i => exact h.placeCreature ha i
  | removeCreature c =>
    apply h.removeCreature
    intro x hx _
    rw [List.mem_singleton.1 hx]
    exact ha.2
  | setIdle c idle i => exact h.setIdle (h.mem_of_listed ha) (fun _ => ha) i
  | changeHealth c n i => exact h.changeHealth ha n i
  | addTarget o c pushFront => exact h.addTarget ha.1 ha.2 pushFront
  | removeTarget o c => exact h.dropTargets ha _
  | addFriend o c => exact h.addFriend ha.1 ha.2
  | removeFriend o c => exact h.dropFriends ha _
  | updateTargetList o unseen => exact h.updateTargetList ha unseen
  | onFollowCreatureComplete o c hasFollowPath => exact h.onFollowCreatureComplete ha c hasFollowPath
  | summon m health room i => exact h.summon ha health room i
  | convinceCreature m c draw => exact h.convinceCreature ha.1 ha.2 draw
  | luaCreatureSetMaster c => exact h.luaCreatureSetMaster ha
  | death c draw => exact h.death ha draw
  | leaveMaster c => exact h.leaveMaster (h.mem_of_listed ha)
  | hold c =>
    have hcounted := h.increment ha
    refine { hcounted with
      counted := hcounted.counted.rebalance (fun _ _ _ => rfl) (fun x => ?_) hcounted.counted.live }
    simp only [act, State.outside, increment, count_cons_eq, List.count_nil]
    omega
  | letGo c =>
    apply Sound.release
    refine { h with counted := h.counted.rebalance (fun _ _ _ => rfl) (fun x => ?_) h.counted.live }
    have hcount := (List.perm_cons_erase ha).count_eq x
    simp only [State.outside, List.append_nil, count_cons_eq, List.count_nil] at hcount ⊢
    omega
  | letGoLater c =>
    refine { h with counted := h.counted.rebalance (fun _ _ _ => rfl) (fun x => ?_) h.counted.live }
    have hcount := (List.perm_cons_erase ha).count_eq x
    simp only [act, ReleaseCreature, State.outside, count_cons_eq, count_concat] at hcount ⊢
    omega
  | cleanup => exact h.cleanup
  | checkCreatures => exact { h with }
  | checkNext => exact h.checkNext
  | checkEnd => exact { h.cleanup with }

theorem sound_step (h : Sound s []) (a : Act) : Sound (step s a) [] := by
  unfold step
  split
  · next ha => exact sound_act h ha
  · exact h

theorem sound_run (as : List Act) : Sound (Run.run step init as) [] :=
  Run.run_of_step (I := (Sound · [])) (fun _ a h => sound_step h a) as sound_init

/-- The addresses that are in use: in a list of the game, held from outside, or kept
by a creature that is in memory; and those that were referred to for nobody. -/
def State.used (s : State) (c : ℕ) : Prop :=
  c ∈ s.listed ∨ (∃ i, c ∈ s.checkCreatureLists i) ∨ c ∈ s.toReleaseCreatures ∨ c ∈ s.held ∨ c ∈ s.lost ∨
    ∃ o ∈ s.memory, c ∈ s.refs o

theorem Sound.used_iff (h : Sound s []) : s.used c ↔ s.referenceCounter c ≠ 0 := by
  rw [ne_eq, h.counted.count_eq_zero_iff]
  simp only [State.used, State.outside, List.count_nil, Nat.add_zero, Nat.add_eq_zero_iff, Finset.sum_eq_zero_iff,
    Finset.mem_univ, true_implies, List.count_eq_zero]
  constructor
  · rintro (hc | ⟨i, hc⟩ | hc | hc | hc | ⟨o, ho, hc⟩) hnone
    · exact hnone.1.1.1.1.1 hc
    · exact hnone.1.1.1.1.2 i hc
    · exact hnone.1.1.1.2 hc
    · exact hnone.1.1.2 hc
    · exact hnone.1.2 hc
    · exact hnone.2 o ho hc
  · intro hnone
    by_contra hunused
    simp only [not_or, not_exists, not_and] at hunused
    obtain ⟨hlisted, hchecks, hrelease, hheld, hlost, hrefs⟩ := hunused
    exact hnone ⟨⟨⟨⟨⟨hlisted, hchecks⟩, hrelease⟩, hheld⟩, hlost⟩, hrefs⟩

/-- **No creature is used after it has been deleted.** In every run the counter of a
creature is the number of references to it, lost ones among them, every list leads to
creatures in memory, and so does what a creature in memory points to as its master. -/
theorem never_dangling (as : List Act) : let s := Run.run step init as
    (∀ c, s.referenceCounter c = s.outside [] c + ∑ o ∈ s.memory, (s.refs o).count c) ∧
      (∀ c, s.used c → c ∈ s.memory) ∧ ∀ c ∈ s.memory, ∀ m, s.master c = some m → m ∈ s.memory := by
  have h := sound_run as
  refine ⟨h.counted.count_eq, fun c hc => ?_, h.master⟩
  exact h.counted.live c (h.used_iff.1 hc)

/-! ### Nobody is left behind -/

/-- A creature that has been in the game and whose counter is zero. -/
def State.Stray (s : State) (c : ℕ) : Prop :=
  c ∈ s.memory ∧ s.hasParent c = true ∧ s.referenceCounter c = 0

/-- No creature becomes a stray one. -/
def Tends (s s' : State) : Prop := ∀ c, s'.Stray c → s.Stray c

theorem Tends.refl (s : State) : Tends s s := fun _ h => h

theorem Tends.trans (h : Tends s s') (h' : Tends s' s'') : Tends s s'' := fun c hc => h c (h' c hc)

theorem tends_release (s : State) (work : List ℕ) : Tends s (release s work) := by
  fun_induction release s work with
  | case1 s => exact .refl s
  | case2 s c work hc hone ih =>
    intro x hx
    obtain ⟨hmem, hparent, hzero⟩ := ih x hx
    obtain ⟨hne, hmem⟩ := Finset.mem_erase.1 hmem
    exact ⟨hmem, hparent, by simpa [destroy, decrement, hne] using hzero⟩
  | case3 s c work hc hone ih =>
    intro x hx
    obtain ⟨hmem, hparent, hzero⟩ := ih x hx
    refine ⟨hmem, hparent, ?_⟩
    simp only [decrement, Function.update_apply] at hzero
    split_ifs at hzero with hxc
    · subst hxc
      omega
    · exact hzero
  | case4 s c work hc ih => exact ih

/-- What is referred to anew is no stray. -/
theorem tends_increment (s : State) (c : ℕ) : Tends s (increment s c) := by
  rintro x ⟨hmem, hparent, hzero⟩
  simp only [increment, Function.update_apply] at hzero
  split_ifs at hzero
  exact ⟨hmem, hparent, hzero⟩

theorem Tends.release (h : Tends s s') (work : List ℕ) : Tends s (release s' work) :=
  h.trans (tends_release s' work)

theorem tends_create (s : State) (kind : Kind) (health : ℤ) : Tends s (create s kind health) := by
  rintro x ⟨hmem, hparent, hzero⟩
  simp only [create, Finset.mem_insert, Function.update_apply] at hmem hparent hzero
  split_ifs at hparent hzero with hx
  exact ⟨hmem.resolve_left hx, hparent, hzero⟩

theorem tends_internalPlaceCreature (s : State) (c : ℕ) : Tends s (internalPlaceCreature s c) := by
  unfold internalPlaceCreature
  split
  · exact .refl s
  · rintro x ⟨hmem, hparent, hzero⟩
    simp only [increment, Function.update_apply] at hparent hzero
    split_ifs at hparent hzero
    exact ⟨hmem, hparent, hzero⟩

theorem tends_addCreatureCheck (s : State) (c : ℕ) (i : Fin 10) : Tends s (addCreatureCheck s c i) := by
  simp only [addCreatureCheck]
  split
  · exact .refl s
  · exact tends_increment s c

theorem tends_removeCreatureCheck (s : State) (c : ℕ) : Tends s (removeCreatureCheck s c) := by
  unfold removeCreatureCheck
  split <;> exact .refl s

theorem tends_placeCreature (s : State) (c : ℕ) (i : Fin 10) : Tends s (placeCreature s c i) := by
  unfold placeCreature
  split
  · exact .refl s
  · exact (tends_internalPlaceCreature s c).trans (tends_addCreatureCheck _ c i)

theorem tends_dropTargets (s : State) (o : ℕ) (q : ℕ → Bool) : Tends s (dropTargets s o q) := by
  apply Tends.release
  exact fun _ hc => hc

theorem tends_dropFriends (s : State) (o : ℕ) (q : ℕ → Bool) : Tends s (dropFriends s o q) := by
  apply Tends.release
  exact fun _ hc => hc

theorem tends_removeSummon (s : State) (m c : ℕ) : Tends s (removeSummon s m c) := by
  unfold removeSummon
  split
  · apply Tends.release
    exact fun _ hc => hc
  · exact .refl s

theorem tends_setIdle (s : State) (c : ℕ) (idle : Bool) (i : Fin 10) : Tends s (setIdle s c idle i) := by
  unfold setIdle
  split_ifs
  · exact .refl s
  · exact ((tends_dropTargets s c _).trans (tends_dropFriends _ c _)).trans (tends_removeCreatureCheck _ c)
  · exact tends_addCreatureCheck s c i

theorem tends_changeHealth (s : State) (c : ℕ) (n : ℤ) (i : Fin 10) : Tends s (changeHealth s c n i) := by
  simp only [changeHealth]
  split
  · exact tends_setIdle s c false i
  · exact .refl s

theorem tends_destroySummons (s : State) (c : ℕ) (draw : ℕ → Fin 10) : Tends s (destroySummons s c draw) := by
  have hfold : ∀ (l : List ℕ) (s : State),
      Tends s (l.foldl (fun s x => changeHealth s x (-s.health x) (draw x)) s) := by
    intro l
    induction l with
    | nil => exact .refl
    | cons x l ih => exact fun s => (tends_changeHealth s x _ _).trans (ih _)
  simp only [destroySummons]
  refine (hfold (s.summons c) s).trans ?_
  apply Tends.release
  exact fun _ hc => hc

theorem tends_leavePresentMaster (s : State) (c : ℕ) : Tends s (leavePresentMaster s c) := by
  unfold leavePresentMaster
  split
  · exact .refl s
  · split
    · exact .refl s
    · exact tends_removeSummon s _ c

theorem tends_leaveMaster (s : State) (c : ℕ) : Tends s (leaveMaster s c) := by
  unfold leaveMaster
  split
  · exact .refl s
  · exact tends_removeSummon s _ c

theorem tends_removeOne (s : State) (c : ℕ) : Tends s (removeOne s c) := by
  have hgone : Tends s (onRemoveCreature s c) := by
    simp only [onRemoveCreature]
    split
    · exact (tends_leavePresentMaster s c).trans (tends_setIdle _ c true 0)
    · exact tends_leavePresentMaster s c
  exact hgone.trans (tends_removeCreatureCheck _ c)

theorem tends_removeCreature (s : State) (l : List ℕ) : Tends s (removeCreature s l) := by
  fun_induction removeCreature s l with
  | case1 s => exact .refl s
  | case2 s c rest hc _ ih => exact (tends_removeOne s c).trans ih
  | case3 s c rest hc ih => exact ih

theorem tends_convinceCreature (s : State) (m c : ℕ) (draw : ℕ → Fin 10) :
    Tends s (convinceCreature s m c draw) := by
  have hadd : ∀ t, Tends t (addSummon t m c) := fun t => tends_increment t c
  unfold convinceCreature
  split
  · exact (hadd s).trans (tends_destroySummons _ c draw)
  · split
    · exact .refl s
    · exact ((tends_removeSummon s _ c).trans (hadd _)).trans (tends_destroySummons _ c draw)

theorem tends_luaCreatureSetMaster (s : State) (c : ℕ) : Tends s (luaCreatureSetMaster s c) := by
  simp only [luaCreatureSetMaster]
  split
  · exact .refl s
  · next m _ =>
    have hinc := tends_increment (removeSummon s m c) c
    exact (tends_removeSummon s m c).trans fun x hx => hinc x hx

theorem tends_summon (s : State) (m : ℕ) (health : ℤ) (room : Bool) (i : Fin 10) :
    Tends s (summon s m health room i) := by
  have hadd : Tends s (addSummon (create s .monster health) m s.next) :=
    fun x hx => tends_create s .monster health x (tends_increment _ s.next x hx)
  simp only [summon]
  split
  · exact hadd.trans (tends_placeCreature _ _ i)
  · exact hadd.trans (tends_removeSummon _ m _)

theorem tends_cleanup (s : State) : Tends s (cleanup s) := by
  apply Tends.release
  exact fun _ hc => hc

theorem tends_act (s : State) (a : Act) : Tends s (act s a) := by
  cases a with
  | create kind health => exact tends_create s kind health
  | discard c =>
    apply Tends.release
    exact fun x hx => ⟨Finset.mem_of_mem_erase hx.1, hx.2⟩
  | internalPlaceCreature c => exact tends_internalPlaceCreature s c
  | placeCreature c i => exact tends_placeCreature s c i
  | removeCreature c => exact tends_removeCreature s [c]
  | setIdle c idle i => exact tends_setIdle s c idle i
  | changeHealth c n i => exact tends_changeHealth s c n i
  | addTarget o c pushFront =>
    simp only [act, addTarget]
    split
    · exact .refl s
    · exact tends_increment s c
  | removeTarget o c => exact tends_dropTargets s o _
  | addFriend o c =>
    simp only [act, addFriend]
    split
    · exact .refl s
    · exact tends_increment s c
  | removeFriend o c => exact tends_dropFriends s o _
  | updateTargetList o unseen => exact (tends_dropFriends s o _).trans (tends_dropTargets _ o _)
  | onFollowCreatureComplete o c hasFollowPath =>
    simp only [act, onFollowCreatureComplete]
    split_ifs
    · exact .refl s
    · exact .refl s
    · apply Tends.release
      exact fun _ hc => hc
    · exact .refl s
  | summon m health room i => exact tends_summon s m health room i
  | convinceCreature m c draw => exact tends_convinceCreature s m c draw
  | luaCreatureSetMaster c => exact tends_luaCreatureSetMaster s c
  | death c draw =>
    exact ((tends_destroySummons s c draw).trans (tends_dropTargets _ c _)).trans (tends_dropFriends _ c _)
  | leaveMaster c => exact tends_leaveMaster s c
  | hold c => exact tends_increment s c
  | letGo c =>
    apply Tends.release
    exact fun _ hc => hc
  | letGoLater c => exact .refl s
  | cleanup => exact tends_cleanup s
  | checkCreatures => exact .refl s
  | checkNext =>
    simp only [act, checkNext]
    split
    · exact .refl s
    · split
      · exact .refl s
      · split <;> exact .refl s
  | checkEnd => exact tends_cleanup s

/-- In no state of a run is there a stray creature. -/
theorem no_stray (as : List Act) (c : ℕ) : ¬ (Run.run step init as).Stray c := by
  refine Run.run_of_step (I := fun s : State => ¬ s.Stray c) (fun s a h hc => h ?_) as ?_
  · unfold step at hc
    split at hc
    · exact tends_act s a c hc
    · exact hc
  · rintro ⟨hmem, -⟩
    simp [init] at hmem

/-- **A creature is deleted when the last reference to it goes.** In every run, who
has been in the game is in memory for as long as somebody refers to it, or a reference
to it was lost. -/
theorem in_memory_iff_used (as : List Act) {c : ℕ} (hc : (Run.run step init as).hasParent c = true) :
    c ∈ (Run.run step init as).memory ↔ (Run.run step init as).used c := by
  have h := sound_run as
  rw [h.used_iff]
  constructor
  · intro hmem hzero
    exact no_stray as c ⟨hmem, hc, hzero⟩
  · exact h.counted.live c

/-- A monster is placed, and checked in the first of the ten lists. -/
def rat : List Act := [.create .monster 20, .placeCreature 0 ⟨0, Nat.succ_pos 9⟩]

theorem in_memory_iff_used_rat : 0 ∈ (Run.run step init rat).memory ↔ (Run.run step init rat).used 0 :=
  in_memory_iff_used rat (by decide)

end Creatures
end ForgottenServer
