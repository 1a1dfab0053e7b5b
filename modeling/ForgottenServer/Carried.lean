/-
# What a player carries

The items in the slots of a player and all that lies in them at any depth: the
slots and the iterators of the containers go through them, through each once.

Key definitions: `Owned`, `State.carried`.
Key theorems: `Owned.sum_slots`, `Owned.carried_detach`.
-/
import ForgottenServer.Lib.BreadthFirst
import ForgottenServer.ContainerChanges
import ForgottenServer.InventoryWeight

namespace ForgottenServer
namespace Inventory

open Ancestry Nesting BreadthFirst Relation State

variable {s s' : State} {p : CreatureId} {q r x : Ref} {c : Cylinder}

/-! ### The iterator of a container -/

namespace State

theorem iterate_eq_walk (s : State) : ∀ (n : ℕ) (queue : List Ref),
    s.iterate n queue = walk (fun q => (s.things q).itemlist)
      (fun x => s.isContainer x && !(s.things x).itemlist.isEmpty) n queue
  | 0, _ => rfl
  | _ + 1, [] => rfl
  | n + 1, _ :: _ => congrArg _ (iterate_eq_walk s n _)

/-- Fewer things lie inside than there are. -/
theorem card_inside_lt (s : State) (q : Ref) : (inside (Finset.range s.next) s.holder q).card < s.next + 1 := by
  classical
  have hle : (inside (Finset.range s.next) s.holder q).card ≤ (Finset.range s.next).card :=
    Finset.card_filter_le _ _
  rw [Finset.card_range] at hle
  exact Nat.lt_succ_of_le hle

/-- The iterator goes through all that lies inside, through each item once. -/
theorem Forest.iterator_coe (h : s.Forest) (q : Ref) :
    (s.iterator q : Multiset Ref) = (inside (Finset.range s.next) s.holder q).val := by
  have hopens (x : Ref) (hx : (s.isContainer x && !(s.things x).itemlist.isEmpty) = false) :
      (s.things x).itemlist = [] := by
    cases hc : s.isContainer x with
    | false => exact h.itemlist_of_not_container hc
    | true =>
      rw [hc, Bool.true_and, Bool.not_eq_false'] at hx
      exact List.isEmpty_iff.1 hx
  unfold iterator
  rw [iterate_eq_walk]
  exact walk_coe h.nested h.mem_iff_holder h.nodup hopens (card_inside_lt s q)

theorem Forest.sum_iterator {M : Type*} [AddCommMonoid M] (h : s.Forest) (q : Ref) (f : Ref → M) :
    ((s.iterator q).map f).sum = ∑ x ∈ inside (Finset.range s.next) s.holder q, f x := by
  rw [← Multiset.sum_coe, ← Multiset.map_coe, h.iterator_coe]
  rfl

/-- Nothing lies in what is no container. -/
theorem Forest.sum_inside_of_not_container {M : Type*} [AddCommMonoid M] (h : s.Forest) (hq : s.isContainer q = false)
    (f : Ref → M) : ∑ x ∈ inside (Finset.range s.next) s.holder q, f x = 0 :=
  sum_inside_of_nil h.nested h.mem_iff_holder h.nodup (h.itemlist_of_not_container hq) f

end State

/-! ### All that is carried -/

/-- The slots of a player hold items of that player, each in one slot. -/
structure Owned (s : State) (p : CreatureId) : Prop where
  forest : s.Forest
  nodup : (s.contents (.player p)).Nodup
  parent : ∀ r ∈ s.contents (.player p), s.parent r = some (.player p)
  lt : ∀ r ∈ s.contents (.player p), r < s.next

/-- The items in the slots and all that lies in them. -/
noncomputable def State.carried (s : State) (p : CreatureId) : Finset Ref :=
  below (Finset.range s.next) s.holder (s.contents (.player p))

namespace Owned

theorem mem_carried (h : Owned s p) :
    x ∈ s.carried p ↔ ∃ r ∈ s.contents (.player p), ReflTransGen (Parent s.holder) x r :=
  mem_below h.forest.nested

theorem holder_eq_none (h : Owned s p) (hr : r ∈ s.contents (.player p)) : s.holder r = none := by
  unfold State.holder
  rw [h.parent r hr]

/-- A sum over all that is carried goes over the slots and the iterators. -/
theorem sum_carried {M : Type*} [AddCommMonoid M] (h : Owned s p) (f : Ref → M) :
    ∑ x ∈ s.carried p, f x = ((s.contents (.player p)).map fun r => f r + ((s.iterator r).map f).sum).sum := by
  have hroot {r r' : Ref} (hr : r ∈ s.contents (.player p)) (hup : ReflTransGen (Parent s.holder) r r') : r = r' := by
    rcases ReflTransGen.cases_head hup with he | ⟨y, hy, -⟩
    · exact he
    · exact nomatch (h.holder_eq_none hr).symm.trans hy
  have happart : ∀ r ∈ s.contents (.player p), ∀ r' ∈ s.contents (.player p), ∀ x,
      ReflTransGen (Parent s.holder) x r → ReflTransGen (Parent s.holder) x r' → r = r' := by
    intro r hr r' hr' x hx hx'
    rcases holds_total hx hx' with hup | hup
    · exact hroot hr hup
    · exact (hroot hr' hup).symm
  unfold State.carried
  rw [sum_below h.forest.nested f h.nodup happart]
  exact congrArg List.sum (List.map_congr_left fun r _ => by rw [h.forest.sum_iterator])

/-! ### What is taken out and what is changed -/

theorem of_bare (h : Owned s p) (hbare : s'.bare = s.bare) : Owned s' p where
  forest := h.forest.of_bare hbare
  nodup := by
    rw [congr_bare (f := State.contents) contents_bare hbare]
    exact h.nodup
  parent r hr := by
    rw [congr_bare (f := State.contents) contents_bare hbare] at hr
    rw [congr_bare (f := State.parent) parent_bare hbare]
    exact h.parent r hr
  lt r hr := by
    rw [congr_bare (f := State.contents) contents_bare hbare] at hr
    rw [congr_bare (f := State.next) next_bare hbare]
    exact h.lt r hr

theorem setItem (h : Owned s p) {it : Item} (hcls : it.cls = (s.item r).cls) : Owned (s.setItem r it) p where
  forest := h.forest.setItem hcls
  nodup := h.nodup
  parent x hx := by
    rw [parent_setItem]
    exact h.parent x hx
  lt := h.lt

/-- Where a carried item lies. -/
theorem parent_of_mem (h : Owned s p) (hr : r ∈ s.carried p) :
    s.parent r = some (.player p) ∧ r ∈ s.contents (.player p) ∨
      ∃ q, s.parent r = some (.container q) ∧ r ∈ s.contents (.container q) := by
  obtain ⟨r', hr', hup⟩ := h.mem_carried.1 hr
  rcases ReflTransGen.cases_head hup with rfl | ⟨q, hq, -⟩
  · exact .inl ⟨h.parent r hr', hr'⟩
  · have hparent : s.parent r = some (.container q) := holder_eq_some.1 hq
    exact .inr ⟨q, hparent, (h.forest.mem_itemlist q r).2 hparent⟩

theorem exists_parent (h : Owned s p) (hr : r ∈ s.carried p) : ∃ c, s.parent r = some c := by
  rcases h.parent_of_mem hr with ⟨hparent, -⟩ | ⟨q, hparent, -⟩
  · exact ⟨_, hparent⟩
  · exact ⟨_, hparent⟩

end Owned

/-- A slot is emptied. -/
theorem perm_filterMap_update {f : ℕ → Option Ref} {i : ℕ} (hf : f i = some r) : ∀ {l : List ℕ}, l.Nodup → i ∈ l →
    (l.filterMap f).Perm (r :: l.filterMap (Function.update f i none))
  | a :: l, hl, hi => by
    rw [List.nodup_cons] at hl
    by_cases ha : a = i
    · subst ha
      have hrest : l.filterMap (Function.update f a none) = l.filterMap f := by
        refine List.filterMap_congr fun x hx => Function.update_of_ne ?_ _ _
        rintro rfl
        exact hl.1 hx
      rw [List.filterMap_cons_some hf, List.filterMap_cons_none (Function.update_self ..), hrest]
    · have ih := perm_filterMap_update hf hl.2 ((List.mem_cons.1 hi).resolve_left (Ne.symm ha))
      have hupdate : Function.update f i none a = f a := Function.update_of_ne ha ..
      cases hfa : f a with
      | none => rwa [List.filterMap_cons_none hfa, List.filterMap_cons_none (hupdate.trans hfa)]
      | some x =>
        rw [List.filterMap_cons_some hfa, List.filterMap_cons_some (hupdate.trans hfa)]
        exact (ih.cons x).trans (.swap ..)

/-- The slot that a player has an item in. -/
theorem State.detach_player (hr : r ∈ s.contents (.player p)) : ∃ i ∈ slots, (s.players p).inventory i = some r ∧
    s.detach r (.player p) = (s.setParent r none).setSlot p i none := by
  obtain ⟨j, hj, hrj⟩ := mem_contents_player.1 hr
  have hsome : (slots.find? fun i => (s.players p).inventory i = some r).isSome := by
    rw [List.find?_isSome]
    exact ⟨j, hj, by simpa using hrj⟩
  obtain ⟨i, hi⟩ := Option.isSome_iff_exists.1 hsome
  refine ⟨i, List.mem_of_find?_eq_some hi, by simpa using List.find?_some hi, ?_⟩
  unfold detach
  dsimp only
  rw [hi]

/-- What a player is left with when an item leaves a slot. -/
theorem State.perm_contents_detach (hr : r ∈ s.contents (.player p)) :
    (s.contents (.player p)).Perm (r :: (s.detach r (.player p)).contents (.player p)) := by
  obtain ⟨i, hi, hri, hdetach⟩ := detach_player hr
  have hcontents : (s.detach r (.player p)).contents (.player p) =
      slots.filterMap (Function.update (s.players p).inventory i none) := by
    rw [hdetach]
    unfold contents setSlot setPlayer
    dsimp only
    rw [Function.update_self]
    rfl
  rw [hcontents]
  exact perm_filterMap_update hri (List.nodup_range' ..) hi

namespace Owned

/-- An item that leaves a slot or a container lies in no container, and the slots
hold the others. -/
theorem detach (h : Owned s p) (hr : r ∈ s.carried p) (hc : s.parent r = some c) :
    Owned (s.detach r c) p ∧ (s.detach r c).holder = Function.update s.holder r none ∧
      ∀ x, x ∈ (s.detach r c).contents (.player p) ↔ x ≠ r ∧ x ∈ s.contents (.player p) := by
  rcases h.parent_of_mem hr with ⟨hparent, hmem⟩ | ⟨q, hparent, hmem⟩
  · obtain rfl := Option.some.inj (hc.symm.trans hparent)
    have hperm := perm_contents_detach hmem
    have hnodup := List.nodup_cons.1 (hperm.nodup_iff.1 h.nodup)
    have hiff (x : Ref) : x ∈ (s.detach r (.player p)).contents (.player p) ↔
        x ≠ r ∧ x ∈ s.contents (.player p) := by
      rw [hperm.mem_iff, List.mem_cons]
      constructor
      · intro hx
        refine ⟨?_, .inr hx⟩
        rintro rfl
        exact hnodup.1 hx
      · exact fun hx => hx.2.resolve_left hx.1
    have hroot := h.holder_eq_none hmem
    obtain ⟨i, -, -, hdetach⟩ := detach_player hmem
    have hthings : (s.detach r (.player p)).things = (s.setParent r none).things := by
      rw [hdetach]
      rfl
    have hforest : (s.setParent r none).Forest := h.forest.setParent_root hroot fun q e => nomatch e
    have hparents : (s.detach r (.player p)).parent = (s.setParent r none).parent := by
      unfold State.parent
      rw [hthings]
    have hholder : (s.detach r (.player p)).holder = s.holder := by
      have hsame : (s.setParent r none).holder = s.holder := holder_setParent_root hroot fun q e => nomatch e
      rw [← hsame]
      unfold State.holder
      rw [hparents]
    refine ⟨⟨hforest.of_things hthings (s.next_detach r _), hnodup.2, fun x hx => ?_, fun x hx => ?_⟩, ?_, hiff⟩
    · obtain ⟨hne, hx⟩ := (hiff x).1 hx
      rw [hparents, parent_setParent, if_neg hne]
      exact h.parent x hx
    · rw [next_detach]
      exact h.lt x ((hiff x).1 hx).2
    · rw [hholder, ← hroot, Function.update_eq_self]
  · obtain rfl := Option.some.inj (hc.symm.trans hparent)
    have htaken : Taken s (s.detach r (.container q)) q r := taken_setParent (List.perm_cons_erase hmem).symm
    have hne {x : Ref} (hx : x ∈ s.contents (.player p)) : x ≠ r := by
      rintro rfl
      exact nomatch hparent.symm.trans (h.parent x hx)
    refine ⟨⟨h.forest.take htaken, h.nodup, fun x hx => ?_, h.lt⟩, ?_, fun x =>
      ⟨fun hx => ⟨hne hx, hx⟩, And.right⟩⟩
    · rw [htaken.parent, Function.update_of_ne (hne hx)]
      exact h.parent x hx
    · funext x
      unfold State.holder
      rw [htaken.parent]
      by_cases hx : x = r
      · subst hx
        rw [Function.update_self, Function.update_self]
      · rw [Function.update_of_ne hx, Function.update_of_ne hx]

/-- Where only `r` changes its place, and holds nothing, the rest is carried as before. -/
theorem mem_carried_of_ne (h : Owned s p) (h' : Owned s' p) (hleaf : ∀ x, s.holder x ≠ some r)
    (hholder : ∀ x, x ≠ r → s'.holder x = s.holder x)
    (hcontents : ∀ x, x ≠ r → x ∈ s.contents (.player p) → x ∈ s'.contents (.player p)) (hne : x ≠ r)
    (hx : x ∈ s.carried p) : x ∈ s'.carried p := by
  obtain ⟨a, ha, hup⟩ := h.mem_carried.1 hx
  have hold {b : Ref} (hup : ReflTransGen (Parent s.holder) x b) : ReflTransGen (Parent s'.holder) x b ∧ b ≠ r := by
    induction hup with
    | refl => exact ⟨.refl, hne⟩
    | @tail y z _ hyz ih =>
      refine ⟨ih.1.tail ?_, ?_⟩
      · unfold Parent
        rw [hholder y ih.2]
        exact hyz
      · rintro rfl
        exact hleaf y hyz
  exact h'.mem_carried.2 ⟨a, hcontents a (hold hup).2 ha, (hold hup).1⟩

/-- What is no container holds nothing. -/
theorem holder_ne (h : Owned s p) (hleaf : s.isContainer r = false) (x : Ref) : s.holder x ≠ some r := fun hx =>
  Bool.false_ne_true (hleaf.symm.trans (h.forest.isContainer r x (holder_eq_some.1 hx)))

/-- What is no container leaves: the rest is carried as before. -/
theorem carried_detach (h : Owned s p) (hr : r ∈ s.carried p) (hc : s.parent r = some c)
    (hleaf : s.isContainer r = false) : (s.detach r c).carried p = (s.carried p).erase r := by
  obtain ⟨howned, hholder, hcontents⟩ := h.detach hr hc
  have hsame (y : Ref) (hy : y ≠ r) : (s.detach r c).holder y = s.holder y := by
    rw [hholder, Function.update_of_ne hy]
  have hleaf' (y : Ref) : (s.detach r c).holder y ≠ some r := by
    by_cases hy : y = r
    · rw [hholder, hy, Function.update_self]
      exact fun e => nomatch e
    · rw [hsame y hy]
      exact h.holder_ne hleaf y
  have hout : r ∉ (s.detach r c).carried p := by
    intro hmem
    obtain ⟨a, ha, hup⟩ := howned.mem_carried.1 hmem
    rcases ReflTransGen.cases_head hup with he | ⟨y, hy, -⟩
    · exact ((hcontents a).1 ha).1 he.symm
    · unfold Parent at hy
      rw [hholder, Function.update_self] at hy
      exact nomatch hy
  ext x
  rw [Finset.mem_erase]
  constructor
  · intro hx
    have hne : x ≠ r := by
      rintro rfl
      exact hout hx
    exact ⟨hne, howned.mem_carried_of_ne h hleaf' (fun y hy => (hsame y hy).symm)
      (fun y _ hy => ((hcontents y).1 hy).2) hne hx⟩
  · rintro ⟨hne, hx⟩
    exact h.mem_carried_of_ne howned (h.holder_ne hleaf) hsame (fun y hy hmem => (hcontents y).2 ⟨hy, hmem⟩) hne hx

/-- What is carried depends on the slots and the holders. -/
theorem carried_congr (h : Owned s p) (h' : Owned s' p)
    (hcontents : s'.contents (.player p) = s.contents (.player p)) (hholder : s'.holder = s.holder) :
    s'.carried p = s.carried p := by
  ext x
  rw [h.mem_carried, h'.mem_carried, hcontents, hholder]

/-- A new object belongs to nobody. -/
theorem create (h : Owned s p) (it : Item) (n : UInt16) :
    Owned (s.create it n) p ∧ (s.create it n).carried p = s.carried p := by
  have howned : Owned (s.create it n) p := by
    refine ⟨create_forest h.forest it n, h.nodup, fun r hr => ?_, fun r hr => (h.lt r hr).trans (Nat.lt_succ_self _)⟩
    unfold State.parent
    rw [things_create, if_neg (h.lt r hr).ne]
    exact h.parent r hr
  exact ⟨howned, h.carried_congr howned rfl (holder_create h.forest it n)⟩

/-- What lies nowhere is not carried. -/
theorem notMem_carried (h : Owned s p) (hr : s.parent r = none) : r ∉ s.carried p := by
  intro hmem
  rcases h.parent_of_mem hmem with ⟨hparent, -⟩ | ⟨q, hparent, -⟩
  · exact nomatch hr.symm.trans hparent
  · exact nomatch hr.symm.trans hparent

/-- What is no container comes to lie among what is carried. -/
theorem carried_of_new (h : Owned s p) (h' : Owned s' p) (hleaf : s.isContainer r = false)
    (hleaf' : s'.isContainer r = false) (hr : s.parent r = none) (hmem : r ∈ s'.carried p)
    (hholder : ∀ x, x ≠ r → s'.holder x = s.holder x)
    (hcontents : ∀ x, x ≠ r → (x ∈ s'.contents (.player p) ↔ x ∈ s.contents (.player p))) :
    s'.carried p = insert r (s.carried p) := by
  ext x
  rw [Finset.mem_insert]
  constructor
  · intro hx
    by_cases hne : x = r
    · exact .inl hne
    · exact .inr (h'.mem_carried_of_ne h (h'.holder_ne hleaf') (fun y hy => (hholder y hy).symm)
        (fun y hy => (hcontents y hy).1) hne hx)
  · rintro (rfl | hx)
    · exact hmem
    · have hne : x ≠ r := by
        rintro rfl
        exact h.notMem_carried hr hx
      exact h.mem_carried_of_ne h' (h.holder_ne hleaf) hholder (fun y hy => (hcontents y hy).2) hne hx

/-- An item is put into a container. -/
theorem put (h : Owned s p) (hr : s.parent r = none) (hleaf : s.isContainer r = false) (hfits : s.Fits q r)
    (hq : q ∈ s.carried p) (hput : Put s s' q r)
    (hcontents : s'.contents (.player p) = s.contents (.player p)) :
    Owned s' p ∧ s'.carried p = insert r (s.carried p) := by
  have hne {x : Ref} (hx : x ∈ s.contents (.player p)) : x ≠ r := by
    rintro rfl
    exact nomatch hr.symm.trans (h.parent x hx)
  have howned : Owned s' p := by
    refine ⟨h.forest.put hfits hput, hcontents ▸ h.nodup, fun x hx => ?_, fun x hx => ?_⟩
    · rw [hcontents] at hx
      rw [hput.parent, Function.update_of_ne (hne hx)]
      exact h.parent x hx
    · rw [hcontents] at hx
      rw [hput.next]
      exact h.lt x hx
  have hholder : s'.holder = Function.update s.holder r (some q) := holder_of_parent hput.parent
  have hsame (x : Ref) (hx : x ≠ r) : s'.holder x = s.holder x := by
    rw [hholder, Function.update_of_ne hx]
  have hleaf' : s'.isContainer r = false := by
    rw [isContainer_congr hput.item]
    exact hleaf
  refine ⟨howned, h.carried_of_new howned hleaf hleaf' hr ?_ hsame fun x _ => by rw [hcontents]⟩
  have hqr : q ≠ r := by
    rintro rfl
    exact h.notMem_carried hr hq
  have hq' : q ∈ s'.carried p :=
    h.mem_carried_of_ne howned (h.holder_ne hleaf) hsame (fun x _ hx => hcontents ▸ hx) hqr hq
  obtain ⟨a, ha, hup⟩ := howned.mem_carried.1 hq'
  have hhead : Parent s'.holder r q := by
    unfold Parent
    rw [hholder, Function.update_self]
  exact howned.mem_carried.2 ⟨a, ha, hup.head hhead⟩

/-- An item is put into a free slot. -/
theorem equip (h : Owned s p) (hr : s.parent r = none) (hleaf : s.isContainer r = false) (hlt : r < s.next) {i : ℕ}
    (hi : i ∈ slots) (hfree : (s.players p).inventory i = none) :
    Owned ((s.setParent r (some (.player p))).setSlot p i (some r)) p ∧
      ((s.setParent r (some (.player p))).setSlot p i (some r)).carried p = insert r (s.carried p) := by
  generalize hs' : (s.setParent r (some (.player p))).setSlot p i (some r) = s'
  have hthings : s'.things = (s.setParent r (some (.player p))).things := hs' ▸ rfl
  have hroot : s.holder r = none := by
    unfold State.holder
    rw [hr]
  have hnot : ∀ q, some (Cylinder.player p) ≠ some (.container q) := fun q e => nomatch e
  have hparent : s'.parent = (s.setParent r (some (.player p))).parent := by
    unfold State.parent
    rw [hthings]
  have hholder : s'.holder = s.holder := by
    rw [← holder_setParent_root hroot hnot]
    unfold State.holder
    rw [hparent]
  have hcontents : s'.contents (.player p) =
      slots.filterMap (Function.update (s.players p).inventory i (some r)) := by
    rw [← hs']
    unfold contents setSlot setPlayer
    dsimp only
    rw [Function.update_self]
    rfl
  have hperm : (s'.contents (.player p)).Perm (r :: s.contents (.player p)) := by
    have hold : Function.update (Function.update (s.players p).inventory i (some r)) i none =
        (s.players p).inventory := by
      rw [Function.update_idem, ← hfree, Function.update_eq_self]
    have hsome : Function.update (s.players p).inventory i (some r) i = some r := Function.update_self ..
    have hfilter := perm_filterMap_update hsome (List.nodup_range' ..) hi
    rw [hold] at hfilter
    rw [hcontents]
    exact hfilter
  have hout : r ∉ s.contents (.player p) := fun hmem => nomatch hr.symm.trans (h.parent r hmem)
  have howned : Owned s' p := by
    refine ⟨(h.forest.setParent_root hroot hnot).of_things hthings (hs' ▸ rfl), ?_, fun x hx => ?_, fun x hx => ?_⟩
    · rw [hperm.nodup_iff, List.nodup_cons]
      exact ⟨hout, h.nodup⟩
    · rw [hparent, parent_setParent]
      split
      · rfl
      · next hne => exact h.parent x ((List.mem_cons.1 (hperm.mem_iff.1 hx)).resolve_left hne)
    · have hnext : s'.next = s.next := hs' ▸ rfl
      rw [hnext]
      rcases List.mem_cons.1 (hperm.mem_iff.1 hx) with rfl | hx
      · exact hlt
      · exact h.lt x hx
  have hleaf' : s'.isContainer r = false := by
    have hitem : s'.item = s.item := hs' ▸ s.item_setParent r _
    rw [isContainer_congr hitem]
    exact hleaf
  refine ⟨howned, h.carried_of_new howned hleaf hleaf' hr ?_ (fun x _ => by rw [hholder]) fun x hx => ?_⟩
  · exact howned.mem_carried.2 ⟨r, hperm.mem_iff.2 List.mem_cons_self, .refl⟩
  · rw [hperm.mem_iff, List.mem_cons]
    exact or_iff_right hx

/-- A sum over all that is carried, as the loop over the slots makes it. -/
theorem sum_slots {M : Type*} [AddCommMonoid M] (h : Owned s p) (f : Ref → M) :
    (slots.map fun i =>
      match (s.players p).inventory i with
      | none => 0
      | some r => f r + if s.isContainer r then ((s.iterator r).map f).sum else 0).sum = ∑ x ∈ s.carried p, f x := by
  have hslots (l : List ℕ) : (l.map fun i =>
      match (s.players p).inventory i with
      | none => 0
      | some r => f r + if s.isContainer r then ((s.iterator r).map f).sum else 0).sum =
        ((l.filterMap (s.players p).inventory).map fun r => f r + ((s.iterator r).map f).sum).sum := by
    induction l with
    | nil => rfl
    | cons i l ih =>
      rw [List.map_cons, List.sum_cons, ih]
      cases hi : (s.players p).inventory i with
      | none => rw [List.filterMap_cons_none hi, zero_add]
      | some r =>
        rw [List.filterMap_cons_some hi, List.map_cons, List.sum_cons]
        dsimp only
        cases hc : s.isContainer r with
        | true => rw [if_pos rfl]
        | false =>
          have hnone : ((s.iterator r).map f).sum = 0 := by
            rw [h.forest.sum_iterator, h.forest.sum_inside_of_not_container hc]
          rw [hnone, if_neg Bool.false_ne_true]
  rw [h.sum_carried, hslots]
  rfl

end Owned

namespace State.Wf

variable {items : UInt16 → ItemType}

theorem forest (h : s.Wf items) : s.Forest where
  mem_itemlist q r := h.mem_contents (.container q) r
  nodup q := h.nodup (.container q)
  isContainer q r hr := (h.container q r hr).1
  nested := by
    obtain ⟨depth, hdepth⟩ := h.depth
    refine ⟨fun {q r} hr => ?_, fun r hr => ?_⟩
    · have hparent := holder_eq_some.1 hr
      have hsome : s.parent r ≠ none := fun e => nomatch hparent.symm.trans e
      exact ⟨Finset.mem_range.2 (h.container q r hparent).2, Finset.mem_range.2 (h.fresh r hsome)⟩
    · have hup {x y : Ref} (hxy : TransGen (Parent s.holder) x y) : depth y < depth x := by
        induction hxy with
        | single hxy => exact (hdepth _ _ (holder_eq_some.1 hxy)).1
        | tail _ hyz ih => exact (hdepth _ _ (holder_eq_some.1 hyz)).1.trans ih
      exact lt_irrefl _ (hup hr)

theorem owned (h : s.Wf items) (p : CreatureId) : Owned s p where
  forest := h.forest
  nodup := h.nodup (.player p)
  parent r hr := (h.mem_contents (.player p) r).1 hr
  lt r hr := h.fresh r fun e => nomatch ((h.mem_contents (.player p) r).1 hr).symm.trans e

end State.Wf

end Inventory
end ForgottenServer
