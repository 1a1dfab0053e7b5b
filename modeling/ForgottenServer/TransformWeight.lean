/-
# The weights after an item is transformed

All ways to transform an item in a container but one keep the equation of the
total weights. The one is the change in place into a type of another group: the
subtype is set to its default first, and the container takes the weight of that
for the old one.

Key definitions: `Sound`, `KeepsWeight`.
Key theorems: `Weighed.change_iff`, `transformItem_weighed_iff`.
-/
import ForgottenServer.InventoryWeight
import ForgottenServer.RemoveItem

namespace ForgottenServer
namespace Inventory

open Ancestry Nesting Relation State Sum32

/-- The forest and the equation of the total weights. -/
structure Sound (items : UInt16 → ItemType) (s : State) : Prop where
  forest : s.Forest
  weighed : s.Weighed items

section Frames

variable {cfg : Config} {s s' : State} {q r x : Ref} {p : CreatureId} {c : Cylinder}

theorem weighed_of_things {items : UInt16 → ItemType} (hthings : s'.things = s.things) (h : s.Weighed items) :
    s'.Weighed items := by
  intro q hq
  have hitem : s'.item = s.item := by
    unfold State.item
    rw [hthings]
  have hweight : s'.getWeight items = s.getWeight items := by
    funext x
    unfold getWeight
    rw [isContainer_congr hitem, hitem, hthings]
  rw [isContainer_congr hitem] at hq
  rw [hthings, hweight]
  exact h q hq

theorem Sound.of_things {items : UInt16 → ItemType} (h : Sound items s) (hthings : s'.things = s.things)
    (hnext : s'.next = s.next) : Sound items s' where
  forest := h.forest.of_things hthings hnext
  weighed := weighed_of_things hthings h.weighed

/-- An item in no container may be changed. -/
theorem Sound.setItem_root {items : UInt16 → ItemType} (h : Sound items s) (hr : s.holder r = none) {it : Item}
    (hcls : it.cls = (s.item r).cls) : Sound items (s.setItem r it) where
  forest := h.forest.setItem hcls
  weighed q hq := by
    rw [isContainer_setItem hcls] at hq
    rw [totalWeight_setItem, itemlist_setItem, h.weighed q hq]
    refine congrArg List.sum (List.map_congr_left fun x hx => ?_)
    have hne : x ≠ r := by
      rintro rfl
      exact nomatch hr.symm.trans ((h.forest.mem_iff_holder q x).1 hx)
    unfold getWeight
    rw [isContainer_setItem hcls, item_setItem, if_neg hne, totalWeight_setItem]

/-- An item in no container may come to lie elsewhere but in one. -/
theorem Sound.setParent_root {items : UInt16 → ItemType} (h : Sound items s) (hr : s.holder r = none)
    {c : Option Cylinder} (hc : ∀ q, c ≠ some (.container q)) : Sound items (s.setParent r c) where
  forest := h.forest.setParent_root hr hc
  weighed q hq := by
    have hcont : (s.setParent r c).isContainer = s.isContainer := isContainer_congr (s.item_setParent r c)
    rw [hcont] at hq
    rw [totalWeight_setParent, itemlist_setParent, h.weighed q hq]
    refine congrArg List.sum (List.map_congr_left fun x _ => ?_)
    unfold getWeight
    rw [hcont, item_setParent, totalWeight_setParent]

theorem Sound.postRemoveNotification (h : Sound cfg.items s) :
    Sound cfg.items (postRemoveNotification cfg.items s c) :=
  h.of_things things_postNotification (congr_bare (f := State.next) (fun _ => rfl) (bare_postNotification _ _ _ _ _))

theorem Sound.postAddNotification (h : Sound cfg.items s) (hc : Carries c) :
    Sound cfg.items (postAddNotification cfg s r c) := by
  have hnext (n : ℕ) : (postNotification cfg.items s n .owner c).next = s.next :=
    congr_bare (f := State.next) (fun _ => rfl) (bare_postNotification _ _ _ _ _)
  cases c with
  | container q => exact h.of_things things_postNotification (hnext _)
  | player p => exact h.of_things things_postNotification (hnext _)
  | tile t => exact hc.elim
  | device d => exact hc.elim

theorem holder_postAddNotification (hc : Carries c) : (postAddNotification cfg s r c).holder = s.holder := by
  cases c with
  | container q => exact holder_congr (bare_postNotification _ _ _ _ _)
  | player p => exact holder_congr (bare_postNotification _ _ _ _ _)
  | tile t => exact hc.elim
  | device d => exact hc.elim

/-- An item is removed from the container or the player that has it. -/
theorem Sound.removeThing (h : Sound cfg.items s) (hc : Carries c) (hr : s.parent r = some c) (count : ℕ) :
    Sound cfg.items (removeThing cfg s r count c) := by
  cases c with
  | container q =>
    have hremoved : (Inventory.removeThing cfg s r count (.container q)).Forest ∧
        (Inventory.removeThing cfg s r count (.container q)).Weighed cfg.items := removeThing_weighed h.forest h.weighed
    exact ⟨hremoved.1, hremoved.2⟩
  | player p =>
    have hroot : s.holder r = none := by
      unfold State.holder
      rw [hr]
    unfold Inventory.removeThing
    dsimp only
    split
    · exact h
    split
    · exact (h.setParent_root (c := none) hroot fun q e => nomatch e).of_things rfl rfl
    · exact h.setItem_root hroot rfl
  | tile t => exact hc.elim
  | device d => exact hc.elim

theorem Sound.internalRemoveItem {canRemove : Ref → Bool} (h : Sound cfg.items s)
    (hc : ∀ c, s.parent r = some c → Carries c) (count : ℤ) :
    Sound cfg.items (internalRemoveItem cfg canRemove s r count).2 := by
  unfold Inventory.internalRemoveItem
  split
  · exact h
  next c hr =>
  dsimp only
  generalize (if count = -1 then (s.item r).count else uint 4 count) = n
  split
  · exact h
  split
  · exact h
  · exact (h.removeThing (hc c hr) hr _).postRemoveNotification

end Frames

/-! ### A new item in the place of the old -/

section Replaced

variable {cfg : Config} {s s' : State} {r x : Ref} {q : Ref} {p : CreatureId} {c : Cylinder} {index : ℤ}

/-- A new object can be put into every container. -/
theorem Sound.fits_create (h : Sound cfg.items s) (hq : s.isContainer q = true) (hlt : q < s.next) (it : Item)
    (n : UInt16) : (s.create it n).Fits q s.next where
  isContainer := by
    unfold isContainer State.item
    rw [things_create, if_neg hlt.ne]
    exact hq
  container_lt := Nat.lt_succ_of_lt hlt
  item_lt := Nat.lt_succ_self _
  free := by
    unfold State.holder State.parent
    rw [things_create, if_pos rfl]
  not_within hw := by
    rw [holder_create h.forest] at hw
    rcases ReflTransGen.cases_tail hw with he | ⟨y, -, hy⟩
    · exact hlt.ne' he
    · have hmem := (h.forest.nested.mem hy).1
      exact absurd (Finset.mem_range.1 hmem) (lt_irrefl _)

/-- A new item is put in the place of one in a container or with a player, which
then lies in no container. -/
theorem Sound.replaceIn (h : Sound cfg.items s) (hc : Carries c) (hr : s.parent r = some c) (it : Item) (n : UInt16) :
    Sound cfg.items (replaceIn cfg (s.create it n) (s.getThingIndex cfg.items r c) s.next c) ∧
      (replaceIn cfg (s.create it n) (s.getThingIndex cfg.items r c) s.next c).holder r = none := by
  have hcreate : Sound cfg.items (s.create it n) := by
    obtain ⟨hf, hw⟩ := create_weighed h.forest h.weighed it n
    exact ⟨hf, hw⟩
  cases c with
  | container q =>
    have hmem : r ∈ (s.things q).itemlist := (h.forest.mem_itemlist q r).2 hr
    have hlt : q < s.next := Finset.mem_range.1 (h.forest.nested.mem (holder_eq_some.2 hr)).1
    have hidx : s.getThingIndex cfg.items r (.container q) = ((s.things q).itemlist.idxOf r : ℕ) :=
      getThingIndex_container hmem
    have hget : (s.create it n).getItemByIndex q ((s.things q).itemlist.idxOf r : ℕ) = some r := by
      unfold getItemByIndex
      rw [if_neg (by omega), things_create, if_neg hlt.ne, Int.toNat_natCast]
      exact List.getElem?_idxOf hmem
    have hfits := h.fits_create (h.forest.isContainer q r hr) hlt it n
    have hreplaced : (replaceThing cfg (s.create it n) q ((s.things q).itemlist.idxOf r) s.next).Forest ∧
        (replaceThing cfg (s.create it n) q ((s.things q).itemlist.idxOf r) s.next).Weighed cfg.items :=
      replaceThing_weighed hcreate.forest hcreate.weighed hfits
    obtain ⟨hf, hw⟩ := hreplaced
    unfold Inventory.replaceIn
    dsimp only
    rw [hidx, Int.toNat_natCast]
    refine ⟨⟨hf, hw⟩, ?_⟩
    unfold replaceThing State.holder
    rw [hget]
    dsimp only
    rw [parent_setParent, if_pos rfl]
  | player p =>
    have hroot : (s.create it n).holder r = none := by
      rw [holder_create h.forest]
      unfold State.holder
      rw [hr]
    have hnew : (s.create it n).holder s.next = none := by
      rw [holder_create h.forest, holder_next h.forest]
    unfold Inventory.replaceIn
    dsimp only
    split
    · refine ⟨(hcreate.setParent_root (c := some (.player p)) hnew fun q e => nomatch e).of_things rfl rfl, ?_⟩
      have hparent : (((s.create it n).setParent s.next (some (.player p))).setSlot p
          (s.getThingIndex cfg.items r (.player p)).toNat (some s.next)).parent r =
          if r = s.next then some (.player p) else (s.create it n).parent r := parent_setParent _ _ _ _
      unfold State.holder at hroot ⊢
      rw [hparent]
      split_ifs
      · rfl
      · exact hroot
    · exact ⟨hcreate, hroot⟩
  | tile t => exact hc.elim
  | device d => exact hc.elim

/-- A new item takes the place of one in a container or with a player. -/
theorem Sound.replaceItem (h : Sound cfg.items s) (hc : Carries c) (hr : s.parent r = some c)
    (newItem : Option Item) :
    Sound cfg.items (replaceItem cfg s r c (s.getThingIndex cfg.items r c) newItem).2 := by
  cases newItem with
  | none => exact h
  | some it =>
    obtain ⟨hreplaced, hroot⟩ := h.replaceIn hc hr it (maxSizeOf cfg it)
    have hadded := hreplaced.postAddNotification (r := s.next) hc
    unfold Inventory.replaceItem
    dsimp only
    refine (hadded.setParent_root (c := none) ?_ fun q e => nomatch e).postRemoveNotification
    rw [holder_postAddNotification hc]
    exact hroot

end Replaced

/-! ### Taken out and put back -/

section Readded

variable {cfg : Config} {s : State} {r : Ref} {c : Cylinder} {newId : UInt16} {newCount : ℤ}

/-- The whole of an item is taken out: it lies nowhere, and no other item changes
its place. -/
theorem parent_removeThing_whole (hc : Carries c) (hidx : s.getThingIndex cfg.items r c ≠ -1) (x : Ref) :
    (removeThing cfg s r (s.item r).count c).parent x = if x = r then none else s.parent x := by
  have hmem : r ∈ s.contents c := by
    by_contra hmem
    exact hidx ((getThingIndex_eq_neg_one hc).2 hmem)
  have hp : (removeThing cfg s r (s.item r).count c).parent = (s.detach r c).parent :=
    congr_bare (f := State.parent) (fun _ => rfl) (bare_removeThing_whole hc hmem (.inr rfl))
  rw [hp]
  cases c with
  | container q =>
    unfold detach
    rw [parent_setItemlist, parent_setParent]
  | player p =>
    unfold getThingIndex at hidx
    unfold detach
    dsimp only at hidx ⊢
    cases hi : slots.find? fun i => (s.players p).inventory i = some r with
    | none =>
      rw [hi] at hidx
      exact absurd rfl hidx
    | some i => exact parent_setParent s r x none
  | tile t => exact hc.elim
  | device d => exact hc.elim

/-- An item that lies nowhere is put in front of a container; with a player it
stays nowhere. -/
theorem Sound.addThingFront (h : Sound cfg.items s) (hc : Carries c) (hnone : s.parent r = none)
    (hfits : ∀ q, c = .container q → s.Fits q r) :
    ∃ s', addThingFront cfg s r c = some s' ∧ Sound cfg.items s' ∧
      ∀ c', s'.parent r = some c' → Carries c' := by
  cases c with
  | container q =>
    by_cases hacc : s.Accepts 0 (.container q)
    · obtain ⟨s', hs', hbare⟩ : ∃ s', addThing cfg s 0 r (.container q) = some s' ∧
          s'.bare = (s.attach 0 r (.container q)).bare := addThing_of_accepts hacc
      obtain ⟨hf, hw⟩ := addThing_weighed h.forest h.weighed (hfits q rfl) hs'
      refine ⟨s', hs', ⟨hf, hw⟩, fun c' hc' => ?_⟩
      have hp : s'.parent r = (s.attach 0 r (.container q)).parent r :=
        congr_bare (f := fun s => s.parent r) (fun _ => rfl) hbare
      unfold attach at hp
      rw [parent_setItemlist, parent_setParent, if_pos rfl, hc'] at hp
      exact Option.some.inj hp ▸ hc
    · exact ⟨s, addThing_of_not_accepts hc hacc, h, fun c' hc' => nomatch hnone.symm.trans hc'⟩
  | player p => exact ⟨s, rfl, h, fun c' hc' => nomatch hnone.symm.trans hc'⟩
  | tile t => exact hc.elim
  | device d => exact hc.elim

/-- What is taken out of a container fits into it again. -/
theorem Sound.fits_again {s₁ : State} {q : Ref} {it : Item} (h : Sound cfg.items s)
    (hr : s.parent r = some (.container q))
    (hparent : ∀ x, s₁.parent x = if x = r then none else s.parent x)
    (hbare : s₁.bare = (s.detach r (.container q)).bare) (hcls : it.cls = (s₁.item r).cls) :
    (s₁.setItem r it).Fits q r := by
  have hnext : s₁.next = s.next :=
    (congr_bare (f := State.next) (fun _ => rfl) hbare).trans (s.next_detach r _)
  have hitem : s₁.item = s.item :=
    (congr_bare (f := State.item) (fun _ => rfl) hbare).trans (s.item_detach r _)
  have hholder {x y : Ref} (hx : (s₁.setItem r it).holder x = some y) : s.holder x = some y := by
    rw [holder_eq_some, parent_setItem, hparent] at hx
    split at hx
    · exact nomatch hx
    · exact holder_eq_some.2 hx
  obtain ⟨hq, hlt⟩ := h.forest.nested.mem (holder_eq_some.2 hr)
  refine ⟨?_, ?_, ?_, ?_, fun hw => ?_⟩
  · rw [isContainer_setItem hcls, isContainer_congr hitem]
    exact h.forest.isContainer q r hr
  · exact hnext ▸ Finset.mem_range.1 hq
  · exact hnext ▸ Finset.mem_range.1 hlt
  · unfold State.holder
    rw [parent_setItem, hparent, if_pos rfl]
  · exact h.forest.nested.acyclic q (.tail' (hw.lift id fun _ _ => hholder) (holder_eq_some.2 hr))

/-- Taken out of a container or a player, changed, and put back. -/
theorem Sound.readdItem (h : Sound cfg.items s) (hc : Carries c) (hr : s.parent r = some c)
    (hidx : s.getThingIndex cfg.items r c ≠ -1) (newId : UInt16) (newCount : ℤ) :
    ∃ o s', readdItem cfg s r c newId newCount = some (o, s') ∧ Sound cfg.items s' := by
  unfold Inventory.readdItem
  dsimp only
  let s₁ := Inventory.postRemoveNotification cfg.items (Inventory.removeThing cfg s r (s.item r).count c) c
  have hs₁ : Sound cfg.items s₁ := (h.removeThing hc hr _).postRemoveNotification
  have hparent (x : Ref) : s₁.parent x = if x = r then none else s.parent x :=
    (congr_bare (f := fun s => s.parent x) (fun _ => rfl) (bare_postNotification _ _ _ _ _)).trans
      (parent_removeThing_whole hc hidx x)
  have hroot : s₁.holder r = none := by
    unfold State.holder
    rw [hparent, if_pos rfl]
  change ∃ o s', Option.map _ (Inventory.addThingFront cfg (s₁.setItem r _) r c) = some (o, s') ∧ _
  generalize hit : (if newCount ≠ -1 then
    ((s₁.item r).setID cfg.items newId).setSubType cfg.items (uint 2 newCount)
    else (s₁.item r).setID cfg.items newId) = it
  have hcls : it.cls = (s₁.item r).cls := by
    rw [← hit]
    split
    · rw [Item.setSubType_cls, Item.setID_cls]
    · exact Item.setID_cls _ _ _
  have hnone : (s₁.setItem r it).parent r = none := by
    rw [parent_setItem, hparent, if_pos rfl]
  have hfits : ∀ q, c = .container q → (s₁.setItem r it).Fits q r := by
    rintro q rfl
    have hmem : r ∈ s.contents (.container q) := (h.forest.mem_itemlist q r).2 hr
    have hbare : s₁.bare = (s.detach r (.container q)).bare :=
      (bare_postNotification _ _ _ _ _).trans (bare_removeThing_whole hc hmem (.inr rfl))
    exact h.fits_again hr hparent hbare hcls
  obtain ⟨s₃, hs₃, hsound, hcarries⟩ := (hs₁.setItem_root hroot hcls).addThingFront hc hnone hfits
  rw [hs₃]
  dsimp only [Option.map_some]
  split
  · exact ⟨_, _, rfl, hsound⟩
  · next c' hc' => exact ⟨_, _, rfl, hsound.postAddNotification (hcarries c' hc')⟩

end Readded

/-! ### Changed in place -/

section Updated

variable {cfg : Config} {s : State} {r q : Ref} {c : Cylinder} {newId : UInt16} {newCount : ℤ}

/-- The equation holds after a change in `q` exactly if the difference that is
added is that of the weights. -/
theorem Weighed.change_iff {items : UInt16 → ItemType} (h : Sound items s) (hr : r ∈ (s.things q).itemlist)
    {it : Item} (hcls : it.cls = (s.item r).cls) {diff : UInt32} :
    ((s.setItem r it).updateItemWeight q diff).Weighed items ↔
      (s.setItem r it).getWeight items r = s.getWeight items r + diff := by
  refine ⟨fun hw => ?_, fun hdiff => (h.weighed.change h.forest hr hcls hdiff).2⟩
  let s₁ := s.setItem r it
  have hf₁ : s₁.Forest := h.forest.setItem hcls
  have hbare := s₁.bare_updateItemWeight q diff
  have hitem : (s₁.updateItemWeight q diff).item = s₁.item :=
    congr_bare (f := State.item) (fun _ => rfl) hbare
  have hlist : ((s₁.updateItemWeight q diff).things q).itemlist = (s.things q).itemlist :=
    (congr_bare (f := fun s => (s.things q).itemlist) (fun _ => rfl) hbare).trans (s.itemlist_setItem r q it)
  have hcont : (s₁.updateItemWeight q diff).isContainer = s.isContainer :=
    (isContainer_congr hitem).trans (isContainer_setItem hcls)
  have htotal (y : Ref) : ((s₁.updateItemWeight q diff).things y).totalWeight =
      Nesting.spread s₁.holder q diff (fun y => (s₁.things y).totalWeight) y :=
    congrFun (totalWeight_updateItemWeight hf₁.nested q diff) y
  have hweight : ∀ x ∈ (s.things q).itemlist,
      (s₁.updateItemWeight q diff).getWeight items x = s₁.getWeight items x := by
    intro x hx
    have hnot : ¬ ReflTransGen (Parent s₁.holder) q x :=
      hf₁.not_holds (by rw [itemlist_setItem]; exact hx)
    unfold getWeight
    rw [isContainer_congr hitem, hitem, htotal, spread_of_not_holds hnot]
  have hrest : ∀ x ∈ (s.things q).itemlist.erase r, s₁.getWeight items x = s.getWeight items x := by
    intro x hx
    have hne : x ≠ r := by
      rintro rfl
      exact (h.forest.nodup q).not_mem_erase hx
    unfold getWeight
    rw [isContainer_setItem hcls, item_setItem, if_neg hne, totalWeight_setItem]
  have hq := h.forest.isContainer q r ((h.forest.mem_itemlist q r).1 hr)
  have hold := h.weighed q hq
  have hnew := hw q (hcont ▸ hq)
  have hperm := List.perm_cons_erase hr
  rw [htotal, spread_of_holds .refl, totalWeight_setItem, hlist, List.map_congr_left hweight, hold,
    (hperm.map _).sum_eq, (hperm.map (s₁.getWeight items)).sum_eq, List.map_cons, List.map_cons, List.sum_cons,
    List.sum_cons, List.map_congr_left hrest] at hnew
  generalize ((s.things q).itemlist.erase r).map (s.getWeight items) = l at hnew
  generalize l.sum = b at hnew
  change _ = s.getWeight items r + diff
  generalize s.getWeight items r = w at hnew ⊢
  change s₁.getWeight items r = _
  generalize s₁.getWeight items r = w' at hnew ⊢
  grind

theorem setDefaultSubtype_cls (it : Item) : (it.setDefaultSubtype cfg.items).cls = it.cls := by
  unfold Item.setDefaultSubtype
  dsimp only
  split
  · split <;> rfl
  · rfl

theorem setItem_setItem (s : State) (r : Ref) (a b : Item) : (s.setItem r a).setItem r b = s.setItem r b := by
  unfold setItem setThing
  simp

theorem getBaseWeight_congr {a b : Item} (hid : a.id = b.id) (h : a.existing .weight = b.existing .weight) :
    a.getBaseWeight cfg.items = b.getBaseWeight cfg.items := by
  have hint : a.hasAttribute .weight = true → a.getIntAttr .weight = b.getIntAttr .weight := by
    intro ha
    rw [Item.hasAttribute_eq, Option.isSome_iff_ne_none] at ha
    obtain ⟨n, hn⟩ := Item.existing_int rfl ha
    rw [Item.getIntAttr_of_existing hn rfl, Item.getIntAttr_of_existing (h ▸ hn) rfl]
  unfold Item.getBaseWeight
  rw [hid, Item.hasAttribute_eq b, ← h, ← Item.hasAttribute_eq a]
  split
  · next ha => rw [hint ha]
  · rfl

/-- A default subtype changes the weight of stacks only. -/
theorem getWeight_setDefaultSubtype {it : Item} (h : (cfg.items it.id).stackable = false) :
    (it.setDefaultSubtype cfg.items).getWeight cfg.items = it.getWeight cfg.items := by
  have hset : (it.setDefaultSubtype cfg.items).id = it.id ∧
      (it.setDefaultSubtype cfg.items).existing .weight = it.existing .weight := by
    unfold Item.setDefaultSubtype
    dsimp only
    split
    · rw [if_neg (by simp [h])]
      exact ⟨rfl, (Item.existing_setIntAttr _ _ rfl _).trans (if_neg (by decide))⟩
    · exact ⟨rfl, rfl⟩
  unfold Item.getWeight
  rw [hset.1, if_neg (by simp [h]), if_neg (by simp [h])]
  exact getBaseWeight_congr hset.1 hset.2

/-- The item weighs the same with the default subtype, if it is set to that
before the change in place. -/
def KeepsWeight (cfg : Config) (s : State) (item : Ref) (newId : UInt16) (newCount : ℤ) : Prop :=
  let curType := s.type cfg item
  let newType := cfg.items newId
  newType.id ≠ 0 → curType.alwaysOnTop = newType.alwaysOnTop → curType.type = newType.type →
    ¬ (newCount = 0 ∧ curType.stackable) → curType.id ≠ newType.id → newType.group ≠ curType.group →
      ((s.item item).setDefaultSubtype cfg.items).getWeight cfg.items = (s.item item).getWeight cfg.items

variable (newId newCount) in
/-- The change in place keeps the equation exactly if the default subtype, where
it is set, weighs the same. -/
theorem Sound.updateItem_iff (h : Sound cfg.items s) (hr : s.parent r = some (.container q)) :
    (updateItem cfg s r (.container q) newId newCount).2.Forest ∧
      ((updateItem cfg s r (.container q) newId newCount).2.Weighed cfg.items ↔
        ((s.type cfg r).id ≠ (cfg.items newId).id ∧ (cfg.items newId).group ≠ (s.type cfg r).group →
          ((s.item r).setDefaultSubtype cfg.items).getWeight cfg.items = (s.item r).getWeight cfg.items)) := by
  let s₁ := Inventory.postRemoveNotification cfg.items s (.container q)
  have hs₁ : Sound cfg.items s₁ := h.postRemoveNotification
  have hthings : s₁.things = s.things := things_postNotification
  have hitem : s₁.item = s.item := by
    unfold State.item
    rw [hthings]
  have hmem : r ∈ (s₁.things q).itemlist := by
    rw [hthings]
    exact (h.forest.mem_itemlist q r).2 hr
  generalize hcond : ((s.type cfg r).id ≠ (cfg.items newId).id ∧ (cfg.items newId).group ≠ (s.type cfg r).group) =
    changesGroup
  obtain ⟨it, hcls, hset, hit⟩ : ∃ it : Item, it.cls = (s₁.item r).cls ∧
      (if (s.type cfg r).id ≠ (cfg.items newId).id ∧ (cfg.items newId).group ≠ (s.type cfg r).group then
        s₁.setItem r ((s₁.item r).setDefaultSubtype cfg.items) else s₁) = s₁.setItem r it ∧
      (it.getWeight cfg.items = (s.item r).getWeight cfg.items ↔ (changesGroup →
        ((s.item r).setDefaultSubtype cfg.items).getWeight cfg.items = (s.item r).getWeight cfg.items)) := by
    by_cases hchanges : changesGroup
    · refine ⟨(s₁.item r).setDefaultSubtype cfg.items, setDefaultSubtype_cls _, if_pos (hcond ▸ hchanges), ?_⟩
      rw [hitem]
      exact ⟨fun e _ => e, fun e => e hchanges⟩
    · refine ⟨s₁.item r, rfl, (if_neg (hcond ▸ hchanges)).trans (s₁.setThing_things r).symm, ?_⟩
      rw [hitem]
      exact iff_of_true rfl fun e => absurd e hchanges
  rw [← hit]
  let s₂ := s₁.setItem r it
  have hcls₂ : it.cls = (s₁.item r).cls := hcls
  have hitem₂ : s₂.item r = it := by
    rw [item_setItem, if_pos rfl]
  let it' := (it.setID cfg.items (if (s.type cfg r).id ≠ (cfg.items newId).id then newId else it.id)).setSubType
    cfg.items (uint 4 (if newCount ≠ -1 ∧ (cfg.items newId).hasSubType then newCount
      else (s₁.item r).getSubType cfg.items) % 2 ^ 16)
  have hcls' : it'.cls = (s₁.item r).cls := by
    rw [Item.setSubType_cls, Item.setID_cls, hcls]
  let s₃ := s₁.setItem r it'
  have hweight (a : Item) (ha : a.cls = (s₁.item r).cls) :
      (s₁.setItem r a).getWeight cfg.items r = a.getWeight cfg.items + s₁.heldWeight r := by
    rw [getWeight_eq]
    unfold ownWeight heldWeight
    rw [item_setItem, if_pos rfl, isContainer_setItem ha, totalWeight_setItem]
  have hidx : s₂.getThingIndex cfg.items r (.container q) ≠ -1 := by
    refine fun e => (getThingIndex_eq_neg_one (c := .container q) trivial).1 e ?_
    change r ∈ (s₂.things q).itemlist
    rw [itemlist_setItem]
    exact hmem
  let diff := s₃.getWeight cfg.items r - s₂.getWeight cfg.items r
  have hupdate : (updateItem cfg s r (.container q) newId newCount).2 =
      Inventory.postAddNotification cfg (s₃.updateItemWeight q diff) r (.container q) := by
    unfold updateItem
    dsimp only
    change Inventory.postAddNotification cfg (updateThing cfg (if _ then s₁.setItem r _ else s₁) r _ _ _) r _ = _
    rw [hset]
    unfold updateThing
    rw [if_neg hidx]
    dsimp only
    rw [setItem_setItem, hitem₂]
  have hthings' : (Inventory.postAddNotification cfg (s₃.updateItemWeight q diff) r (.container q)).things =
      (s₃.updateItemWeight q diff).things := things_postNotification
  have hforest : (s₃.updateItemWeight q diff).Forest :=
    (hs₁.forest.setItem hcls').of_bare (bare_updateItemWeight _ _ _)
  rw [hupdate]
  refine ⟨hforest.of_bare (bare_postNotification _ _ _ _ _), ?_⟩
  have hchange : (s₃.updateItemWeight q diff).Weighed cfg.items ↔
      s₃.getWeight cfg.items r = s₁.getWeight cfg.items r + diff := Weighed.change_iff hs₁ hmem hcls'
  have hold : s₁.getWeight cfg.items r = (s.item r).getWeight cfg.items + s₁.heldWeight r := by
    rw [getWeight_eq, ← hitem]
    rfl
  refine Iff.trans ⟨weighed_of_things hthings'.symm, weighed_of_things hthings'⟩ (hchange.trans ?_)
  change _ = _ + (s₃.getWeight cfg.items r - s₂.getWeight cfg.items r) ↔ _
  rw [hold, hweight it hcls]
  generalize s₃.getWeight cfg.items r = w₃
  generalize s₁.heldWeight r = held
  generalize it.getWeight cfg.items = w₂
  generalize (s.item r).getWeight cfg.items = w₁
  grind

/-- What a player has may be changed in place. -/
theorem Sound.updateItem_player {p : CreatureId} (h : Sound cfg.items s) (hr : s.parent r = some (.player p)) :
    Sound cfg.items (updateItem cfg s r (.player p) newId newCount).2 := by
  have hremoved : Sound cfg.items (Inventory.postRemoveNotification cfg.items s (.player p)) := h.postRemoveNotification
  have hroot : (Inventory.postRemoveNotification cfg.items s (.player p)).holder r = none := by
    refine (congrFun (holder_congr (bare_postNotification _ _ _ _ _)) r).trans ?_
    unfold State.holder
    rw [hr]
  unfold updateItem
  dsimp only
  refine Sound.postAddNotification ?_ (c := .player p) trivial
  generalize Inventory.postRemoveNotification cfg.items s (.player p) = s₁ at hremoved hroot ⊢
  have hset (it : Item) : (s₁.setItem r it).holder r = none := by
    unfold State.holder at hroot ⊢
    rw [parent_setItem]
    exact hroot
  obtain ⟨s₂, hs₂, hsound, hroot₂⟩ : ∃ s₂, (if (s.type cfg r).id ≠ (cfg.items newId).id ∧
      (cfg.items newId).group ≠ (s.type cfg r).group then
        s₁.setItem r ((s₁.item r).setDefaultSubtype cfg.items) else s₁) = s₂ ∧
      Sound cfg.items s₂ ∧ s₂.holder r = none := by
    split
    · exact ⟨_, rfl, hremoved.setItem_root hroot (setDefaultSubtype_cls _), hset _⟩
    · exact ⟨_, rfl, hremoved, hroot⟩
  rw [hs₂]
  unfold updateThing
  split
  · exact hsound
  · exact hsound.setItem_root hroot₂ (by rw [Item.setSubType_cls, Item.setID_cls])

end Updated

/-! ### All the ways -/

section Transformed

variable {cfg : Config} {canRemove : Ref → Bool} {s : State} {r : Ref} {newId : UInt16} {newCount : ℤ}

/-- The ways other than the change in place keep the equation. -/
theorem keepsWeight_of_sound {s' : State} {P : Prop} (h : Sound cfg.items s') (hP : P) :
    s'.Forest ∧ (s'.Weighed cfg.items ↔ P) :=
  ⟨h.forest, iff_of_true h.weighed hP⟩

variable (newId newCount) in
/-- The change in place. -/
theorem Sound.updateItem_keeps {c : Cylinder} (h : Sound cfg.items s) (hc : Carries c) (hr : s.parent r = some c)
    (hzero : (cfg.items newId).id ≠ 0) (htop : (s.type cfg r).alwaysOnTop = (cfg.items newId).alwaysOnTop)
    (htype : (s.type cfg r).type = (cfg.items newId).type)
    (hstack : ¬ (newCount = 0 ∧ (s.type cfg r).stackable)) :
    (updateItem cfg s r c newId newCount).2.Forest ∧
      ((updateItem cfg s r c newId newCount).2.Weighed cfg.items ↔
        (s.holder r ≠ none → KeepsWeight cfg s r newId newCount)) := by
  cases c with
  | container q =>
    obtain ⟨hf, hw⟩ := h.updateItem_iff newId newCount hr
    refine ⟨hf, hw.trans ⟨fun hkeeps _ _ _ _ _ hid hgroup => hkeeps ⟨hid, hgroup⟩, ?_⟩⟩
    rintro hkeeps ⟨hid, hgroup⟩
    have hholder : s.holder r ≠ none := by
      rw [holder_eq_some.2 hr]
      exact Option.some_ne_none q
    exact hkeeps hholder hzero htop htype hstack hid hgroup
  | player p =>
    refine keepsWeight_of_sound (h.updateItem_player hr) fun hne => absurd ?_ hne
    unfold State.holder
    rw [hr]
  | tile t => exact hc.elim
  | device d => exact hc.elim

variable (cfg s r newCount) in
/-- What has charges, but no stack, and is to have none left. -/
def Spent : Prop := newCount = 0 ∧ (s.type cfg r).stackable = false ∧ (s.item r).hasAttribute .charges = true

variable (cfg canRemove s r newId newCount) in
/-- What `transformItem` can do. -/
theorem transformItem_cases :
    (∃ o, transformItem cfg canRemove s r newId newCount = some (o, s) ∧
      ((s.item r).id = newId ∨ s.parent r = none ∨ (∃ c, s.parent r = some c ∧ s.getThingIndex cfg.items r c = -1) ∨
        (cfg.items newId).id = 0)) ∨
    ∃ c, s.parent r = some c ∧ s.getThingIndex cfg.items r c ≠ -1 ∧ (cfg.items newId).id ≠ 0 ∧
      ((s.type cfg r).alwaysOnTop ≠ (cfg.items newId).alwaysOnTop ∧
          transformItem cfg canRemove s r newId newCount = readdItem cfg s r c newId newCount ∨
        (s.type cfg r).alwaysOnTop = (cfg.items newId).alwaysOnTop ∧ (s.type cfg r).type = (cfg.items newId).type ∧
          ¬ (newCount = 0 ∧ (s.type cfg r).stackable) ∧
          transformItem cfg canRemove s r newId newCount = some (updateItem cfg s r c newId newCount) ∨
        ((s.type cfg r).type ≠ (cfg.items newId).type ∨ Spent cfg s r newCount) ∧
          (∃ newItem, transformItem cfg canRemove s r newId newCount =
            some (replaceItem cfg s r c (s.getThingIndex cfg.items r c) newItem)) ∨
        (newCount = 0 ∧ (s.type cfg r).stackable ∨ Spent cfg s r newCount) ∧
          transformItem cfg canRemove s r newId newCount = some (none, (internalRemoveItem cfg canRemove s r (-1)).2) ∨
        Spent cfg s r newCount ∧ ∃ decayTo,
          transformItem cfg canRemove s r newId newCount = transformItem cfg canRemove s r decayTo (-1)) := by
  by_cases hsame : (s.item r).id = newId ∧
      (newCount = -1 ∨ newCount = (s.item r).getSubType cfg.items ∧ newCount ≠ 0)
  · refine .inl ⟨some r, ?_, .inl hsame.1⟩
    unfold transformItem
    exact if_pos hsame
  cases hr : s.parent r with
  | none =>
    refine .inl ⟨none, ?_, .inr (.inl rfl)⟩
    unfold transformItem
    rw [if_neg hsame, hr]
  | some c =>
    by_cases hidx : s.getThingIndex cfg.items r c = -1
    · refine .inl ⟨some r, ?_, .inr (.inr (.inl ⟨c, rfl, hidx⟩))⟩
      unfold transformItem
      rw [if_neg hsame, hr]
      exact if_pos hidx
    by_cases hzero : (cfg.items newId).id = 0
    · refine .inl ⟨some r, ?_, .inr (.inr (.inr hzero))⟩
      unfold transformItem
      rw [if_neg hsame, hr]
      exact (if_neg hidx).trans (if_pos hzero)
    refine .inr ⟨c, rfl, hidx, hzero, ?_⟩
    by_cases htop : (s.type cfg r).alwaysOnTop ≠ (cfg.items newId).alwaysOnTop
    · refine .inl ⟨htop, ?_⟩
      unfold transformItem
      rw [if_neg hsame, hr]
      exact (if_neg hidx).trans ((if_neg hzero).trans (if_pos htop))
    refine .inr ?_
    by_cases htype : (s.type cfg r).type = (cfg.items newId).type
    · by_cases hempty : newCount = 0 ∧ ((s.type cfg r).stackable || (s.item r).hasAttribute .charges) = true
      · by_cases hstack : (s.type cfg r).stackable = true
        · refine .inr (.inr (.inl ⟨.inl ⟨hempty.1, hstack⟩, ?_⟩))
          unfold transformItem
          rw [if_neg hsame, hr]
          refine (if_neg hidx).trans ((if_neg hzero).trans ((if_neg htop).trans ((if_pos htype).trans ?_)))
          exact (dif_pos hempty).trans (if_pos hstack)
        have hspent : Spent cfg s r newCount := by
          rw [Bool.not_eq_true] at hstack
          refine ⟨hempty.1, hstack, ?_⟩
          rw [← hempty.2, hstack, Bool.false_or]
        let newItemId : ℤ := if (s.type cfg r).id = (cfg.items newId).id then (s.type cfg r).decayTo else newId.toNat
        by_cases hgone : newItemId < 0
        · refine .inr (.inr (.inl ⟨.inr hspent, ?_⟩))
          unfold transformItem
          rw [if_neg hsame, hr]
          refine (if_neg hidx).trans ((if_neg hzero).trans ((if_neg htop).trans ((if_pos htype).trans ?_)))
          exact (dif_pos hempty).trans ((if_neg hstack).trans (if_pos hgone))
        by_cases hnew : newItemId ≠ newId.toNat
        · refine .inr (.inl ⟨.inr hspent, Item.createItem cfg.items (.ofInt newItemId) 1, ?_⟩)
          unfold transformItem
          rw [if_neg hsame, hr]
          refine (if_neg hidx).trans ((if_neg hzero).trans ((if_neg htop).trans ((if_pos htype).trans ?_)))
          exact (dif_pos hempty).trans ((if_neg hstack).trans ((if_neg hgone).trans (if_pos hnew)))
        · refine .inr (.inr (.inr ⟨hspent, .ofInt newItemId, ?_⟩))
          conv_lhs => unfold transformItem
          rw [if_neg hsame, hr]
          refine (if_neg hidx).trans ((if_neg hzero).trans ((if_neg htop).trans ((if_pos htype).trans ?_)))
          exact (dif_pos hempty).trans ((if_neg hstack).trans ((if_neg hgone).trans (if_neg hnew)))
      · refine .inl ⟨not_not.1 htop, htype, fun he => hempty ⟨he.1, by rw [he.2, Bool.true_or]⟩, ?_⟩
        unfold transformItem
        rw [if_neg hsame, hr]
        refine (if_neg hidx).trans ((if_neg hzero).trans ((if_neg htop).trans ((if_pos htype).trans ?_)))
        exact dif_neg hempty
    · let newItem :=
        if newCount = -1 then Item.createItem cfg.items newId 0
        else Item.createItem cfg.items newId (uint 2 newCount)
      refine .inr (.inl ⟨.inl htype, newItem, ?_⟩)
      unfold transformItem
      rw [if_neg hsame, hr]
      exact (if_neg hidx).trans ((if_neg hzero).trans ((if_neg htop).trans (if_neg htype)))

theorem keepsWeight_of_spent (h : Spent cfg s r newCount) : KeepsWeight cfg s r newId newCount :=
  fun _ _ _ _ _ _ => getWeight_setDefaultSubtype h.2.1

/-- The ways, but for the one that starts again. -/
theorem transformItem_weighed_step (h : Sound cfg.items s) (hc : ∀ c, s.parent r = some c → Carries c)
    (hagain : ∀ decayTo, Spent cfg s r newCount →
      ∃ o s', transformItem cfg canRemove s r decayTo (-1) = some (o, s') ∧ Sound cfg.items s') :
    ∃ o s', transformItem cfg canRemove s r newId newCount = some (o, s') ∧ s'.Forest ∧
      (s'.Weighed cfg.items ↔ (s.holder r ≠ none → KeepsWeight cfg s r newId newCount)) := by
  have hroot (hr : ∀ q, s.parent r ≠ some (.container q)) : s.holder r = none := by
    by_contra hne
    obtain ⟨q, hq⟩ := Option.ne_none_iff_exists'.1 hne
    exact hr q (holder_eq_some.1 hq)
  rcases transformItem_cases cfg canRemove s r newId newCount with ⟨o, ho, hwhy⟩ | ⟨c, hr, hidx, hzero, hways⟩
  · refine ⟨o, s, ho, keepsWeight_of_sound h fun hholder hne _ _ _ hid => ?_⟩
    rcases hwhy with hsame | hnone | ⟨c, hr, hidx⟩ | hzero
    · refine absurd ?_ hid
      unfold State.type
      rw [hsame]
    · exact absurd (hroot fun q hq => nomatch hnone.symm.trans hq) hholder
    · refine absurd (hroot ?_) hholder
      intro q hq
      obtain rfl := Option.some.inj (hr.symm.trans hq)
      exact (getThingIndex_eq_neg_one (c := .container q) trivial).1 hidx ((h.forest.mem_itemlist q r).2 hr)
    · exact absurd hzero hne
  · have hcarries := hc c hr
    rcases hways with ⟨htop, hway⟩ | ⟨htop, htype, hstack, hway⟩ | ⟨hwhy, newItem, hway⟩ | ⟨hwhy, hway⟩ |
      ⟨hspent, decayTo, hway⟩
    · obtain ⟨o, s', hs', hsound⟩ := h.readdItem hcarries hr hidx newId newCount
      exact ⟨o, s', hway.trans hs', keepsWeight_of_sound hsound fun _ _ he => absurd he htop⟩
    · obtain ⟨hf, hw⟩ := h.updateItem_keeps newId newCount hcarries hr hzero htop htype hstack
      exact ⟨_, _, hway, hf, hw⟩
    · refine ⟨_, _, hway, keepsWeight_of_sound (h.replaceItem hcarries hr newItem) fun _ => ?_⟩
      exact hwhy.elim (fun htype _ _ he => absurd he htype) keepsWeight_of_spent
    · refine ⟨_, _, hway, keepsWeight_of_sound (h.internalRemoveItem hc _) fun _ => ?_⟩
      exact hwhy.elim (fun hempty _ _ _ hne => absurd hempty hne) keepsWeight_of_spent
    · obtain ⟨o, s', hs', hsound⟩ := hagain decayTo hspent
      exact ⟨o, s', hway.trans hs', keepsWeight_of_sound hsound fun _ => keepsWeight_of_spent hspent⟩

/-- After a transformation every total weight is the sum of the weights of the
items in the container exactly if the default subtype, where it is set in a
container, weighs the same. -/
theorem transformItem_weighed_iff (h : Sound cfg.items s) (hc : ∀ c, s.parent r = some c → Carries c) :
    ∃ o s', transformItem cfg canRemove s r newId newCount = some (o, s') ∧ s'.Forest ∧
      (s'.Weighed cfg.items ↔ (s.holder r ≠ none → KeepsWeight cfg s r newId newCount)) := by
  refine transformItem_weighed_step h hc fun decayTo hspent => ?_
  have hstep : ∃ o s', transformItem cfg canRemove s r decayTo (-1) = some (o, s') ∧ s'.Forest ∧
      (s'.Weighed cfg.items ↔ (s.holder r ≠ none → KeepsWeight cfg s r decayTo (-1))) :=
    transformItem_weighed_step h hc fun _ he => absurd he.1 (by decide)
  obtain ⟨o, s', hs', hf, hw⟩ := hstep
  exact ⟨o, s', hs', hf, hw.2 fun _ _ _ _ _ _ _ => getWeight_setDefaultSubtype hspent.2.1⟩

/-- Bags, arrows, and the broken arrows that are no ammunition. -/
def quiverItems (id : UInt16) : ItemType :=
  { id, group := if id = 1 then .container else if id = 2 then .ammunition else .none, stackable := id ≠ 1
    weight := 70 }

def quiverConfig : Config := { items := quiverItems }

/-- A bag, and ten arrows that lie nowhere. -/
def quiverStart : State :=
  (bagStart.create { cls := .container, id := 1, count := 1, attributes := none } 8).create
    { cls := .item, id := 2, count := 10, attributes := none } 0

/-- The arrows are in the bag. -/
def quiver : State := (addThing quiverConfig quiverStart 0 1 (.container 0)).getD quiverStart

theorem sound_quiver : Sound quiverItems quiver := by
  have hf : bagStart.Forest := by
    refine ⟨fun q r => iff_of_false List.not_mem_nil (fun e => nomatch e), fun q => List.nodup_nil,
      fun q r hr => (nomatch hr), fun {q r} hr => (nomatch hr), fun r hr => ?_⟩
    obtain ⟨y, hy, -⟩ := TransGen.head'_iff.1 hr
    exact nomatch hy
  have hw : bagStart.Weighed quiverItems := fun q hq => nomatch hq
  obtain ⟨hf₁, hw₁⟩ := create_weighed hf hw { cls := .container, id := 1, count := 1, attributes := none } 8
  obtain ⟨hf₂, hw₂⟩ := create_weighed hf₁ hw₁ { cls := .item, id := 2, count := 10, attributes := none } 0
  have hfits : quiverStart.Fits 0 1 := by
    refine ⟨rfl, by decide, by decide, rfl, fun hw => ?_⟩
    rcases ReflTransGen.cases_head hw with he | ⟨y, hy, -⟩
    · exact nomatch he
    · exact nomatch hy
  have hadd : addThing quiverConfig quiverStart 0 1 (.container 0) = some quiver := rfl
  obtain ⟨hf₃, hw₃⟩ := addThing_weighed hf₂ hw₂ hfits hadd
  exact ⟨hf₃, hw₃⟩

/-- The arrows become seven: the container weighs what it should. -/
theorem transformItem_weighed_iff_quiver : ∃ o s',
    transformItem quiverConfig (fun _ => true) quiver 1 2 7 = some (o, s') ∧ s'.Forest ∧
      (s'.Weighed quiverItems ↔ (quiver.holder 1 ≠ none → KeepsWeight quiverConfig quiver 1 2 7)) :=
  transformItem_weighed_iff sound_quiver fun _ hc => Option.some.inj hc ▸ trivial

/-- The arrows break: one of ten is taken from the weight. -/
theorem transformItem_not_weighed : ¬ ∀ (cfg : Config) (canRemove : Ref → Bool) (s : State) (r : Ref)
    (newId : UInt16) (newCount : ℤ), Sound cfg.items s → s.holder r ≠ none →
      ∃ o s', transformItem cfg canRemove s r newId newCount = some (o, s') ∧ s'.Weighed cfg.items := by
  intro hall
  obtain ⟨o, s', hs', hweighed⟩ := hall quiverConfig (fun _ => true) quiver 1 3 (-1) sound_quiver (by decide)
  have hcarries : ∀ c, quiver.parent 1 = some c → Carries c := fun _ hc => Option.some.inj hc ▸ trivial
  have hstep : ∃ o s', transformItem quiverConfig (fun _ => true) quiver 1 3 (-1) = some (o, s') ∧ s'.Forest ∧
      (s'.Weighed quiverItems ↔ (quiver.holder 1 ≠ none → KeepsWeight quiverConfig quiver 1 3 (-1))) :=
    transformItem_weighed_step sound_quiver hcarries fun _ he => absurd he.1 (by decide)
  obtain ⟨o₁, s₁, hs₁, -, hiff⟩ := hstep
  have hsame : s' = s₁ := congrArg Prod.snd (Option.some.inj (hs'.symm.trans hs₁))
  have hkeeps : KeepsWeight quiverConfig quiver 1 3 (-1) := hiff.1 (hsame ▸ hweighed) (by decide)
  exact absurd (hkeeps (by decide) (by decide) (by decide) (by decide) (by decide) (by decide)) (by decide)

end Transformed

end Inventory
end ForgottenServer
