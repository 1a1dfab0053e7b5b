/-
# The exchange of two items

Before an exchange the source is asked whether it takes the item in the way,
and the destination whether it gives it away. The questions after it are asked
of the state with the exchange done; here their answers are told from the state
before. A player takes the item for the slot that has become free as soon as he
has the capacity for it without what was there.

Key theorems: `exchange_container_player`, `exchange_tile_player`,
`Freed.queryAdd`, `Freed.queryMaxCount`.
-/
import ForgottenServer.InventoryWeight
import ForgottenServer.MoveItem

namespace ForgottenServer
namespace Inventory

open State
open Spectators (Position)

section Slots

variable {cfg : Config} {s s' : State} {r x y : Ref} {p : CreatureId} {count : ℕ} {index : ℤ}
  {flags : Flags}

/-! ### Slots -/

theorem getInventoryItem_eq_some (h : s.getInventoryItem p index = some x) :
    (1 ≤ index ∧ index ≤ 10) ∧ index.toNat ∈ slots ∧ (s.players p).inventory index.toNat = some x := by
  unfold getInventoryItem at h
  split at h
  · next hidx =>
    refine ⟨hidx, ?_, h⟩
    rw [mem_slots]
    omega
  · exact nomatch h

/-- An item lies in one slot. -/
theorem State.Wf.slot_inj (hs : s.Wf cfg.items) {i j : ℕ} (hi : i ∈ slots) (hj : j ∈ slots)
    (hxi : (s.players p).inventory i = some x) (hxj : (s.players p).inventory j = some x) : i = j := by
  by_contra hne
  have hn := hs.nodup (.player p)
  unfold contents at hn
  rw [List.Nodup, List.pairwise_filterMap] at hn
  have hsymm : Std.Symm fun a b => ∀ y, (s.players p).inventory a = some y →
      ∀ z, (s.players p).inventory b = some z → y ≠ z :=
    ⟨fun a b h y hy z hz e => h z hz y hy e.symm⟩
  exact hn.forall hi hj hne x hxi x hxj rfl

/-- The rule of a slot reads the types of the items and the other hand. -/
theorem Player.querySlot_congr (htype : ∀ y, s'.type cfg y = s.type cfg y)
    (hcount : (s'.item r).count = (s.item r).count)
    (hright : index = 6 → (s'.players p).inventory 5 = (s.players p).inventory 5)
    (hleft : index = 5 → (s'.players p).inventory 6 = (s.players p).inventory 6) :
    Player.querySlot cfg s' p index r count = Player.querySlot cfg s p index r count := by
  have hslot (y : Ref) (m : UInt16) : Player.hasSlot cfg s' y m = Player.hasSlot cfg s y m := by
    unfold Player.hasSlot
    rw [htype]
  have hdress : Player.dressError cfg s' r = Player.dressError cfg s r := by
    unfold Player.dressError
    simp only [hslot]
  have hhand (other : Option Ref) :
      Player.queryClassicHand cfg s' r count other = Player.queryClassicHand cfg s r count other := by
    unfold Player.queryClassicHand
    simp only [hslot, htype, hcount]
  have hr (other : Option Ref) : Player.queryRight cfg s' r other = Player.queryRight cfg s r other := by
    unfold Player.queryRight
    simp only [hslot, htype]
  have hl (other : Option Ref) : Player.queryLeft cfg s' r other = Player.queryLeft cfg s r other := by
    unfold Player.queryLeft
    simp only [hslot, htype]
  unfold Player.querySlot
  simp only [hslot, hdress, hhand, hr, hl]
  by_cases h5 : index = 5
  · rw [hleft h5]
    subst h5
    rfl
  by_cases h6 : index = 6
  · rw [hright h6]
    subst h6
    rfl
  simp only [h5, h6, if_false]

/-- The item in a slot is taken out of it. -/
theorem removeThing_slot (hs : s.Wf cfg.items) (hslot : s.getInventoryItem p index = some x) :
    s.getThingIndex cfg.items x (.player p) = index ∧
      removeThing cfg s x (s.item x).count (.player p) =
        (s.setParent x none).setSlot p index.toNat none := by
  obtain ⟨hidx, hmem, hinv⟩ := getInventoryItem_eq_some hslot
  obtain ⟨i, hi, hxi, hget⟩ := getThingIndex_player cfg.items
    (mem_contents_player.2 ⟨_, hmem, hinv⟩)
  obtain rfl := hs.slot_inj hi hmem hxi hinv
  have hcast : ((index.toNat : ℕ) : ℤ) = index := by omega
  rw [hcast] at hget
  refine ⟨hget, ?_⟩
  unfold removeThing
  dsimp only
  rw [hget, if_neg (by omega)]
  simp

/-- After the exchange the slot is empty, the other slots are as they were, and
the capacity is what is left without the item that was there. -/
structure Freed (cfg : Config) (s s' : State) (p : CreatureId) (slot : ℕ) (r : Ref) : Prop where
  id : ∀ y, (s'.item y).id = (s.item y).id
  item : s'.item r = s.item r
  inventory : (s'.players p).inventory = Function.update (s.players p).inventory slot none
  capacity : ∀ count, Player.hasCapacity cfg s' p r count = Player.hasCapacityWithout cfg s p slot r count

theorem Freed.type (h : Freed cfg s s' p index.toNat r) (y : Ref) : s'.type cfg y = s.type cfg y := by
  unfold State.type
  rw [h.id]

theorem Freed.getInventoryItem (h : Freed cfg s s' p index.toNat r) : s'.getInventoryItem p index = none := by
  unfold State.getInventoryItem
  split
  · rw [h.inventory, Function.update_self]
  · rfl

/-- The answer to the question that is asked again. -/
theorem Freed.queryAdd (h : Freed cfg s s' p index.toNat r) (hslot : s.getInventoryItem p index = some x)
    (hasked : Player.queryAdd cfg s p index r count flags = .needExchange) :
    Player.queryAdd cfg s' p index r count flags =
      if Player.hasCapacityWithout cfg s p index.toNat r count then .noError else .notEnoughCapacity := by
  obtain ⟨hchild, hpickup, hquery, -⟩ := Player.queryAdd_eq_needExchange hasked
  obtain ⟨hidx, -, -⟩ := getInventoryItem_eq_some hslot
  have hsame : Player.querySlot cfg s' p index r count = Player.querySlot cfg s p index r count := by
    apply Player.querySlot_congr h.type (by rw [h.item])
    · rintro rfl
      rw [h.inventory]
      exact Function.update_of_ne (by decide) ..
    · rintro rfl
      rw [h.inventory]
      exact Function.update_of_ne (by decide) ..
  have hok : Player.querySlot cfg s p index r count = .noError := by
    rcases hquery with hq | hq
    · exact hq
    · rcases Player.querySlot_cases cfg s r p index count with h | ⟨hnone, -⟩
      · exact nomatch (hq ▸ h)
      · omega
  have hfree : Player.occupied cfg s' p index r = false := by
    unfold Player.occupied
    rw [h.getInventoryItem]
  unfold Player.queryAdd
  simp only [hchild, h.type, hpickup, hsame, hok, hfree, h.capacity, Bool.not_true, Bool.false_eq_true,
    if_false, true_or, if_true, Bool.not_eq_true']
  cases Player.hasCapacityWithout cfg s p index.toNat r count <;> rfl

theorem Freed.queryMaxCount (h : Freed cfg s s' p index.toNat r)
    (hidx : index ≠ indexWhereever)
    (hadd : Player.queryAdd cfg s' p index r count flags = .noError) :
    Player.queryMaxCount cfg s' p index r count flags =
      (.noError, if (s.type cfg r).stackable then 100 else 1) := by
  unfold Player.queryMaxCount
  dsimp only
  rw [if_neg hidx, h.getInventoryItem]
  dsimp only
  rw [if_pos hadd, h.type]

end Slots

/-! ### The item in the way is taken out of its slot -/

section Emptied

variable {cfg : Config} {s s' : State} {r x y f : Ref} {p : CreatureId} {slot : ℕ} {t : Position}

/-- The item is out of the slot. -/
def emptied (s : State) (p : CreatureId) (slot : ℕ) (x : Ref) : State :=
  (s.setParent x none).setSlot p slot none

theorem item_emptied : (emptied s p slot x).item = s.item := s.item_setParent x none

theorem parent_emptied : (emptied s p slot x).parent y = if y = x then none else s.parent y :=
  s.parent_setParent x y none

theorem players_emptied : (emptied s p slot x).players p =
    { s.players p with inventory := Function.update (s.players p).inventory slot none } :=
  Function.update_self ..

theorem inventory_emptied : ((emptied s p slot x).players p).inventory =
    Function.update (s.players p).inventory slot none := by
  rw [players_emptied]

theorem tile_setSlot (p' : CreatureId) (y : Option Ref) :
    ((s.setSlot p slot y).players p').tile = (s.players p').tile := by
  unfold setSlot setPlayer
  dsimp only
  by_cases h : p' = p
  · subst h
    rw [Function.update_self]
  · rw [Function.update_of_ne h]

theorem getWeight_emptied : (emptied s p slot x).getWeight cfg.items y = s.getWeight cfg.items y :=
  getWeight_congr (congrFun item_emptied y) fun _ => totalWeight_setParent s y none

/-- The slots weigh what the others weighed before. -/
theorem weightOf_emptied (hinv : (s'.players p).inventory = Function.update (s.players p).inventory slot none)
    (hweight : ∀ i ∈ slots, i ≠ slot → ∀ y, (s.players p).inventory i = some y →
      s'.getWeight cfg.items y = s.getWeight cfg.items y) :
    s'.weightOf cfg.items p slots = s.weightOf cfg.items p (slots.erase slot) := by
  have hnodup : slots.Nodup := by decide
  have hnone : (s'.players p).inventory slot = none := by rw [hinv, Function.update_self]
  rw [← weightOf_erase hnone]
  refine weightOf_congr ?_ ?_
  · intro i hi
    rw [hinv, Function.update_of_ne (hnodup.mem_erase_iff.1 hi).1]
  · intro i hi y hy
    obtain ⟨hne, hi⟩ := hnodup.mem_erase_iff.1 hi
    exact hweight i hi hne y hy

theorem players_updateInventoryWeight_self (items : UInt16 → ItemType) (s : State) (p : CreatureId) :
    (s.updateInventoryWeight items p).players p =
      if (s.players p).hasInfiniteCapacity then s.players p
      else { s.players p with inventoryWeight := s.weightOf items p slots } := by
  unfold updateInventoryWeight
  split
  · rfl
  · exact Function.update_self ..

end Emptied

/-! ### A container takes the item in the way -/

section FromContainer

variable {cfg : Config} {s s' : State} {r x y f : Ref} {p : CreatureId} {index : ℤ}

/-- The container with the item in front, if it takes any. -/
def pushed (s : State) (x f : Ref) : State :=
  if 0 < (s.things f).maxSize.toNat then s.attach 0 x (.container f) else s

theorem item_pushed : (pushed s x f).item = s.item := by
  unfold pushed
  split
  · exact item_attach s 0 x _
  · rfl

theorem players_pushed : (pushed s x f).players = s.players := by
  unfold pushed
  split <;> rfl

theorem next_pushed : (pushed s x f).next = s.next := by
  unfold pushed
  split <;> rfl

theorem tiles_pushed : (pushed s x f).tiles = s.tiles := by
  unfold pushed
  split <;> rfl

theorem parent_pushed (hne : y ≠ x) : (pushed s x f).parent y = s.parent y := by
  unfold pushed
  split
  · unfold State.attach
    rw [parent_setItemlist, parent_setParent, if_neg hne]
  · rfl

theorem totalWeight_pushed : ((pushed s x f).things y).totalWeight = (s.things y).totalWeight := by
  unfold pushed
  split
  · exact (totalWeight_setItemlist _ y _).trans (totalWeight_setParent s y _)
  · rfl

/-- The items that were in the container are there still. -/
theorem mem_contents_pushed (hr : r ∈ s.contents (.container f)) : r ∈ (pushed s x f).contents (.container f) := by
  unfold pushed
  split
  · unfold State.attach contents
    dsimp only
    rw [itemlist_setItemlist, if_pos rfl]
    exact List.mem_cons_of_mem x hr
  · exact hr

/-- The container takes the item, and its weight goes up to what holds it. -/
theorem addThing_container (cfg : Config) (s : State) (x f : Ref) :
    ∃ s', addThing cfg s 0 x (.container f) = some s' ∧ s'.bare = (pushed s x f).bare ∧
      s'.players = s.players ∧
      ∀ y, ¬ (pushed s x f).Within (.container f) (.container y) →
        s'.getWeight cfg.items y = s.getWeight cfg.items y := by
  have hweight (y : Ref) : (pushed s x f).getWeight cfg.items y = s.getWeight cfg.items y :=
    getWeight_congr (congrFun item_pushed y) fun _ => totalWeight_pushed
  by_cases h : 0 < (s.things f).maxSize.toNat
  · have hp : pushed s x f =
        (s.setParent x (some (.container f))).setItemlist f (x :: (s.things f).itemlist) := if_pos h
    refine ⟨(pushed s x f).updateItemWeight f ((pushed s x f).getWeight cfg.items x), ?_, ?_, ?_, ?_⟩
    · unfold addThing
      dsimp only
      rw [if_neg (by omega), itemlist_setParent, hp]
    · exact bare_updateItemWeight ..
    · rw [players_updateItemWeight, players_pushed]
    · exact fun y hy => (getWeight_updateItemWeight hy).trans (hweight y)
  · have hp : pushed s x f = s := if_neg h
    refine ⟨s, ?_, ?_, rfl, fun _ _ => rfl⟩
    · unfold addThing
      dsimp only
      rw [if_pos (by omega)]
    · rw [hp]

/-- A container gives a player the item for a slot, and takes what was there. -/
theorem exchange_container_player {item : Ref} (hs : s.Wf cfg.items)
    (hitem : s.parent item = some (.container f)) (hslot : s.getInventoryItem p index = some x)
    (hx : s.asCylinder x = none) :
    ∃ s₁, exchange cfg s (.container f) (.player p) x = some s₁ ∧
      s₁.bare = (pushed (emptied s p index.toNat x) x f).bare ∧ Freed cfg s s₁ p index.toNat item := by
  obtain ⟨hidx, hmem, hinv⟩ := getInventoryItem_eq_some hslot
  have hparentx : s.parent x = some (.player p) :=
    (hs.mem_contents _ _).1 (mem_contents_player.2 ⟨_, hmem, hinv⟩)
  have hne : item ≠ x := by
    rintro rfl
    exact nomatch hitem.symm.trans hparentx
  obtain ⟨hget, hremove⟩ := removeThing_slot hs hslot
  obtain ⟨s₂, hadd, hbare₂, hplayers₂, hweight₂⟩ := addThing_container cfg (emptied s p index.toNat x) x f
  -- the player is told of the slot, then the container of the item
  let s₃ := s₂.updateInventoryWeight cfg.items p
  let s₁ := notifyAdded cfg s₃ (some x) (.container f)
  have hs₁ : exchange cfg s (.container f) (.player p) x = some s₁ := by
    unfold exchange
    dsimp only
    rw [hget, hremove]
    unfold addThingFront
    dsimp only
    rw [← emptied, hadd, Option.map_some]
    unfold notifyRemoved
    rw [if_neg (by omega)]
    rfl
  have hnotified : s₁ = s₃ ∨ s₁ = postNotification cfg.items s₃ (s₃.next + 2) .owner (.container f) := by
    simp only [s₁]
    unfold notifyAdded
    dsimp only
    split
    · exact .inl rfl
    · exact .inr rfl
  have hthings : s₁.things = s₂.things := by
    have h₃ : s₃.things = s₂.things := things_updateInventoryWeight cfg.items s₂ p
    rcases hnotified with he | he
    · rw [he, h₃]
    · rw [he, things_postNotification, h₃]
  have hbare : s₁.bare = (pushed (emptied s p index.toNat x) x f).bare := by
    have h₃ : s₃.bare = s₂.bare := bare_updateInventoryWeight cfg.items s₂ p
    rcases hnotified with he | he
    · rw [he, h₃, hbare₂]
    · rw [he, bare_postNotification, h₃, hbare₂]
  have hitems : s₁.item = s.item := by
    rw [congr_bare (f := State.item) (fun _ => rfl) hbare, item_pushed, item_emptied]
  have hinventory : (s₁.players p).inventory =
      Function.update (s.players p).inventory index.toNat none := by
    rw [congr_bare (f := fun s => (s.players p).inventory) (fun _ => rfl) hbare, players_pushed,
      inventory_emptied]
  have hparent : ∀ y, y ≠ x → s₁.parent y = s.parent y := by
    intro y hy
    rw [congr_bare (f := State.parent) (fun _ => rfl) hbare, parent_pushed hy, parent_emptied, if_neg hy]
  have htile : ∀ p', (s₁.players p').tile = (s.players p').tile := by
    intro p'
    rw [congr_bare (f := fun s => (s.players p').tile) (fun _ => rfl) hbare, players_pushed]
    exact tile_setSlot p' none
  have hnext : s₁.next = s.next := by
    rw [congr_bare (f := State.next) (fun _ => rfl) hbare, next_pushed]
    rfl
  -- nothing above the container has changed, since the item in the way holds nothing
  have hwithin {s' : State} {d : Cylinder} (hparent : ∀ y, y ≠ x → s'.parent y = s.parent y)
      (htile : ∀ p', (s'.players p').tile = (s.players p').tile)
      (hw : s'.Within (.container f) d) : s.Within (.container f) d := by
    refine hs.within_congr hx hparent htile hw ?_ fun _ e => (nomatch e)
    rintro ⟨⟩
    have hcont := (hs.container x item hitem).1
    unfold asCylinder at hx
    rw [if_pos hcont] at hx
    exact nomatch hx
  have hwithin₂ {d : Cylinder}
      (hw : (pushed (emptied s p index.toNat x) x f).Within (.container f) d) :
      s.Within (.container f) d := by
    refine hwithin (fun y hy => ?_) (fun p' => ?_) hw
    · rw [parent_pushed hy, parent_emptied, if_neg hy]
    · rw [players_pushed]
      exact tile_setSlot p' none
  have hw₂ (y : Ref) (hy : ¬ s.Within (.container f) (.container y)) :
      s₂.getWeight cfg.items y = s.getWeight cfg.items y :=
    (hweight₂ y fun hw => hy (hwithin₂ hw)).trans getWeight_emptied
  refine ⟨s₁, hs₁, hbare, ⟨fun y => by rw [hitems], congrFun hitems item, hinventory, fun count => ?_⟩⟩
  have htop : s₁.getTopParent item = s.getTopParent item := by
    refine hs.getTopParent_congr hx hparent htile hnext ?_ hne
    unfold asCylinder isContainer
    rw [hitems]
  have hrest : (s₁.players p).cannotPickupItem = (s.players p).cannotPickupItem ∧
      (s₁.players p).hasInfiniteCapacity = (s.players p).hasInfiniteCapacity ∧
      (s₁.players p).capacity = (s.players p).capacity := by
    have hp : s₁.bare.players p = (emptied s p index.toNat x).bare.players p := by
      rw [hbare]
      unfold bare
      dsimp only
      rw [players_pushed]
    have hp : { s₁.players p with inventoryWeight := 0 } =
        { (emptied s p index.toNat x).players p with inventoryWeight := 0 } := hp
    rw [players_emptied] at hp
    injection hp with _ _ h₁ _ _ h₂ h₃
    exact ⟨h₂, h₃, h₁⟩
  refine Player.hasCapacity_eq_hasCapacityWithout hrest.1 hrest.2.1 hrest.2.2 (by rw [htop])
    (congrFun hitems item) ?_
  intro hfin hcarried
  have hout : ¬ s.Within (.container f) (.player p) := fun hw =>
    hcarried (hs.getTopParent_eq_player.2 ⟨_, hitem, hw⟩)
  constructor
  · unfold State.getWeight State.isContainer State.item
    rw [hthings]
    exact hw₂ item (hs.not_within_self hitem)
  · have hplayers : s₁.players p = s₃.players p := by
      rcases hnotified with he | he
      · rw [he]
      · rw [he]
        apply players_postNotification
        refine fun hw => hout (hwithin (fun y hy => ?_) (fun p' => ?_) hw)
        · rw [← hparent y hy, he]
          exact (congr_bare (f := fun s => s.parent y) (fun _ => rfl) (bare_postNotification ..)).symm
        · rw [← htile p', he]
          exact (congr_bare (f := fun s => (s.players p').tile) (fun _ => rfl) (bare_postNotification ..)).symm
    have hweigh : s₂.weightOf cfg.items p slots = s.weightOf cfg.items p (slots.erase index.toNat) := by
      refine weightOf_emptied ?_ fun i hi _ y hy => hw₂ y fun hw => hout ?_
      · rw [hplayers₂, inventory_emptied]
      · have hy : s.parent y = some (.player p) :=
          (hs.mem_contents _ _).1 (mem_contents_player.2 ⟨i, hi, hy⟩)
        exact hw.tail hy
    have hfin₂ : (s₂.players p).hasInfiniteCapacity = false := by
      rw [hplayers₂, players_emptied]
      exact hfin
    rw [hplayers, players_updateInventoryWeight_self, hfin₂, if_neg Bool.false_ne_true, hweigh]

end FromContainer

end Inventory
end ForgottenServer
