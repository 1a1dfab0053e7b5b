/-
# What a player has

The items that a player carries and those on a tile, where he stands: all that
is his. An item that lies nowhere is gained when it is put into one of these
containers, into a free slot or on the tile; a stack there is changed in place;
and what is carried is taken out, in part or whole.

Key definitions: `Holding`, `State.holdings`, `Gained`, `Changed`.
Key theorems: `Holding.gained`, `Holding.changed`.
-/
import ForgottenServer.Carried
import ForgottenServer.ExchangeTile

namespace ForgottenServer
namespace Inventory

open Ancestry Nesting Relation State
open Spectators (Position)
open TileItems.State (Shape)

attribute [ext] Thing

/-- What is carried and what lies on the tile, each item in one place. -/
structure Holding (s : State) (p : CreatureId) (t : Position) : Prop where
  owned : Owned s p
  shape : ∃ D T, Shape (s.mapTile t).tile D T
  parent : ∀ r ∈ s.contents (.tile t), s.parent r = some (.tile t)
  lt : ∀ r ∈ s.contents (.tile t), r < s.next

/-- All that is carried or lies on the tile. -/
noncomputable def State.holdings (s : State) (p : CreatureId) (t : Position) : Finset Ref :=
  s.carried p ∪ (s.contents (.tile t)).toFinset

/-- The player has one item more, which was his no more than anybody's. -/
structure Gained (s s' : State) (p : CreatureId) (t : Position) (r : Ref) : Prop where
  holding : Holding s' p t
  holdings : s'.holdings p t = insert r (s.holdings p t)
  carried : s.carried p ⊆ s'.carried p
  item : s'.item = s.item
  next : s'.next = s.next
  stands : (s'.players p).tile = (s.players p).tile

/-- One of the items has become another. -/
structure Changed (s s' : State) (p : CreatureId) (t : Position) (x : Ref) (it : Item) : Prop where
  holding : Holding s' p t
  holdings : s'.holdings p t = s.holdings p t
  carried : s'.carried p = s.carried p
  item : s'.item = Function.update s.item x it
  parent : s'.parent = s.parent
  next : s'.next = s.next
  stands : (s'.players p).tile = (s.players p).tile

section Holdings

variable {s s' s₁ : State} {p : CreatureId} {t : Position} {q r x : Ref} {c : Cylinder} {it : Item}

theorem mem_holdings : x ∈ s.holdings p t ↔ x ∈ s.carried p ∨ x ∈ s.contents (.tile t) := by
  unfold State.holdings
  rw [Finset.mem_union, List.mem_toFinset]

theorem contents_tile_congr (h : s'.mapTile t = s.mapTile t) : s'.contents (.tile t) = s.contents (.tile t) := by
  unfold contents
  dsimp only
  rw [h]

theorem Owned.lt_of_mem (h : Owned s p) (hx : x ∈ s.carried p) : x < s.next := by
  obtain ⟨a, ha, hup⟩ := h.mem_carried.1 hx
  rcases ReflTransGen.cases_head hup with rfl | ⟨y, hy, -⟩
  · exact h.lt x ha
  · exact Finset.mem_range.1 (h.forest.nested.mem hy).2

theorem State.Wf.holding {items : UInt16 → ItemType} (h : s.Wf items) (p : CreatureId) (t : Position) :
    Holding s p t where
  owned := h.owned p
  shape := h.tile t
  parent r hr := (h.mem_contents (.tile t) r).1 hr
  lt r hr := h.fresh r fun e => nomatch ((h.mem_contents (.tile t) r).1 hr).symm.trans e

namespace Holding

theorem lt_of_mem (h : Holding s p t) (hx : x ∈ s.holdings p t) : x < s.next :=
  (mem_holdings.1 hx).elim h.owned.lt_of_mem (h.lt x)

/-- What lies nowhere is not among it. -/
theorem notMem (h : Holding s p t) (hr : s.parent r = none) : r ∉ s.holdings p t := by
  intro hmem
  rcases mem_holdings.1 hmem with hmem | hmem
  · exact h.owned.notMem_carried hr hmem
  · exact nomatch hr.symm.trans (h.parent r hmem)

theorem of_bare (h : Holding s p t) (hbare : s'.bare = s.bare) : Holding s' p t where
  owned := h.owned.of_bare hbare
  shape := by
    rw [congr_bare (f := fun s => s.mapTile t) (fun _ => rfl) hbare]
    exact h.shape
  parent r hr := by
    rw [congr_bare (f := State.contents) contents_bare hbare] at hr
    rw [congr_bare (f := State.parent) parent_bare hbare]
    exact h.parent r hr
  lt r hr := by
    rw [congr_bare (f := State.contents) contents_bare hbare] at hr
    rw [congr_bare (f := State.next) next_bare hbare]
    exact h.lt r hr

theorem holdings_of_bare (hbare : s'.bare = s.bare) : s'.holdings p t = s.holdings p t :=
  congr_bare (f := fun s => s.holdings p t) (fun _ => rfl) hbare

theorem carried_of_bare (hbare : s'.bare = s.bare) : s'.carried p = s.carried p :=
  congr_bare (f := fun s => s.carried p) (fun _ => rfl) hbare

/-- What was there before an object is created. -/
theorem create (h : Holding s p t) (it : Item) (n : UInt16) :
    Holding (s.create it n) p t ∧ (s.create it n).holdings p t = s.holdings p t ∧
      (s.create it n).carried p = s.carried p := by
  obtain ⟨howned, hcarried⟩ := h.owned.create it n
  refine ⟨⟨howned, h.shape, fun r hr => ?_, fun r hr => (h.lt r hr).trans (Nat.lt_succ_self _)⟩, ?_, hcarried⟩
  · unfold State.parent
    rw [things_create, if_neg (h.lt r hr).ne]
    exact h.parent r hr
  · unfold State.holdings
    rw [hcarried]
    rfl

end Holding

theorem item_create (s : State) (it : Item) (n : UInt16) :
    (s.create it n).item = Function.update s.item s.next it := by
  funext y
  unfold State.item
  rw [things_create, Function.update_apply]
  split <;> rfl

theorem parent_create_self (s : State) (it : Item) (n : UInt16) : (s.create it n).parent s.next = none := by
  unfold State.parent
  rw [things_create, if_pos rfl]

/-! ### What is gained -/

theorem stands_of_bare (hbare : s'.bare = s.bare) : (s'.players p).tile = (s.players p).tile :=
  congr_bare (f := fun s => (s.players p).tile) (fun _ => rfl) hbare

theorem Gained.of_bare (h : Gained s s₁ p t r) (hbare : s'.bare = s₁.bare) : Gained s s' p t r where
  holding := h.holding.of_bare hbare
  holdings := (Holding.holdings_of_bare hbare).trans h.holdings
  carried := (Holding.carried_of_bare hbare).symm ▸ h.carried
  item := (congr_bare (f := State.item) item_bare hbare).trans h.item
  next := (congr_bare (f := State.next) next_bare hbare).trans h.next
  stands := (stands_of_bare hbare).trans h.stands

/-- What comes to be carried. -/
theorem Holding.gained_of_owned (h : Holding s p t) (hr : s.parent r = none) (howned : Owned s' p)
    (hcarried : s'.carried p = insert r (s.carried p)) (hparent : ∀ x, x ≠ r → s'.parent x = s.parent x)
    (htile : s'.mapTile t = s.mapTile t) (hitem : s'.item = s.item) (hnext : s'.next = s.next)
    (hstands : (s'.players p).tile = (s.players p).tile) : Gained s s' p t r := by
  have hcontents := contents_tile_congr htile
  have hne {x : Ref} (hx : x ∈ s.contents (.tile t)) : x ≠ r := by
    rintro rfl
    exact nomatch hr.symm.trans (h.parent x hx)
  refine ⟨⟨howned, ?_, fun x hx => ?_, fun x hx => ?_⟩, ?_, ?_, hitem, hnext, hstands⟩
  · rw [htile]
    exact h.shape
  · rw [hcontents] at hx
    rw [hparent x (hne hx)]
    exact h.parent x hx
  · rw [hcontents] at hx
    rw [hnext]
    exact h.lt x hx
  · unfold State.holdings
    rw [hcarried, hcontents, Finset.insert_union]
  · rw [hcarried]
    exact Finset.subset_insert ..

/-- An item is put into a container that is carried. -/
theorem Holding.gained_container (h : Holding s p t) (hr : s.parent r = none) (hleaf : s.isContainer r = false)
    (hlt : r < s.next) (hq : q ∈ s.carried p) (hcont : s.isContainer q = true) (index : ℤ) :
    Gained s (s.attach index r (.container q)) p t r := by
  have hfree : s.holder r = none := by
    unfold State.holder
    rw [hr]
  have hfits : s.Fits q r := by
    refine ⟨hcont, h.owned.lt_of_mem hq, hlt, hfree, fun hw => ?_⟩
    rcases ReflTransGen.cases_tail hw with he | ⟨y, -, hy⟩
    · rw [he, hcont] at hleaf
      exact nomatch hleaf
    · exact h.owned.holder_ne hleaf y hy
  have hput : Put s (s.attach index r (.container q)) q r := put_setParent
  obtain ⟨howned, hcarried⟩ := h.owned.put hr hleaf hfits hq hput rfl
  refine h.gained_of_owned hr howned hcarried (fun x hx => ?_) rfl hput.item rfl rfl
  rw [hput.parent, Function.update_of_ne hx]

/-- An item is put into a free slot. -/
theorem Holding.gained_slot (h : Holding s p t) (hr : s.parent r = none) (hleaf : s.isContainer r = false)
    (hlt : r < s.next) {index : ℤ} (hidx : 1 ≤ index ∧ index ≤ 10)
    (hfree : (s.players p).inventory index.toNat = none) : Gained s (s.attach index r (.player p)) p t r := by
  have hslot : index.toNat ∈ slots := by
    rw [mem_slots]
    omega
  obtain ⟨howned, hcarried⟩ := h.owned.equip hr hleaf hlt hslot hfree
  refine h.gained_of_owned hr howned hcarried (fun x hx => ?_) rfl (s.item_setParent r _) rfl (tile_setSlot p _)
  exact (parent_setParent s r x _).trans (if_neg hx)

/-- A tile has the parents as they are. -/
theorem State.parent_tileState (s : State) (t : Position) (y : Ref) :
    (if (s.tileState t).parentIsTile y then some (.tile t)
      else if s.parent y = some (.tile t) then none else s.parent y) = s.parent y := by
  unfold tileState
  by_cases hp : s.parent y = some (.tile t)
  · simp [hp]
  · simp [hp]

/-- An item that lies on tiles as it is: no ground, nothing that is always on top and no field. -/
structure Plain (items : UInt16 → ItemType) (id : UInt16) : Prop where
  noGround : (items id).isGroundTile = false
  notOnTop : (items id).alwaysOnTop = false
  noField : (items id).isMagicField = false

section Tiles

variable {cfg : Config}

/-- A plain item comes to lie in front of the down items, or the tile is full. -/
theorem addThing_plain {v : TileItems.State Ref CreatureId} {D T : List Ref} (hshape : Shape (s.mapTile t).tile D T)
    (hplain : Plain cfg.items (s.item r).id) (hv : (s.tileState t).addThing cfg.items (.item r) = some v) :
    v = s.tileState t ∨ (D ++ T).length < 0xFFFF ∧ v.item = s.item ∧
      v.parentIsTile = Function.update (s.tileState t).parentIsTile r true ∧
        v.tile = { (s.mapTile t).tile with items := some (TileItems.State.ofParts (r :: D) T) } := by
  unfold TileItems.State.addThing at hv
  dsimp only at hv
  split at hv
  · exact .inl (Option.some.inj hv).symm
  next hfull =>
  have hroom : (D ++ T).length < 0xFFFF := by
    rcases hshape.items_eq with he | ⟨-, rfl, rfl⟩
    · have he' : (s.tileState t).tile.items = some (TileItems.State.ofParts D T) := he
      rw [he'] at hfull
      simpa [TileItems.State.ofParts] using hfull
    · decide
  have hinsert := TileItems.State.insertDown_eq (s := (s.tileState t).setParent r true) hshape hroom r
  have htype : ((s.tileState t).setParent r true).type cfg.items r = cfg.items (s.item r).id := rfl
  rw [htype, hplain.noGround, hplain.notOnTop, hplain.noField, if_neg Bool.false_ne_true, if_neg Bool.false_ne_true,
    if_neg Bool.false_ne_true, hinsert] at hv
  rw [← Option.some.inj hv]
  exact .inr ⟨hroom, rfl, rfl, rfl⟩

/-- A tile with an item put on it has the same things as a change of its parent. -/
theorem things_putTile {v : TileItems.State Ref CreatureId} (hr : s.parent r = none) (hitem : v.item = s.item)
    (hparent : v.parentIsTile = Function.update (s.tileState t).parentIsTile r true) :
    (s.putTile t v).things = (s.setParent r (some (.tile t))).things := by
  funext y
  unfold putTile setParent
  dsimp only
  rw [things_setThing, hitem, hparent]
  by_cases hy : y = r
  · subst hy
    rw [if_pos rfl, Function.update_self, if_pos rfl]
    rfl
  · rw [if_neg hy, Function.update_of_ne hy]
    exact Thing.ext rfl (s.parent_tileState t y) rfl rfl rfl rfl rfl

/-- A plain item is put on the tile. -/
theorem Holding.gained_tile (h : Holding s p t) (hr : s.parent r = none) (hlt : r < s.next)
    (hplain : Plain cfg.items (s.item r).id) {v : TileItems.State Ref CreatureId}
    (hv : (s.tileState t).addThing cfg.items (.item r) = some v)
    (hthere : (s.putTile t v).parent r = some (.tile t)) : Gained s (s.putTile t v) p t r := by
  obtain ⟨D, T, hshape⟩ := h.shape
  obtain rfl | ⟨hroom, hitem, hparent, htile⟩ := addThing_plain hshape hplain hv
  · rw [parent_putTile, s.parent_tileState t r, hr] at hthere
    exact nomatch hthere
  have hthings : (s.putTile t v).things = (s.setParent r (some (.tile t))).things := things_putTile hr hitem hparent
  have hroot : s.holder r = none := by
    unfold State.holder
    rw [hr]
  have hnot : ∀ q, some (Cylinder.tile t) ≠ some (.container q) := fun q e => nomatch e
  have hparents (y : Ref) : (s.putTile t v).parent y = if y = r then some (.tile t) else s.parent y := by
    unfold State.parent
    rw [hthings]
    exact parent_setParent s r y _
  have hout : r ∉ s.contents (.player p) := fun hmem => nomatch hr.symm.trans (h.owned.parent r hmem)
  have howned : Owned (s.putTile t v) p := by
    refine ⟨(h.owned.forest.setParent_root hroot hnot).of_things hthings rfl, h.owned.nodup, fun x hx => ?_, h.owned.lt⟩
    rw [hparents, if_neg]
    · exact h.owned.parent x hx
    · rintro rfl
      exact hout hx
  have hholder : (s.putTile t v).holder = s.holder := by
    rw [← holder_setParent_root hroot hnot]
    unfold State.holder State.parent
    rw [hthings]
  have hcarried : (s.putTile t v).carried p = s.carried p := h.owned.carried_congr howned rfl hholder
  have hground : r ∉ (s.mapTile t).tile.ground.toList := by
    intro hmem
    have hcontents : r ∈ s.contents (.tile t) := List.mem_append_left _ hmem
    exact nomatch hr.symm.trans (h.parent r hcontents)
  have hnot' : r ∉ D ++ T := by
    intro hmem
    have hcontents : r ∈ s.contents (.tile t) := by
      unfold contents
      dsimp only
      rw [hshape.downItems_eq, hshape.topItems_eq]
      rw [List.mem_append] at hmem
      exact List.mem_append_right _ (List.mem_append.2 hmem.symm)
    exact nomatch hr.symm.trans (h.parent r hcontents)
  have hhas : ¬ (s.mapTile t).tile.Has (.item r) := by
    rw [hshape.has_iff, not_or]
    exact ⟨fun hg => hground (by rw [hg]; exact List.mem_singleton_self r), hnot'⟩
  have hshape' : Shape v.tile (r :: D) T := by
    rw [htile]
    exact hshape.insert (.refl _) hhas hroom
  have hmap : ((s.putTile t v).mapTile t).tile = v.tile := by rw [mapTile_putTile_self]
  have hcontents : (s.putTile t v).contents (.tile t) =
      (s.mapTile t).tile.ground.toList ++ (T ++ (r :: D)) := by
    unfold contents
    dsimp only
    rw [hmap, hshape'.downItems_eq, hshape'.topItems_eq, htile]
  have hmem (x : Ref) : x ∈ (s.putTile t v).contents (.tile t) ↔ x = r ∨ x ∈ s.contents (.tile t) := by
    rw [hcontents]
    unfold contents
    dsimp only
    rw [hshape.downItems_eq, hshape.topItems_eq]
    simp only [List.mem_append, List.mem_cons]
    tauto
  refine ⟨⟨howned, ⟨r :: D, T, by rw [hmap]; exact hshape'⟩, fun x hx => ?_, fun x hx => ?_⟩, ?_, hcarried.ge, hitem,
    rfl, rfl⟩
  · rw [hparents]
    split
    · rfl
    · next hne => exact h.parent x (((hmem x).1 hx).resolve_left hne)
  · rcases (hmem x).1 hx with rfl | hx
    · exact hlt
    · exact h.lt x hx
  · ext x
    rw [mem_holdings, hcarried, hmem, Finset.mem_insert, mem_holdings]
    tauto

end Tiles

/-! ### What is changed in place -/

theorem Changed.of_bare (h : Changed s s₁ p t x it) (hbare : s'.bare = s₁.bare) : Changed s s' p t x it where
  holding := h.holding.of_bare hbare
  holdings := (Holding.holdings_of_bare hbare).trans h.holdings
  carried := (Holding.carried_of_bare hbare).trans h.carried
  item := (congr_bare (f := State.item) item_bare hbare).trans h.item
  parent := (congr_bare (f := State.parent) parent_bare hbare).trans h.parent
  next := (congr_bare (f := State.next) next_bare hbare).trans h.next
  stands := (stands_of_bare hbare).trans h.stands

/-- The item alone is another. -/
theorem Holding.changed_of_things (h : Holding s p t) (hcls : it.cls = (s.item x).cls)
    (hthings : s'.things = (s.setItem x it).things) (hplayers : s'.players = s.players)
    (htile : (s'.mapTile t).tile = (s.mapTile t).tile) (hnext : s'.next = s.next) : Changed s s' p t x it := by
  have hset := h.owned.setItem hcls
  have hparent : s'.parent = s.parent := by
    rw [← parent_setItem s x it]
    unfold State.parent
    rw [hthings]
  have hslots : s'.contents (.player p) = s.contents (.player p) := by
    unfold contents
    dsimp only
    rw [hplayers]
  have hcontents : s'.contents (.tile t) = s.contents (.tile t) := by
    unfold contents
    dsimp only
    rw [htile]
  have howned : Owned s' p := by
    refine ⟨hset.forest.of_things hthings hnext, hslots ▸ hset.nodup, fun y hy => ?_, fun y hy => ?_⟩
    · rw [hslots] at hy
      rw [hparent]
      exact h.owned.parent y hy
    · rw [hslots] at hy
      rw [hnext]
      exact h.owned.lt y hy
  have hholder : s'.holder = s.holder := by
    unfold State.holder
    rw [hparent]
  have hcarried := h.owned.carried_congr howned hslots hholder
  refine ⟨⟨howned, by rw [htile]; exact h.shape, fun y hy => ?_, fun y hy => ?_⟩, ?_, hcarried, ?_, hparent, hnext,
    by rw [hplayers]⟩
  · rw [hcontents] at hy
    rw [hparent]
    exact h.parent y hy
  · rw [hcontents] at hy
    rw [hnext]
    exact h.lt y hy
  · unfold State.holdings
    rw [hcarried, hcontents]
  · funext y
    have hitem : s'.item y = (s.setItem x it).item y := by
      unfold State.item
      rw [hthings]
    rw [hitem, item_setItem, Function.update_apply]

/-- The item as `updateThing` leaves it. -/
def updated (items : UInt16 → ItemType) (it : Item) (itemId : UInt16) (count : ℕ) : Item :=
  (it.setID items itemId).setSubType items (count % 2 ^ 16)

theorem updated_cls (items : UInt16 → ItemType) (itemId : UInt16) (count : ℕ) :
    (updated items it itemId count).cls = it.cls := by
  unfold updated
  rw [Item.setSubType_cls, Item.setID_cls]

section Tiles

variable {cfg : Config} {itemId : UInt16} {count : ℕ}

theorem Holding.changed_carries (h : Holding s p t) (hc : Carries c) (hx : x ∈ s.contents c) :
    Changed s (updateThing cfg s x itemId count c) p t x (updated cfg.items (s.item x) itemId count) := by
  refine Changed.of_bare ?_ (bare_updateThing hc hx)
  exact h.changed_of_things (updated_cls ..) rfl rfl rfl rfl

theorem Holding.changed_tile (h : Holding s p t) (hx : x ∈ (s.mapTile t).tile.downItems)
    (hplain : Plain cfg.items (s.item x).id) (hcount : count < 2 ^ 32) :
    Changed s (updateThing cfg s x itemId count (.tile t)) p t x (updated cfg.items (s.item x) itemId count) := by
  obtain ⟨D, T, hshape⟩ := h.shape
  have hshape' : Shape (s.tileState t).tile D T := hshape
  have htop : (s.tileState t).isAlwaysOnTop cfg.items x = false := hplain.notOnTop
  have hidx : (s.tileState t).getThingIndex cfg.items (.item x) ≠ -1 := by
    refine fun hn => (hshape'.index_eq_iff x).1 hn (.inr ?_)
    rw [htop, if_neg Bool.false_ne_true]
    exact hshape.downItems_eq ▸ hx
  have hidx' : s.getThingIndex cfg.items x (.tile t) ≠ -1 := hidx
  unfold updateThing
  dsimp only
  rw [if_neg hidx']
  unfold TileItems.State.updateThing
  dsimp only
  rw [if_neg hidx, UInt32.toNat_ofNat_of_lt' hcount]
  refine h.changed_of_things (updated_cls ..) ?_ rfl ?_ rfl
  · funext y
    unfold putTile setItem
    dsimp only
    rw [things_setThing]
    by_cases hy : y = x
    · subst hy
      rw [if_pos rfl]
      exact Thing.ext (Function.update_self ..) (s.parent_tileState t y) rfl rfl rfl rfl rfl
    · rw [if_neg hy]
      exact Thing.ext (Function.update_of_ne hy ..) (s.parent_tileState t y) rfl rfl rfl rfl rfl
  · rw [mapTile_putTile_self]
    rfl

end Tiles

end Holdings

end Inventory
end ForgottenServer
