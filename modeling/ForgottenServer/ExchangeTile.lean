/-
# Exchanges with a tile

A tile that takes the item in the way may lose others by it, so that what stays
of them is told by `Tile::addThing` itself. A tile that gives its top item away
is asked again without that item.

Key theorems: `removeThing_tile`, `exchange_tile_player`, `exchange_carries_tile`,
`exchange_tile_tile`.
-/
import ForgottenServer.Exchange
import ForgottenServer.TileFrame

namespace ForgottenServer
namespace Inventory

open State
open Spectators (Position)

section Tiles

variable {cfg : Config} {s s' : State} {r x y f : Ref} {p : CreatureId} {c : Cylinder}
  {t t' : Position} {v : TileItems.State Ref CreatureId} {items : UInt16 → ItemType} {index : ℤ}
  {count : ℕ} {flags : Flags} {actor : Option CreatureId}

/-! ### A tile of the map -/

@[simp] theorem item_putTile : (s.putTile t v).item = v.item := rfl

@[simp] theorem players_putTile : (s.putTile t v).players = s.players := rfl

theorem parent_putTile : (s.putTile t v).parent y =
    if v.parentIsTile y then some (.tile t)
    else if s.parent y = some (.tile t) then none
    else s.parent y := rfl

theorem mapTile_putTile_of_ne (h : t' ≠ t) : (s.putTile t v).mapTile t' = s.mapTile t' := by
  unfold mapTile putTile
  dsimp only
  rw [Function.update_of_ne h]

theorem mapTile_putTile_self : (s.putTile t v).mapTile t =
    { s.mapTile t with tile := v.tile, floorChange := v.floorChange, flag := v.flag } := by
  unfold mapTile putTile
  dsimp only
  rw [Function.update_self]
  rfl

theorem getThingIndex_putTile_self :
    (s.putTile t v).getThingIndex items r (.tile t) = v.getThingIndex items (.item r) := by
  unfold State.getThingIndex TileItems.State.getThingIndex TileItems.State.isAlwaysOnTop
    TileItems.State.type tileState
  dsimp only
  rw [mapTile_putTile_self]
  rfl

/-- What a device is given depends on the tile alone. -/
theorem tileDevice_putTile_congr (h : s'.mapTile t = s.mapTile t) :
    (s'.putTile t v).tileDevice t = (s.putTile t v).tileDevice t := by
  unfold tileDevice findWithGround findFromEnd
  rw [mapTile_putTile_self, mapTile_putTile_self, h]
  rfl

/-- An item that has an index in a cylinder has it as parent. -/
theorem State.Wf.parent_of_index (hs : s.Wf items) (h : s.getThingIndex items r c ≠ -1) :
    s.parent r = some c := by
  apply (hs.mem_contents c r).1
  cases c with
  | container q =>
    have hc : Carries (.container q) := trivial
    exact not_not.1 fun hn => h ((getThingIndex_eq_neg_one hc).2 hn)
  | player p =>
    have hc : Carries (.player p) := trivial
    exact not_not.1 fun hn => h ((getThingIndex_eq_neg_one hc).2 hn)
  | tile t =>
    obtain ⟨D, T, hshape⟩ := hs.tile t
    have hfound := not_not.1 fun hn => h ((TileItems.State.Shape.index_eq_iff (s := s.tileState t) hshape r).2 hn)
    unfold contents
    dsimp only
    rw [hshape.topItems_eq, hshape.downItems_eq]
    rcases hfound with hg | hpart
    · have hg : (s.mapTile t).tile.ground = some r := hg
      rw [hg]
      exact List.mem_append_left _ (List.mem_singleton_self r)
    · apply List.mem_append_right
      split at hpart
      · exact List.mem_append_left _ hpart
      · exact List.mem_append_right _ hpart
  | device d => exact absurd rfl h

/-- A whole item is taken off a tile. -/
theorem removeThing_tile (hs : s.Wf cfg.items) (h : s.getThingIndex cfg.items x (.tile t) ≠ -1) :
    ∃ w, removeThing cfg s x (s.item x).count (.tile t) = s.putTile t w ∧ w.item = s.item ∧
      ∀ y, (s.putTile t w).parent y = if y = x then none else s.parent y := by
  have hparent := hs.parent_of_index h
  obtain ⟨D, T, hshape⟩ := hs.tile t
  have hshape : TileItems.State.Shape (s.tileState t).tile D T := hshape
  let w := (s.tileState t).removeThing cfg.items (.item x) (.ofNat (s.item x).count)
  have hw : removeThing cfg s x (s.item x).count (.tile t) = s.putTile t w := by
    unfold removeThing
    dsimp only
    rw [if_neg h]
  have hcount : (UInt32.ofNat (s.item x).count).toNat = ((s.tileState t).item x).count :=
    UInt32.toNat_ofNat_of_lt' ((hs.count x).trans (by decide))
  have hwhole : w.item = s.item ∧ w.parentIsTile = Function.update (s.tileState t).parentIsTile x false := by
    rcases TileItems.State.removeThing_cases cfg.items hshape x (.ofNat (s.item x).count) with
      ⟨hno, -⟩ | ⟨-, he⟩ | ⟨-, -, he⟩ | ⟨-, -, hc, -⟩ | ⟨-, -, -, he⟩
    · exact absurd ((hshape.index_eq_iff x).2 hno) h
    · simp only [w, he]
      exact ⟨rfl, rfl⟩
    · simp only [w, he]
      exact ⟨rfl, rfl⟩
    · exact absurd hcount hc.2
    · simp only [w, he]
      exact ⟨rfl, rfl⟩
  refine ⟨w, hw, hwhole.1, fun y => ?_⟩
  rw [parent_putTile, hwhole.2]
  by_cases hy : y = x
  · subst hy
    rw [Function.update_self, if_neg Bool.false_ne_true, if_pos hparent, if_pos rfl]
  · rw [Function.update_of_ne hy, if_neg hy]
    unfold tileState
    dsimp only
    by_cases hp : s.parent y = some (.tile t)
    · simp [hp]
    · simp [hp]

/-! ### A tile takes what was in a slot -/

theorem tileState_congr (htile : s'.mapTile t = s.mapTile t) (hitem : s'.item = s.item)
    (hparent : ∀ y, s'.parent y = some (.tile t) ↔ s.parent y = some (.tile t)) :
    s'.tileState t = s.tileState t := by
  unfold tileState
  simp only [htile, hitem, hparent]

/-- Above a tile there is no player. -/
theorem getTopParent_ne_player (h : s.parent r = none ∨ s.parent r = some (.tile t)) :
    s.getTopParent r ≠ some (.player p) := by
  intro htop
  obtain ⟨c, hc, hw⟩ := getTopParent_player_within htop
  rcases h with h | h
  · exact nomatch h.symm.trans hc
  · obtain rfl := Option.some.inj (h.symm.trans hc)
    rcases Relation.ReflTransGen.cases_head hw with he | ⟨c, hc, -⟩
    · exact nomatch he
    · exact nomatch hc

/-- A tile that has no device for the item keeps it as it is put there. -/
theorem notifyAdded_tile {toItem : Option Ref} (h : s.tileDevice t = none) :
    notifyAdded cfg s toItem (.tile t) = s := by
  unfold notifyAdded
  split
  · split
    · rfl
    · unfold postAddNotification
      dsimp only
      rw [h]
  · rfl

/-- A tile gives a player the item for a slot, and takes what was there. -/
theorem exchange_tile_player (hs : s.Wf cfg.items) (hslot : s.getInventoryItem p index = some x) :
    exchange cfg s (.tile t) (.player p) x =
      ((s.tileState t).addThing cfg.items (.item x)).map fun v =>
        notifyAdded cfg (((emptied s p index.toNat x).putTile t v).updateInventoryWeight cfg.items p)
          (some x) (.tile t) := by
  obtain ⟨hidx, hmem, hinv⟩ := getInventoryItem_eq_some hslot
  have hparent : s.parent x = some (.player p) :=
    (hs.mem_contents _ _).1 (mem_contents_player.2 ⟨_, hmem, hinv⟩)
  obtain ⟨hget, hremove⟩ := removeThing_slot hs hslot
  have htile : (emptied s p index.toNat x).tileState t = s.tileState t := by
    refine tileState_congr rfl item_emptied fun y => ?_
    rw [parent_emptied]
    split
    · next hy =>
      rw [hy, hparent]
      exact iff_of_false (fun h => nomatch h) fun h => nomatch h
    · exact Iff.rfl
  unfold exchange
  dsimp only
  rw [hget, hremove, ← emptied]
  unfold addThingFront addThing
  dsimp only
  rw [htile, Option.map_map]
  congr 1
  funext v
  unfold notifyRemoved
  rw [Function.comp_apply, if_neg (by omega)]
  rfl

/-- What the player has then, if the item that he is given stays as it is. -/
theorem freed_tile_player {item : Ref} (hs : s.Wf cfg.items) (hitem : s.parent item = some (.tile t))
    (hslot : s.getInventoryItem p index = some x)
    (hv : (s.tileState t).addThing cfg.items (.item x) = some v)
    (hstays : (v.item item).count = (s.item item).count) :
    Freed cfg s (((emptied s p index.toNat x).putTile t v).updateInventoryWeight cfg.items p) p
      index.toNat item := by
  obtain ⟨hidx, hmem, hinv⟩ := getInventoryItem_eq_some hslot
  have hparentx : s.parent x = some (.player p) :=
    (hs.mem_contents _ _).1 (mem_contents_player.2 ⟨_, hmem, hinv⟩)
  have hne : item ≠ x := by
    rintro rfl
    exact nomatch hitem.symm.trans hparentx
  obtain ⟨D, T, hshape⟩ := hs.tile t
  have hrec : TileItems.State.Recounted (s.tileState t) v D :=
    TileItems.State.addThing_recounted (s := s.tileState t) hshape hv
  have hsame : v.item item = s.item item := hrec.item_of_count hstays
  let s₂ := (emptied s p index.toNat x).putTile t v
  let s₁ := s₂.updateInventoryWeight cfg.items p
  have hthings : s₁.things = s₂.things := things_updateInventoryWeight cfg.items s₂ p
  have hitems : s₁.item = v.item := by
    unfold State.item
    rw [hthings]
    rfl
  have hweight (y : Ref) (hy : v.item y = s.item y) : s₂.getWeight cfg.items y = s.getWeight cfg.items y :=
    getWeight_congr hy fun _ => totalWeight_setParent s y none
  have hplayers : s₁.players p = if (s₂.players p).hasInfiniteCapacity then s₂.players p
      else { s₂.players p with inventoryWeight := s₂.weightOf cfg.items p slots } :=
    players_updateInventoryWeight_self ..
  have hplayers₂ : s₂.players p =
      { s.players p with inventory := Function.update (s.players p).inventory index.toNat none } :=
    players_emptied
  have hrest : (s₁.players p).inventory = (s₂.players p).inventory ∧
      (s₁.players p).cannotPickupItem = (s₂.players p).cannotPickupItem ∧
      (s₁.players p).hasInfiniteCapacity = (s₂.players p).hasInfiniteCapacity ∧
      (s₁.players p).capacity = (s₂.players p).capacity := by
    rw [hplayers]
    split <;> exact ⟨rfl, rfl, rfl, rfl⟩
  rw [hplayers₂] at hrest
  refine ⟨fun y => ?_, ?_, hrest.1, fun count => ?_⟩
  · exact (congrArg Item.id (congrFun hitems y)).trans (hrec.id y)
  · exact (congrFun hitems item).trans hsame
  have hparent : s₁.parent item = none ∨ s₁.parent item = some (.tile t) := by
    have he : s₁.parent item = s₂.parent item := congrArg (fun f : Ref → Thing => (f item).parent) hthings
    rw [he, parent_putTile, parent_emptied, if_neg hne, hitem]
    split
    · exact .inr rfl
    · exact .inl (if_pos rfl)
  refine Player.hasCapacity_eq_hasCapacityWithout hrest.2.1 hrest.2.2.1 hrest.2.2.2
    (iff_of_false (getTopParent_ne_player hparent) (getTopParent_ne_player (.inr hitem)))
    ((congrFun hitems item).trans hsame) ?_
  intro hfin _
  constructor
  · have he : s₁.getWeight cfg.items item = s₂.getWeight cfg.items item := by
      unfold State.getWeight State.isContainer State.item
      rw [hthings]
    exact he.trans (hweight item hsame)
  · have hweigh : s₂.weightOf cfg.items p slots = s.weightOf cfg.items p (slots.erase index.toNat) := by
      refine weightOf_emptied ?_ fun i hi _ y hy => hweight y (hrec.item fun hD => ?_)
      · rw [hplayers₂]
      · -- an item in another slot is not on the tile
        have hyp : s.parent y = some (.player p) :=
          (hs.mem_contents _ _).1 (mem_contents_player.2 ⟨i, hi, hy⟩)
        have hyt : s.parent y = some (.tile t) := by
          apply (hs.mem_contents _ _).1
          unfold contents
          dsimp only
          rw [hshape.downItems_eq]
          exact List.mem_append_right _ (List.mem_append_right _ hD)
        exact nomatch hyp.symm.trans hyt
    have hfin₂ : (s₂.players p).hasInfiniteCapacity = false := by
      rw [hplayers₂]
      exact hfin
    rw [hplayers, hfin₂, if_neg Bool.false_ne_true, hweigh]

/-! ### A tile gives its item away -/

theorem Tile.queryAdd_congr (hmap : s'.mapTile t = s.mapTile t) (hghost : s'.inGhostMode = s.inGhostMode)
    (hid : ∀ y, (s'.item y).id = (s.item y).id) :
    Tile.queryAdd cfg s' t r flags actor = Tile.queryAdd cfg s t r flags actor := by
  have htype (y : Ref) : s'.type cfg y = s.type cfg y := by
    unfold State.type
    rw [hid]
  have hblocks : Tile.blocks cfg s' r = Tile.blocks cfg s r := by
    funext y
    unfold Tile.blocks
    rw [htype, htype]
  unfold Tile.queryAdd
  simp only [hmap, hghost, htype, hblocks]

@[simp] theorem bare_notifyRemoved (index : ℤ) : (notifyRemoved cfg s index c).bare = s.bare := by
  unfold notifyRemoved postRemoveNotification
  split
  · rfl
  · exact bare_postNotification ..

theorem bare_notifyAdded {toItem : Option Ref} (hc : Carries c) :
    (notifyAdded cfg s toItem c).bare = s.bare := by
  unfold notifyAdded
  split
  · split
    · rfl
    · cases c with
      | container q => exact bare_postNotification ..
      | player p => exact bare_postNotification ..
      | tile t => exact hc.elim
      | device d => exact hc.elim
  · rfl

theorem notifyRemoved_tile (index : ℤ) : notifyRemoved cfg s index (.tile t) = s := by
  unfold notifyRemoved
  split <;> rfl

/-- What the source has become when it is given an item in exchange. -/
def received (s : State) (x : Ref) : Cylinder → State
  | .container f => pushed s x f
  | _ => s

variable (cfg s x t) in
/-- A container or a player takes an item off a tile; a player lets it fall. -/
theorem exchange_carries_tile (hc : Carries c) :
    ∃ s₁, exchange cfg s c (.tile t) x = some s₁ ∧
      s₁.bare = (received (removeThing cfg s x (s.item x).count (.tile t)) x c).bare := by
  cases c with
  | container f =>
    obtain ⟨s₂, hadd, hbare, -⟩ :=
      addThing_container cfg (removeThing cfg s x (s.item x).count (.tile t)) x f
    refine ⟨notifyAdded cfg s₂ (some x) (.container f), ?_, ?_⟩
    · unfold exchange addThingFront
      dsimp only
      rw [hadd, Option.map_some, notifyRemoved_tile]
    · exact (bare_notifyAdded hc).trans hbare
  | player p =>
    refine ⟨notifyAdded cfg (removeThing cfg s x (s.item x).count (.tile t)) (some x) (.player p), ?_, ?_⟩
    · unfold exchange addThingFront
      dsimp only
      rw [Option.map_some, notifyRemoved_tile]
    · exact bare_notifyAdded hc
  | tile t => exact hc.elim
  | device d => exact hc.elim

/-- A tile takes an item off another tile. -/
theorem exchange_tile_tile (hs : s.Wf cfg.items) (hne : t' ≠ t)
    (h : s.getThingIndex cfg.items x (.tile t) ≠ -1) :
    exchange cfg s (.tile t') (.tile t) x =
      ((s.tileState t').addThing cfg.items (.item x)).map fun v =>
        notifyAdded cfg ((removeThing cfg s x (s.item x).count (.tile t)).putTile t' v) (some x)
          (.tile t') := by
  obtain ⟨w, hw, hitem, hparent⟩ := removeThing_tile hs h
  have hx := hs.parent_of_index h
  have htile : (s.putTile t w).tileState t' = s.tileState t' := by
    refine tileState_congr (mapTile_putTile_of_ne hne) hitem fun y => ?_
    rw [hparent]
    split
    · next hy =>
      rw [hy, hx]
      exact iff_of_false (fun h => nomatch h) fun h => hne (Cylinder.tile.inj (Option.some.inj h)).symm
    · exact Iff.rfl
  unfold exchange addThingFront addThing
  dsimp only
  rw [hw, htile, Option.map_map]
  congr 1
  funext v
  rw [Function.comp_apply, notifyRemoved_tile]

end Tiles

end Inventory
end ForgottenServer
