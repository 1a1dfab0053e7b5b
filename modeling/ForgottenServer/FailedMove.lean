/-
# What a failed move leaves behind

A move that is refused should leave every item where it was. Where the item in
the way is exchanged, the questions that can refuse the move are asked again
after it has been moved, and what they refuse then is not taken back: the item
stays with the source, and the move has failed.

`Spoils` says of the state before when that happens: an exchange is begun, and
the player has no capacity for the item even without what was in the slot, or
the tile does not take it even without what was on it, or the item may not be
taken away.

Key definitions: `Spoils`, `Cornered`, `LeavesAll`.
Key theorems: `gone_transfer`, `again_of_exchanges`, `leavesAll_iff_not_spoils`.
-/
import ForgottenServer.ExchangeTile

namespace ForgottenServer
namespace Inventory

open State
open Spectators (Position)

section Conditions

variable (cfg : Config) (s : State) (fromCylinder : Cylinder) (d : Destination) (item : Ref)
  (count : ℕ) (x : Ref)

/-- The item stays beside what the source is given: a tile can lose items by it. -/
def Stays : Prop :=
  match fromCylinder with
  | .tile t => ∃ v, (s.tileState t).addThing cfg.items (.item x) = some v ∧
      v.getThingIndex cfg.items (.item item) ≠ -1 ∧ (v.item item).count = (s.item item).count
  | _ => True

/-- The destination takes the item when what is in the way is gone. -/
def TakesFreed : Prop :=
  match d.cylinder with
  | .player p => Player.hasCapacityWithout cfg s p d.index.toNat item count = true
  | .tile t =>
    Tile.queryAdd cfg (removeThing cfg s x (s.item x).count (.tile t)) t item d.flags none = .noError
  | _ => False

/-- The count that a slot or a tile has room for. -/
def roomFor (c : Cylinder) : ℕ :=
  match c with
  | .player _ => if (s.type cfg item).stackable then 100 else 1
  | _ => max 1 count

/-- The source gives the item away. -/
def Removable : Prop :=
  queryRemove cfg s item (moveCount cfg s item count (roomFor cfg s item count d.cylinder)) d.flags
    fromCylinder = .noError

/-- An exchange is begun that the rest of the move does not follow. -/
structure Spoils (actor : Option CreatureId) : Prop where
  exchanges : Exchanges cfg s fromCylinder d item count actor x
  stays : Stays cfg s fromCylinder item x
  fails : ¬ (TakesFreed cfg s d item count x ∧ Removable cfg s fromCylinder d item count)

/-- The item in the way comes back to its own tile, or to one whose teleport,
trash holder or mailbox is given it. -/
def Cornered : Prop :=
  match fromCylinder with
  | .tile t => d.cylinder = .tile t ∨
      ∃ v, (s.tileState t).addThing cfg.items (.item x) = some v ∧ (s.putTile t v).tileDevice t ≠ none
  | _ => False

end Conditions

/-- The items of the cylinder have the same parent, position and count as before. -/
def Unchanged (cfg : Config) (s s' : State) (c : Cylinder) : Prop :=
  ∀ y d, s.parent y = some d → s.Within d c →
    s'.parent y = s.parent y ∧ s'.getThingIndex cfg.items y d = s.getThingIndex cfg.items y d ∧
      (s'.item y).count = (s.item y).count

/-- A move that fails, with the item still in the source, leaves all items as
they were. -/
def LeavesAll (cfg : Config) (s : State) (fromCylinder toCylinder : Cylinder) (index : ℤ) (item : Ref)
    (count : UInt32) (actor : Option CreatureId) (tradeItem : Option Ref) : Prop :=
  let d := findDestination cfg s item mapMaxLayers ⟨toCylinder, index, none, {}⟩
  ∀ ret s', internalMoveItem cfg s fromCylinder toCylinder index item count {} actor tradeItem =
      some (ret, s') →
    ret ≠ .noError → s'.getThingIndex cfg.items item fromCylinder ≠ -1 →
    (s'.item item).count = (s.item item).count →
    ∀ c ∈ [fromCylinder, toCylinder, d.cylinder], Unchanged cfg s s' c

/-! ### Where the count is moved -/

section Moved

variable {cfg : Config} {s s₁ s' : State} {item r x : Ref} {fromCylinder toCylinder c : Cylinder}
  {index : ℤ} {m n : ℕ} {toItem : Option Ref} {t : Position}

/-- The item does not lie in the cylinder with that count. -/
def Gone (cfg : Config) (s : State) (c : Cylinder) (item : Ref) (n : ℕ) : Prop :=
  s.getThingIndex cfg.items item c = -1 ∨ (s.item item).count ≠ n

theorem getThingIndex_tile_congr (htile : (s'.mapTile t).tile = (s.mapTile t).tile)
    (hid : (s'.item r).id = (s.item r).id) :
    s'.getThingIndex cfg.items r (.tile t) = s.getThingIndex cfg.items r (.tile t) := by
  have htop : (s'.tileState t).isAlwaysOnTop cfg.items r = (s.tileState t).isAlwaysOnTop cfg.items r := by
    unfold TileItems.State.isAlwaysOnTop TileItems.State.type tileState
    dsimp only
    rw [hid]
  unfold State.getThingIndex TileItems.State.getThingIndex
  dsimp only
  rw [TileItems.State.index_congr htop]
  unfold tileState
  dsimp only
  rw [htile]

/-- A change that brings the item to no place and leaves it as it is. -/
theorem Gone.of_change (h : Gone cfg s c item n) (hitem : s'.item item = s.item item)
    (hcontents : Carries c → item ∈ s'.contents c → item ∈ s.contents c)
    (htile : ∀ t, c = .tile t → (s'.mapTile t).tile = (s.mapTile t).tile) : Gone cfg s' c item n := by
  rcases h with h | h
  · left
    cases c with
    | container q =>
      have hc : Carries (.container q) := trivial
      rw [getThingIndex_eq_neg_one hc] at h ⊢
      exact fun hm => h (hcontents hc hm)
    | player p =>
      have hc : Carries (.player p) := trivial
      rw [getThingIndex_eq_neg_one hc] at h ⊢
      exact fun hm => h (hcontents hc hm)
    | tile t => rwa [getThingIndex_tile_congr (htile t rfl) (by rw [hitem])]
    | device d => rfl
  · right
    rwa [hitem]

theorem Gone.of_bare (h : Gone cfg s c item n) (hbare : s'.bare = s.bare) : Gone cfg s' c item n := by
  refine h.of_change ?_ ?_ ?_
  · exact congr_bare (f := fun s => s.item item) (fun _ => rfl) hbare
  · rw [congr_bare (f := State.contents) contents_bare hbare]
    exact fun _ hm => hm
  · exact fun t _ => congr_bare (f := fun s => (s.mapTile t).tile) (fun _ => rfl) hbare

theorem mem_of_part {D T : List Ref} {b : Bool} (h : if b then r ∈ T else r ∈ D) : r ∈ D ++ T := by
  split at h
  · exact List.mem_append_right D h
  · exact List.mem_append_left T h

/-- An item that is taken out of a container or a slot lies there no more. -/
theorem not_mem_contents_detach (hs : s.Wf cfg.items) (hc : Carries c) :
    item ∉ (s.detach item c).contents c := by
  have hnodup := hs.nodup c
  cases c with
  | container q =>
    unfold contents detach
    dsimp only
    rw [itemlist_setItemlist, if_pos rfl]
    exact hnodup.not_mem_erase
  | player p =>
    intro hm
    obtain ⟨j, hj, hjr⟩ := mem_contents_player.1 hm
    unfold detach at hjr
    dsimp only at hjr
    cases hfind : slots.find? fun i => (s.players p).inventory i = some item with
    | none =>
      rw [hfind] at hjr
      exact List.find?_eq_none.1 hfind j hj (decide_eq_true hjr)
    | some i =>
      rw [hfind] at hjr
      dsimp only at hjr
      rw [inventory_setSlot] at hjr
      split at hjr
      · exact nomatch hjr
      · next hne =>
        have hji : (s.players p).inventory j = some item := hjr
        have hi : (s.players p).inventory i = some item := by simpa using List.find?_some hfind
        exact hne ⟨rfl, hs.slot_inj hj (List.mem_of_find?_eq_some hfind) hji hi⟩
  | tile t => exact hc.elim
  | device d => exact hc.elim

/-- A part of the count, or all of it, is taken away. -/
theorem gone_removeThing (hs : s.Wf cfg.items) (hitem : s.getThingIndex cfg.items item c ≠ -1)
    (hm : m ≠ 0) (hle : m ≤ (s.item item).count) :
    Gone cfg (removeThing cfg s item m c) c item (s.item item).count := by
  have hcount := hs.count item
  have hless : uint 1 (max 0 (int32 (((s.item item).count : ℤ) - m))) ≠ (s.item item).count := by
    unfold uint int32
    omega
  have hlt : uint 1 (max 0 (int32 (((s.item item).count : ℤ) - m))) < 256 := by
    unfold uint
    omega
  have hcarried (hc : Carries c) : Gone cfg (removeThing cfg s item m c) c item (s.item item).count := by
    have hmem : item ∈ s.contents c := not_not.1 fun hn => hitem ((getThingIndex_eq_neg_one hc).2 hn)
    by_cases hw : (cfg.items (s.item item).id).stackable = false ∨ m = (s.item item).count
    · have hgone : Gone cfg (s.detach item c) c item (s.item item).count :=
        .inl ((getThingIndex_eq_neg_one hc).2 (not_mem_contents_detach hs hc))
      exact hgone.of_bare (bare_removeThing_whole hc hmem hw)
    · rw [not_or, Bool.not_eq_false] at hw
      have hgone : Gone cfg (s.setItem item ((s.item item).setItemCount
          (uint 1 (max 0 (int32 (((s.item item).count : ℤ) - m)))))) c item (s.item item).count := by
        right
        rw [item_setItem, if_pos rfl]
        unfold Item.setItemCount
        dsimp only
        rwa [Nat.mod_eq_of_lt hlt]
      exact hgone.of_bare (bare_removeThing_part hc hmem hw.1 hw.2)
  cases c with
  | container q => exact hcarried trivial
  | player p => exact hcarried trivial
  | device d => exact .inl rfl
  | tile t =>
    obtain ⟨D, T, hshape⟩ := hs.tile t
    have hshape : TileItems.State.Shape (s.tileState t).tile D T := hshape
    have hw : removeThing cfg s item m (.tile t) =
        s.putTile t ((s.tileState t).removeThing cfg.items (.item item) (.ofNat m)) := by
      unfold removeThing
      dsimp only
      rw [if_neg hitem]
    have hcast : (UInt32.ofNat m).toNat = m := UInt32.toNat_ofNat_of_lt' (lt_of_le_of_lt hle (hcount.trans (by decide)))
    rw [hw]
    rcases TileItems.State.removeThing_cases cfg.items hshape item (.ofNat m) with
      ⟨hno, -⟩ | ⟨hg, he⟩ | ⟨hT, htop, he⟩ | ⟨-, -, -, he⟩ | ⟨hD, htop, -, he⟩
    · exact absurd ((hshape.index_eq_iff item).2 hno) hitem
    · left
      rw [getThingIndex_putTile_self]
      have hshape' : TileItems.State.Shape ((s.tileState t).removeThing cfg.items (.item item) (.ofNat m)).tile D T := by
        rw [he]
        exact hshape.withGround fun _ hn => nomatch hn
      rw [hshape'.index_eq_iff, he]
      rintro (hn | hn)
      · exact nomatch hn
      · exact hshape.ground item hg (mem_of_part hn)
    · left
      rw [getThingIndex_putTile_self]
      have hshape' : TileItems.State.Shape ((s.tileState t).removeThing cfg.items (.item item) (.ofNat m)).tile
          D (T.erase item) := by
        rw [he]
        exact hshape.sublist (.refl D) List.erase_sublist
      rw [hshape'.index_eq_iff, he]
      rintro (hn | hn)
      · exact hshape.ground item hn (List.mem_append_right D hT)
      · exact hshape.erase_top hT (mem_of_part hn)
    · right
      have hitem' : ((s.putTile t ((s.tileState t).removeThing cfg.items (.item item) (.ofNat m))).item item) =
          (s.item item).setItemCount (uint 1 (max 0 (int32 (((s.item item).count : ℤ) - m)))) := by
        rw [item_putTile, he, TileItems.State.setItem_item_self, hcast]
        rfl
      rw [hitem']
      unfold Item.setItemCount
      dsimp only
      rwa [Nat.mod_eq_of_lt hlt]
    · left
      rw [getThingIndex_putTile_self]
      have hshape' : TileItems.State.Shape ((s.tileState t).removeThing cfg.items (.item item) (.ofNat m)).tile
          (D.erase item) T := by
        rw [he]
        exact hshape.sublist List.erase_sublist (.refl T)
      rw [hshape'.index_eq_iff, he]
      rintro (hn | hn)
      · exact hshape.ground item hn (List.mem_append_left T hD)
      · exact hshape.erase_down hD (mem_of_part hn)

/-- A new item is put into a container or a slot. -/
theorem Gone.addThing (h : Gone cfg s c item n) (hc : Carries toCylinder) (hne : item ≠ r)
    (hs' : addThing cfg s index r toCylinder = some s') : Gone cfg s' c item n := by
  by_cases ha : s.Accepts index toCylinder
  · obtain ⟨s₁, hs₁, hbare⟩ : ∃ s₁, Inventory.addThing cfg s index r toCylinder = some s₁ ∧
        s₁.bare = (s.attach index r toCylinder).bare := addThing_of_accepts ha
    obtain rfl := Option.some.inj (hs₁.symm.trans hs')
    refine Gone.of_bare (s := s.attach index r toCylinder) ?_ hbare
    refine h.of_change (congrFun (item_attach s index r toCylinder) item) ?_ ?_
    · intro hcc hm
      cases toCylinder with
      | container q =>
        cases c with
        | container q' =>
          unfold attach contents at hm
          dsimp only at hm
          rw [itemlist_setItemlist] at hm
          split at hm
          · next hq =>
            subst hq
            exact (List.mem_cons.1 hm).resolve_left hne
          · rwa [itemlist_setParent] at hm
        | player p => exact hm
        | tile t => exact hcc.elim
        | device d => exact hcc.elim
      | player p =>
        cases c with
        | container q =>
          unfold attach contents at hm
          have hm : item ∈ ((s.setParent r (some (.player p))).things q).itemlist := hm
          rwa [itemlist_setParent] at hm
        | player p' =>
          obtain ⟨i, hi, hir⟩ := mem_contents_player.1 hm
          unfold attach at hir
          dsimp only at hir
          rw [inventory_setSlot] at hir
          split at hir
          · exact absurd (Option.some.inj hir).symm hne
          · exact mem_contents_player.2 ⟨i, hi, hir⟩
        | tile t => exact hcc.elim
        | device d => exact hcc.elim
      | tile t => exact hc.elim
      | device d => exact hc.elim
    · intro t _
      cases toCylinder with
      | container q => rfl
      | player p => rfl
      | tile t => exact hc.elim
      | device d => exact hc.elim
  · rw [addThing_of_not_accepts hc ha] at hs'
    exact Option.some.inj hs' ▸ h

theorem Gone.clone (h : Gone cfg s c item n) (hne : item ≠ s.next) (r : Ref) (k : ℕ) :
    Gone cfg (s.clone r k) c item n := by
  refine h.of_change ?_ ?_ fun _ _ => rfl
  · rw [item_clone, if_neg hne]
  · intro hc hm
    cases c with
    | container q =>
      have hm : item ∈ ((s.clone r k).things q).itemlist := hm
      rw [itemlist_clone] at hm
      split at hm
      · exact nomatch hm
      · exact hm
    | player p => exact hm
    | tile t => exact hc.elim
    | device d => exact hc.elim

theorem Gone.updateThing (h : Gone cfg s c item n) (hc : Carries toCylinder) (hne : item ≠ x)
    (itemId : UInt16) (k : ℕ) : Gone cfg (updateThing cfg s x itemId k toCylinder) c item n := by
  by_cases hx : x ∈ s.contents toCylinder
  · refine Gone.of_bare ?_ (bare_updateThing hc hx)
    refine h.of_change ?_ ?_ fun _ _ => rfl
    · rw [item_setItem, if_neg hne]
    · intro hcc hm
      cases c with
      | container q =>
        unfold contents at hm
        dsimp only at hm
        rwa [itemlist_setItem] at hm
      | player p => exact hm
      | tile t => exact hcc.elim
      | device d => exact hcc.elim
  · rwa [updateThing_of_not_mem hc hx]

theorem updateThing_item_of_ne {itemId : UInt16} {k : ℕ} (hc : Carries c) (hne : item ≠ x) :
    (updateThing cfg s x itemId k c).item item = s.item item := by
  by_cases hx : x ∈ s.contents c
  · rw [congr_bare (f := fun s => s.item item) (fun _ => rfl) (bare_updateThing hc hx), item_setItem,
      if_neg hne]
  · rw [updateThing_of_not_mem hc hx]

theorem updateThing_next {itemId : UInt16} {k : ℕ} (hc : Carries c) :
    (updateThing cfg s x itemId k c).next = s.next := by
  by_cases hx : x ∈ s.contents c
  · have hbare : (Inventory.updateThing cfg s x itemId k c).bare = _ := bare_updateThing hc hx
    have hnext := congrArg State.next hbare
    exact hnext
  · rw [updateThing_of_not_mem hc hx]

/-- A removal changes no ids and makes no objects. -/
theorem removeThing_id (hs : s.Wf cfg.items) (r : Ref) (k : ℕ) (c : Cylinder) :
    (∀ y, ((removeThing cfg s r k c).item y).id = (s.item y).id) ∧
      (removeThing cfg s r k c).next = s.next := by
  by_cases hidx : s.getThingIndex cfg.items r c = -1
  · have he : removeThing cfg s r k c = s := if_pos hidx
    rw [he]
    exact ⟨fun _ => rfl, rfl⟩
  have hcarried (hc : Carries c) : (∀ y, ((removeThing cfg s r k c).item y).id = (s.item y).id) ∧
      (removeThing cfg s r k c).next = s.next := by
    have hmem : r ∈ s.contents c := not_not.1 fun hn => hidx ((getThingIndex_eq_neg_one hc).2 hn)
    by_cases hw : (cfg.items (s.item r).id).stackable = false ∨ k = (s.item r).count
    · have hbare := bare_removeThing_whole hc hmem hw
      refine ⟨fun y => ?_, ?_⟩
      · rw [congr_bare (f := fun s => s.item y) (fun _ => rfl) hbare, item_detach]
      · rw [congr_bare (f := State.next) (fun _ => rfl) hbare, next_detach]
    · rw [not_or, Bool.not_eq_false] at hw
      have hbare := bare_removeThing_part hc hmem hw.1 hw.2
      refine ⟨fun y => ?_, ?_⟩
      · rw [congr_bare (f := fun s => s.item y) (fun _ => rfl) hbare, item_setItem]
        split
        · next hy =>
          rw [hy]
          rfl
        · rfl
      · have hnext := congrArg State.next hbare
        exact hnext
  cases c with
  | container q => exact hcarried trivial
  | player p => exact hcarried trivial
  | device d => exact absurd rfl hidx
  | tile t =>
    have hw : removeThing cfg s r k (.tile t) =
        s.putTile t ((s.tileState t).removeThing cfg.items (.item r) (.ofNat k)) := if_neg hidx
    obtain ⟨D, T, hshape⟩ := hs.tile t
    rw [hw]
    exact ⟨(TileItems.State.removeThing_recounted (s := s.tileState t) hshape r (.ofNat k)).id, rfl⟩

/-- What is moved to a container or a player is not where it was, or fewer. -/
theorem gone_transfer (hs : s.Wf cfg.items) (hitem : s.getThingIndex cfg.items item fromCylinder ≠ -1)
    (hstack : (s.type cfg item).stackable = true) (hm : m ≠ 0) (hle : m ≤ (s.item item).count)
    (hc : Carries toCylinder) (hne : toItem ≠ some item)
    (hs' : transfer cfg s fromCylinder toCylinder index item toItem m = some s') :
    Gone cfg s' fromCylinder item (s.item item).count := by
  have hfresh : item ≠ s.next :=
    (hs.fresh item fun hn => nomatch (hs.parent_of_index hitem).symm.trans hn).ne
  have hgone := gone_removeThing hs hitem hm hle
  obtain ⟨hid, hnext⟩ := removeThing_id hs item m fromCylinder
  unfold transfer at hs'
  generalize removeThing cfg s item m fromCylinder = s₁ at hgone hid hnext hs'
  have hstack₁ : (s₁.type cfg item).stackable = true := by
    unfold State.type
    rw [hid]
    exact hstack
  dsimp only at hs'
  obtain ⟨⟨s₃, moveItem⟩, hs₃, rfl⟩ := Option.map_eq_some_iff.1 hs'
  -- the item it is put on
  have hstep : ∃ s₂, Gone cfg s₂ fromCylinder item (s.item item).count ∧ s₂.next = s₁.next ∧
      (s₂.type cfg item).stackable = true ∧
      ∃ k, addRest cfg s₂ toCylinder index item k = some (s₃, moveItem) := by
    split at hs₃
    · next x hx =>
      have hx' : toItem = some x := by
        split at hx
        · exact hx
        · exact nomatch hx
      have hxne : item ≠ x := fun e => hne (e ▸ hx')
      refine ⟨_, hgone.updateThing hc hxne _ _, ?_, ?_, _, hs₃⟩
      · exact updateThing_next hc
      · unfold State.type
        rw [updateThing_item_of_ne hc hxne]
        exact hstack₁
    · exact ⟨s₁, hgone, rfl, hstack₁, _, hs₃⟩
  obtain ⟨s₂, hgone₂, hnext₂, hstack₂, k, hrest⟩ := hstep
  have hne₂ : item ≠ s₂.next := by
    rw [hnext₂, hnext]
    exact hfresh
  have hgone₃ : Gone cfg s₃ fromCylinder item (s.item item).count := by
    unfold addRest at hrest
    rw [if_pos hstack₂] at hrest
    split at hrest
    · obtain ⟨s₄, hs₄, he⟩ := Option.map_eq_some_iff.1 hrest
      obtain rfl := congrArg Prod.fst he
      exact (hgone₂.clone hne₂ item k).addThing hc hne₂ hs₄
    · obtain rfl := congrArg Prod.fst (Option.some.inj hrest)
      exact hgone₂
  refine hgone₃.of_bare ?_
  dsimp only
  rw [bare_notifyAdded hc, bare_notifyAdded hc, bare_notifyRemoved]

end Moved

/-! ### What is asked again after an exchange -/

section Again

variable {cfg : Config} {s s₁ s' : State} {item x : Ref} {fromCylinder toCylinder : Cylinder}
  {d : Destination} {index : ℤ} {count : ℕ} {actor : Option CreatureId} {p : CreatureId} {t : Position}

/-- The answers after an exchange, told from the state before it. -/
structure Again (cfg : Config) (s s₁ : State) (fromCylinder : Cylinder) (d : Destination) (item : Ref)
    (count : ℕ) (x : Ref) : Prop where
  id : (s₁.item item).id = (s.item item).id
  moved : s₁.parent x ≠ some d.cylinder
  stays : Stays cfg s fromCylinder item x ↔ s₁.getThingIndex cfg.items item fromCylinder ≠ -1 ∧
    (s₁.item item).count = (s.item item).count
  add : Stays cfg s fromCylinder item x →
    (queryAdd cfg s₁ d.index item count d.flags none d.cylinder = .noError ↔
      TakesFreed cfg s d item count x)
  granted : queryAdd cfg s₁ d.index item count d.flags none d.cylinder = .noError →
    (queryMaxCount cfg s₁ d.index item count d.flags d.cylinder).1 = .noError
  room : Stays cfg s fromCylinder item x →
    queryAdd cfg s₁ d.index item count d.flags none d.cylinder = .noError →
    queryMaxCount cfg s₁ d.index item count d.flags d.cylinder =
      (.noError, roomFor cfg s item count d.cylinder)

/-- The answers of a player whose slot has been freed. -/
theorem again_of_freed {flags : Flags} (hf : Freed cfg s s₁ p index.toNat item)
    (hslot : s.getInventoryItem p index = some x)
    (hasked : Player.queryAdd cfg s p index item count flags = .needExchange) (toItem : Option Ref) :
    let d : Destination := ⟨.player p, index, toItem, flags⟩
    (queryAdd cfg s₁ d.index item count d.flags none d.cylinder = .noError ↔
      TakesFreed cfg s d item count x) ∧
    (queryAdd cfg s₁ d.index item count d.flags none d.cylinder = .noError →
      queryMaxCount cfg s₁ d.index item count d.flags d.cylinder =
        (.noError, roomFor cfg s item count d.cylinder)) := by
  obtain ⟨hidx, -, -⟩ := getInventoryItem_eq_some hslot
  have hadd := hf.queryAdd hslot hasked
  constructor
  · unfold queryAdd TakesFreed
    dsimp only
    rw [hadd]
    cases Player.hasCapacityWithout cfg s p index.toNat item count <;> decide
  · intro h
    have hne : index ≠ indexWhereever := by
      unfold indexWhereever
      omega
    exact hf.queryMaxCount hne h

/-- A slot that is empty has room for an item that it takes. -/
theorem Player.queryMaxCount_of_free {flags : Flags} (hidx : 1 ≤ index)
    (hfree : s.getInventoryItem p index = none)
    (hadd : Player.queryAdd cfg s p index item count flags = .noError) :
    (Player.queryMaxCount cfg s p index item count flags).1 = .noError := by
  have hne : index ≠ indexWhereever := by
    unfold indexWhereever
    omega
  unfold Player.queryMaxCount
  dsimp only
  rw [if_neg hne, hfree]
  dsimp only
  rw [if_pos hadd]

/-- A player gives what was in his slot, to a container or to a tile. -/
theorem again_player (hs : s.Wf cfg.items) (hitem : s.getThingIndex cfg.items item fromCylinder ≠ -1)
    (hd : d = findDestination cfg s item mapMaxLayers ⟨toCylinder, index, none, {}⟩)
    (hp : d.cylinder = .player p) (hx : Exchanges cfg s fromCylinder d item count actor x)
    (hcorner : ¬ Cornered cfg s fromCylinder d x) :
    (Stays cfg s fromCylinder item x → ∃ s₁, exchange cfg s fromCylinder d.cylinder x = some s₁) ∧
    ∀ s₁, exchange cfg s fromCylinder d.cylinder x = some s₁ → Again cfg s s₁ fromCylinder d item count x := by
  obtain ⟨hflags, hslot, hplain⟩ := slot_of_needExchange hd hp hx.there hx.asked
  have hparent := hs.parent_of_index hitem
  have hnot := not_player_of_exchanges ((hs.mem_contents _ _).2 hparent) hx hp hslot
  obtain ⟨hidx, hmem, hinv⟩ := getInventoryItem_eq_some hslot
  have hparentx : s.parent x = some (.player p) :=
    (hs.mem_contents _ _).1 (mem_contents_player.2 ⟨_, hmem, hinv⟩)
  have hasked : Player.queryAdd cfg s p d.index item count d.flags = .needExchange := by
    have h := hx.asked
    rw [hp] at h
    exact h
  have hd' : d = ⟨.player p, d.index, d.destItem, d.flags⟩ := by
    rw [← hp]
  have hagain {s₁ : State} (hf : Freed cfg s s₁ p d.index.toNat item) :=
    again_of_freed hf hslot hasked d.destItem
  rw [← hd'] at hagain
  cases fromCylinder with
  | container f =>
    obtain ⟨s₁, hs₁, hbare, hf⟩ := exchange_container_player hs hparent hslot hplain
    rw [hp]
    refine ⟨fun _ => ⟨s₁, hs₁⟩, fun s₂ hs₂ => ?_⟩
    obtain rfl := Option.some.inj (hs₁.symm.trans hs₂)
    have hin : item ∈ s₁.contents (.container f) := by
      rw [congr_bare (f := State.contents) contents_bare hbare]
      apply mem_contents_pushed
      have hm : item ∈ (s.things f).itemlist := (hs.mem_contents (.container f) item).2 hparent
      have he : ((emptied s p d.index.toNat x).things f).itemlist = (s.things f).itemlist :=
        itemlist_setParent s x f none
      unfold contents
      dsimp only
      rwa [he]
    have hc : Carries (.container f) := trivial
    refine ⟨hf.id item, ?_, iff_of_true trivial ⟨?_, by rw [hf.item]⟩, fun _ => (hagain hf).1,
      fun h => congrArg Prod.fst ((hagain hf).2 h), fun _ => (hagain hf).2⟩
    · rw [hp, congr_bare (f := fun s => s.parent x) (fun _ => rfl) hbare]
      unfold pushed
      split
      · unfold State.attach
        rw [parent_setItemlist, parent_setParent, if_pos rfl]
        exact fun h => nomatch h
      · rw [parent_emptied, if_pos rfl]
        exact fun h => nomatch h
    · exact fun h => (getThingIndex_eq_neg_one hc).1 h hin
  | player p' => exact absurd rfl (hnot p')
  | device r => exact absurd rfl hitem
  | tile t =>
    obtain ⟨-, hdevice⟩ := not_or.1 hcorner
    rw [hp]
    rw [exchange_tile_player hs hslot]
    constructor
    · rintro ⟨v, hv, -⟩
      exact ⟨_, by rw [hv]; rfl⟩
    · intro s₁ hs₁
      obtain ⟨v, hv, rfl⟩ := Option.map_eq_some_iff.1 hs₁
      let s₂ := (emptied s p d.index.toNat x).putTile t v
      have hbare : (s₂.updateInventoryWeight cfg.items p).bare = s₂.bare := bare_updateInventoryWeight ..
      have hnone : (s₂.updateInventoryWeight cfg.items p).tileDevice t = none := by
        rw [congr_bare (f := fun s => s.tileDevice t) (fun _ => rfl) hbare]
        have he : s₂.tileDevice t = (s.putTile t v).tileDevice t := tileDevice_putTile_congr rfl
        rw [he]
        exact not_not.1 fun hn => hdevice ⟨v, hv, hn⟩
      rw [notifyAdded_tile hnone]
      obtain ⟨D, T, hshape⟩ := hs.tile t
      have hrec : TileItems.State.Recounted (s.tileState t) v D :=
        TileItems.State.addThing_recounted (s := s.tileState t) hshape hv
      have hitem' : (s₂.updateInventoryWeight cfg.items p).item = v.item :=
        congr_bare (f := State.item) (fun _ => rfl) hbare
      have hindex : (s₂.updateInventoryWeight cfg.items p).getThingIndex cfg.items item (.tile t) =
          v.getThingIndex cfg.items (.item item) :=
        (congr_bare (f := fun s => s.getThingIndex cfg.items item (.tile t))
          (fun _ => getThingIndex_bare ..) hbare).trans getThingIndex_putTile_self
      have hfreed (hst : Stays cfg s (.tile t) item x) :
          Freed cfg s (s₂.updateInventoryWeight cfg.items p) p d.index.toNat item := by
        obtain ⟨v', hv', -, hcount⟩ := hst
        obtain rfl := Option.some.inj (hv.symm.trans hv')
        exact freed_tile_player hs hparent hslot hv hcount
      refine ⟨?_, ?_, ?_, fun hst => (hagain (hfreed hst)).1, ?_, fun hst => (hagain (hfreed hst)).2⟩
      · rw [hitem']
        exact hrec.id item
      · rw [hp, congr_bare (f := fun s => s.parent x) (fun _ => rfl) hbare, parent_putTile, parent_emptied,
          if_pos rfl]
        split
        · exact fun h => nomatch h
        · exact fun h => nomatch h
      · rw [hindex, hitem']
        constructor
        · rintro ⟨v', hv', hst⟩
          obtain rfl := Option.some.inj (hv.symm.trans hv')
          exact hst
        · exact fun hst => ⟨v, hv, hst⟩
      · rw [hp]
        have hinv₁ : ((s₂.updateInventoryWeight cfg.items p).players p).inventory =
            Function.update (s.players p).inventory d.index.toNat none :=
          (congr_bare (f := fun s => (s.players p).inventory) (fun _ => rfl) hbare).trans inventory_emptied
        have hfree : (s₂.updateInventoryWeight cfg.items p).getInventoryItem p d.index = none := by
          unfold State.getInventoryItem
          rw [if_pos hidx, hinv₁, Function.update_self]
        exact fun h => Player.queryMaxCount_of_free hidx.1 hfree h

/-- A tile gives the item on it, to a container, a player or another tile. -/
theorem again_tile (hs : s.Wf cfg.items) (hitem : s.getThingIndex cfg.items item fromCylinder ≠ -1)
    (ht : d.cylinder = .tile t) (hx : Exchanges cfg s fromCylinder d item count actor x)
    (hcorner : ¬ Cornered cfg s fromCylinder d x) :
    (Stays cfg s fromCylinder item x → ∃ s₁, exchange cfg s fromCylinder d.cylinder x = some s₁) ∧
    ∀ s₁, exchange cfg s fromCylinder d.cylinder x = some s₁ → Again cfg s s₁ fromCylinder d item count x := by
  have hidx : s.getThingIndex cfg.items x (.tile t) ≠ -1 := ht ▸ (queryRemove_eq_noError.1 hx.removed).1
  obtain ⟨w, hw, hwitem, hwparent⟩ := removeThing_tile hs hidx
  have hparent := hs.parent_of_index hitem
  -- the tile is asked for the item, and has room for all of it
  have hagain {s₁ : State} (hmap : s₁.mapTile t = (s.putTile t w).mapTile t)
      (hghost : s₁.inGhostMode = s.inGhostMode) (hid : ∀ y, (s₁.item y).id = (s.item y).id) :
      (queryAdd cfg s₁ d.index item count d.flags none d.cylinder = .noError ↔
        TakesFreed cfg s d item count x) ∧
      queryMaxCount cfg s₁ d.index item count d.flags d.cylinder =
        (.noError, roomFor cfg s item count d.cylinder) := by
    have he : Tile.queryAdd cfg s₁ t item d.flags none = Tile.queryAdd cfg (s.putTile t w) t item d.flags none := by
      refine Tile.queryAdd_congr hmap hghost fun y => ?_
      rw [hid, item_putTile, hwitem]
    unfold TakesFreed
    rw [ht]
    dsimp only
    rw [hw, ← he]
    exact ⟨Iff.rfl, rfl⟩
  have hcarried (hc : Carries fromCylinder) :
      ∃ s₁, exchange cfg s fromCylinder d.cylinder x = some s₁ ∧ Again cfg s s₁ fromCylinder d item count x := by
    obtain ⟨s₁, hs₁, hbare⟩ := exchange_carries_tile cfg s x t hc
    rw [hw] at hbare
    have hitems : s₁.item = s.item := by
      rw [congr_bare (f := State.item) (fun _ => rfl) hbare]
      cases fromCylinder with
      | container f => exact item_pushed.trans hwitem
      | player p => exact hwitem
      | tile t => exact hc.elim
      | device r => exact hc.elim
    have hmap : s₁.mapTile t = (s.putTile t w).mapTile t := by
      rw [congr_bare (f := fun s => s.mapTile t) (fun _ => rfl) hbare]
      cases fromCylinder with
      | container f =>
        unfold mapTile received
        dsimp only
        rw [tiles_pushed]
      | player p => rfl
      | tile t => exact hc.elim
      | device r => exact hc.elim
    have hghost : s₁.inGhostMode = s.inGhostMode := by
      rw [congr_bare (f := State.inGhostMode) (fun _ => rfl) hbare]
      cases fromCylinder with
      | container f =>
        unfold received pushed
        dsimp only
        split <;> rfl
      | player p => rfl
      | tile t => exact hc.elim
      | device r => exact hc.elim
    have hin : item ∈ s₁.contents fromCylinder := by
      have hm := (hs.mem_contents fromCylinder item).2 hparent
      rw [congr_bare (f := State.contents) contents_bare hbare]
      cases fromCylinder with
      | container f => exact mem_contents_pushed hm
      | player p => exact hm
      | tile t => exact hc.elim
      | device r => exact hc.elim
    have hmoved : s₁.parent x ≠ some (.tile t) := by
      rw [congr_bare (f := fun s => s.parent x) (fun _ => rfl) hbare]
      have hnone : (s.putTile t w).parent x = none := (hwparent x).trans (if_pos rfl)
      cases fromCylinder with
      | container f =>
        unfold received pushed
        dsimp only
        split
        · unfold State.attach
          rw [parent_setItemlist, parent_setParent, if_pos rfl]
          exact fun h => nomatch h
        · exact fun h => nomatch hnone.symm.trans h
      | player p => exact fun h => nomatch hnone.symm.trans h
      | tile t => exact hc.elim
      | device r => exact hc.elim
    have hstays : Stays cfg s fromCylinder item x := by
      cases fromCylinder with
      | container f => trivial
      | player p => trivial
      | tile t => exact hc.elim
      | device r => exact hc.elim
    obtain ⟨hadd, hroom⟩ := hagain hmap hghost fun y => by rw [hitems]
    refine ⟨s₁, ht ▸ hs₁, by rw [hitems], ht ▸ hmoved, iff_of_true hstays ⟨?_, by rw [hitems]⟩,
      fun _ => hadd, fun _ => congrArg Prod.fst hroom, fun _ _ => hroom⟩
    exact fun h => (getThingIndex_eq_neg_one hc).1 h hin
  have hfinish (hc : Carries fromCylinder) :
      (Stays cfg s fromCylinder item x → ∃ s₁, exchange cfg s fromCylinder d.cylinder x = some s₁) ∧
      ∀ s₁, exchange cfg s fromCylinder d.cylinder x = some s₁ →
        Again cfg s s₁ fromCylinder d item count x := by
    obtain ⟨s₁, hs₁, ha⟩ := hcarried hc
    refine ⟨fun _ => ⟨s₁, hs₁⟩, fun s₂ hs₂ => ?_⟩
    obtain rfl := Option.some.inj (hs₁.symm.trans hs₂)
    exact ha
  cases fromCylinder with
  | container f => exact hfinish trivial
  | player p => exact hfinish trivial
  | device r => exact absurd rfl hitem
  | tile t' =>
    obtain ⟨hne, hdevice⟩ := not_or.1 hcorner
    have hne : t' ≠ t := fun e => hne (ht.trans (congrArg Cylinder.tile e.symm))
    rw [ht, exchange_tile_tile hs hne hidx, hw]
    constructor
    · rintro ⟨v, hv, -⟩
      exact ⟨_, by rw [hv]; rfl⟩
    · intro s₁ hs₁
      obtain ⟨v, hv, rfl⟩ := Option.map_eq_some_iff.1 hs₁
      have hnone : ((s.putTile t w).putTile t' v).tileDevice t' = none := by
        have he : ((s.putTile t w).putTile t' v).tileDevice t' = (s.putTile t' v).tileDevice t' :=
          tileDevice_putTile_congr (mapTile_putTile_of_ne hne)
        rw [he]
        exact not_not.1 fun hn => hdevice ⟨v, hv, hn⟩
      rw [notifyAdded_tile hnone]
      obtain ⟨D, T, hshape⟩ := hs.tile t'
      have hrec : TileItems.State.Recounted (s.tileState t') v D :=
        TileItems.State.addThing_recounted (s := s.tileState t') hshape hv
      have hmap : ((s.putTile t w).putTile t' v).mapTile t = (s.putTile t w).mapTile t :=
        mapTile_putTile_of_ne fun e => hne e.symm
      obtain ⟨hadd, hroom⟩ := hagain hmap rfl hrec.id
      refine ⟨hrec.id item, ?_, ?_, fun _ => hadd, fun _ => congrArg Prod.fst hroom, fun _ _ => hroom⟩
      · rw [ht, parent_putTile, hwparent, if_pos rfl]
        split
        · exact fun h => hne (Cylinder.tile.inj (Option.some.inj h))
        · exact fun h => nomatch h
      · rw [getThingIndex_putTile_self]
        constructor
        · rintro ⟨v', hv', hst⟩
          obtain rfl := Option.some.inj (hv.symm.trans hv')
          exact hst
        · exact fun hst => ⟨v, hv, hst⟩

theorem again_of_exchanges (hs : s.Wf cfg.items)
    (hitem : s.getThingIndex cfg.items item fromCylinder ≠ -1)
    (hd : d = findDestination cfg s item mapMaxLayers ⟨toCylinder, index, none, {}⟩)
    (hx : Exchanges cfg s fromCylinder d item count actor x) (hcorner : ¬ Cornered cfg s fromCylinder d x) :
    (Stays cfg s fromCylinder item x → ∃ s₁, exchange cfg s fromCylinder d.cylinder x = some s₁) ∧
    ∀ s₁, exchange cfg s fromCylinder d.cylinder x = some s₁ → Again cfg s s₁ fromCylinder d item count x := by
  have hasked := hx.asked
  cases hc : d.cylinder with
  | container q =>
    rw [hc] at hasked
    exact absurd hasked Container.queryAdd_ne_needExchange
  | player p => exact hc ▸ again_player hs hitem hd hc hx hcorner
  | tile t => exact hc ▸ again_tile hs hitem hc hx hcorner
  | device r =>
    rw [hc] at hasked
    exact absurd hasked Device.queryAdd_ne_needExchange

/-- No item holds a player or a tile. -/
theorem isWithin_eq_false {c : Cylinder} (hc : ¬ c.IsItem) : isWithin s x c = false := by
  have hne {c : Cylinder} (hc : ¬ c.IsItem) : (decide (s.asCylinder x = some c)) = false :=
    decide_eq_false fun h => hc (State.asCylinder_isItem h)
  unfold isWithin
  cases c with
  | container q => exact absurd trivial hc
  | player p =>
    have ht : ¬ (Cylinder.tile (s.players p).tile).IsItem := fun h => h
    unfold isHeldInUp
    rw [hne hc]
    unfold State.getParent isHeldInUp
    rw [hne ht]
    rfl
  | tile t =>
    unfold isHeldInUp
    rw [hne hc]
    rfl
  | device r => exact absurd trivial hc

/-- After an exchange that is followed by the item, only its removal is asked. -/
theorem Again.cleared_iff (ha : Again cfg s s₁ fromCylinder d item count x)
    (hst : Stays cfg s fromCylinder item x) (hitem : s.getThingIndex cfg.items item fromCylinder ≠ -1)
    (hadd : queryAdd cfg s₁ d.index item count d.flags none d.cylinder = .noError)
    (hc : ¬ d.cylinder.IsItem) {tradeItem : Option Ref} :
    Cleared cfg s₁ fromCylinder d.cylinder d.index item count d.flags tradeItem ↔
      Removable cfg s fromCylinder d item count := by
  have hroom := ha.room hst hadd
  obtain ⟨hin, hcount⟩ := ha.stays.1 hst
  have htype : s₁.type cfg item = s.type cfg item := by
    unfold State.type
    rw [ha.id]
  have hremove (m : ℕ) : queryRemove cfg s₁ item m d.flags fromCylinder =
      queryRemove cfg s item m d.flags fromCylinder := by
    unfold queryRemove
    rw [if_neg hin, if_neg hitem, htype, hcount]
  have hmove (m : ℕ) : moveCount cfg s₁ item count m = moveCount cfg s item count m := by
    unfold moveCount
    rw [htype, hcount]
  have htrade : ¬ tradeItem.any fun x => isWithin s₁ x d.cylinder := by
    cases tradeItem with
    | none => exact Bool.false_ne_true
    | some y =>
      rw [Option.any_some, isWithin_eq_false hc]
      exact Bool.false_ne_true
  unfold Removable
  constructor
  · intro h
    have hr := h.removed
    rwa [hroom, hremove, hmove] at hr
  · intro h
    refine ⟨?_, ?_, htrade⟩
    · rw [hroom]
      exact fun hn => hn.1 rfl
    · rw [hroom, hremove, hmove]
      exact h

theorem not_isItem_of_exchanges (hx : Exchanges cfg s fromCylinder d item count actor x) :
    ¬ d.cylinder.IsItem := by
  have hasked := hx.asked
  intro hc
  cases hcyl : d.cylinder with
  | container q =>
    rw [hcyl] at hasked
    exact Container.queryAdd_ne_needExchange hasked
  | player p => exact (hcyl ▸ hc : (Cylinder.player p).IsItem)
  | tile t => exact (hcyl ▸ hc : (Cylinder.tile t).IsItem)
  | device r =>
    rw [hcyl] at hasked
    exact Device.queryAdd_ne_needExchange hasked

/-! ### A move without an exchange -/

/-- Where a move without an exchange fails, nothing has changed, or the item is
not in the source with its count. -/
theorem moveChecked_fails {toItem tradeItem : Option Ref} {flags : Flags} {ret : ReturnValue} (hs : s.Wf cfg.items)
    (hitem : s.getThingIndex cfg.items item fromCylinder ≠ -1) (hne : toItem ≠ some item)
    (h : moveChecked cfg s fromCylinder toCylinder index item count toItem flags tradeItem = some (ret, s'))
    (hret : ret ≠ .noError) : s' = s ∨ Gone cfg s' fromCylinder item (s.item item).count := by
  by_cases hclear : Cleared cfg s fromCylinder toCylinder index item count flags tradeItem
  · right
    rw [moveChecked_of_cleared hclear] at h
    obtain ⟨s₂, hs₂, he⟩ := Option.map_eq_some_iff.1 h
    obtain ⟨hr, rfl⟩ := Prod.mk.inj he
    split at hr
    · next hpart =>
      obtain ⟨-, ⟨hm, hle⟩, -⟩ := queryRemove_eq_noError.1 hclear.removed
      refine gone_transfer hs hitem hpart.1 hm (hle hpart.1) ?_ hne hs₂
      -- a tile and the devices take all of the count
      cases toCylinder with
      | container q => trivial
      | player p => trivial
      | tile t => exact absurd hr.symm hret
      | device r =>
        have hroom := hclear.room
        have hans : queryMaxCount cfg s index item count flags (.device r) = Device.queryMaxCount s r count := rfl
        rw [hans] at hroom hr
        unfold Device.queryMaxCount at hroom hr
        split at hroom
        · exact absurd (And.intro (fun h => nomatch h) rfl) hroom
        · next hcls =>
          split at hr
          · next hcls' => exact absurd hcls' hcls
          · exact absurd hr.symm hret
    · exact absurd hr.symm hret
  · left
    obtain ⟨ret', -, he⟩ := moveChecked_of_not_cleared toItem hclear
    exact (Prod.mk.inj (Option.some.inj (h.symm.trans he))).2

/-! ### Failed moves -/

/-- A failed move leaves all items as they were unless it is spoilt by an
exchange; where it is, the item in the way has left its place. -/
theorem leavesAll_iff_not_spoils (hs : s.Wf cfg.items)
    (hitem : s.getThingIndex cfg.items item fromCylinder ≠ -1) (toCylinder : Cylinder) (index : ℤ)
    (count : UInt32) (actor : Option CreatureId) (tradeItem : Option Ref) :
    let d := findDestination cfg s item mapMaxLayers ⟨toCylinder, index, none, {}⟩
    let spoilt := ∃ x, Spoils cfg s fromCylinder d item count.toNat x actor
    let cornered := ∃ x, Exchanges cfg s fromCylinder d item count.toNat actor x ∧
      Cornered cfg s fromCylinder d x
    (¬ spoilt ∧ ¬ cornered →
      LeavesAll cfg s fromCylinder toCylinder index item count actor tradeItem) ∧
    (spoilt ∧ ¬ cornered →
      ¬ LeavesAll cfg s fromCylinder toCylinder index item count actor tradeItem) := by
  intro d spoilt cornered
  have hd : d = findDestination cfg s item mapMaxLayers ⟨toCylinder, index, none, {}⟩ := rfl
  constructor
  · rintro ⟨hspoilt, hcornered⟩ ret s' hrun hret hin hcount c -
    have hkept : ¬ Gone cfg s' fromCylinder item (s.item item).count := fun h =>
      h.elim hin fun hne => hne hcount
    have hsame : s' = s := by
      rcases internalMoveItem_cases hd hrun with he | ⟨toItem, -, hne, -, hmove⟩ | ⟨x, s₁, hx, hs₁, hrest⟩
      · exact he
      · exact (moveChecked_fails hs hitem hne hmove hret).resolve_right hkept
      · exfalso
        have hc := not_isItem_of_exchanges hx
        have ha := (again_of_exchanges hs hitem hd hx fun h => hcornered ⟨x, hx, h⟩).2 s₁ hs₁
        split at hrest
        · next hadd =>
          by_cases hclear : Cleared cfg s₁ fromCylinder d.cylinder d.index item count.toNat d.flags tradeItem
          · rw [moveChecked_of_cleared hclear] at hrest
            obtain ⟨s₂, hs₂, he⟩ := Option.map_eq_some_iff.1 hrest
            have hr := (Prod.mk.inj he).1
            rw [ha.granted hadd, ite_self] at hr
            exact hret hr.symm
          · obtain ⟨ret', -, he⟩ := moveChecked_of_not_cleared none hclear
            obtain rfl := (Prod.mk.inj (Option.some.inj (hrest.symm.trans he))).2
            have hst := ha.stays.2 ⟨hin, hcount⟩
            refine hspoilt ⟨x, hx, hst, fun hf => hclear ?_⟩
            exact (ha.cleared_iff hst hitem hadd hc).2 hf.2
        · next hadd =>
          obtain ⟨-, rfl⟩ := hrest
          have hst := ha.stays.2 ⟨hin, hcount⟩
          exact hspoilt ⟨x, hx, hst, fun hf => hadd ((ha.add hst).2 hf.1)⟩
    subst hsame
    exact fun y d _ _ => ⟨rfl, rfl, rfl⟩
  · rintro ⟨⟨x, hx, hst, hfails⟩, hcornered⟩ hall
    obtain ⟨s₁, hs₁⟩ := (again_of_exchanges hs hitem hd hx fun h => hcornered ⟨x, hx, h⟩).1 hst
    have ha := (again_of_exchanges hs hitem hd hx fun h => hcornered ⟨x, hx, h⟩).2 s₁ hs₁
    have hc := not_isItem_of_exchanges hx
    obtain ⟨hin, hcount⟩ := ha.stays.1 hst
    have hrun : ∃ ret, ret ≠ .noError ∧
        internalMoveItem cfg s fromCylinder toCylinder index item count {} actor tradeItem =
          some (ret, s₁) := by
      rw [internalMoveItem_of_exchanges hd hx hs₁]
      dsimp only
      by_cases hadd : queryAdd cfg s₁ d.index item count.toNat d.flags none d.cylinder = .noError
      · rw [if_neg (not_not_intro hadd)]
        have hclear : ¬ Cleared cfg s₁ fromCylinder d.cylinder d.index item count.toNat d.flags tradeItem :=
          fun h => hfails ⟨(ha.add hst).1 hadd, (ha.cleared_iff hst hitem hadd hc).1 h⟩
        exact moveChecked_of_not_cleared none hclear
      · rw [if_pos hadd]
        exact ⟨_, hadd, rfl⟩
    obtain ⟨ret, hret, hrun⟩ := hrun
    have hplace : s.parent x = some d.cylinder :=
      hs.parent_of_index (queryRemove_eq_noError.1 hx.removed).1
    have hkept := hall ret s₁ hrun hret hin hcount d.cylinder
      (List.mem_cons_of_mem _ (List.mem_cons_of_mem _ (List.mem_singleton_self _))) x d.cylinder hplace .refl
    exact ha.moved (hkept.1.trans hplace)

end Again

/-! ### Two helmets -/

section Helmets

/-- A light and a heavy helmet, and a bag. -/
def helmetTypes : UInt16 → ItemType
  | 10 => { id := 10, pickupable := true, moveable := true, weight := 10, slotPosition := 1 }
  | 11 => { id := 11, pickupable := true, moveable := true, weight := 500, slotPosition := 1 }
  | 12 => { id := 12, pickupable := true, moveable := true, weight := 8, group := .container }
  | _ => {}

def helmetConfig : Config := { items := helmetTypes }

def helmetTile : Position := ⟨100, 100, 7⟩

def helmetItem (cls : ItemClass) (id : UInt16) : Item := ⟨cls, id, 1, none, (0, 0, 0), 0, 0, 0⟩

/-- A player wears the light helmet, and has no capacity for the heavy one in
the bag beside him. -/
def helmets : State where
  things
    | 0 => { item := helmetItem .item 10, parent := some (.player 0) }
    | 1 => { item := helmetItem .item 11, parent := some (.container 2) }
    | 2 =>
      { item := helmetItem .container 12, parent := some (.tile helmetTile), maxSize := 8,
        itemlist := [1], totalWeight := 500 }
    | _ => { item := helmetItem .item 0 }
  players
    | 0 =>
      { inventory := fun i => if i = 1 then some 0 else none, tile := helmetTile, capacity := 100,
        inventoryWeight := 10 }
    | _ => { tile := helmetTile }
  tiles t := if t = helmetTile then some { tile := { items := some ⟨[2], 1⟩ } } else none
  next := 3

theorem helmets_wf : helmets.Wf helmetTypes := by
  apply Wf.of_placed (fun r => if r = 1 then 1 else 0) [.player 0, .container 2, .tile helmetTile]
  · intro c hc
    simp only [List.mem_cons, List.not_mem_nil, or_false, not_or] at hc
    obtain ⟨hp, hq, ht⟩ := hc
    cases c with
    | container q =>
      match q, hq with
      | 0, _ | 1, _ | _ + 3, _ => rfl
      | 2, hq => exact absurd rfl hq
    | player p =>
      match p, hp with
      | 0, hp => exact absurd rfl hp
      | _ + 1, _ => rfl
    | tile t =>
      have htile : helmets.mapTile t = {} := by
        have hne : t ≠ helmetTile := fun e => ht (congrArg Cylinder.tile e)
        unfold mapTile helmets
        dsimp only
        rw [if_neg hne]
        rfl
      unfold contents
      dsimp only
      rw [htile]
      rfl
    | device r => rfl
  · decide
  · intro t
    by_cases ht : t = helmetTile
    · subst ht
      exact ⟨[2], [], rfl, by decide, fun g hg => (nomatch hg), fun l hl => (nomatch hl), by decide⟩
    · have htile : helmets.mapTile t = {} := by
        unfold mapTile helmets
        dsimp only
        rw [if_neg ht]
        rfl
      rw [htile]
      exact ⟨[], [], rfl, by decide, fun g hg => (nomatch hg), fun l hl => (nomatch hl), by decide⟩
  · decide
  · intro r hr
    match r, hr with
    | 0, hr | 1, hr | 2, hr => exact absurd hr (by decide)
    | n + 3, _ => exact ⟨rfl, rfl⟩

theorem leavesAll_iff_not_spoils_necklace :
    LeavesAll helmetConfig helmets (.container 2) (.player 0) 2 1 1 none none :=
  (leavesAll_iff_not_spoils helmets_wf (by decide) (.player 0) 2 1 none none).1
    ⟨fun ⟨_, hx⟩ => absurd hx.exchanges.asked (by decide +kernel),
      fun ⟨_, hx, _⟩ => absurd hx.asked (by decide +kernel)⟩

/-- The heavy helmet is refused, and the light one is in the bag then. -/
theorem helmet_left_in_bag :
    helmets.Wf helmetTypes ∧ ¬ LeavesAll helmetConfig helmets (.container 2) (.player 0) 1 1 1 none none := by
  refine ⟨helmets_wf, fun h => ?_⟩
  have hrun : ∃ s', internalMoveItem helmetConfig helmets (.container 2) (.player 0) 1 1 1 {} none none =
      some (.notEnoughCapacity, s') ∧ s'.getThingIndex helmetTypes 1 (.container 2) ≠ -1 ∧
      (s'.item 1).count = (helmets.item 1).count ∧ s'.parent 0 ≠ some (.player 0) := by
    have hsome : (internalMoveItem helmetConfig helmets (.container 2) (.player 0) 1 1 1 {} none none).any
        (fun x => x.1 = .notEnoughCapacity && x.2.getThingIndex helmetTypes 1 (.container 2) ≠ -1 &&
          (x.2.item 1).count = (helmets.item 1).count && x.2.parent 0 ≠ some (.player 0)) = true := by
      decide +kernel
    obtain ⟨⟨ret, s'⟩, hs', hall⟩ := (Option.any_eq_true _ _).1 hsome
    simp only [Bool.and_eq_true, decide_eq_true_eq] at hall
    obtain ⟨⟨⟨rfl, hin⟩, hcount⟩, hmoved⟩ := hall
    exact ⟨s', hs', hin, hcount, hmoved⟩
  obtain ⟨s', hs', hin, hcount, hmoved⟩ := hrun
  have hkept := h _ s' hs' (by decide) hin hcount (.player 0) (by simp) 0 (.player 0) rfl .refl
  exact hmoved hkept.1

end Helmets

end Inventory
end ForgottenServer
