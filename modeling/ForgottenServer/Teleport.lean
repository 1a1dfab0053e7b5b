/-
# Teleports

After a thing has been put on a tile, `Tile::postAddNotification` gives it to
the teleport, the trash holder or the mailbox of the tile. A teleport moves it
to the tile at its destination (`Map::moveCreature`, `Game::internalMoveItem`),
and that tile is told in turn. Nothing counts the calls, so here they are run to
a depth (`postAddNotification`); `Ends` says that some depth is enough.

A creature goes from destination to destination, whatever stands on the way,
and comes to rest just where no way of teleports leads back (`creature_ends_iff`).

What a mailbox does with a parcel or a letter is `Config.deliver`, and whether an
item lets itself be removed is `canRemove`. The scripts of moves and the messages
to spectators are left out.

Key definitions: `addThing`, `moveCreature`, `internalMoveItem`, `postAddNotification`,
`leadsTo`, `Ends`.
Key theorems: `creature_ends_iff`, `internalMoveItem_eq`.
-/
import ForgottenServer.Lib.Depth
import ForgottenServer.ExchangeTile
import ForgottenServer.RemoveItem

namespace ForgottenServer
namespace Teleport

open Depth Inventory
open Spectators (Position)
open TileStack (Thing)
open Inventory.Tile (getTile)

/-- The notification of a tile that a thing is on it. -/
abbrev Notify := State → Thing Ref CreatureId → Position → Except Stop State

/-- A call that does not return is a fault. -/
def orFault {α : Type} : Option α → Except Stop α
  | some a => .ok a
  | none => .error .fault

variable (cfg : Config) (destPos : Ref → Position) (canRemove : Ref → Bool)

/-! ### Creatures -/

/-- `Map::moveCreature` -/
def moveCreature (notify : Notify) (s : State) (c : CreatureId) (newTile : Position) :
    Except Stop State := do
  let oldTile := (s.players c).tile
  let s := s.putTile oldTile ((s.tileState oldTile).removeThing cfg.items (.creature c) 0)
  let v ← orFault ((s.tileState newTile).addThing cfg.items (.creature c))
  let s := (s.putTile newTile v).setPlayer c { s.players c with tile := newTile }
  notify s (.creature c) newTile

/-! ### Items -/

section Items

variable (notify : Notify)

/-- `postAddNotification` for an item that has an index on the tile. -/
def notifyAdded (s : State) (item : Option Ref) (t : Position) : Except Stop State :=
  match item with
  | some x => if s.getThingIndex cfg.items x (.tile t) = -1 then .ok s else notify s (.item x) t
  | none => .ok s

/-- The item is removed, put on the item that is there, and the rest added. -/
def transfer (s : State) (fromTile toTile : Position) (index : ℤ) (item : Ref) (toItem : Option Ref)
    (m : ℕ) : Except Stop State := do
  let itemIndex := s.getThingIndex cfg.items item (.tile fromTile)
  let s := removeThing cfg s item m (.tile fromTile)
  let n := if (s.type cfg item).stackable then mergeCount cfg s item toItem m else 0
  let merges := (s.type cfg item).stackable && !(s.type cfg item).isRune && s.equals item toItem
  let updateItem := if merges then toItem else none
  let s :=
    match updateItem with
    | some x => updateThing cfg s x (s.item x).id ((s.item x).count + n) (.tile toTile)
    | none => s
  let (s, moveItem) ← orFault (addRest cfg s (.tile toTile) index item (m - n))
  let s := notifyRemoved cfg s itemIndex (.tile fromTile)
  let s ← notifyAdded cfg notify s moveItem toTile
  notifyAdded cfg notify s updateItem toTile

/-- `internalMoveItem` from the question for the count on. -/
def moveChecked (s : State) (fromTile toTile : Position) (index : ℤ) (item : Ref) (count : ℕ)
    (toItem : Option Ref) (flags : Flags) : Except Stop (ReturnValue × State) :=
  let answer := queryMaxCount cfg s index item count flags (.tile toTile)
  if answer.1 ≠ .noError ∧ answer.2 = 0 then .ok (answer.1, s)
  else
    let m := moveCount cfg s item count answer.2
    let ret := queryRemove cfg s item m flags (.tile fromTile)
    if ret ≠ .noError then .ok (ret, s)
    else do
      let s' ← transfer cfg notify s fromTile toTile index item toItem m
      .ok (if (s.type cfg item).stackable ∧ answer.2 < count then answer.1 else ret, s')

/-- The item in the way goes to the source. -/
def exchange (s : State) (fromTile toTile : Position) (toItem : Ref) : Except Stop State := do
  let oldToItemIndex := s.getThingIndex cfg.items toItem (.tile toTile)
  let s := removeThing cfg s toItem (s.item toItem).count (.tile toTile)
  let s ← orFault (addThingFront cfg s toItem (.tile fromTile))
  notifyAdded cfg notify (notifyRemoved cfg s oldToItemIndex (.tile toTile)) (some toItem) fromTile

/-- The tile that the loop over `queryDestination` comes to. -/
def landing (s : State) (item : Ref) (t : Position) : Position × Destination :=
  let d := findDestination cfg s item mapMaxLayers ⟨.tile t, indexWhereever, none, {}⟩
  match d.cylinder with
  | .tile t' => (t', d)
  | _ => (t, d)

/-- `Game::internalMoveItem` from a tile to a tile, with `INDEX_WHEREEVER` and no
flags; `d` is what the redirections have led to. -/
def internalMoveItem (s : State) (fromTile toTile : Position) (item : Ref) (count : UInt32) :
    Except Stop (ReturnValue × State) :=
  let count := count.toNat
  let (toTile, d) := landing cfg s item toTile
  let move s toItem := moveChecked cfg notify s fromTile toTile d.index item count toItem d.flags
  if d.destItem = some item then .ok (.noError, s)
  else
    match queryAdd cfg s d.index item count d.flags none (.tile toTile) with
    | .noError => move s d.destItem
    | .needExchange =>
      match d.destItem with
      | none => .error .fault
      | some toItem =>
        let toCount := (s.item toItem).count
        let ret := queryAdd cfg s (s.getThingIndex cfg.items item (.tile fromTile)) toItem toCount {} none
          (.tile fromTile)
        let answer := queryMaxCount cfg s indexWhereever toItem toCount {} (.tile fromTile)
        if ret ≠ .noError then .ok (ret, s)
        else if answer.1 ≠ .noError ∧ answer.2 = 0 then .ok (answer.1, s)
        else if queryRemove cfg s toItem toCount d.flags (.tile toTile) = .noError then do
          let s ← exchange cfg notify s fromTile toTile toItem
          let ret := queryAdd cfg s d.index item count d.flags none (.tile toTile)
          if ret ≠ .noError then .ok (ret, s) else move s none
        else move s d.destItem
    | ret => .ok (ret, s)

end Items

/-! ### The devices -/

/-- `Teleport::addThing`, of a teleport that lies on the tile -/
def addThing (notify : Notify) (s : State) (teleport : Ref) (tile : Position) :
    Thing Ref CreatureId → Except Stop State
  | .creature c =>
    match getTile s (destPos teleport).x (destPos teleport).y (destPos teleport).z with
    | none => .ok s
    | some destTile => moveCreature cfg notify s c destTile
  | .item item =>
    match getTile s (destPos teleport).x (destPos teleport).y (destPos teleport).z with
    | none => .ok s
    | some destTile => do
      let (_, s) ← internalMoveItem cfg notify s tile destTile item (.ofNat (s.item item).count)
      .ok s

/-- `TrashHolder::addThing`, of a trash holder that lies on the tile -/
def trash (s : State) (trashHolder : Ref) (tile : Position) : Thing Ref CreatureId → State
  | .creature _ => s
  | .item item =>
    -- `CONST_PROP_MOVEABLE`
    let moveable := (s.type cfg item).moveable && !(s.item item).hasAttribute .uniqueId
    if item = trashHolder ∨ moveable = false then s
    else if (s.type cfg item).isHangable ∧ (s.type cfg trashHolder).isGroundTile ∧
        (s.mapTile tile).flag .supportsHangable then s
    else (internalRemoveItem cfg canRemove s item (-1)).2

/-- `Mailbox::addThing` -/
def mail (s : State) (mailbox : Ref) : Thing Ref CreatureId → State
  | .creature _ => s
  | .item item =>
    if (s.item item).id = Device.itemParcel ∨ (s.item item).id = Device.itemLetter then
      cfg.deliver s mailbox item
    else s

/-- `Tile::postAddNotification` for the owner of the thing, to a depth of calls. -/
def postAddNotification : ℕ → Notify
  | 0, _, _, _ => .error .depth
  | n + 1, s, thing, t =>
    match s.tileDevice t with
    | none => .ok s
    | some device =>
      match (s.item device).cls with
      | .teleport => addThing cfg destPos (postAddNotification n) s device t thing
      | .trashHolder => .ok (trash cfg canRemove s device t thing)
      | _ => .ok (mail cfg s device thing)

/-- The notification makes only finitely many moves. -/
def Ends (s : State) (thing : Thing Ref CreatureId) (t : Position) : Prop :=
  ∃ n, postAddNotification cfg destPos canRemove n s thing t ≠ .error .depth

/-! ### The move of an item between tiles -/

/-- Where the stairs or the hole of a tile lead. -/
def floorExit (s : State) (t : Position) : Option Position :=
  if Inventory.Tile.floorChange s t 0 then Inventory.Tile.fallTo s t
  else if (s.mapTile t).floorChange ≠ 0 then Inventory.Tile.climbTo s t
  else none

/-- The tile that a thing comes to by stairs and holes, at most so many. -/
def descend (s : State) : ℕ → Position → Position
  | 0, t => t
  | n + 1, t =>
    match floorExit s t with
    | some t' => if t' = t then t else descend s n t'
    | none => t

section Moves

variable {cfg} {s : State} {item : Ref} {t : Position} {n : ℕ}

theorem queryDestination_tile (index : ℤ) (flags : Flags) :
    (Inventory.Tile.queryDestination s t index flags).cylinder = .tile ((floorExit s t).getD t) ∧
    (Inventory.Tile.queryDestination s t index flags).destItem =
      s.getTopDownItem ((floorExit s t).getD t) := by
  unfold Inventory.Tile.queryDestination floorExit
  dsimp only
  split
  · next t' ht' => rw [ht', Option.getD_some]; exact ⟨rfl, rfl⟩
  · next ht' => rw [ht', Option.getD_none]; exact ⟨rfl, rfl⟩

/-- From a tile the redirections lead to tiles, whatever is moved. -/
theorem findDestination_tile : ∀ {n : ℕ} {d : Destination} {t : Position}, d.cylinder = .tile t →
    (findDestination cfg s item n d).cylinder = .tile (descend s n t) ∧
    (n ≠ 0 ∨ d.destItem = s.getTopDownItem t →
      (findDestination cfg s item n d).destItem = s.getTopDownItem (descend s n t))
  | 0, _, _, hd => ⟨hd, fun h => h.resolve_left (absurd rfl)⟩
  | n + 1, d, t, hd => by
    obtain ⟨hcyl, hitem⟩ := queryDestination_tile (s := s) (t := t) d.index d.flags
    unfold findDestination
    rw [hd]
    dsimp only [queryDestination]
    unfold descend
    cases ht : floorExit s t with
    | none =>
      rw [ht, Option.getD_none] at hcyl hitem
      rw [if_pos hcyl]
      exact ⟨hcyl, fun _ => hitem⟩
    | some t' =>
      rw [ht, Option.getD_some] at hcyl hitem
      dsimp only
      by_cases hsame : t' = t
      · subst hsame
        rw [if_pos hcyl, if_pos rfl]
        exact ⟨hcyl, fun _ => hitem⟩
      · rw [if_neg (by rw [hcyl]; exact fun he => hsame (Cylinder.tile.inj he)), if_neg hsame]
        obtain ⟨hcyl', hitem'⟩ := findDestination_tile (n := n)
          (d := { Inventory.Tile.queryDestination s t d.index d.flags with flags := {} }) hcyl
        exact ⟨hcyl', fun _ => hitem' (.inr hitem)⟩

variable (cfg s item t) in
/-- The tile that a move to a tile comes to, and the item it finds there. -/
theorem landing_spec : (landing cfg s item t).1 = descend s mapMaxLayers t ∧
    (landing cfg s item t).2 = findDestination cfg s item mapMaxLayers ⟨.tile t, indexWhereever, none, {}⟩ ∧
    (landing cfg s item t).2.cylinder = .tile (landing cfg s item t).1 ∧
    (landing cfg s item t).2.destItem = s.getTopDownItem (landing cfg s item t).1 := by
  let d : Destination := ⟨.tile t, indexWhereever, none, {}⟩
  have hd : d.cylinder = .tile t := rfl
  obtain ⟨hcyl, hitem⟩ := @findDestination_tile cfg s item mapMaxLayers d t hd
  unfold landing
  dsimp only
  rw [hcyl]
  exact ⟨rfl, rfl, hcyl, hitem (.inl (by decide))⟩

end Moves

/-! ### The way of a creature -/

/-- The tile that the teleport of a tile leads to. -/
def leadsTo (s : State) (t : Position) : Option Position :=
  if (s.mapTile t).flag .teleport then
    (s.findFromEnd t .teleport).bind fun teleport =>
      getTile s (destPos teleport).x (destPos teleport).y (destPos teleport).z
  else none

/-- What decides where the things that are put on a tile go: whether it is on
the map, where it lets things fall, and the teleport on it. -/
structure Layout where
  onMap : Bool
  floorChange : BitVec 7
  hasTeleport : Bool
  teleport : Option Ref

def layout (s : State) (t : Position) : Layout where
  onMap := (s.tiles t).isSome
  floorChange := (s.mapTile t).floorChange
  hasTeleport := (s.mapTile t).flag .teleport
  teleport := s.findFromEnd t .teleport

section Layout

variable {destPos} {s s' : State} {t u : Position} {c : CreatureId}

theorem layout_eq_iff : layout s' t = layout s t ↔ (s'.tiles t).isSome = (s.tiles t).isSome ∧
    (s'.mapTile t).floorChange = (s.mapTile t).floorChange ∧
    (s'.mapTile t).flag .teleport = (s.mapTile t).flag .teleport ∧
    s'.findFromEnd t .teleport = s.findFromEnd t .teleport := by
  unfold layout
  simp only [Layout.mk.injEq]

theorem getTile_congr (h : layout s' = layout s) (x y : UInt16) (z : UInt8) :
    getTile s' x y z = getTile s x y z := by
  have hon : (s'.tiles ⟨x, y, z⟩).isSome = (s.tiles ⟨x, y, z⟩).isSome :=
    congrArg Layout.onMap (congrFun h ⟨x, y, z⟩)
  unfold getTile
  cases h' : s'.tiles ⟨x, y, z⟩ <;> cases hs : s.tiles ⟨x, y, z⟩ <;> simp_all

theorem leadsTo_congr (h : layout s' = layout s) : leadsTo destPos s' = leadsTo destPos s := by
  funext t
  have hflag : (s'.mapTile t).flag .teleport = (s.mapTile t).flag .teleport :=
    congrArg Layout.hasTeleport (congrFun h t)
  have hfind : s'.findFromEnd t .teleport = s.findFromEnd t .teleport :=
    congrArg Layout.teleport (congrFun h t)
  unfold leadsTo
  simp only [hflag, hfind, getTile_congr h]

/-- A tile with a teleport is on the map. -/
theorem onMap_of_leadsTo (h : leadsTo destPos s t = some u) : (s.tiles t).isSome = true := by
  cases ht : s.tiles t with
  | some v => rfl
  | none =>
    have hflag : (s.mapTile t).flag .teleport = false := by
      unfold State.mapTile
      rw [ht]
      rfl
    unfold leadsTo at h
    rw [hflag] at h
    exact nomatch h

theorem onMap_of_getTile {x y : UInt16} {z : UInt8} (h : getTile s x y z = some u) :
    (s.tiles u).isSome = true := by
  unfold getTile at h
  split at h
  · exact nomatch h
  · obtain ⟨v, hv, rfl⟩ := Option.map_eq_some_iff.1 h
    rw [hv]
    rfl

theorem onMap_of_leadsTo_right (h : leadsTo destPos s t = some u) : (s.tiles u).isSome = true := by
  unfold leadsTo at h
  split at h
  · obtain ⟨teleport, -, hu⟩ := Option.bind_eq_some_iff.1 h
    exact onMap_of_getTile hu
  · exact nomatch h

/-- The last teleport in the vector of a tile. -/
def lastTeleport (v : TileItems.State Ref CreatureId) : Option Ref :=
  v.makeItemList.items.reverse.find? fun r => (v.item r).cls = .teleport

theorem findFromEnd_teleport : s.findFromEnd t .teleport = lastTeleport (s.tileState t) := rfl

/-- A change of a tile of the map that leaves its teleports and its floor as they are. -/
theorem layout_putTile {v : TileItems.State Ref CreatureId} (hon : (s.tiles t).isSome = true)
    (hcls : ∀ r, (v.item r).cls = (s.item r).cls) (hfloor : v.floorChange = (s.mapTile t).floorChange)
    (hflag : v.flag .teleport = (s.mapTile t).flag .teleport)
    (hlast : lastTeleport v = lastTeleport (s.tileState t)) : layout (s.putTile t v) = layout s := by
  funext u
  apply layout_eq_iff.2
  by_cases hu : u = t
  · subst hu
    rw [findFromEnd_teleport, mapTile_putTile_self]
    refine ⟨?_, hfloor, hflag, ?_⟩
    · unfold State.putTile
      simp only [Function.update_self, hon, Option.isSome_some]
    · rw [findFromEnd_teleport, ← hlast]
      unfold lastTeleport State.tileState TileItems.State.makeItemList
      rw [mapTile_putTile_self]
      rfl
  · rw [mapTile_putTile_of_ne hu]
    refine ⟨?_, rfl, rfl, ?_⟩
    · unfold State.putTile
      simp only [Function.update_of_ne hu]
    · unfold State.findFromEnd
      rw [mapTile_putTile_of_ne hu, item_putTile]
      simp only [hcls]

/-- A creature that moves between two tiles of the map leaves their teleports
and their floors as they are. -/
theorem moveCreature_spec (hold : (s.tiles (s.players c).tile).isSome = true)
    (hnew : (s.tiles t).isSome = true) :
    ∃ s', (∀ notify : Notify, moveCreature cfg notify s c t = notify s' (.creature c) t) ∧
      (s'.players c).tile = t ∧ layout s' = layout s := by
  let v := (s.tileState (s.players c).tile).removeThing cfg.items (.creature c) 0
  let s₁ := s.putTile (s.players c).tile v
  have hleft : layout s₁ = layout s := layout_putTile hold (fun _ => rfl) rfl rfl rfl
  have hnew₁ : (s₁.tiles t).isSome = true :=
    (congrArg Layout.onMap (congrFun hleft t)).trans hnew
  let creatures := some ((s₁.tileState t).tile.creatures.getD [] ++ [c])
  let v₁ := { s₁.tileState t with tile := { (s₁.tileState t).tile with creatures } }
  have hcome : layout (s₁.putTile t v₁) = layout s₁ := layout_putTile hnew₁ (fun _ => rfl) rfl rfl rfl
  refine ⟨(s₁.putTile t v₁).setPlayer c { s.players c with tile := t }, fun _ => rfl, ?_, ?_⟩
  · unfold State.setPlayer
    simp only [Function.update_self]
  · exact hcome.trans hleft

end Layout

/-! ### A creature that is teleported -/

section Creature

variable {cfg destPos canRemove} {s : State} {t u : Position} {c : CreatureId} {n : ℕ}

/-- The teleport of a tile is looked for first. -/
theorem tileDevice_cases {d : Ref} (h : s.tileDevice t = some d) :
    (s.mapTile t).flag .teleport = true ∧ s.findFromEnd t .teleport = some d ∧ (s.item d).cls = .teleport ∨
    (s.item d).cls = .trashHolder ∨ (s.item d).cls = .mailbox := by
  have hfound {l : List Ref} {cls : ItemClass}
      (hd : l.find? (fun r => (s.item r).cls = cls) = some d) : (s.item d).cls = cls := by
    simpa using List.find?_some hd
  have hground {cls : ItemClass} (hd : s.findWithGround t cls = some d) : (s.item d).cls = cls := by
    unfold State.findWithGround at hd
    split at hd
    · split at hd
      · next hcls => exact Option.some.inj hd ▸ hcls
      · exact hfound hd
    · exact hfound hd
  unfold State.tileDevice at h
  split at h
  · next hteleport => exact .inl ⟨hteleport, h, hfound h⟩
  split at h
  · exact .inr (.inl (hground h))
  split at h
  · exact .inr (.inr (hground h))
  · exact nomatch h

/-- A teleport that leads to a tile of the map moves what is put on its tile. -/
theorem postAddNotification_of_leadsTo (h : leadsTo destPos s t = some u) (thing : Thing Ref CreatureId) :
    postAddNotification cfg destPos canRemove (n + 1) s thing t =
      match thing with
      | .creature c => moveCreature cfg (postAddNotification cfg destPos canRemove n) s c u
      | .item item =>
        internalMoveItem cfg (postAddNotification cfg destPos canRemove n) s t u item
          (.ofNat (s.item item).count) >>= fun v => .ok v.2 := by
  unfold leadsTo at h
  split at h
  · next hteleport =>
    obtain ⟨d, hd, hu⟩ := Option.bind_eq_some_iff.1 h
    have hcls : (s.item d).cls = .teleport := by simpa using List.find?_some hd
    have hdevice : s.tileDevice t = some d := (if_pos hteleport).trans hd
    unfold postAddNotification
    cases thing <;> simp only [hdevice, hcls, addThing, hu]
  · exact nomatch h

variable (cfg canRemove) in
/-- Otherwise nothing is moved by a teleport, and a trash holder or a mailbox
does what it does with the thing. -/
theorem postAddNotification_of_none (h : leadsTo destPos s t = none) (thing : Thing Ref CreatureId) :
    ∃ s', (∀ n, postAddNotification cfg destPos canRemove (n + 1) s thing t = .ok s') ∧
      (s' = s ∨ ∃ d, s' = trash cfg canRemove s d t thing ∨ s' = mail cfg s d thing) := by
  unfold postAddNotification
  cases hd : s.tileDevice t with
  | none => exact ⟨s, fun _ => rfl, .inl rfl⟩
  | some d =>
    dsimp only
    rcases tileDevice_cases hd with ⟨hteleport, hfind, hcls⟩ | hcls | hcls
    · -- the teleport leads nowhere
      unfold leadsTo at h
      rw [if_pos hteleport, hfind, Option.bind_some] at h
      refine ⟨s, fun n => ?_, .inl rfl⟩
      rw [hcls]
      cases thing <;> simp only [addThing, h]
    · exact ⟨_, fun _ => by rw [hcls], .inr ⟨d, .inl rfl⟩⟩
    · exact ⟨_, fun _ => by rw [hcls], .inr ⟨d, .inr rfl⟩⟩

/-- The way of teleports from the tile ends. -/
theorem acc_of_ends : ∀ {n : ℕ} {s : State},
    postAddNotification cfg destPos canRemove n s (.creature c) (s.players c).tile ≠ .error .depth →
    Acc (fun u t => leadsTo destPos s t = some u) (s.players c).tile
  | 0, _, h => absurd rfl h
  | n + 1, s, h => by
    refine ⟨_, fun u hu => ?_⟩
    rw [postAddNotification_of_leadsTo hu] at h
    obtain ⟨s', hmove, hat, hlayout⟩ := moveCreature_spec cfg (onMap_of_leadsTo hu) (onMap_of_leadsTo_right hu)
    dsimp only at h
    rw [hmove] at h
    have hacc := acc_of_ends (hat.symm ▸ h)
    rw [leadsTo_congr hlayout, hat] at hacc
    exact hacc

/-- Where the way of teleports ends, the creature comes to rest. -/
theorem settles_of_acc (h : Acc (fun u t => leadsTo destPos s t = some u) t) :
    ∀ {s' : State}, layout s' = layout s → (s'.players c).tile = t →
      Settles (fun n => postAddNotification cfg destPos canRemove n s' (.creature c) t) fun _ => True := by
  induction h with
  | intro t _ ih =>
    intro s' hlayout hat
    have hleads : leadsTo destPos s' t = leadsTo destPos s t := congrFun (leadsTo_congr hlayout) t
    apply Settles.of_succ
    cases hu : leadsTo destPos s t with
    | none =>
      obtain ⟨s₁, hs₁, -⟩ := postAddNotification_of_none cfg canRemove (hleads.trans hu) (.creature c)
      simp only [hs₁]
      exact .ok trivial
    | some u =>
      rw [hu] at hleads
      simp only [postAddNotification_of_leadsTo hleads]
      obtain ⟨s₁, hmove, hat₁, hlayout₁⟩ := moveCreature_spec (c := c) cfg (hat ▸ onMap_of_leadsTo hleads)
        (onMap_of_leadsTo_right hleads)
      simp only [hmove]
      exact ih u hu (hlayout₁.trans hlayout) hat₁

instance finitePosition : Finite Position := by
  apply Finite.of_injective (fun t : Position => (t.x.toFin, t.y.toFin, t.z.toFin))
  rintro ⟨x, y, z⟩ ⟨x', y', z'⟩ h
  simp only [Prod.mk.injEq, UInt16.toFin_inj, UInt8.toFin_inj] at h
  obtain ⟨rfl, rfl, rfl⟩ := h
  rfl

/-- The creature comes to rest just where the way of teleports does not lead to
a tile from which it leads back. -/
theorem creature_ends_iff : Ends cfg destPos canRemove s (.creature c) (s.players c).tile ↔
    Acyclic (fun t u => leadsTo destPos s t = some u) (s.players c).tile := by
  rw [← acc_iff_acyclic]
  constructor
  · rintro ⟨n, hn⟩
    exact acc_of_ends hn
  · intro h
    exact (settles_of_acc h rfl rfl).ends

end Creature

end Teleport
end ForgottenServer
