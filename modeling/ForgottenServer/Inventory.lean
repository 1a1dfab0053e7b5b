/-
# Items in containers, in inventories and on tiles

Items lie in containers, in the ten slots of a player and on tiles. An item
knows the cylinder that holds it; a container the items in it, the newest in
front, and the weight of all that lies in it at any depth. Objects are named by
their place in memory, so a container that is moved takes what it holds along.
The tiles are those of `TileItems`, each with its place on the map.

Teleports, trash holders and mailboxes are cylinders too, but hold nothing: what
they do with an item they are given is a parameter (`Config.deliver`). The
scripts of moves and the messages to spectators are left out; of what is told
after a move the weights of the inventories are kept.

Key definitions: `Cylinder`, `State`, `State.contents`, `State.getThingIndex`,
`State.getTopParent`, `Config`, `addThing`, `removeThing`, `updateThing`.
-/
import Mathlib.Data.UInt
import ForgottenServer.Spectators
import ForgottenServer.TileItems

namespace ForgottenServer
namespace Inventory

open Spectators (Position)

/-- A pointer to an item. -/
abbrev Ref := ℕ

abbrev CreatureId := ℕ

/-- `Cylinder` -/
inductive Cylinder
  | container (r : Ref)
  | player (p : CreatureId)
  | tile (t : Position)
  -- a teleport, a trash holder or a mailbox
  | device (r : Ref)
  deriving DecidableEq

/-- An object of class `Item`, with the members that `Container` and
`DepotChest` add. -/
structure Thing where
  item : Item
  parent : Option Cylinder := none
  maxSize : UInt16 := 0
  unlocked : Bool := true
  itemlist : List Ref := []
  totalWeight : UInt32 := 0
  maxDepotItems : Option ℕ := none

/-- The members of `Player` that the moves of items use. The slots of the
inventory are numbered from 1. -/
structure Player where
  inventory : ℕ → Option Ref := fun _ => none
  tile : Position
  capacity : UInt32 := 0
  inventoryWeight : UInt32 := 0
  tradeItem : Option Ref := none
  -- `PlayerFlag_CannotPickupItem`
  cannotPickupItem : Bool := false
  -- `PlayerFlag_HasInfiniteCapacity`
  hasInfiniteCapacity : Bool := false

/-- A tile of the map, with the flags that come from its items. -/
structure MapTile where
  tile : TileStack.Tile Ref CreatureId := {}
  floorChange : BitVec 7 := 0
  flag : TileItems.TileFlag → Bool := fun _ => false
  -- `House::isInvited`, on the tile of a house
  isInvited : Option (CreatureId → Bool) := none

structure State where
  things : Ref → Thing
  players : CreatureId → Player
  tiles : Position → Option MapTile := fun _ => none
  inGhostMode : CreatureId → Bool := fun _ => false
  /-- the next object -/
  next : Ref

/-- What the moves of items read besides the state: the item types, two settings
of `ConfigManager`, and what a teleport, a trash holder or a mailbox does with
an item it is given. -/
structure Config where
  items : UInt16 → ItemType
  classicEquipmentSlots : Bool := true
  houseAntiTrash : Bool := false
  deliver : State → Ref → Ref → State := fun s _ _ => s

/-- The slots from `CONST_SLOT_FIRST` to `CONST_SLOT_LAST`. -/
def slots : List ℕ := List.range' 1 10

/-- `INDEX_WHEREEVER` -/
def indexWhereever : ℤ := -1

theorem mem_slots {i : ℕ} : i ∈ slots ↔ 1 ≤ i ∧ i ≤ 10 := by
  unfold slots
  rw [List.mem_range'_1]
  omega

namespace State

variable (s : State)

def item (r : Ref) : Item := (s.things r).item

def parent (r : Ref) : Option Cylinder := (s.things r).parent

/-- The tile at a position, if it is one of the map. -/
def mapTile (t : Position) : MapTile := (s.tiles t).getD {}

/-- The items that lie in a cylinder. -/
def contents : Cylinder → List Ref
  | .container q => (s.things q).itemlist
  | .player p => slots.filterMap (s.players p).inventory
  | .tile t =>
    let tile := (s.mapTile t).tile
    tile.ground.toList ++ (tile.topItems ++ tile.downItems)
  | .device _ => []

def isContainer (r : Ref) : Bool := (s.item r).cls = .container ∨ (s.item r).cls = .depotLocker

/-- `dynamic_cast<Cylinder*>` of an item -/
def asCylinder (r : Ref) : Option Cylinder :=
  if s.isContainer r then some (.container r)
  else if (s.item r).cls = .teleport ∨ (s.item r).cls = .trashHolder ∨ (s.item r).cls = .mailbox then
    some (.device r)
  else none

/-! ### Changes of one member -/

def setThing (r : Ref) (t : Thing) : State := { s with things := Function.update s.things r t }

def setPlayer (p : CreatureId) (x : Player) : State :=
  { s with players := Function.update s.players p x }

def setItem (r : Ref) (it : Item) : State := s.setThing r { s.things r with item := it }

def setParent (r : Ref) (c : Option Cylinder) : State := s.setThing r { s.things r with parent := c }

def setItemlist (q : Ref) (l : List Ref) : State := s.setThing q { s.things q with itemlist := l }

def setSlot (p : CreatureId) (i : ℕ) (x : Option Ref) : State :=
  s.setPlayer p
    { s.players p with inventory := Function.update (s.players p).inventory i x }

/-- `Item::clone`, as far as the copies of a stack: the new object, at `next`. -/
def clone (r : Ref) (count : ℕ) : State :=
  { s.setThing s.next { item := (s.item r).setItemCount count } with next := s.next + 1 }

/-! ### Tiles -/

/-- A tile as `TileItems` sees it. -/
def tileState (t : Position) : TileItems.State Ref CreatureId where
  tile := (s.mapTile t).tile
  item := s.item
  parentIsTile r := s.parent r = some (.tile t)
  floorChange := (s.mapTile t).floorChange
  flag := (s.mapTile t).flag

/-- The map with a tile changed. -/
def putTile (t : Position) (v : TileItems.State Ref CreatureId) : State :=
  { s with
    things := fun r =>
      { s.things r with
        item := v.item r
        parent :=
          if v.parentIsTile r then some (.tile t)
          else if s.parent r = some (.tile t) then none
          else s.parent r }
    tiles := Function.update s.tiles t
      (some { s.mapTile t with tile := v.tile, floorChange := v.floorChange, flag := v.flag }) }

/-- `Tile::getTopDownItem` -/
def getTopDownItem (t : Position) : Option Ref := (s.mapTile t).tile.downItems.head?

/-- The first item of the class in the vector, from its end. -/
def findFromEnd (t : Position) (cls : ItemClass) : Option Ref :=
  ((s.mapTile t).tile.items.getD {}).items.reverse.find? fun r => (s.item r).cls = cls

/-- The ground if it has the class, or an item of the vector. -/
def findWithGround (t : Position) (cls : ItemClass) : Option Ref :=
  match (s.mapTile t).tile.ground with
  | some ground => if (s.item ground).cls = cls then some ground else s.findFromEnd t cls
  | none => s.findFromEnd t cls

/-- The teleport, trash holder or mailbox that is given what is put on the tile. -/
def tileDevice (t : Position) : Option Ref :=
  if (s.mapTile t).flag .teleport then s.findFromEnd t .teleport
  else if (s.mapTile t).flag .trashHolder then s.findWithGround t .trashHolder
  else if (s.mapTile t).flag .mailbox then s.findWithGround t .mailbox
  else none

/-! ### Parents -/

/-- `getParent` of a cylinder -/
def getParent : Cylinder → Option Cylinder
  | .container q => s.parent q
  | .player p => some (.tile (s.players p).tile)
  | .tile _ => none
  | .device r => s.parent r

/-- The loop of `Item::getTopParent`; the first argument bounds it. -/
def topParentUp : ℕ → Option Cylinder → Cylinder → Cylinder
  | 0, prevaux, aux => prevaux.getD aux
  | n + 1, prevaux, aux =>
    match s.getParent aux with
    | none => prevaux.getD aux
    | some up => topParentUp n (some aux) up

/-- `Item::getTopParent` -/
def getTopParent (r : Ref) : Option Cylinder :=
  let prevaux := s.asCylinder r
  match s.parent r with
  | none => prevaux
  | some aux => some (s.topParentUp (s.next + 2) prevaux aux)

/-- The loop over the parents of a container, for one that is the item; the
first argument bounds it. -/
def isHeldInUp (r : Ref) : ℕ → Option Cylinder → Bool
  | 0, _ => false
  | _, none => false
  | n + 1, some cylinder => s.asCylinder r = some cylinder || isHeldInUp r n (s.getParent cylinder)

/-- One of the parents of the container is the item. -/
def isHeldIn (q r : Ref) : Bool := s.isHeldInUp r (s.next + 2) (s.parent q)

section Types

variable (items : UInt16 → ItemType)

/-- `getThingIndex`, with -1 for an item that does not lie in the cylinder. -/
def getThingIndex (r : Ref) : Cylinder → ℤ
  | .container q =>
    if r ∈ (s.things q).itemlist then (s.things q).itemlist.idxOf r else -1
  | .player p =>
    match slots.find? fun i => (s.players p).inventory i = some r with
    | some i => i
    | none => -1
  | .tile t => (s.tileState t).getThingIndex items (.item r)
  | .device _ => -1

/-- `getItemByIndex` -/
def getItemByIndex (q : Ref) (index : ℤ) : Option Ref :=
  if index < 0 then none else (s.things q).itemlist[index.toNat]?

/-- `Player::getThing`, `Player::getInventoryItem` -/
def getInventoryItem (p : CreatureId) (index : ℤ) : Option Ref :=
  if 1 ≤ index ∧ index ≤ 10 then (s.players p).inventory index.toNat else none

/-- `max(capacity() - size(), 0)` of a container -/
def freeSlots (q : Ref) : ℕ := (s.things q).maxSize.toNat - (s.things q).itemlist.length

/-! ### Weights -/

/-- `Item::getWeight` and `Container::getWeight` -/
def getWeight (r : Ref) : UInt32 :=
  if s.isContainer r then (s.item r).getWeight items + (s.things r).totalWeight
  else (s.item r).getWeight items

/-- `Container::updateItemWeight`; the first argument bounds the way up. -/
def updateItemWeightUp : ℕ → Ref → UInt32 → State → State
  | 0, _, _, s => s
  | n + 1, q, diff, s =>
    let s := s.setThing q { s.things q with totalWeight := (s.things q).totalWeight + diff }
    match s.parent q with
    | some (.container parentContainer) => updateItemWeightUp n parentContainer diff s
    | _ => s

def updateItemWeight (q : Ref) (diff : UInt32) : State := updateItemWeightUp (s.next + 1) q diff s

/-- The sum that `Player::updateInventoryWeight` makes, of some of the slots. -/
def weightOf (p : CreatureId) (l : List ℕ) : UInt32 :=
  ((l.filterMap (s.players p).inventory).map (s.getWeight items)).sum

/-- `Player::updateInventoryWeight` -/
def updateInventoryWeight (p : CreatureId) : State :=
  if (s.players p).hasInfiniteCapacity then s
  else s.setPlayer p { s.players p with inventoryWeight := s.weightOf items p slots }

/-- A depot locker or a depot chest notifies its parent. -/
def notifiesParent (q : Ref) : Bool :=
  (s.item q).cls = .depotLocker ∨ (s.things q).maxDepotItems.isSome

end Types
end State

/-- `cylinderlink_t` -/
inductive Link
  | owner | parent | topParent | near
  deriving DecidableEq

section Types

variable (items : UInt16 → ItemType)

/-- What `postAddNotification` and `postRemoveNotification` do to the weight of
an inventory; the first argument bounds the way up. -/
def postNotification (s : State) : ℕ → Link → Cylinder → State
  | 0, _, _ => s
  | _, link, .player p =>
    if link = .owner ∨ link = .topParent then s.updateInventoryWeight items p else s
  | _, _, .tile _ => s
  | n + 1, _, .device r =>
    match s.parent r with
    | some c => postNotification s n .parent c
    | none => s
  | n + 1, _, .container q =>
    if s.notifiesParent q then
      match s.parent q with
      | some c => postNotification s n .parent c
      | none => s
    else
      match s.getTopParent q with
      | some (.player p) => s.updateInventoryWeight items p
      | some (.container top) =>
        if top = q then s else postNotification s n .parent (.container top)
      | _ => s

/-- `postRemoveNotification` -/
def postRemoveNotification (s : State) (c : Cylinder) : State :=
  postNotification items s (s.next + 2) .owner c

end Types

section Operations

variable (cfg : Config)

/-- `postAddNotification`: a tile gives what is put on it to its teleport, trash
holder or mailbox. -/
def postAddNotification (s : State) (r : Ref) : Cylinder → State
  | .tile t =>
    match s.tileDevice t with
    | some device => cfg.deliver s device r
    | none => s
  | c => postNotification cfg.items s (s.next + 2) .owner c

/-! ### Adding, removing and changing -/

/-- `addThing`; it does not return where `Tile::addThing` does not. -/
def addThing (s : State) (index : ℤ) (r : Ref) : Cylinder → Option State
  | .container q =>
    if ((s.things q).maxSize.toNat : ℤ) ≤ index then some s
    else
      let s := s.setParent r (some (.container q))
      let s := s.setItemlist q (r :: (s.things q).itemlist)
      some (s.updateItemWeight q (s.getWeight cfg.items r))
  | .player p =>
    if index < 1 ∨ 10 < index then some s
    else some ((s.setParent r (some (.player p))).setSlot p index.toNat (some r))
  | .tile t => ((s.tileState t).addThing cfg.items (.item r)).map (s.putTile t)
  | .device d => some (cfg.deliver s d r)

/-- `addThing` without an index, which does nothing for a player. -/
def addThingFront (s : State) (r : Ref) : Cylinder → Option State
  | .player _ => some s
  | c => addThing cfg s 0 r c

/-- `updateThing` -/
def updateThing (s : State) (r : Ref) (itemId : UInt16) (count : ℕ) (c : Cylinder) : State :=
  if s.getThingIndex cfg.items r c = -1 then s
  else
    let it := ((s.item r).setID cfg.items itemId).setSubType cfg.items (count % 2 ^ 16)
    match c with
    | .container q =>
      let oldWeight := s.getWeight cfg.items r
      let s := s.setItem r it
      s.updateItemWeight q (s.getWeight cfg.items r - oldWeight)
    | .player _ => s.setItem r it
    | .tile t => s.putTile t ((s.tileState t).updateThing cfg.items (.item r) itemId (.ofNat count))
    | .device _ => s

/-- `removeThing` -/
def removeThing (s : State) (r : Ref) (count : ℕ) (c : Cylinder) : State :=
  let index := s.getThingIndex cfg.items r c
  if index = -1 then s
  else
    let itemCount := (s.item r).count
    let whole := !(cfg.items (s.item r).id).stackable || count = itemCount
    let newCount := uint 1 (max 0 (int32 ((itemCount : ℤ) - count)))
    match c with
    | .container q =>
      if whole then
        let s := s.updateItemWeight q (-s.getWeight cfg.items r)
        (s.setParent r none).setItemlist q ((s.things q).itemlist.eraseIdx index.toNat)
      else
        let oldWeight := s.getWeight cfg.items r
        let s := s.setItem r ((s.item r).setItemCount newCount)
        s.updateItemWeight q (s.getWeight cfg.items r - oldWeight)
    | .player p =>
      if whole then (s.setParent r none).setSlot p index.toNat none
      else s.setItem r ((s.item r).setItemCount newCount)
    | .tile t => s.putTile t ((s.tileState t).removeThing cfg.items (.item r) (.ofNat count))
    | .device _ => s

end Operations

end Inventory
end ForgottenServer
