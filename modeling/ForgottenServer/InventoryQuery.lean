/-
# What cylinders answer

Before an item is moved, the cylinders are asked: where exactly it goes
(`queryDestination`), whether it may go there (`queryAdd`), how much of it
(`queryMaxCount`), and whether it may be taken away (`queryRemove`). The answers
change nothing.

A container asks the player that carries it for the capacity. A player has a
rule for each slot, and asks for an exchange when another item is in it; a tile
asks for one when something hangs where the item is to hang.

Key definitions: `queryAdd`, `queryMaxCount`, `queryRemove`, `queryDestination`.
-/
import ForgottenServer.Inventory

namespace ForgottenServer
namespace Inventory

open Spectators (Position)

/-- `ReturnValue`, as far as it is given here. -/
inductive ReturnValue
  | noError | notPossible | notEnoughRoom | notMoveable | dropTwoHandedItem
  | bothHandsNeedToBeFree | canOnlyUseOneWeapon | needExchange | cannotBeDressed
  | putThisObjectInYourHand | putThisObjectInBothHands | containerNotEnoughRoom
  | notEnoughCapacity | cannotPickup | thisIsImpossible | depotIsFull | cannotThrow
  | canOnlyUseOneShield
  deriving DecidableEq, Repr

/-- `cylinderflags_t`, as far as it is read here. -/
structure Flags where
  noLimit : Bool := false
  ignoreBlockCreature : Bool := false
  childIsOwner : Bool := false
  ignoreNotMoveable : Bool := false
  ignoreAutoStack : Bool := false
  deriving DecidableEq

namespace Slotp

def head : UInt16 := 1
def necklace : UInt16 := 2
def backpack : UInt16 := 4
def armor : UInt16 := 8
def right : UInt16 := 16
def left : UInt16 := 32
def legs : UInt16 := 64
def feet : UInt16 := 128
def ring : UInt16 := 256
def ammo : UInt16 := 512
def twoHand : UInt16 := 2048

end Slotp

namespace State

variable (s : State)

/-- `item->equals(other)`, with no other item. -/
def equals (r : Ref) : Option Ref → Bool
  | some x => (s.item r).equals (s.item x)
  | none => false

/-- The items that a `ContainerIterator` goes through, for a queue of
containers; the first argument bounds the number of containers. -/
def iterate : ℕ → List Ref → List Ref
  | 0, _ => []
  | _, [] => []
  | n + 1, q :: queue =>
    (s.things q).itemlist ++
      iterate n (queue ++ (s.things q).itemlist.filter fun x =>
        s.isContainer x && !(s.things x).itemlist.isEmpty)

/-- `Container::iterator` -/
def iterator (q : Ref) : List Ref := s.iterate (s.next + 1) [q]

/-- `getItemHoldingCount` -/
def getItemHoldingCount (q : Ref) : ℕ := (s.iterator q).length

end State

variable (cfg : Config)

/-- The type of an item. -/
def State.type (s : State) (r : Ref) : ItemType := cfg.items (s.item r).id

namespace Player

def getFreeCapacity (x : Player) : ℕ :=
  if x.cannotPickupItem then 0
  else if x.hasInfiniteCapacity then 2 ^ 32 - 1
  else (max 0 (int32 (x.capacity - x.inventoryWeight).toNat)).toNat

/-- `Player::hasCapacity` -/
def hasCapacity (s : State) (p : CreatureId) (r : Ref) (count : ℕ) : Bool :=
  if (s.players p).cannotPickupItem then false
  else if (s.players p).hasInfiniteCapacity || s.getTopParent r = some (.player p) then true
  else
    let itemWeight :=
      if s.isContainer r then s.getWeight cfg.items r else (s.item r).getBaseWeight cfg.items
    let itemWeight := if (s.type cfg r).stackable then itemWeight * .ofNat count else itemWeight
    itemWeight.toNat ≤ (s.players p).getFreeCapacity

/-- The item type has the slot. -/
def hasSlot (s : State) (r : Ref) (slotp : UInt16) : Bool :=
  (s.type cfg r).slotPosition &&& slotp ≠ 0

/-- The answer before the slot is looked at. -/
def dressError (s : State) (r : Ref) : ReturnValue :=
  if hasSlot cfg s r Slotp.head || hasSlot cfg s r Slotp.necklace || hasSlot cfg s r Slotp.backpack ||
      hasSlot cfg s r Slotp.armor || hasSlot cfg s r Slotp.legs || hasSlot cfg s r Slotp.feet ||
      hasSlot cfg s r Slotp.ring then .cannotBeDressed
  else if hasSlot cfg s r Slotp.twoHand then .putThisObjectInBothHands
  else if hasSlot cfg s r Slotp.right || hasSlot cfg s r Slotp.left then
    if cfg.classicEquipmentSlots then .putThisObjectInYourHand else .cannotBeDressed
  else .noError

/-- A hand, with classic slots, and what is in the other hand. -/
def queryClassicHand (s : State) (r : Ref) (count : ℕ) (other : Option Ref) : ReturnValue :=
  if hasSlot cfg s r Slotp.twoHand then
    if other ≠ none ∧ other ≠ some r then .bothHandsNeedToBeFree else .noError
  else
    match other with
    | none => .noError
    | some x =>
      let type := (s.type cfg r).weaponType
      let otherType := (s.type cfg x).weaponType
      if hasSlot cfg s x Slotp.twoHand then .dropTwoHandedItem
      else if r = x ∧ count = (s.item r).count then .noError
      else if otherType = .shield ∧ type = .shield then .canOnlyUseOneShield
      else if otherType = .none ∨ type = .none ∨ otherType = .shield ∨ otherType = .ammo ∨
          type = .shield ∨ type = .ammo then .noError
      else .canOnlyUseOneWeapon

/-- The right hand without classic slots is for the shield. -/
def queryRight (s : State) (r : Ref) (left : Option Ref) : ReturnValue :=
  if (s.type cfg r).weaponType ≠ .shield then .cannotBeDressed
  else
    match left with
    | some x =>
      if hasSlot cfg s x Slotp.twoHand || hasSlot cfg s r Slotp.twoHand then .bothHandsNeedToBeFree
      else .noError
    | none => .noError

/-- The left hand without classic slots is for the weapon. -/
def queryLeft (s : State) (r : Ref) (right : Option Ref) : ReturnValue :=
  if (s.type cfg r).weaponType = .none ∨ (s.type cfg r).weaponType = .shield then .cannotBeDressed
  else if right ≠ none ∧ hasSlot cfg s r Slotp.twoHand then .bothHandsNeedToBeFree
  else .noError

/-- What `Player::queryAdd` says about the slot itself. -/
def querySlot (s : State) (p : CreatureId) (index : ℤ) (r : Ref) (count : ℕ) : ReturnValue :=
  let ret := dressError cfg s r
  let fits (b : Bool) (answer : ReturnValue) := if b then answer else ret
  let right := (s.players p).inventory 5
  let left := (s.players p).inventory 6
  if index = 1 then fits (hasSlot cfg s r Slotp.head) .noError
  else if index = 2 then fits (hasSlot cfg s r Slotp.necklace) .noError
  else if index = 3 then fits (hasSlot cfg s r Slotp.backpack) .noError
  else if index = 4 then fits (hasSlot cfg s r Slotp.armor) .noError
  else if index = 5 then
    fits (hasSlot cfg s r Slotp.right)
      (if cfg.classicEquipmentSlots then queryClassicHand cfg s r count left
      else queryRight cfg s r left)
  else if index = 6 then
    fits (hasSlot cfg s r Slotp.left)
      (if cfg.classicEquipmentSlots then queryClassicHand cfg s r count right
      else queryLeft cfg s r right)
  else if index = 7 then fits (hasSlot cfg s r Slotp.legs) .noError
  else if index = 8 then fits (hasSlot cfg s r Slotp.feet) .noError
  else if index = 9 then fits (hasSlot cfg s r Slotp.ring) .noError
  else if index = 10 then
    fits (hasSlot cfg s r Slotp.ammo || cfg.classicEquipmentSlots) .noError
  else if index = 0 ∨ index = -1 then .notEnoughRoom
  else .notPossible

/-- What is in the slot has to be exchanged for the item. -/
def occupied (s : State) (p : CreatureId) (index : ℤ) (r : Ref) : Bool :=
  match s.getInventoryItem p index with
  | some x => !(s.type cfg x).stackable || (s.type cfg x).isRune || (s.item x).id ≠ (s.item r).id
  | none => false

/-- `Player::queryAdd`; the scripts of `onPlayerEquip` agree. -/
def queryAdd (s : State) (p : CreatureId) (index : ℤ) (r : Ref) (count : ℕ) (flags : Flags) :
    ReturnValue :=
  if flags.childIsOwner then
    if flags.noLimit || hasCapacity cfg s p r count then .noError else .notEnoughCapacity
  else if !(s.type cfg r).pickupable then .cannotPickup
  else
    let ret := querySlot cfg s p index r count
    if ret = .noError ∨ ret = .notEnoughRoom then
      if occupied cfg s p index r then .needExchange
      else if !hasCapacity cfg s p r count then .notEnoughCapacity
      else ret
    else ret

end Player

namespace Container

/-- What `DepotChest::queryAdd` counts against its limit. -/
def depotIsFull (s : State) (q : Ref) (r : Ref) (count : ℕ) : Bool :=
  match (s.things q).maxDepotItems with
  | none => false
  | some maxDepotItems =>
    let addCount := if (s.type cfg r).stackable ∧ (s.item r).count ≠ count then 1 else 0
    let addCount :=
      if s.getTopParent r ≠ some (.container q) then
        if s.isContainer r then s.getItemHoldingCount r + 1 else 1
      else addCount
    maxDepotItems < s.getItemHoldingCount q + addCount

/-- `Container::queryAdd` and `DepotChest::queryAdd`. The top parent of a
container is asked as the owner of its children, a container only as a depot. -/
def queryAdd (s : State) (q : Ref) (index : ℤ) (r : Ref) (count : ℕ) (flags : Flags) :
    ReturnValue :=
  if !flags.noLimit && depotIsFull cfg s q r count then .depotIsFull
  else if flags.childIsOwner then .noError
  else if !(s.things q).unlocked then .notPossible
  else if !(s.type cfg r).pickupable then .cannotPickup
  else if r = q then .thisIsImpossible
  else if s.isHeldIn q r then .thisIsImpossible
  else if !flags.noLimit ∧ index = indexWhereever ∧ s.freeSlots q = 0 then .containerNotEnoughRoom
  else
    match s.getTopParent q with
    | some (.player p) =>
      Player.queryAdd cfg s p indexWhereever r count { flags with childIsOwner := true }
    | some (.container top) =>
      if top ≠ q ∧ !flags.noLimit ∧ depotIsFull cfg s top r count then .depotIsFull else .noError
    | _ => .noError

/-- The loop of `queryMaxCount` over the items of the container: the room on
the stacks that the item can be put on. -/
def stackRoom (s : State) (q r : Ref) (flags : Flags) : List Ref → ℕ → ℕ
  | [], _ => 0
  | x :: l, slotIndex =>
    if x ≠ r ∧ (s.item x).equals (s.item r) ∧ (s.item x).count < 100 then
      let remainder := 100 - (s.item x).count
      (if queryAdd cfg s q slotIndex r remainder flags = .noError then remainder else 0) +
        stackRoom s q r flags l (slotIndex + 1)
    else stackRoom s q r flags l slotIndex

/-- `Container::queryMaxCount` -/
def queryMaxCount (s : State) (q : Ref) (index : ℤ) (r : Ref) (count : ℕ) (flags : Flags) :
    ReturnValue × ℕ :=
  if flags.noLimit then (.noError, max 1 count)
  else if (s.type cfg r).stackable then
    let n :=
      if index = indexWhereever then stackRoom cfg s q r flags (s.things q).itemlist 0
      else
        match s.getItemByIndex q index with
        | some destItem =>
          let remainder := 100 - (s.item destItem).count
          if (s.item r).equals (s.item destItem) ∧ (s.item destItem).count < 100 ∧
              queryAdd cfg s q index r remainder flags = .noError then remainder
          else 0
        | none => 0
    let maxQueryCount := uint 4 (s.freeSlots q * 100 + n : ℕ)
    (if maxQueryCount < count then .containerNotEnoughRoom else .noError, maxQueryCount)
  else (if s.freeSlots q = 0 then .containerNotEnoughRoom else .noError, s.freeSlots q)

end Container

namespace Player

/-- The room for an item in what a slot holds, or in the slot. -/
def slotRoom (s : State) (p : CreatureId) (r : Ref) (flags : Flags) (slotIndex : ℕ) : ℕ :=
  match (s.players p).inventory slotIndex with
  | some x =>
    if s.isContainer x then
      ((x :: (s.iterator x).filter s.isContainer).map fun q =>
        (Container.queryMaxCount cfg s q indexWhereever r (s.item r).count flags).2).sum
    else if (s.type cfg x).stackable ∧ (s.item r).equals (s.item x) ∧ (s.item x).count < 100 then
      let remainder := 100 - (s.item x).count
      if queryAdd cfg s p slotIndex r remainder flags = .noError then remainder else 0
    else 0
  | none =>
    if queryAdd cfg s p slotIndex r (s.item r).count flags = .noError then
      if (s.type cfg r).stackable then 100 else 1
    else 0

/-- `Player::queryMaxCount` -/
def queryMaxCount (s : State) (p : CreatureId) (index : ℤ) (r : Ref) (count : ℕ) (flags : Flags) :
    ReturnValue × ℕ :=
  let answer (maxQueryCount : ℕ) : ReturnValue × ℕ :=
    (if maxQueryCount < count then .notEnoughRoom else .noError, maxQueryCount)
  if index = indexWhereever then answer (uint 4 ((slots.map (slotRoom cfg s p r flags)).sum : ℕ))
  else
    match s.getInventoryItem p index with
    | some destItem =>
      if !(s.type cfg destItem).isRune && (s.type cfg destItem).stackable &&
          (s.item r).equals (s.item destItem) && (s.item destItem).count < 100 then
        answer (100 - (s.item destItem).count)
      else answer 0
    | none =>
      if queryAdd cfg s p index r count flags = .noError then
        (.noError, if (s.type cfg r).stackable then 100 else 1)
      else answer 0

end Player

namespace Tile

/-- An item with a solid type that does not let the item on the tile. -/
def blocks (s : State) (r tileItem : Ref) : Bool :=
  let iiType := s.type cfg tileItem
  let it := s.type cfg r
  iiType.blockSolid && (!iiType.allowPickupable || it.isMagicField || it.blockSolid) &&
    (!it.pickupable || !iiType.hasHeight || iiType.pickupable || iiType.isBed)

/-- `Tile::queryAdd` and `HouseTile::queryAdd`, for an item -/
def queryAdd (s : State) (t : Position) (r : Ref) (flags : Flags) (actor : Option CreatureId) :
    ReturnValue :=
  let tile := (s.mapTile t).tile
  let it := s.type cfg r
  let items := (tile.items.getD {}).items
  let refused :=
    match (s.mapTile t).isInvited, actor with
    | some isInvited, some actor => cfg.houseAntiTrash && !isInvited actor
    | _, _ => false
  if refused then .cannotThrow
  else if 0xFFFF ≤ items.length then .notPossible
  else if flags.noLimit then .noError
  else if tile.ground = none ∧ !it.isHangable then .notPossible
  else if it.blockSolid && !flags.ignoreBlockCreature &&
      (tile.creatures.getD []).any fun c => !s.inGhostMode c then .notEnoughRoom
  else if it.isHangable && (s.mapTile t).flag .supportsHangable then
    if items.any fun x => (s.type cfg x).isHangable then .needExchange else .noError
  else if (tile.ground.toList ++ items).any (blocks cfg s r) then .notEnoughRoom
  else .noError

end Tile

namespace Device

def itemParcel : UInt16 := 2595
def itemLetter : UInt16 := 2597

/-- `Teleport::queryAdd`, `TrashHolder::queryAdd` and `Mailbox::queryAdd` -/
def queryAdd (s : State) (d r : Ref) : ReturnValue :=
  match (s.item d).cls with
  | .trashHolder => .noError
  | .mailbox =>
    if (s.item r).id = itemParcel ∨ (s.item r).id = itemLetter then .noError else .notPossible
  | _ => .notPossible

def queryMaxCount (s : State) (d : Ref) (count : ℕ) : ReturnValue × ℕ :=
  match (s.item d).cls with
  | .teleport => (.notPossible, 0)
  | _ => (.noError, max 1 count)

end Device

/-! ### The answers of a cylinder -/

def queryAdd (s : State) (index : ℤ) (r : Ref) (count : ℕ) (flags : Flags)
    (actor : Option CreatureId) : Cylinder → ReturnValue
  | .container q => Container.queryAdd cfg s q index r count flags
  | .player p => Player.queryAdd cfg s p index r count flags
  | .tile t => Tile.queryAdd cfg s t r flags actor
  | .device d => Device.queryAdd s d r

def queryMaxCount (s : State) (index : ℤ) (r : Ref) (count : ℕ) (flags : Flags) :
    Cylinder → ReturnValue × ℕ
  | .container q => Container.queryMaxCount cfg s q index r count flags
  | .player p => Player.queryMaxCount cfg s p index r count flags
  | .tile _ => (.noError, max 1 count)
  | .device d => Device.queryMaxCount s d count

/-- `queryRemove` of a container, a player and a tile -/
def queryRemove (s : State) (r : Ref) (count : ℕ) (flags : Flags) (c : Cylinder) : ReturnValue :=
  if s.getThingIndex cfg.items r c = -1 then .notPossible
  else if count = 0 ∨ ((s.type cfg r).stackable ∧ (s.item r).count < count) then .notPossible
  else if !(s.type cfg r).moveable && !flags.ignoreNotMoveable then .notMoveable
  else .noError

/-! ### Destinations -/

/-- What `queryDestination` returns and writes. -/
structure Destination where
  cylinder : Cylinder
  index : ℤ
  destItem : Option Ref
  flags : Flags

/-- The loop over the stacks of a container: the first that the item can be put on. -/
def findStack (s : State) (r : Ref) : List Ref → ℕ → Option (ℕ × Ref)
  | [], _ => none
  | x :: l, n =>
    if x ≠ r ∧ (s.item x).equals (s.item r) ∧ (s.item x).count < 100 then some (n, x)
    else findStack s r l (n + 1)

/-- The item at an index of a container, or the cylinder that it is. -/
def enter (s : State) (this : Cylinder) (index : ℤ) (destItem : Option Ref) (flags : Flags) :
    Destination :=
  match destItem with
  | some x =>
    match s.asCylinder x with
    | some subCylinder => ⟨subCylinder, indexWhereever, none, flags⟩
    | none => ⟨this, index, some x, flags⟩
  | none => ⟨this, index, none, flags⟩

/-- `Container::queryDestination` -/
def Container.queryDestination (s : State) (q : Ref) (index : ℤ) (r : Ref) (destItem : Option Ref)
    (flags : Flags) : Destination :=
  let this := Cylinder.container q
  if !(s.things q).unlocked then ⟨this, index, none, flags⟩
  else if index = 254 then
    match s.parent q with
    | some (.container parentContainer) => ⟨.container parentContainer, indexWhereever, none, flags⟩
    | _ => ⟨this, indexWhereever, none, flags⟩
  else
    let grey := index = 255 ∨ ((s.things q).maxSize.toNat : ℤ) ≤ index
    let index := if grey then indexWhereever else index
    let destItem := if grey then none else destItem
    let autoStack := !flags.ignoreAutoStack
    let stack :=
      if autoStack && (s.type cfg r).stackable && s.parent r ≠ some this then
        findStack s r (s.things q).itemlist 0
      else none
    match stack with
    | some (n, x) => ⟨this, n, some x, flags⟩
    | none =>
      if index ≠ indexWhereever then
        enter s this index ((s.getItemByIndex q index).or destItem) flags
      else ⟨this, index, destItem, flags⟩

namespace Player

/-- The loop of `Player::queryDestination` over the slots: a stack, a free slot,
or the containers in the slots. -/
def findSlot (s : State) (p : CreatureId) (r : Ref) (flags : Flags) :
    List ℕ → List Ref → Destination ⊕ List Ref
  | [], containers => .inr containers
  | slotIndex :: l, containers =>
    match (s.players p).inventory slotIndex with
    | some x =>
      if some x = (s.players p).tradeItem ∨ x = r then findSlot s p r flags l containers
      else if !flags.ignoreAutoStack && (s.type cfg r).stackable &&
          queryAdd cfg s p slotIndex r (s.item r).count {} = .noError &&
          (s.item x).equals (s.item r) && (s.item x).count < 100 then
        .inl ⟨.player p, slotIndex, some x, flags⟩
      else
        findSlot s p r flags l (if s.isContainer x then containers ++ [x] else containers)
    | none =>
      if queryAdd cfg s p slotIndex r (s.item r).count flags = .noError then
        .inl ⟨.player p, slotIndex, none, flags⟩
      else findSlot s p r flags l containers

/-- The first index, so many before the capacity, that the container takes the
item at. -/
def findFree (s : State) (q r : Ref) (flags : Flags) : ℕ → Option ℤ
  | 0 => none
  | n + 1 =>
    let index := int32 ((s.things q).maxSize.toNat - (n + 1 : ℕ))
    if Container.queryAdd cfg s q index r (s.item r).count flags = .noError then some index
    else findFree s q r flags n

/-- The loop of `Player::queryDestination` over the items of a container: a
stack, or the number of items and the containers among them. -/
def findStackIn (s : State) (p : CreatureId) (r : Ref) :
    List Ref → ℕ → List Ref → (ℕ × Ref) ⊕ (ℕ × List Ref)
  | [], n, containers => .inr (n, containers)
  | x :: l, n, containers =>
    if some x = (s.players p).tradeItem ∨ x = r then findStackIn s p r l n containers
    else if (s.item x).equals (s.item r) ∧ (s.item x).count < 100 then .inl (n, x)
    else findStackIn s p r l (n + 1) (if s.isContainer x then containers ++ [x] else containers)

/-- The loop of `Player::queryDestination` over the containers; the first
argument bounds it. -/
def findContainer (s : State) (p : CreatureId) (r : Ref) (flags : Flags) :
    ℕ → List Ref → Option Destination
  | 0, _ => none
  | _, [] => none
  | k + 1, q :: containers =>
    if flags.ignoreAutoStack || !(s.type cfg r).stackable then
      let n := uint 4 ((s.things q).maxSize.toNat - (s.things q).itemlist.length)
      match findFree cfg s q r flags n with
      | some index => some ⟨.container q, index, none, flags⟩
      | none =>
        findContainer s p r flags k (containers ++ (s.things q).itemlist.filter s.isContainer)
    else
      match findStackIn s p r (s.things q).itemlist 0 [] with
      | .inl (n, x) => some ⟨.container q, n, some x, flags⟩
      | .inr (n, sub) =>
        if n < (s.things q).maxSize.toNat ∧
            Container.queryAdd cfg s q n r (s.item r).count flags = .noError then
          some ⟨.container q, n, none, flags⟩
        else findContainer s p r flags k (containers ++ sub)

/-- `Player::queryDestination` -/
def queryDestination (s : State) (p : CreatureId) (index : ℤ) (r : Ref) (destItem : Option Ref)
    (flags : Flags) : Destination :=
  let this := Cylinder.player p
  if index = 0 ∨ index = indexWhereever then
    match findSlot cfg s p r flags slots [] with
    | .inl d => d
    | .inr containers =>
      (findContainer cfg s p r flags (s.next + 1) containers).getD ⟨this, index, none, flags⟩
  else
    match s.getInventoryItem p index with
    | some destThing => enter s this index (some destThing) flags
    | none => ⟨this, index, destItem, flags⟩

end Player

namespace Tile

/-- `Map::getTile` -/
def getTile (s : State) (x y : UInt16) (z : UInt8) : Option Position :=
  if 16 ≤ z then none else (s.tiles ⟨x, y, z⟩).map fun _ => ⟨x, y, z⟩

/-- The bits of `TILESTATE_FLOORCHANGE`: down, north, south, east, west, and the
two for stairs of two tiles to the south and to the east. -/
def floorChange (s : State) (t : Position) (bit : ℕ) : Bool := (s.mapTile t).floorChange.getLsbD bit

/-- The tile below that things fall on. -/
def fallTo (s : State) (t : Position) : Option Position :=
  let dz := t.z + 1
  if (getTile s t.x (t.y - 1) dz).any fun southDownTile => floorChange s southDownTile 5 then
    getTile s t.x (t.y - 2) dz
  else if (getTile s (t.x - 1) t.y dz).any fun eastDownTile => floorChange s eastDownTile 6 then
    getTile s (t.x - 2) t.y dz
  else
    (getTile s t.x t.y dz).bind fun downTile =>
      let change (bit : ℕ) (n : UInt16) : UInt16 := if floorChange s downTile bit then n else 0
      getTile s (t.x - change 3 1 - change 6 2 + change 4 1)
        (t.y + change 1 1 - change 2 1 - change 5 2) dz

/-- The tile above that the stairs of the tile lead to. -/
def climbTo (s : State) (t : Position) : Option Position :=
  let change (bit : ℕ) (n : UInt16) : UInt16 := if floorChange s t bit then n else 0
  getTile s (t.x + change 3 1 - change 4 1 + change 6 2)
    (t.y - change 1 1 + change 2 1 + change 5 2) (t.z - 1)

/-- `Tile::queryDestination` and `HouseTile::queryDestination`, for an item -/
def queryDestination (s : State) (t : Position) (index : ℤ) (flags : Flags) : Destination :=
  let destTile :=
    if floorChange s t 0 then fallTo s t
    else if (s.mapTile t).floorChange ≠ 0 then climbTo s t
    else none
  match destTile with
  | some t' => ⟨.tile t', index, s.getTopDownItem t', { flags with noLimit := true }⟩
  | none => ⟨.tile t, index, s.getTopDownItem t, flags⟩

end Tile

def queryDestination (s : State) (index : ℤ) (r : Ref) (destItem : Option Ref) (flags : Flags) :
    Cylinder → Destination
  | .container q => Container.queryDestination cfg s q index r destItem flags
  | .player p => Player.queryDestination cfg s p index r destItem flags
  | .tile t => Tile.queryDestination s t index flags
  | .device d => ⟨.device d, index, destItem, flags⟩

/-! ### What an answer says -/

section Answers

variable {cfg} {s : State} {q r x : Ref} {p : CreatureId} {t : Position} {index : ℤ} {count : ℕ}
  {flags : Flags} {actor : Option CreatureId} {c : Cylinder}

/-- A container asks for no exchange. -/
theorem Container.queryAdd_ne_needExchange :
    Container.queryAdd cfg s q index r count flags ≠ .needExchange := by
  unfold Container.queryAdd
  split_ifs
  any_goals decide
  split
  · unfold Player.queryAdd
    rw [if_pos rfl]
    split_ifs <;> decide
  · split_ifs <;> decide
  · decide

theorem Device.queryAdd_ne_needExchange : Device.queryAdd s q r ≠ .needExchange := by
  unfold Device.queryAdd
  split
  · decide
  · split_ifs <;> decide
  · decide

/-- An answer that the rule of a slot gives. -/
def ReturnValue.IsSlotAnswer : ReturnValue → Bool
  | .needExchange | .notEnoughRoom => false
  | _ => true

theorem Player.dressError_isSlotAnswer : (Player.dressError cfg s r).IsSlotAnswer = true := by
  unfold Player.dressError
  split_ifs <;> decide

theorem Player.queryClassicHand_isSlotAnswer {other : Option Ref} :
    (Player.queryClassicHand cfg s r count other).IsSlotAnswer = true := by
  unfold Player.queryClassicHand
  cases other with
  | none =>
    dsimp only
    split_ifs <;> decide
  | some x =>
    dsimp only
    split_ifs <;> decide

theorem Player.queryRight_isSlotAnswer {left : Option Ref} :
    (Player.queryRight cfg s r left).IsSlotAnswer = true := by
  unfold Player.queryRight
  cases left with
  | none =>
    dsimp only
    split_ifs <;> decide
  | some x =>
    dsimp only
    split_ifs <;> decide

theorem Player.queryLeft_isSlotAnswer {right : Option Ref} :
    (Player.queryLeft cfg s r right).IsSlotAnswer = true := by
  unfold Player.queryLeft
  split_ifs <;> decide

variable (cfg s r p index count) in
/-- The rule of a slot asks for no exchange, and finds room except where no slot
is meant. -/
theorem Player.querySlot_cases :
    (Player.querySlot cfg s p index r count).IsSlotAnswer = true ∨
      (index = 0 ∨ index = -1) ∧ Player.querySlot cfg s p index r count = .notEnoughRoom := by
  have hite {P : Prop} [Decidable P] {a b : ReturnValue} {Q : Prop} (ha : a.IsSlotAnswer = true)
      (hb : b.IsSlotAnswer = true ∨ Q ∧ b = .notEnoughRoom) :
      (if P then a else b).IsSlotAnswer = true ∨ Q ∧ (if P then a else b) = .notEnoughRoom := by
    split
    · exact .inl ha
    · exact hb
  have hfits {b : Bool} {a : ReturnValue} (ha : a.IsSlotAnswer = true) :
      (if b then a else Player.dressError cfg s r).IsSlotAnswer = true := by
    split
    · exact ha
    · exact Player.dressError_isSlotAnswer
  have hhand {a b : ReturnValue} (ha : a.IsSlotAnswer = true) (hb : b.IsSlotAnswer = true) :
      (if cfg.classicEquipmentSlots then a else b).IsSlotAnswer = true := by
    split
    · exact ha
    · exact hb
  have hok : ReturnValue.IsSlotAnswer .noError = true := rfl
  unfold Player.querySlot
  refine hite (hfits hok) (hite (hfits hok) (hite (hfits hok) (hite (hfits hok) ?_)))
  refine hite (hfits (hhand Player.queryClassicHand_isSlotAnswer Player.queryRight_isSlotAnswer))
    (hite (hfits (hhand Player.queryClassicHand_isSlotAnswer Player.queryLeft_isSlotAnswer)) ?_)
  refine hite (hfits hok) (hite (hfits hok) (hite (hfits hok) (hite (hfits hok) ?_)))
  by_cases hnone : index = 0 ∨ index = -1
  · rw [if_pos hnone]
    exact .inr ⟨hnone, rfl⟩
  · rw [if_neg hnone]
    exact .inl rfl

theorem Player.querySlot_ne_needExchange :
    Player.querySlot cfg s p index r count ≠ .needExchange := by
  intro he
  rcases Player.querySlot_cases cfg s r p index count with h | ⟨-, h⟩ <;> exact nomatch (he ▸ h)

/-- A slot that is given is not occupied. -/
theorem Player.occupied_of_noError (hf : flags.childIsOwner = false)
    (h : Player.queryAdd cfg s p index r count flags = .noError) :
    Player.occupied cfg s p index r = false := by
  unfold Player.queryAdd at h
  simp only [hf, Bool.false_eq_true, if_false] at h
  split_ifs at h with h1 h2 h3 h4
  · simpa using h3
  · exact absurd (.inl h) h2

/-- When a player asks for an exchange. -/
theorem Player.queryAdd_eq_needExchange
    (h : Player.queryAdd cfg s p index r count flags = .needExchange) :
    flags.childIsOwner = false ∧ (s.type cfg r).pickupable = true ∧
      (Player.querySlot cfg s p index r count = .noError ∨
        Player.querySlot cfg s p index r count = .notEnoughRoom) ∧
      Player.occupied cfg s p index r = true := by
  unfold Player.queryAdd at h
  dsimp only at h
  split_ifs at h with h1 h2 h3 h4 h5
  · exact ⟨by simpa using h1, by simpa using h3, h4, h5⟩
  all_goals exact absurd h Player.querySlot_ne_needExchange

/-- The item in the slot, when it is in the way. -/
theorem Player.occupied_iff :
    Player.occupied cfg s p index r = true ↔
      ∃ x, s.getInventoryItem p index = some x ∧
        ¬ ((s.type cfg x).stackable = true ∧ (s.type cfg x).isRune = false ∧
          (s.item x).id = (s.item r).id) := by
  unfold Player.occupied
  cases s.getInventoryItem p index with
  | none => simp
  | some x =>
    simp only [Option.some.injEq, exists_eq_left', Bool.or_eq_true, Bool.not_eq_true', decide_eq_true_eq]
    grind

theorem Player.querySlot_eq_noError
    (h : Player.querySlot cfg s p index r count = .noError) : 1 ≤ index ∧ index ≤ 10 := by
  by_contra hidx
  unfold Player.querySlot at h
  dsimp only at h
  rw [if_neg (by omega), if_neg (by omega), if_neg (by omega), if_neg (by omega),
    if_neg (by omega), if_neg (by omega), if_neg (by omega), if_neg (by omega),
    if_neg (by omega), if_neg (by omega)] at h
  split at h <;> exact absurd h (by decide)

theorem queryRemove_eq_noError : queryRemove cfg s r count flags c = .noError ↔
    s.getThingIndex cfg.items r c ≠ -1 ∧
      (count ≠ 0 ∧ ((s.type cfg r).stackable = true → count ≤ (s.item r).count)) ∧
      ((s.type cfg r).moveable = true ∨ flags.ignoreNotMoveable = true) := by
  unfold queryRemove
  split_ifs <;> grind

/-! ### Where a destination leads -/

theorem State.asCylinder_cases (h : s.asCylinder r = some c) :
    c = .container r ∧ s.isContainer r = true ∨ c = .device r := by
  unfold State.asCylinder at h
  split_ifs at h with h1 h2
  · exact .inl ⟨(Option.some.inj h).symm, h1⟩
  · exact .inr (Option.some.inj h).symm

/-- An index leads to the cylinder itself or into the item there. -/
theorem enter_cases (s : State) (this : Cylinder) (index : ℤ) (destItem : Option Ref) (flags : Flags) :
    (enter s this index destItem flags = ⟨this, index, destItem, flags⟩ ∧
      ∀ x, destItem = some x → s.asCylinder x = none) ∨
    ∃ x c, destItem = some x ∧ s.asCylinder x = some c ∧
      enter s this index destItem flags = ⟨c, indexWhereever, none, flags⟩ := by
  unfold enter
  cases destItem with
  | none => exact .inl ⟨rfl, fun _ hx => nomatch hx⟩
  | some x =>
    cases hx : s.asCylinder x with
    | none =>
      refine .inl ⟨?_, ?_⟩
      · dsimp only
        rw [hx]
      · rintro y ⟨⟩
        exact hx
    | some c =>
      refine .inr ⟨x, c, rfl, hx, ?_⟩
      dsimp only
      rw [hx]

/-- A cylinder that is an item. -/
def Cylinder.IsItem : Cylinder → Prop
  | .container _ | .device _ => True
  | _ => False

theorem State.asCylinder_isItem (h : s.asCylinder r = some c) : c.IsItem := by
  rcases State.asCylinder_cases h with ⟨rfl, -⟩ | rfl <;> trivial

theorem enter_isItem {this : Cylinder} {destItem : Option Ref} (h : this.IsItem) :
    (enter s this index destItem flags).cylinder.IsItem := by
  rcases enter_cases s this index destItem flags with ⟨he, -⟩ | ⟨x, c, -, hc, he⟩
  · rw [he]
    exact h
  · rw [he]
    exact State.asCylinder_isItem hc

variable (cfg s q r index flags) in
/-- A container leads to containers. -/
theorem Container.queryDestination_isItem (destItem : Option Ref) :
    (Container.queryDestination cfg s q index r destItem flags).cylinder.IsItem := by
  unfold Container.queryDestination
  dsimp only
  have hthis : (Cylinder.container q).IsItem := trivial
  split
  · exact hthis
  split
  · split <;> exact trivial
  split
  · exact hthis
  · split_ifs
    all_goals first
      | exact enter_isItem hthis
      | exact hthis

/-- What the loop over the slots finds: a stack that the slot takes the item
on, or a slot that is empty. -/
theorem Player.findSlot_inl {d : Destination} : ∀ {l : List ℕ} {containers : List Ref},
    Player.findSlot cfg s p r flags l containers = .inl d →
    d.cylinder = .player p ∧ d.flags = flags ∧
      ∀ x, d.destItem = some x → Player.occupied cfg s p d.index r = false
  | [], _, h => nomatch h
  | slotIndex :: l, containers, h => by
    unfold Player.findSlot at h
    split at h
    · split at h
      · exact Player.findSlot_inl h
      split at h
      · next hstack =>
        obtain rfl := Sum.inl.inj h
        simp only [Bool.and_eq_true, decide_eq_true_eq] at hstack
        exact ⟨rfl, rfl, fun _ _ => Player.occupied_of_noError rfl hstack.1.1.2⟩
      · exact Player.findSlot_inl h
    · split at h
      · obtain rfl := Sum.inl.inj h
        exact ⟨rfl, rfl, fun _ hx => nomatch hx⟩
      · exact Player.findSlot_inl h

theorem Player.findContainer_cylinder {d : Destination} : ∀ {n : ℕ} {containers : List Ref},
    Player.findContainer cfg s p r flags n containers = some d → ∃ q, d.cylinder = .container q
  | 0, _, h => nomatch h
  | _ + 1, [], h => nomatch h
  | n + 1, q :: containers, h => by
    unfold Player.findContainer at h
    dsimp only at h
    split at h
    · split at h
      · obtain rfl := Option.some.inj h
        exact ⟨q, rfl⟩
      · exact Player.findContainer_cylinder h
    · split at h
      · obtain rfl := Option.some.inj h
        exact ⟨q, rfl⟩
      · split at h
        · obtain rfl := Option.some.inj h
          exact ⟨q, rfl⟩
        · exact Player.findContainer_cylinder h

variable (cfg s r p index flags) in
/-- A player leads to a slot or to a container. Where the slot is occupied and
the item in it is given, it is the item at the index, and no cylinder. -/
theorem Player.queryDestination_cases (destItem : Option Ref) :
    let d := Player.queryDestination cfg s p index r destItem flags
    d.cylinder.IsItem ∨
      d.cylinder = .player p ∧ d.flags = flags ∧
        ∀ x, d.destItem = some x → Player.occupied cfg s p d.index r = true →
          s.getInventoryItem p d.index = some x ∧ s.asCylinder x = none := by
  unfold Player.queryDestination
  dsimp only
  split
  · cases hslot : Player.findSlot cfg s p r flags slots [] with
    | inl d =>
      obtain ⟨hcyl, hflags, hfree⟩ := Player.findSlot_inl hslot
      exact .inr ⟨hcyl, hflags, fun x hx hocc => Bool.false_ne_true ((hfree x hx).symm.trans hocc) |>.elim⟩
    | inr containers =>
      dsimp only
      cases hd : Player.findContainer cfg s p r flags (s.next + 1) containers with
      | none => exact .inr ⟨rfl, rfl, fun _ hx => nomatch hx⟩
      | some d =>
        obtain ⟨q, hq⟩ := Player.findContainer_cylinder hd
        rw [Option.getD_some, hq]
        exact .inl trivial
  · split
    · next x hx =>
      rcases enter_cases s (.player p) index (some x) flags with ⟨he, hcyl⟩ | ⟨y, c, -, hc, he⟩
      · rw [he]
        refine .inr ⟨rfl, rfl, ?_⟩
        rintro y ⟨⟩ _
        exact ⟨hx, hcyl x rfl⟩
      · rw [he]
        exact .inl (State.asCylinder_isItem hc)
    · next hnone =>
      refine .inr ⟨rfl, rfl, fun x _ hocc => ?_⟩
      obtain ⟨y, hy, -⟩ := Player.occupied_iff.1 hocc
      exact nomatch hnone.symm.trans hy

end Answers

end Inventory
end ForgottenServer
