/-
# Removing and transforming an item

`Game::internalRemoveItem` takes an item, or a part of its count, out of where
it is. `Game::transformItem` changes an item into another type: taken out and
put back where the new type lies in another order on a tile, changed in place
where the two types are of one kind, and replaced by a new item otherwise.

Whether an item lets itself be removed is a parameter (`canRemove`): all but
depots and the beds of houses do.

Key definitions: `internalRemoveItem`, `transformItem`.
-/
import ForgottenServer.MoveItem
import ForgottenServer.ContainerChanges

namespace ForgottenServer
namespace Inventory

open State

section Code

variable (cfg : Config) (canRemove : Ref → Bool)

/-- `Game::internalRemoveItem`; the count is -1 for all of it. -/
def internalRemoveItem (s : State) (item : Ref) (count : ℤ) : ReturnValue × State :=
  match s.parent item with
  | none => (.notPossible, s)
  | some cylinder =>
    let count := if count = -1 then (s.item item).count else uint 4 count
    let ret := queryRemove cfg s item count { ignoreNotMoveable := true } cylinder
    if ret ≠ .noError then (ret, s)
    else if !canRemove item then (.notPossible, s)
    else (.noError, postRemoveNotification cfg.items (removeThing cfg s item count cylinder) cylinder)

/-- The capacity that the constructors of `Container` and `DepotLocker` give. -/
def maxSizeOf (it : Item) : UInt16 :=
  match it.cls with
  | .depotLocker => 30
  | .container => .ofNat (cfg.items it.id).maxItems
  | _ => 0

/-- `replaceThing` of the cylinders; those that hold nothing do nothing. -/
def replaceIn (s : State) (index : ℤ) (r : Ref) : Cylinder → State
  | .container q => replaceThing cfg s q index.toNat r
  | .player p =>
    match s.getInventoryItem p index with
    | some _ => (s.setParent r (some (.player p))).setSlot p index.toNat (some r)
    | none => s
  | .tile t => s.putTile t ((s.tileState t).replaceThing cfg.items index.toNat (.item r))
  | .device _ => s

/-- The item is replaced by a new one, if there is such. -/
def replaceItem (s : State) (item : Ref) (cylinder : Cylinder) (itemIndex : ℤ) (newItem : Option Item) :
    Option Ref × State :=
  match newItem with
  | none => (none, s)
  | some it =>
    let newItem := s.next
    let s := s.create it (maxSizeOf cfg it)
    let s := replaceIn cfg s itemIndex newItem cylinder
    let s := postAddNotification cfg s newItem cylinder
    let s := s.setParent item none
    (some newItem, postRemoveNotification cfg.items s cylinder)

/-- The old is removed and the new added. -/
def readdItem (s : State) (item : Ref) (cylinder : Cylinder) (newId : UInt16) (newCount : ℤ) :
    Option (Option Ref × State) :=
  let s := removeThing cfg s item (s.item item).count cylinder
  let s := postRemoveNotification cfg.items s cylinder
  let it := (s.item item).setID cfg.items newId
  let s := s.setItem item (if newCount ≠ -1 then it.setSubType cfg.items (uint 2 newCount) else it)
  (addThingFront cfg s item cylinder).map fun s =>
    match s.parent item with
    | none => (none, s)
    | some newParent => (some item, postAddNotification cfg s item newParent)

/-- Id and subtype are changed in place. -/
def updateItem (s : State) (item : Ref) (cylinder : Cylinder) (newId : UInt16) (newCount : ℤ) :
    Option Ref × State :=
  let curType := s.type cfg item
  let newType := cfg.items newId
  let s := postRemoveNotification cfg.items s cylinder
  let count := (s.item item).getSubType cfg.items
  let s :=
    if curType.id ≠ newType.id ∧ newType.group ≠ curType.group then
      s.setItem item ((s.item item).setDefaultSubtype cfg.items)
    else s
  let itemId := if curType.id ≠ newType.id then newId else (s.item item).id
  let count := if newCount ≠ -1 ∧ newType.hasSubType then newCount else count
  let s := updateThing cfg s item itemId (uint 4 count) cylinder
  (some item, postAddNotification cfg s item cylinder)

/-- `Game::transformItem`, of an item that lets itself be transformed. A count of
0 takes a stack away and turns what has charges into what it decays to. -/
def transformItem (s : State) (item : Ref) (newId : UInt16) (newCount : ℤ) : Option (Option Ref × State) :=
  if (s.item item).id = newId ∧
      (newCount = -1 ∨ newCount = (s.item item).getSubType cfg.items ∧ newCount ≠ 0) then
    some (some item, s)
  else
    match s.parent item with
    | none => some (none, s)
    | some cylinder =>
      let itemIndex := s.getThingIndex cfg.items item cylinder
      if itemIndex = -1 then some (some item, s)
      else
        let newType := cfg.items newId
        let curType := s.type cfg item
        if newType.id = 0 then some (some item, s)
        else if curType.alwaysOnTop ≠ newType.alwaysOnTop then readdItem cfg s item cylinder newId newCount
        else if curType.type = newType.type then
          if h : newCount = 0 ∧ (curType.stackable || (s.item item).hasAttribute .charges) then
            if curType.stackable then some (none, (internalRemoveItem cfg canRemove s item (-1)).2)
            else
              let newItemId : ℤ := if curType.id = newType.id then curType.decayTo else newId.toNat
              if newItemId < 0 then some (none, (internalRemoveItem cfg canRemove s item (-1)).2)
              else if newItemId ≠ newId.toNat then
                some (replaceItem cfg s item cylinder itemIndex (Item.createItem cfg.items (.ofInt newItemId) 1))
              else transformItem s item (.ofInt newItemId) (-1)
          else some (updateItem cfg s item cylinder newId newCount)
        else
          let newItem :=
            if newCount = -1 then Item.createItem cfg.items newId 0
            else Item.createItem cfg.items newId (uint 2 newCount)
          some (replaceItem cfg s item cylinder itemIndex newItem)
termination_by if newCount = 0 then 1 else 0
decreasing_by
  rw [if_pos h.1, if_neg (by decide)]
  exact Nat.one_pos

end Code

end Inventory
end ForgottenServer
