/-
# The item vector of a tile

`Tile::addThing`, `internalAddThing`, `removeThing`, `updateThing` and
`replaceThing` with the items they touch: the ids and counts, who their parent
is, and the flags the tile derives from them. A splash takes the place of the
splash on the tile and a magic field that of the fields that can be replaced.
The vector of `TileStack` is split by a counter of its own; here the vector is
followed as a list of down items and one of top items (`Shape`), whatever the
types of the items in them.

A call of `addThing` that does not return is `none`: taking a field from a
stack of none goes on for ever. The scripts that moves on the map trigger and
the messages to spectators are left out.

Key definitions: `State`, `addThing`, `internalAddThing`, `removeThing`,
`updateThing`, `replaceThing`, `Shape`, `step`.
Key theorems: `Shape.index_eq_iff`, `removeThing_cases`, `removeFields_induct`, `replaced_cases`.
-/
import ForgottenServer.Lib.Run
import ForgottenServer.Tile
import ForgottenServer.TileStack

namespace ForgottenServer

/-- `ITEMPROPERTY`, those with a flag of their own. -/
inductive ItemProperty
  | blockSolid | immovableBlockSolid | blockPath | immovableBlockPath | noFieldBlockPath
  | immovableNoFieldBlockPath | supportHangable
  deriving DecidableEq

/-- `Item::hasProperty` -/
def Item.hasProperty (items : UInt16 → ItemType) (item : Item) (prop : ItemProperty) : Bool :=
  let it := items item.id
  let immovable := !it.moveable || item.hasAttribute .uniqueId
  match prop with
  | .blockSolid => it.blockSolid
  | .immovableBlockSolid => it.blockSolid && immovable
  | .blockPath => it.blockPathFind
  | .immovableBlockPath => it.blockPathFind && immovable
  | .noFieldBlockPath => !it.isMagicField && it.blockPathFind
  | .immovableNoFieldBlockPath => !it.isMagicField && it.blockPathFind && immovable
  | .supportHangable => it.isHorizontal || it.isVertical

namespace TileItems

open TileStack (TileItemVector Thing)

/-! ### Tiles -/

/-- The flags of `tileflags_t` that come from items, without the floor change. -/
inductive TileFlag
  | teleport | magicField | mailbox | trashHolder | bed | depot | blockSolid | blockPath
  | immovableBlockSolid | immovableBlockPath | immovableNoFieldBlockPath | noFieldBlockPath
  | supportsHangable
  deriving DecidableEq

/-- A tile, the items on it and elsewhere, and which of them have it as parent. -/
structure State (ι κ : Type*) where
  tile : TileStack.Tile ι κ := {}
  item : ι → Item
  parentIsTile : ι → Bool := fun _ => false
  floorChange : BitVec 7 := 0
  flag : TileFlag → Bool := fun _ => false

variable {ι κ : Type*}

namespace State

section Functions

variable [DecidableEq ι] [DecidableEq κ] (items : UInt16 → ItemType) (s : State ι κ)

/-- `Item::items[item->getID()]` -/
def type (i : ι) : ItemType := items (s.item i).id

def isAlwaysOnTop (i : ι) : Bool := (s.type items i).alwaysOnTop

def setParent (i : ι) (here : Bool) : State ι κ :=
  { s with parentIsTile := Function.update s.parentIsTile i here }

def setItem (i : ι) (item : Item) : State ι κ := { s with item := Function.update s.item i item }

def setItemList (v : TileItemVector ι) : State ι κ :=
  { s with tile := { s.tile with items := some v } }

/-- `makeItemList` -/
def makeItemList : TileItemVector ι := s.tile.items.getD {}

/-- `addDownItemCount` with the vector it counts, in 16 bits. -/
def withDownItems (v : TileItemVector ι) (l : List ι) (increment : ℤ) : TileItemVector ι :=
  ⟨l, (((v.downItemCount : ℤ) + increment) % 2 ^ 16).toNat⟩

/-! ### Flags -/

/-- `Tile::hasProperty` for everything but an item. -/
def hasProperty (exclude : ι) (prop : ItemProperty) : Bool :=
  (s.tile.ground.any fun g => exclude ≠ g && (s.item g).hasProperty items prop) ||
    s.tile.items.any fun v => v.items.any fun i => i ≠ exclude && (s.item i).hasProperty items prop

/-- The items for which `setTileFlags` sets a flag. -/
def setsFlag (item : Item) : TileFlag → Bool
  | .immovableBlockSolid => item.hasProperty items .immovableBlockSolid
  | .blockPath => item.hasProperty items .blockPath
  | .noFieldBlockPath => item.hasProperty items .noFieldBlockPath
  | .immovableNoFieldBlockPath => item.hasProperty items .immovableNoFieldBlockPath
  | .teleport => item.cls = .teleport
  | .magicField => item.cls = .magicField
  | .mailbox => item.cls = .mailbox
  | .trashHolder => item.cls = .trashHolder
  | .blockSolid => item.hasProperty items .blockSolid
  | .bed => item.cls = .bed
  | .depot => item.cls = .depotLocker
  | .supportsHangable => item.hasProperty items .supportHangable
  -- no statement sets this one
  | .immovableBlockPath => false

def setTileFlags (i : ι) : State ι κ :=
  let it := s.type items i
  { s with
    floorChange := if s.floorChange = 0 ∧ it.floorChange ≠ 0 then it.floorChange else s.floorChange
    flag := fun f => s.flag f || setsFlag items (s.item i) f }

/-- The items for which `resetTileFlags` resets a flag; `others` says what the
rest of the tile has. -/
def resetsFlag (others : ItemProperty → Bool) (item : Item) : TileFlag → Bool
  | .blockSolid => item.hasProperty items .blockSolid && !others .blockSolid
  | .immovableBlockSolid => item.hasProperty items .immovableBlockSolid && !others .immovableBlockSolid
  | .blockPath => item.hasProperty items .blockPath && !others .blockPath
  | .noFieldBlockPath => item.hasProperty items .noFieldBlockPath && !others .noFieldBlockPath
  | .immovableBlockPath => item.hasProperty items .immovableBlockPath && !others .immovableBlockPath
  | .immovableNoFieldBlockPath =>
    item.hasProperty items .immovableNoFieldBlockPath && !others .immovableNoFieldBlockPath
  | .teleport => item.cls = .teleport
  | .magicField => item.cls = .magicField
  | .mailbox => item.cls = .mailbox
  | .trashHolder => item.cls = .trashHolder
  | .bed => item.cls = .bed
  | .depot => item.cls = .depotLocker
  | .supportsHangable => item.hasProperty items .supportHangable

def resetTileFlags (i : ι) : State ι κ :=
  let it := s.type items i
  { s with
    floorChange := if it.floorChange ≠ 0 then 0 else s.floorChange
    flag := fun f => s.flag f && !resetsFlag items (s.hasProperty items i) (s.item i) f }

/-! ### Removing -/

def getThingIndex (thing : Thing ι κ) : ℤ := s.tile.getThingIndex (s.isAlwaysOnTop items) thing

/-- `Tile::removeThing` -/
def removeThing (thing : Thing ι κ) (count : UInt32) : State ι κ :=
  match thing with
  | .creature c =>
    { s with tile := { s.tile with creatures := s.tile.creatures.map fun l => l.erase c } }
  | .item i =>
    if s.getThingIndex items (.item i) = -1 then s
    else if s.tile.ground = some i then
      resetTileFlags items { s.setParent i false with tile := { s.tile with ground := none } } i
    else
      match s.tile.items with
      | none => s
      | some v =>
        let itemType := s.type items i
        if itemType.alwaysOnTop then
          if i ∉ v.topItems then s
          else
            let v := { v with items := v.downItems ++ v.topItems.erase i }
            ((s.setParent i false).setItemList v).resetTileFlags items i
        else if i ∉ v.downItems then s
        else
          let itemCount := (s.item i).count
          if itemType.stackable ∧ count.toNat ≠ itemCount then
            let newCount := uint 1 (max 0 (int32 ((itemCount : ℤ) - count.toNat)))
            s.setItem i ((s.item i).setItemCount newCount)
          else
            let v := withDownItems v (v.downItems.erase i ++ v.topItems) (-1)
            ((s.setParent i false).setItemList v).resetTileFlags items i

/-! ### Adding -/

/-- A new ground, in the place of the old one. -/
def addGround (i : ι) : State ι κ :=
  let new := { s with tile := { s.tile with ground := some i } }
  match s.tile.ground with
  | none => new.setTileFlags items i
  | some oldGround => ((new.setParent oldGround false).resetTileFlags items oldGround).setTileFlags items i

/-- The loop that removes the old splash. -/
def removeSplash : State ι κ :=
  match s.tile.topItems.find? fun j => (s.type items j).isSplash with
  | none => s
  | some oldSplash => (s.removeThing items (.item oldSplash) 1).setParent oldSplash false

/-- A top item, in front of those for which `before` holds. -/
def insertTop (before : ItemType → Bool) (i : ι) : State ι κ :=
  let v := s.makeItemList
  s.setItemList { v with items := v.downItems ++ insertBefore (fun j => before (s.type items j)) i v.topItems }

/-- A down item, in front of the others. -/
def insertDown (i : ι) : State ι κ :=
  let v := s.makeItemList
  s.setItemList (withDownItems v (i :: v.items) 1)

def isReplaceable (i : ι) : Bool := (s.type items i).replaceable

/-- The loop that removes old fields, and whether it got to its end. It starts
again after a removal, so that it looks for the first field each time. -/
def removeFields : ℕ → State ι κ → Option (State ι κ × Bool)
  | 0, _ => none
  | fuel + 1, s =>
    match s.tile.downItems.find? fun j => (s.item j).cls = .magicField with
    | none => some (s, true)
    | some oldField =>
      if s.isReplaceable items oldField then
        removeFields fuel ((s.removeThing items (.item oldField) 1).setParent oldField false)
      else some (s, false)

/-- `Tile::addThing`. Each round of the loop over the fields takes an item away
or one from its count, a byte, so that 256 rounds for each item are enough if
any number is. -/
def addThing (thing : Thing ι κ) : Option (State ι κ) :=
  match thing with
  | .creature c =>
    some { s with tile := { s.tile with creatures := some (s.tile.creatures.getD [] ++ [c]) } }
  | .item i =>
    if s.tile.items.any fun v => 0xFFFF ≤ v.items.length then some s
    else
      let s := s.setParent i true
      let itemType := s.type items i
      if itemType.isGroundTile then some (s.addGround items i)
      else if itemType.alwaysOnTop then
        let s := if itemType.isSplash then s.removeSplash items else s
        let s := s.insertTop items (fun it => itemType.alwaysOnTopOrder ≤ it.alwaysOnTopOrder) i
        some (s.setTileFlags items i)
      else if itemType.isMagicField then
        (removeFields items (256 * s.tile.downItems.length + 1) s).map fun (s, replaced) =>
          if replaced then (s.insertDown i).setTileFlags items i else s.setParent i false
      else some ((s.insertDown i).setTileFlags items i)

/-- `Tile::internalAddThing` -/
def internalAddThing (thing : Thing ι κ) : State ι κ :=
  match thing with
  | .creature c => { s with tile := { s.tile with creatures := some (s.tile.creatures.getD [] ++ [c]) } }
  | .item i =>
    let s := s.setParent i true
    let itemType := s.type items i
    if itemType.isGroundTile then
      if s.tile.ground = none then
        setTileFlags items { s with tile := { s.tile with ground := some i } } i
      else s
    else
      let s := s.setItemList s.makeItemList
      if 0xFFFF ≤ s.makeItemList.items.length then s
      else if itemType.alwaysOnTop then
        (s.insertTop items (fun it => itemType.alwaysOnTopOrder < it.alwaysOnTopOrder) i).setTileFlags items i
      else (s.insertDown i).setTileFlags items i

/-! ### Changing in place -/

/-- `Tile::updateThing` -/
def updateThing (thing : Thing ι κ) (itemId : UInt16) (count : UInt32) : State ι κ :=
  match thing with
  | .creature _ => s
  | .item i =>
    if s.getThingIndex items (.item i) = -1 then s
    else
      let s := s.resetTileFlags items i
      let s := s.setItem i (((s.item i).setID items itemId).setSubType items (count.toNat % 2 ^ 16))
      s.setTileFlags items i

/-- `oldItem` of `Tile::replaceThing`: the item that the walk stops at. -/
def oldItem (tile : TileStack.Tile ι κ) (index : ℕ) : Option ι :=
  match tile.ground, index with
  | some ground, 0 => some ground
  | some _, index + 1 => rest index
  | none, index => rest index
where
  rest (pos : ℕ) : Option ι :=
    match tile.items with
    | some items =>
      if pos < items.getTopItemCount then items.items[items.getDownItemCount + pos]?
      else afterTop (pos - items.getTopItemCount)
    | none => afterTop pos
  afterTop (pos : ℕ) : Option ι :=
    match tile.creatures with
    | some creatures =>
      if pos < creatures.length then none else afterCreatures (pos - creatures.length)
    | none => afterCreatures pos
  afterCreatures (pos : ℕ) : Option ι :=
    match tile.items with
    | some items => if pos < items.getDownItemCount then items.items[pos]? else none
    | none => none

/-- `Tile::replaceThing` -/
def replaceThing (index : ℕ) (thing : Thing ι κ) : State ι κ :=
  match thing with
  | .creature _ => s
  | .item i =>
    match oldItem s.tile index with
    | none => s
    | some old =>
      let s := { s with tile := s.tile.replaceThing index (.item i) }
      let s := ((s.setParent i true).resetTileFlags items old).setTileFlags items i
      s.setParent old false

end Functions

section Updates

variable [DecidableEq ι] (s : State ι κ)

@[simp] theorem setItem_item_self (i : ι) (item : Item) : (s.setItem i item).item i = item :=
  Function.update_self ..

@[simp] theorem setItem_item_of_ne {i j : ι} (h : j ≠ i) (item : Item) :
    (s.setItem i item).item j = s.item j :=
  Function.update_of_ne h ..

/-- A new count changes neither ids nor classes. -/
theorem setItemCount_id (i j : ι) (n : ℕ) :
    ((s.setItem i ((s.item i).setItemCount n)).item j).id = (s.item j).id := by
  by_cases hj : j = i
  · subst hj
    rw [setItem_item_self]
    rfl
  · rw [setItem_item_of_ne s hj]

theorem setItemCount_cls (i j : ι) (n : ℕ) :
    ((s.setItem i ((s.item i).setItemCount n)).item j).cls = (s.item j).cls := by
  by_cases hj : j = i
  · subst hj
    rw [setItem_item_self]
    rfl
  · rw [setItem_item_of_ne s hj]

@[simp] theorem setParent_self (i : ι) (here : Bool) : (s.setParent i here).parentIsTile i = here :=
  Function.update_self ..

@[simp] theorem setParent_of_ne {i j : ι} (h : j ≠ i) (here : Bool) :
    (s.setParent i here).parentIsTile j = s.parentIsTile j :=
  Function.update_of_ne h ..

theorem setParent_of_not_mem {i : ι} {l : List ι} (hi : i ∉ l) (here : Bool) :
    ∀ j ∈ l, (s.setParent i here).parentIsTile j = s.parentIsTile j := by
  intro j hj
  apply setParent_of_ne
  rintro rfl
  exact hi hj

end Updates

/-! ### The two parts of the vector -/

section Parts

/-- The vector with these down items and these top items. -/
def ofParts (D T : List ι) : TileItemVector ι := ⟨D ++ T, D.length⟩

@[simp] theorem downItems_ofParts (D T : List ι) : (ofParts D T).downItems = D :=
  List.take_left

@[simp] theorem topItems_ofParts (D T : List ι) : (ofParts D T).topItems = T :=
  List.drop_left

theorem withDownItems_push {D T : List ι} (h : (D ++ T).length < 0xFFFF) (i : ι) :
    withDownItems (ofParts D T) (i :: (ofParts D T).items) 1 = ofParts (i :: D) T := by
  rw [List.length_append] at h
  have hcount : (((D.length : ℤ) + 1) % 2 ^ 16).toNat = D.length + 1 := by omega
  unfold withDownItems ofParts
  exact congrArg _ hcount

theorem withDownItems_erase [DecidableEq ι] {D T : List ι} (h : (D ++ T).length ≤ 0xFFFF) {i : ι}
    (hi : i ∈ D) : withDownItems (ofParts D T) (D.erase i ++ T) (-1) = ofParts (D.erase i) T := by
  rw [List.length_append] at h
  have hpos := List.length_pos_of_mem hi
  have hcount : (((D.length : ℤ) + -1) % 2 ^ 16).toNat = (D.erase i).length := by
    rw [List.length_erase_of_mem hi]
    omega
  unfold withDownItems ofParts
  exact congrArg _ hcount

end Parts

/-- The vector of the tile is the down items `D` and then the top items `T`,
all of them once, and the ground is not among them. -/
structure Shape (tile : TileStack.Tile ι κ) (D T : List ι) : Prop where
  vector : tile.items.getD {} = ofParts D T
  nodup : (D ++ T).Nodup
  ground : ∀ g, tile.ground = some g → g ∉ D ++ T
  creatures : ∀ l, tile.creatures = some l → l.Nodup
  size : (D ++ T).length ≤ 0xFFFF

section Shape

variable {tile : TileStack.Tile ι κ} {D T : List ι}

theorem Shape.items_eq (h : Shape tile D T) : tile.items = some (ofParts D T) ∨
    tile.items = none ∧ D = [] ∧ T = [] := by
  have hv := h.vector
  cases hi : tile.items with
  | some v =>
    rw [hi] at hv
    exact .inl (congrArg some hv)
  | none =>
    rw [hi] at hv
    have hnil : D ++ T = [] := (congrArg TileItemVector.items hv).symm
    exact .inr ⟨rfl, List.append_eq_nil_iff.1 hnil⟩

theorem Shape.downItems_eq (h : Shape tile D T) : tile.downItems = D := by
  unfold TileStack.Tile.downItems
  rcases h.items_eq with hi | ⟨hi, rfl, rfl⟩
  · rw [hi]
    exact downItems_ofParts D T
  · rw [hi]
    rfl

theorem Shape.topItems_eq (h : Shape tile D T) : tile.topItems = T := by
  unfold TileStack.Tile.topItems
  rcases h.items_eq with hi | ⟨hi, rfl, rfl⟩
  · rw [hi]
    exact topItems_ofParts D T
  · rw [hi]
    rfl

theorem Shape.has_iff (h : Shape tile D T) (i : ι) :
    tile.Has (.item i) ↔ tile.ground = some i ∨ i ∈ D ++ T := by
  refine or_congr_right ?_
  rcases h.items_eq with hi | ⟨hi, rfl, rfl⟩
  · constructor
    · intro ⟨v, hv, hm⟩
      rw [hi, Option.some.injEq] at hv
      subst hv
      exact hm
    · exact fun hm => ⟨_, hi, hm⟩
  · constructor
    · intro ⟨v, hv, _⟩
      exact nomatch hi.symm.trans hv
    · exact fun hm => nomatch hm

theorem Shape.not_mem (h : Shape tile D T) {i : ι} (hi : ¬ tile.Has (.item i)) : i ∉ D ++ T :=
  fun hm => hi ((h.has_iff i).2 (.inr hm))

/-- The tile is in order for every classification that agrees with its parts. -/
theorem Shape.ok (h : Shape tile D T) {isAlwaysOnTop : ι → Bool}
    (hdown : ∀ i ∈ D, isAlwaysOnTop i = false) (htop : ∀ i ∈ T, isAlwaysOnTop i = true) :
    tile.Ok isAlwaysOnTop := by
  have hv : ∀ v, tile.items = some v → v = ofParts D T := by
    intro v hv
    rcases h.items_eq with hi | ⟨hi, -, -⟩
    · exact Option.some.inj (hv.symm.trans hi)
    · exact nomatch hv.symm.trans hi
  constructor
  · intro v hvi
    rw [hv v hvi]
    exact List.length_append ▸ Nat.le_add_right _ _
  · intro v hvi
    rw [hv v hvi, downItems_ofParts]
    exact hdown
  · intro v hvi
    rw [hv v hvi, topItems_ofParts]
    exact htop
  · intro v hvi
    rw [hv v hvi]
    exact h.nodup
  · intro v hvi g hg
    rw [hv v hvi]
    exact h.ground g hg
  · exact h.creatures

/-- Some of the items are erased. -/
theorem Shape.sublist (h : Shape tile D T) {D' T' : List ι} (hD : D'.Sublist D) (hT : T'.Sublist T) :
    Shape { tile with items := some (ofParts D' T') } D' T' := by
  have hsub : (D' ++ T').Sublist (D ++ T) := hD.append hT
  exact ⟨rfl, h.nodup.sublist hsub, fun g hg hm => h.ground g hg (hsub.subset hm), h.creatures,
    hsub.length_le.trans h.size⟩

theorem Shape.withGround (h : Shape tile D T) {g : Option ι} (hg : ∀ i, g = some i → i ∉ D ++ T) :
    Shape { tile with ground := g } D T :=
  ⟨h.vector, h.nodup, hg, h.creatures, h.size⟩

theorem Shape.withCreatures (h : Shape tile D T) {l : Option (List κ)}
    (hl : ∀ l', l = some l' → l'.Nodup) : Shape { tile with creatures := l } D T :=
  ⟨h.vector, h.nodup, h.ground, hl, h.size⟩

/-- An item comes onto the tile. -/
theorem Shape.insert (h : Shape tile D T) {i : ι} {D' T' : List ι}
    (hperm : (D' ++ T').Perm (i :: (D ++ T))) (hi : ¬ tile.Has (.item i))
    (hsize : (D ++ T).length < 0xFFFF) : Shape { tile with items := some (ofParts D' T') } D' T' := by
  rw [h.has_iff, not_or] at hi
  refine ⟨rfl, ?_, ?_, h.creatures, ?_⟩
  · exact hperm.nodup_iff.2 (List.nodup_cons.2 ⟨hi.2, h.nodup⟩)
  · intro g hg hm
    rcases List.mem_cons.1 (hperm.mem_iff.1 hm) with rfl | hm
    · exact hi.1 hg
    · exact h.ground g hg hm
  · rw [hperm.length_eq]
    exact hsize

/-- An item takes the place of another. -/
theorem Shape.set (h : Shape tile D T) {i : ι} {m : ℕ} {D' T' : List ι}
    (hset : D' ++ T' = (D ++ T).set m i) (hi : ¬ tile.Has (.item i)) :
    Shape { tile with items := some (ofParts D' T') } D' T' := by
  refine ⟨rfl, ?_, fun g hg hm => ?_, h.creatures, ?_⟩
  · rw [hset]
    exact h.nodup.set (h.not_mem hi)
  · rw [hset] at hm
    rcases List.mem_or_eq_of_mem_set hm with hm | rfl
    · exact h.ground g hg hm
    · exact hi (.inl hg)
  · rw [hset, List.length_set]
    exact h.size

theorem append_set_top (D : List ι) {T : List ι} (k : ℕ) (i : ι) :
    D ++ T.set k i = (D ++ T).set (D.length + k) i := by
  rw [List.set_append_right _ _ (Nat.le_add_right _ _), Nat.add_sub_cancel_left]

theorem append_set_down {D : List ι} (T : List ι) {k : ℕ} (hk : k < D.length) (i : ι) :
    D.set k i ++ T = (D ++ T).set k i :=
  (List.set_append_left _ _ hk).symm

/-- An item erased from the vector is no longer in it. -/
theorem Shape.erase_top [DecidableEq ι] (h : Shape tile D T) {i : ι} (hi : i ∈ T) :
    i ∉ D ++ T.erase i := by
  obtain ⟨-, hT, hdisj⟩ := List.nodup_append'.1 h.nodup
  rw [List.mem_append, not_or]
  exact ⟨fun hD => hdisj hD hi, hT.not_mem_erase⟩

theorem Shape.erase_down [DecidableEq ι] (h : Shape tile D T) {i : ι} (hi : i ∈ D) :
    i ∉ D.erase i ++ T := by
  obtain ⟨hD, -, hdisj⟩ := List.nodup_append'.1 h.nodup
  rw [List.mem_append, not_or]
  exact ⟨hD.not_mem_erase, fun hT => hdisj hi hT⟩

end Shape

/-! ### What the operations do -/

section Operations

variable [DecidableEq ι] [DecidableEq κ] {items : UInt16 → ItemType} {s : State ι κ} {D T : List ι}

/-- Where `getThingIndex` finds an item: as the ground, or in the part of the
vector that its type says. -/
def Found (items : UInt16 → ItemType) (s : State ι κ) (D T : List ι) (i : ι) : Prop :=
  s.tile.ground = some i ∨ if s.isAlwaysOnTop items i then i ∈ T else i ∈ D

omit [DecidableEq κ] in
/-- A search that stops nowhere. -/
theorem index_of_ok [DecidableEq κ] {tile : TileStack.Tile ι κ} {f : ι → Bool} {i : ι}
    (hground : tile.ground ≠ some i)
    (htop : ∀ n, ∃ m, TileStack.Tile.getThingIndex.atTop tile f (.item i) n = .ok m)
    (hdown : ∀ n, ∃ m, TileStack.Tile.getThingIndex.atDown tile f (.item i) n = .ok m) :
    tile.getThingIndex f (.item i) = -1 := by
  have hg : ∃ n, TileStack.Tile.getThingIndex.atGround tile (.item i) = .ok n := by
    unfold TileStack.Tile.getThingIndex.atGround
    cases he : tile.ground with
    | none => exact ⟨_, rfl⟩
    | some g =>
      have hne : ¬ (Thing.item g : Thing ι κ) = .item i := fun e => hground (he.trans (congrArg some (Thing.item.inj e)))
      exact ⟨0, if_neg hne⟩
  have hc : ∀ n, ∃ m, TileStack.Tile.getThingIndex.atCreatures tile (.item i) n = .ok m := by
    intro n
    unfold TileStack.Tile.getThingIndex.atCreatures
    cases tile.creatures with
    | none => exact ⟨n, rfl⟩
    | some l => exact ⟨_, rfl⟩
  obtain ⟨n₁, h₁⟩ := hg
  obtain ⟨n₂, h₂⟩ := htop n₁
  obtain ⟨n₃, h₃⟩ := hc n₂
  obtain ⟨n₄, h₄⟩ := hdown n₃
  have hb : ∀ {a : ℤ} {f : ℤ → Except ℤ ℤ}, (Except.ok a >>= f : Except ℤ ℤ) = f a := rfl
  unfold TileStack.Tile.getThingIndex
  rw [h₁, hb, h₂, hb, h₃, hb, h₄, hb]
  rfl

theorem index_congr {tile : TileStack.Tile ι κ} {f g : ι → Bool} {i : ι} (h : f i = g i) :
    tile.getThingIndex f (.item i) = tile.getThingIndex g (.item i) := by
  have htop : TileStack.Tile.getThingIndex.atTop tile f (.item i) =
      TileStack.Tile.getThingIndex.atTop tile g (.item i) := by
    funext n
    unfold TileStack.Tile.getThingIndex.atTop
    cases tile.items with
    | none => rfl
    | some v =>
      dsimp only
      rw [h]
  have hdown : TileStack.Tile.getThingIndex.atDown tile f (.item i) =
      TileStack.Tile.getThingIndex.atDown tile g (.item i) := by
    funext n
    unfold TileStack.Tile.getThingIndex.atDown
    cases tile.items with
    | none => rfl
    | some v =>
      dsimp only
      rw [h]
  unfold TileStack.Tile.getThingIndex
  rw [htop, hdown]

theorem Shape.index_eq_iff (h : Shape s.tile D T) (i : ι) :
    s.getThingIndex items (.item i) = -1 ↔ ¬ Found items s D T i := by
  obtain ⟨-, -, hdisj⟩ := List.nodup_append'.1 h.nodup
  by_cases hfound : Found items s D T i
  · refine iff_of_false ?_ (not_not_intro hfound)
    unfold State.getThingIndex
    rcases hfound with hg | hpart
    · have h0 : s.tile.getThingIndex (s.isAlwaysOnTop items) (.item i) = 0 := by
        unfold TileStack.Tile.getThingIndex TileStack.Tile.getThingIndex.atGround
        rw [hg]
        simp only [if_true]
        rfl
      rw [h0]
      decide
    · -- the parts of the vector classify the items, and this one as its type does
      have hok : s.tile.Ok fun j => decide (j ∈ T) :=
        h.ok (fun j hj => decide_eq_false fun hT => hdisj hj hT) fun j hj => decide_eq_true hj
      have hsame : s.isAlwaysOnTop items i = decide (i ∈ T) := by
        split at hpart
        · next htop => rw [htop, decide_eq_true hpart]
        · next htop =>
          rw [decide_eq_false fun hT => hdisj hpart hT]
          exact Bool.eq_false_of_not_eq_true htop
      have hmem : i ∈ D ++ T := by
        split at hpart
        · exact List.mem_append_right D hpart
        · exact List.mem_append_left T hpart
      have hhas := (TileStack.Tile.mem_things (.item i)).2 ((h.has_iff i).2 (.inr hmem))
      obtain ⟨k, hk⟩ := List.getElem?_of_mem hhas
      rw [index_congr (g := fun j => decide (j ∈ T)) hsame, TileStack.Tile.getThingIndex_of_getElem hok hk]
      omega
  · refine iff_of_true ?_ hfound
    obtain ⟨hg, hpart⟩ := not_or.1 hfound
    apply index_of_ok hg
    · intro n
      unfold TileStack.Tile.getThingIndex.atTop
      rcases h.items_eq with he | ⟨he, -, -⟩
      · rw [he]
        dsimp only
        split
        · next htop =>
          rw [if_pos htop] at hpart
          exact ⟨_, TileStack.Tile.countTo_of_not_mem n (by rwa [topItems_ofParts])⟩
        · exact ⟨_, rfl⟩
      · rw [he]
        exact ⟨n, rfl⟩
    · intro n
      unfold TileStack.Tile.getThingIndex.atDown
      rcases h.items_eq with he | ⟨he, -, -⟩
      · rw [he]
        dsimp only
        split
        · next htop =>
          have htop' : ¬ s.isAlwaysOnTop items i = true := by simpa using htop
          rw [if_neg htop'] at hpart
          exact ⟨_, TileStack.Tile.countTo_of_not_mem n (by rwa [downItems_ofParts])⟩
        · exact ⟨_, rfl⟩
      · rw [he]
        exact ⟨n, rfl⟩

variable (items) in
/-- What `Tile::removeThing` does with an item: nothing, or the ground goes, or
an item of one of the parts, or some of its count. -/
theorem removeThing_cases (h : Shape s.tile D T) (i : ι) (count : UInt32) :
    (¬ Found items s D T i ∧ s.removeThing items (.item i) count = s) ∨
    (s.tile.ground = some i ∧ s.removeThing items (.item i) count =
      resetTileFlags items { s.setParent i false with tile := { s.tile with ground := none } } i) ∨
    (i ∈ T ∧ s.isAlwaysOnTop items i = true ∧ s.removeThing items (.item i) count =
      ((s.setParent i false).setItemList (ofParts D (T.erase i))).resetTileFlags items i) ∨
    (i ∈ D ∧ s.isAlwaysOnTop items i = false ∧
      ((s.type items i).stackable ∧ count.toNat ≠ (s.item i).count) ∧
      s.removeThing items (.item i) count = s.setItem i ((s.item i).setItemCount
        (uint 1 (max 0 (int32 (((s.item i).count : ℤ) - count.toNat)))))) ∨
    (i ∈ D ∧ s.isAlwaysOnTop items i = false ∧
      ¬ ((s.type items i).stackable ∧ count.toNat ≠ (s.item i).count) ∧
      s.removeThing items (.item i) count =
        ((s.setParent i false).setItemList (ofParts (D.erase i) T)).resetTileFlags items i) := by
  by_cases hfound : Found items s D T i
  case neg =>
    left
    refine ⟨hfound, ?_⟩
    unfold removeThing
    exact if_pos ((h.index_eq_iff i).2 hfound)
  right
  have hindex : ¬ s.getThingIndex items (.item i) = -1 := fun he => (h.index_eq_iff i).1 he hfound
  by_cases hg : s.tile.ground = some i
  · left
    refine ⟨hg, ?_⟩
    unfold removeThing
    simp only [if_neg hindex, if_pos hg]
  right
  have hpart := hfound.resolve_left hg
  cases htop : s.isAlwaysOnTop items i with
  | false =>
    right
    rw [htop, if_neg Bool.false_ne_true] at hpart
    have hlist : s.tile.items = some (ofParts D T) := by
      rcases h.items_eq with hi | ⟨-, rfl, -⟩
      · exact hi
      · exact nomatch hpart
    have htop' : (s.type items i).alwaysOnTop = false := htop
    by_cases hc : (s.type items i).stackable ∧ count.toNat ≠ (s.item i).count
    · left
      refine ⟨hpart, rfl, hc, ?_⟩
      unfold removeThing
      simp only [if_neg hindex, if_neg hg, hlist, htop', Bool.false_eq_true, if_false, downItems_ofParts,
        hpart, not_true_eq_false, if_pos hc]
    · right
      refine ⟨hpart, rfl, hc, ?_⟩
      unfold removeThing
      simp only [if_neg hindex, if_neg hg, hlist, htop', Bool.false_eq_true, if_false, downItems_ofParts,
        topItems_ofParts, hpart, not_true_eq_false, if_neg hc, withDownItems_erase h.size hpart]
  | true =>
    left
    rw [htop, if_pos rfl] at hpart
    have hlist : s.tile.items = some (ofParts D T) := by
      rcases h.items_eq with hi | ⟨-, -, rfl⟩
      · exact hi
      · exact nomatch hpart
    have htop' : (s.type items i).alwaysOnTop = true := htop
    refine ⟨hpart, rfl, ?_⟩
    unfold removeThing
    simp only [if_neg hindex, if_neg hg, hlist, htop', if_true, downItems_ofParts, topItems_ofParts, hpart,
      not_true_eq_false, if_false]
    rfl

omit [DecidableEq ι] [DecidableEq κ] in
theorem mem_of_find? {α : Type*} {p : α → Bool} {l : List α} {a : α} (h : l.find? p = some a) :
    a ∈ l ∧ p a :=
  ⟨List.mem_of_find?_eq_some h, List.find?_some h⟩

/-- The induction rule of the loop over the fields: what a removal keeps holds
at the end, where no field is left or the first one stays. -/
theorem removeFields_induct {P : State ι κ → Prop}
    (hP : ∀ s oldField, P s → s.tile.downItems.find? (fun j => (s.item j).cls = .magicField) = some oldField →
      s.isReplaceable items oldField →
      P ((s.removeThing items (.item oldField) 1).setParent oldField false)) :
    ∀ (fuel : ℕ) {s s' : State ι κ} {replaced : Bool}, P s →
      removeFields items fuel s = some (s', replaced) →
      P s' ∧ match s'.tile.downItems.find? fun j => (s'.item j).cls = .magicField with
        | none => replaced = true
        | some j => replaced = false ∧ ¬ s'.isReplaceable items j
  | 0, _, _, _, _, h => nomatch h
  | fuel + 1, s, s', replaced, hs, h => by
    unfold removeFields at h
    split at h
    · next hfind =>
      simp only [Option.some.injEq, Prod.mk.injEq] at h
      obtain ⟨rfl, rfl⟩ := h
      rw [hfind]
      exact ⟨hs, rfl⟩
    · next oldField hfind =>
      split at h
      · next hrep => exact removeFields_induct hP fuel (hP s oldField hs hfind hrep) h
      · next hrep =>
        simp only [Option.some.injEq, Prod.mk.injEq] at h
        obtain ⟨rfl, rfl⟩ := h
        rw [hfind]
        exact ⟨hs, rfl, hrep⟩

omit [DecidableEq ι] [DecidableEq κ] in
theorem insertTop_eq (h : Shape s.tile D T) (before : ItemType → Bool) (i : ι) :
    s.insertTop items before i =
      s.setItemList (ofParts D (insertBefore (fun j => before (s.type items j)) i T)) := by
  have hv : s.makeItemList = ofParts D T := h.vector
  unfold State.insertTop
  simp only [hv, downItems_ofParts, topItems_ofParts]
  rfl

omit [DecidableEq ι] [DecidableEq κ] in
theorem insertDown_eq (h : Shape s.tile D T) (hsize : (D ++ T).length < 0xFFFF) (i : ι) :
    s.insertDown i = s.setItemList (ofParts (i :: D) T) := by
  have hv : s.makeItemList = ofParts D T := h.vector
  unfold State.insertDown
  rw [hv]
  exact congrArg s.setItemList (withDownItems_push hsize i)

omit [DecidableEq ι] [DecidableEq κ] in
theorem insertBefore_parts (p : ι → Bool) (i : ι) (D T : List ι) :
    (D ++ insertBefore p i T).Perm (i :: (D ++ T)) :=
  ((Tile.insertBefore_perm T).append_left D).trans List.perm_middle

theorem setSubType_id (it : Item) (n : ℕ) : (it.setSubType items n).id = it.id := by
  unfold Item.setSubType
  split_ifs <;> rfl

theorem setID_id (it : Item) (newid : UInt16) : (it.setID items newid).id = newid := by
  unfold Item.setID
  dsimp only
  split_ifs <;> rfl

/-! ### Replacing -/

omit [DecidableEq ι] [DecidableEq κ] in
/-- The item that `replaceThing` takes out is the one at the index. -/
theorem oldItem_eq_some {tile : TileStack.Tile ι κ} {index : ℕ} {old : ι} :
    oldItem tile index = some old ↔ tile.getThing index = some (.item old) := by
  have hmap : ∀ o : Option ι, o = some old ↔ o.map Thing.item = some (.item old : Thing ι κ) := by
    intro o
    cases o <;> simp
  have hcreatures : ∀ pos, oldItem.afterCreatures tile pos = some old ↔
      TileStack.Tile.getThing.afterCreatures tile pos = some (.item old) := by
    intro pos
    unfold oldItem.afterCreatures TileStack.Tile.getThing.afterCreatures
    cases tile.items with
    | none => simp
    | some v =>
      dsimp only
      split
      · exact hmap _
      · simp
  have htop : ∀ pos, oldItem.afterTop tile pos = some old ↔
      TileStack.Tile.getThing.afterTop tile pos = some (.item old) := by
    intro pos
    unfold oldItem.afterTop TileStack.Tile.getThing.afterTop
    cases tile.creatures with
    | none => exact hcreatures pos
    | some l =>
      dsimp only
      split
      · simp
      · exact hcreatures _
  have hrest : ∀ pos, oldItem.rest tile pos = some old ↔
      TileStack.Tile.getThing.rest tile pos = some (.item old) := by
    intro pos
    unfold oldItem.rest TileStack.Tile.getThing.rest
    cases tile.items with
    | none => exact htop pos
    | some v =>
      dsimp only
      split
      · exact hmap _
      · exact htop _
  unfold oldItem TileStack.Tile.getThing
  cases tile.ground with
  | none => exact hrest index
  | some g =>
    cases index with
    | zero => exact hmap (some g)
    | succ index => exact hrest index

omit [DecidableEq ι] [DecidableEq κ] in
theorem not_mem_set {l : List ι} (hn : l.Nodup) {k : ℕ} {old i : ι} (hk : l[k]? = some old)
    (hne : old ≠ i) : old ∉ l.set k i := by
  intro hm
  obtain ⟨m, hm⟩ := List.getElem?_of_mem hm
  by_cases hmk : k = m
  · subst hmk
    have hlt := (List.getElem?_eq_some_iff.1 hk).1
    rw [List.getElem?_set_self hlt] at hm
    exact hne (Option.some.inj hm).symm
  · rw [List.getElem?_set_ne hmk] at hm
    obtain ⟨hlt, -⟩ := List.getElem?_eq_some_iff.1 hk
    exact hmk ((List.getElem?_inj hlt hn).1 (hk.trans hm.symm))

omit [DecidableEq ι] [DecidableEq κ] in
/-- What `Tile::replaceThing` does to the tile, when an item stands at the index. -/
theorem replaced_cases (h : Shape s.tile D T) {index : ℕ} {old : ι}
    (hindex : s.tile.things[index]? = some (.item old)) (i : ι) :
    (s.tile.ground = some old ∧
      s.tile.replaceThing index (.item i) = { s.tile with ground := some i }) ∨
    (∃ k, T[k]? = some old ∧
      s.tile.replaceThing index (.item i) = { s.tile with items := some (ofParts D (T.set k i)) }) ∨
    (∃ k, D[k]? = some old ∧
      s.tile.replaceThing index (.item i) = { s.tile with items := some (ofParts (D.set k i) T) }) := by
  have hv : ∀ v, s.tile.items = some v → v = ofParts D T := by
    intro v hv
    have := h.vector
    rwa [hv] at this
  rcases TileStack.Tile.item_position hindex with ⟨hg, rfl⟩ | ⟨v, k, hi, hk, rfl⟩ | ⟨v, k, hi, hk, rfl⟩
  · exact .inl ⟨hg, TileStack.Tile.replaceThing_ground hg i⟩
  · right
    left
    have hlen := (List.getElem?_eq_some_iff.1 hk).1
    rw [TileStack.Tile.length_topItems] at hlen
    rw [TileStack.Tile.replaceThing_rest,
      TileStack.Tile.atTop_top hi (by exact_mod_cast hlen), Int.toNat_natCast]
    rw [hv v hi, topItems_ofParts] at hk
    rw [hv v hi] at hlen ⊢
    refine ⟨k, hk, ?_⟩
    have hlt : D.length + k < (D ++ T).length := by
      have := (List.getElem?_eq_some_iff.1 hk).1
      rw [List.length_append]
      omega
    have hset : (D ++ T).set (D.length + k) i = D ++ T.set k i := (append_set_top D k i).symm
    have hrep : (ofParts D T).replaceAt (D.length + k) i = ofParts D (T.set k i) := by
      rw [TileStack.Tile.replaceAt_items hlt]
      exact congrArg (TileItemVector.mk · D.length) hset
    exact congrArg (fun v => ({ s.tile with items := some v } : TileStack.Tile ι κ)) hrep
  · right
    right
    have hlen := (List.getElem?_eq_some_iff.1 hk).1
    have hcount : v.downItemCount ≤ v.items.length := by
      rw [hv v hi]
      exact List.length_append ▸ Nat.le_add_right _ _
    rw [TileStack.Tile.length_downItems hcount] at hlen
    rw [TileStack.Tile.replaceThing_rest, TileStack.Tile.length_topItems]
    push_cast
    rw [TileStack.Tile.atTop_down hi hlen]
    rw [hv v hi, downItems_ofParts] at hk
    rw [hv v hi] at hlen ⊢
    refine ⟨k, hk, ?_⟩
    have hlt : k < (D ++ T).length := by
      have : k < D.length := hlen
      rw [List.length_append]
      omega
    have hset : (D ++ T).set k i = D.set k i ++ T := (append_set_down T hlen i).symm
    have hrep : (ofParts D T).replaceAt k i = ofParts (D.set k i) T := by
      rw [TileStack.Tile.replaceAt_items hlt]
      unfold ofParts
      rw [List.length_set]
      exact congrArg (TileItemVector.mk · D.length) hset
    exact congrArg (fun v => ({ s.tile with items := some v } : TileStack.Tile ι κ)) hrep

end Operations

end State

/-! ### Runs -/

open State Run

/-- The calls on a tile. -/
inductive Action (ι κ : Type*)
  | addThing (t : Thing ι κ)
  | internalAddThing (t : Thing ι κ)
  | removeThing (t : Thing ι κ) (count : UInt32)
  | updateThing (t : Thing ι κ) (itemId : UInt16) (count : UInt32)
  | replaceThing (index : ℕ) (t : Thing ι κ)
  -- what happens to an item that is not on the tile
  | elsewhere (i : ι) (item : Item)

section Runs

variable [DecidableEq ι] [DecidableEq κ] (items : UInt16 → ItemType)

/-- A call; there is no state after one that does not return. -/
def step (o : Option (State ι κ)) (a : Action ι κ) : Option (State ι κ) :=
  o.bind fun s =>
    match a with
    | .addThing t => s.addThing items t
    | .internalAddThing t => some (s.internalAddThing items t)
    | .removeThing t count => some (s.removeThing items t count)
    | .updateThing t itemId count => some (s.updateThing items t itemId count)
    | .replaceThing index t => some (s.replaceThing items index t)
    | .elsewhere i item => some (s.setItem i item)

/-- An empty tile, whether its vectors exist or not. -/
structure Empty (s : State ι κ) : Prop where
  ground : s.tile.ground = none
  items : s.makeItemList = {}
  creatures : s.tile.creatures.getD [] = []

variable {s : State ι κ}

omit [DecidableEq ι] [DecidableEq κ] in
theorem Empty.shape (h : Empty s) : Shape s.tile [] [] where
  vector := h.items
  nodup := List.nodup_nil
  ground _ _ hm := nomatch hm
  creatures l hl := by
    have := h.creatures
    rw [hl, Option.getD_some] at this
    rw [this]
    exact List.nodup_nil
  size := Nat.zero_le _

omit [DecidableEq ι] [DecidableEq κ] in
theorem creatures_append_nodup {s : State ι κ} {c : κ}
    (h : ∀ l, s.tile.creatures = some l → l.Nodup) (hc : ¬ s.tile.Has (.creature c)) :
    (s.tile.creatures.getD [] ++ [c]).Nodup := by
  cases hl : s.tile.creatures with
  | none => exact List.nodup_singleton c
  | some l =>
    have hnot : c ∉ l := fun hm => hc ⟨l, hl, hm⟩
    exact List.Nodup.append (h l hl) (List.nodup_singleton c) (by simpa using hnot)

end Runs

end TileItems
end ForgottenServer
