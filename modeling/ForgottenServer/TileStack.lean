/-
# The things on a tile and their indices

A tile keeps its ground, a vector of items with the down items before the top
items, and a vector of creatures. The index of a thing counts in another
order: the ground, the top items, the creatures, the down items.
`Tile::getThingIndex`, `Tile::getThing` and `Tile::replaceThing` each do this
arithmetic again; here each is shown to work on the one list `things`.

Key definitions: `Tile`, `Tile.Ok`, `things`, `getThingIndex`, `getThing`, `replaceThing`.
Key theorems: `getThingIndex_eq`, `getThing_eq`, `things_replaceThing`, `index_inverse`.
-/
import Mathlib.Tactic

namespace ForgottenServer
namespace TileStack

/-- What can stand on a tile. -/
inductive Thing (ι κ : Type*)
  | item (i : ι)
  | creature (c : κ)
  deriving DecidableEq

/-- `TileItemVector`: the down items, then the top items. -/
structure TileItemVector (ι : Type*) where
  items : List ι := []
  downItemCount : ℕ := 0

namespace TileItemVector

variable {ι : Type*} (v : TileItemVector ι)

def getTopItemCount : ℕ := v.items.length - v.downItemCount

def getDownItemCount : ℕ := v.downItemCount

/-- From `getBeginDownItem` to `getEndDownItem`. -/
def downItems : List ι := v.items.take v.downItemCount

/-- From `getBeginTopItem` to `getEndTopItem`. -/
def topItems : List ι := v.items.drop v.downItemCount

/-- An item erased and another inserted in its place. -/
def replaceAt (i : ℕ) (item : ι) : TileItemVector ι :=
  { v with items := (v.items.eraseIdx i).insertIdx i item }

end TileItemVector

/-- `Tile`. A dynamic tile allocates its vectors when it needs them. -/
structure Tile (ι κ : Type*) where
  ground : Option ι := none
  items : Option (TileItemVector ι) := none
  creatures : Option (List κ) := none

variable {ι κ : Type*}

/-- A thing stands on the tile. -/
def Tile.Has (tile : Tile ι κ) : Thing ι κ → Prop
  | .item i => tile.ground = some i ∨ ∃ v, tile.items = some v ∧ i ∈ v.items
  | .creature c => ∃ l, tile.creatures = some l ∧ c ∈ l

/-- The invariant of a tile: down items first, top items after, no thing twice. -/
structure Tile.Ok (isAlwaysOnTop : ι → Bool) (tile : Tile ι κ) : Prop where
  count : ∀ v, tile.items = some v → v.downItemCount ≤ v.items.length
  down : ∀ v, tile.items = some v → ∀ i ∈ v.downItems, isAlwaysOnTop i = false
  top : ∀ v, tile.items = some v → ∀ i ∈ v.topItems, isAlwaysOnTop i = true
  nodup : ∀ v, tile.items = some v → v.items.Nodup
  ground : ∀ v, tile.items = some v → ∀ g, tile.ground = some g → g ∉ v.items
  creatures : ∀ l, tile.creatures = some l → l.Nodup

namespace Tile

variable (tile : Tile ι κ)

def getItemCount : ℕ :=
  match tile.items with
  | some items => items.items.length
  | none => 0

def getCreatureCount : ℕ :=
  match tile.creatures with
  | some creatures => creatures.length
  | none => 0

def getThingCount : ℕ :=
  tile.getCreatureCount + tile.getItemCount + if tile.ground.isSome then 1 else 0

/-! ### The functions of the source -/

/-- `Tile::getThing` -/
def getThing (index : ℕ) : Option (Thing ι κ) :=
  match tile.ground, index with
  | some ground, 0 => some (.item ground)
  | some _, index + 1 => rest index
  | none, index => rest index
where
  rest (index : ℕ) : Option (Thing ι κ) :=
    match tile.items with
    | some items =>
      if index < items.getTopItemCount then
        (items.items[items.getDownItemCount + index]?).map .item
      else afterTop (index - items.getTopItemCount)
    | none => afterTop index
  afterTop (index : ℕ) : Option (Thing ι κ) :=
    match tile.creatures with
    | some creatures =>
      if index < creatures.length then (creatures[index]?).map .creature
      else afterCreatures (index - creatures.length)
    | none => afterCreatures index
  afterCreatures (index : ℕ) : Option (Thing ι κ) :=
    match tile.items with
    | some items =>
      if index < items.getDownItemCount then (items.items[index]?).map .item else none
    | none => none

/-- A loop that counts on, and returns the count at the thing it looks for. -/
def countTo {α : Type*} [DecidableEq α] (a : α) : List α → ℤ → Except ℤ ℤ
  | [], n => .ok n
  | b :: l, n => if b = a then .error (n + 1) else countTo a l (n + 1)

/-- The value of a function that goes on with a count or returns one. -/
def returned : Except ℤ ℤ → ℤ
  | .ok n => n
  | .error n => n

variable [DecidableEq ι] [DecidableEq κ]

/-- `Tile::getThingIndex` -/
def getThingIndex (isAlwaysOnTop : ι → Bool) (thing : Thing ι κ) : ℤ :=
  returned (atGround >>= atTop >>= atCreatures >>= atDown >>= fun _ => .ok (-1))
where
  atGround : Except ℤ ℤ :=
    match tile.ground with
    | some ground => if .item ground = thing then .error 0 else .ok 0
    | none => .ok (-1)
  atTop (n : ℤ) : Except ℤ ℤ :=
    match tile.items, thing with
    | some items, .item item =>
      if isAlwaysOnTop item then countTo item items.topItems n
      else .ok (n + items.getTopItemCount)
    | some items, .creature _ => .ok (n + items.getTopItemCount)
    | none, _ => .ok n
  atCreatures (n : ℤ) : Except ℤ ℤ :=
    match tile.creatures, thing with
    | some creatures, .creature c => countTo c creatures n
    | some creatures, .item _ => .ok (n + creatures.length)
    | none, _ => .ok n
  atDown (n : ℤ) : Except ℤ ℤ :=
    match tile.items, thing with
    | some items, .item item =>
      if !isAlwaysOnTop item then countTo item items.downItems n else .ok n
    | _, _ => .ok n

/-- `Tile::replaceThing`, what it does to the things. -/
def replaceThing (index : ℕ) : Thing ι κ → Tile ι κ
  | .creature _ => tile
  | .item item =>
    match tile.ground with
    | some _ =>
      if (index : ℤ) = 0 then atTop item { tile with ground := some item } (index - 1) true
      else atTop item tile (index - 1) false
    | none => atTop item tile index false
where
  atTop (item : ι) (tile : Tile ι κ) (pos : ℤ) (isInserted : Bool) : Tile ι κ :=
    match tile.items, isInserted with
    | some items, false =>
      if pos < items.getTopItemCount then
        atCreatures item
          { tile with items := some (items.replaceAt (items.getDownItemCount + pos.toNat) item) }
          (pos - items.getTopItemCount) true
      else atCreatures item tile (pos - items.getTopItemCount) false
    | _, _ => atCreatures item tile pos isInserted
  atCreatures (item : ι) (tile : Tile ι κ) (pos : ℤ) (isInserted : Bool) : Tile ι κ :=
    match tile.creatures with
    | some creatures =>
      if !isInserted && pos < creatures.length then tile
      else atDown item tile (pos - creatures.length) isInserted
    | none => atDown item tile pos isInserted
  atDown (item : ι) (tile : Tile ι κ) (pos : ℤ) (isInserted : Bool) : Tile ι κ :=
    match tile.items, isInserted with
    | some items, false =>
      if pos < items.getDownItemCount then
        { tile with items := some (items.replaceAt pos.toNat item) }
      else tile
    | _, _ => tile

/-! ### The order of the indices -/

/-- The top items of the tile, none without a vector. -/
def topItems : List ι := (tile.items.map (·.topItems)).getD []

/-- The down items of the tile, none without a vector. -/
def downItems : List ι := (tile.items.map (·.downItems)).getD []

/-- The things of the tile in the order of their indices. -/
def things : List (Thing ι κ) :=
  tile.ground.toList.map .item ++ (tile.topItems.map .item ++
    ((tile.creatures.getD []).map .creature ++ tile.downItems.map .item))

section Things

omit [DecidableEq ι] [DecidableEq κ]

theorem length_topItems (items : TileItemVector ι) :
    items.topItems.length = items.getTopItemCount :=
  List.length_drop

theorem length_downItems {items : TileItemVector ι} (h : items.downItemCount ≤ items.items.length) :
    items.downItems.length = items.getDownItemCount := by
  unfold TileItemVector.downItems TileItemVector.getDownItemCount
  rw [List.length_take]
  exact min_eq_left h

variable {tile} {isAlwaysOnTop : ι → Bool}

theorem length_things (h : tile.Ok isAlwaysOnTop) : tile.things.length = tile.getThingCount := by
  obtain ⟨ground, items, creatures⟩ := tile
  have hcount := h.count
  cases items with
  | none =>
    cases ground <;> cases creatures <;>
      simp [things, topItems, downItems, getThingCount, getCreatureCount, getItemCount]
  | some v =>
    have hd := length_downItems (hcount v rfl)
    have ht := length_topItems v
    have hv := hcount v rfl
    unfold TileItemVector.getTopItemCount at ht
    unfold TileItemVector.getDownItemCount at hd
    cases ground <;> cases creatures <;>
      simp [things, topItems, downItems, getThingCount, getCreatureCount, getItemCount, hd, ht] <;>
      omega

theorem mem_items_iff (v : TileItemVector ι) (i : ι) :
    i ∈ v.items ↔ i ∈ v.topItems ∨ i ∈ v.downItems := by
  conv_lhs => rw [← List.take_append_drop v.downItemCount v.items]
  rw [List.mem_append]
  exact or_comm

/-- The list holds the things of the tile. -/
theorem mem_things (t : Thing ι κ) : t ∈ tile.things ↔ tile.Has t := by
  obtain ⟨ground, items, creatures⟩ := tile
  cases t with
  | item i =>
    cases items with
    | none => cases ground <;> simp [things, topItems, downItems, Has, eq_comm]
    | some v =>
      have hv := mem_items_iff v i
      cases ground <;> simp [things, topItems, downItems, Has, hv, eq_comm]
  | creature c => cases creatures <;> simp [things, Has]

theorem item_injective : Function.Injective (Thing.item : ι → Thing ι κ) :=
  fun _ _ h => Thing.item.inj h

theorem creature_injective : Function.Injective (Thing.creature : κ → Thing ι κ) :=
  fun _ _ h => Thing.creature.inj h

/-- No thing has two indices. -/
theorem things_nodup (h : tile.Ok isAlwaysOnTop) : tile.things.Nodup := by
  have hcross : ∀ (l : List ι) (l' : List κ),
      (l.map Thing.item : List (Thing ι κ)).Disjoint (l'.map Thing.creature) := by
    intro l l' t ht ht'
    obtain ⟨i, -, rfl⟩ := List.mem_map.1 ht
    obtain ⟨c, -, hc⟩ := List.mem_map.1 ht'
    exact nomatch hc
  have htop : ∀ v, tile.items = some v → v.topItems.Nodup ∧ v.downItems.Nodup ∧
      v.topItems.Disjoint v.downItems := by
    intro v hv
    have hn := h.nodup v hv
    rw [← List.take_append_drop v.downItemCount v.items, List.nodup_append'] at hn
    exact ⟨hn.2.1, hn.1, hn.2.2.symm⟩
  have hground : ∀ v, tile.items = some v → ∀ g, tile.ground = some g →
      g ∉ v.topItems ∧ g ∉ v.downItems := by
    intro v hv g hg
    have := h.ground v hv g hg
    rwa [mem_items_iff, not_or] at this
  have hcreatures := h.creatures
  obtain ⟨ground, items, creatures⟩ := tile
  have hc : ((creatures.getD []).map Thing.creature : List (Thing ι κ)).Nodup := by
    cases creatures with
    | none => exact List.nodup_nil
    | some l => exact (hcreatures l rfl).map creature_injective
  unfold things topItems downItems
  cases items with
  | none =>
    simp only [Option.map_none, Option.getD_none, List.map_nil, List.append_nil, List.nil_append]
    rw [List.nodup_append']
    refine ⟨?_, hc, by simpa using hcross ground.toList (creatures.getD [])⟩
    cases ground <;> simp
  | some v =>
    obtain ⟨h1, h2, h3⟩ := htop v rfl
    simp only [Option.map_some, Option.getD_some]
    rw [List.nodup_append', List.nodup_append', List.nodup_append']
    refine ⟨by cases ground <;> simp, ⟨h1.map item_injective, ⟨hc, h2.map item_injective, (hcross _ _).symm⟩, ?_⟩, ?_⟩
    · rw [List.disjoint_append_right]
      exact ⟨hcross _ _, List.disjoint_map item_injective h3⟩
    · cases ground with
      | none => simp
      | some g =>
        obtain ⟨k1, k2⟩ := hground v rfl g rfl
        simp [k1, k2]

end Things

/-! ### What the functions compute -/

section GetThing

omit [DecidableEq ι] [DecidableEq κ]

variable {tile}

theorem getThing_afterCreatures (index : ℕ) :
    getThing.afterCreatures tile index = (tile.downItems.map .item)[index]? := by
  unfold getThing.afterCreatures downItems
  cases hi : tile.items with
  | none => simp
  | some v =>
    simp only [Option.map_some, Option.getD_some, List.getElem?_map]
    unfold TileItemVector.downItems
    rw [List.getElem?_take]
    split
    · next hlt => rw [if_pos (show index < v.downItemCount from hlt)]
    · next hge => rw [if_neg (show ¬ index < v.downItemCount from hge), Option.map_none]

theorem getThing_afterTop (index : ℕ) :
    getThing.afterTop tile index =
      ((tile.creatures.getD []).map .creature ++ tile.downItems.map .item)[index]? := by
  unfold getThing.afterTop
  cases hc : tile.creatures with
  | none => simpa using getThing_afterCreatures index
  | some l =>
    simp only [Option.getD_some]
    split
    · next hlt => rw [List.getElem?_append_left (by simpa using hlt), List.getElem?_map]
    · next hge =>
      rw [List.getElem?_append_right (by simpa using hge), List.length_map]
      exact getThing_afterCreatures _

theorem getThing_rest (index : ℕ) :
    getThing.rest tile index = (tile.topItems.map .item ++
      ((tile.creatures.getD []).map .creature ++ tile.downItems.map .item))[index]? := by
  unfold getThing.rest
  cases hi : tile.items with
  | none =>
    have htop : tile.topItems = [] := by simp [topItems, hi]
    rw [htop]
    exact getThing_afterTop index
  | some v =>
    have htop : tile.topItems = v.topItems := by simp [topItems, hi]
    have hlen := length_topItems v
    rw [htop]
    dsimp only
    split
    · next hlt =>
      rw [List.getElem?_append_left (by rw [List.length_map]; omega), List.getElem?_map]
      unfold TileItemVector.topItems
      rw [List.getElem?_drop]
      rfl
    · next hge =>
      rw [List.getElem?_append_right (by rw [List.length_map]; omega), List.length_map, hlen]
      exact getThing_afterTop _

/-- `Tile::getThing` reads the list of things. -/
theorem getThing_eq (index : ℕ) :
    tile.getThing index = tile.things[index]? := by
  unfold getThing things
  cases hg : tile.ground with
  | none => simpa using getThing_rest index
  | some g =>
    cases index with
    | zero => rfl
    | succ index => simpa using getThing_rest index

end GetThing

section GetThingIndex

variable {tile} {isAlwaysOnTop : ι → Bool}

theorem countTo_append {α : Type*} [DecidableEq α] (a : α) : ∀ (l l' : List α) (n : ℤ),
    countTo a (l ++ l') n = countTo a l n >>= countTo a l'
  | [], _, _ => rfl
  | b :: l, l', n => by
    simp only [List.cons_append, countTo]
    by_cases hb : b = a
    · rw [if_pos hb, if_pos hb]
      rfl
    · rw [if_neg hb, if_neg hb]
      exact countTo_append a l l' (n + 1)

theorem countTo_map {α β : Type*} [DecidableEq α] [DecidableEq β] {f : α → β}
    (hf : Function.Injective f) (a : α) :
    ∀ (l : List α) (n : ℤ), countTo (f a) (l.map f) n = countTo a l n
  | [], _ => rfl
  | b :: l, n => by
    simp only [List.map_cons, countTo, hf.eq_iff, countTo_map hf a l]

/-- A thing that is not in the list is counted past it. -/
theorem countTo_of_not_mem {α : Type*} [DecidableEq α] {a : α} :
    ∀ {l : List α} (n : ℤ), a ∉ l → countTo a l n = .ok (n + l.length)
  | [], n, _ => by simp [countTo]
  | b :: l, n, h => by
    have hb : b ≠ a := fun hb => h (hb ▸ List.mem_cons_self)
    unfold countTo
    rw [if_neg hb, countTo_of_not_mem (n + 1) fun hl => h (List.mem_cons_of_mem b hl)]
    simp only [List.length_cons, Nat.cast_add, Nat.cast_one]
    congr 1
    ring

theorem countTo_of_getElem {α : Type*} [DecidableEq α] {a : α} :
    ∀ {l : List α} {k : ℕ} (n : ℤ), l.Nodup → l[k]? = some a →
      countTo a l n = .error (n + 1 + k)
  | [], _, _, _, h => by simp at h
  | b :: l, 0, n, _, h => by
    have hb : b = a := by simpa using h
    unfold countTo
    rw [if_pos hb]
    simp
  | b :: l, k + 1, n, hn, h => by
    rw [List.getElem?_cons_succ] at h
    have hb : b ≠ a := fun hb => (List.nodup_cons.1 hn).1 (hb ▸ List.mem_of_getElem? h)
    unfold countTo
    rw [if_neg hb, countTo_of_getElem (n + 1) (List.nodup_cons.1 hn).2 h]
    push_cast
    congr 1
    ring

theorem atGround_eq (t : Thing ι κ) :
    getThingIndex.atGround tile t = countTo t (tile.ground.toList.map .item) (-1) := by
  unfold getThingIndex.atGround
  cases tile.ground with
  | none => rfl
  | some g => rfl

theorem atTop_eq (h : tile.Ok isAlwaysOnTop) (t : Thing ι κ) (n : ℤ) :
    getThingIndex.atTop tile isAlwaysOnTop t n = countTo t (tile.topItems.map .item) n := by
  have htop := h.top
  unfold getThingIndex.atTop topItems
  cases hv : tile.items with
  | none => rfl
  | some v =>
    rw [Option.map_some, Option.getD_some]
    cases t with
    | creature c => rw [countTo_of_not_mem n (by simp), List.length_map, length_topItems]
    | item i =>
      dsimp only
      split
      · rw [countTo_map item_injective]
      · next hi =>
        rw [countTo_of_not_mem n, List.length_map, length_topItems]
        rw [List.mem_map_of_injective item_injective]
        exact fun hmem => hi (htop v hv i hmem)

theorem atCreatures_eq (t : Thing ι κ) (n : ℤ) : getThingIndex.atCreatures tile t n =
    countTo t ((tile.creatures.getD []).map .creature) n := by
  unfold getThingIndex.atCreatures
  cases tile.creatures with
  | none => rfl
  | some l =>
    cases t with
    | creature c => rw [Option.getD_some, countTo_map creature_injective]
    | item i => rw [Option.getD_some, countTo_of_not_mem n (by simp), List.length_map]

/-- After the down items the count does not matter. -/
theorem atDown_eq (h : tile.Ok isAlwaysOnTop) (t : Thing ι κ) (n m : ℤ) :
    (getThingIndex.atDown tile isAlwaysOnTop t n >>= fun _ => Except.ok m) =
      countTo t (tile.downItems.map .item) n >>= fun _ => Except.ok m := by
  have hdown := h.down
  unfold getThingIndex.atDown downItems
  cases hv : tile.items with
  | none => rfl
  | some v =>
    rw [Option.map_some, Option.getD_some]
    cases t with
    | creature c =>
      rw [countTo_of_not_mem n (by simp)]
      rfl
    | item i =>
      dsimp only
      split
      · rw [countTo_map item_injective]
      · next hi =>
        rw [countTo_of_not_mem n]
        · rfl
        · rw [List.mem_map_of_injective item_injective]
          intro hmem
          exact hi (by simp [hdown v hv i hmem])

/-- `Tile::getThingIndex` counts through the list of things. -/
theorem getThingIndex_eq (h : tile.Ok isAlwaysOnTop) (t : Thing ι κ) :
    tile.getThingIndex isAlwaysOnTop t =
      returned (countTo t tile.things (-1) >>= fun _ => .ok (-1)) := by
  unfold getThingIndex things
  rw [atGround_eq]
  simp only [countTo_append, bind_assoc, atTop_eq h, atCreatures_eq, atDown_eq h]

theorem getThingIndex_of_getElem (h : tile.Ok isAlwaysOnTop) {t : Thing ι κ} {k : ℕ}
    (hk : tile.things[k]? = some t) : tile.getThingIndex isAlwaysOnTop t = k := by
  rw [getThingIndex_eq h, countTo_of_getElem _ (things_nodup h) hk]
  show (-1 + 1 + k : ℤ) = k
  ring

end GetThingIndex

section ReplaceThing

omit [DecidableEq ι] [DecidableEq κ]

variable {tile} {isAlwaysOnTop : ι → Bool}

theorem replaceAt_items {v : TileItemVector ι} {i : ℕ} (hi : i < v.items.length) (item : ι) :
    v.replaceAt i item = { v with items := v.items.set i item } := by
  unfold TileItemVector.replaceAt
  rw [List.insertIdx_eraseIdx_self hi.ne]

theorem topItems_replaceAt {v : TileItemVector ι} {k : ℕ} (hk : k < v.topItems.length) (item : ι) :
    (v.replaceAt (v.getDownItemCount + k) item).topItems = v.topItems.set k item ∧
      (v.replaceAt (v.getDownItemCount + k) item).downItems = v.downItems := by
  have hlen : v.getDownItemCount + k < v.items.length := by
    rw [length_topItems] at hk
    unfold TileItemVector.getTopItemCount at hk
    unfold TileItemVector.getDownItemCount
    omega
  rw [replaceAt_items hlen]
  unfold TileItemVector.topItems TileItemVector.downItems TileItemVector.getDownItemCount
  constructor
  · simp [List.drop_set]
  · exact List.take_set_of_le (Nat.le_add_right _ _)

theorem downItems_replaceAt {v : TileItemVector ι} {k : ℕ} (hk : k < v.downItems.length) (item : ι) :
    (v.replaceAt k item).downItems = v.downItems.set k item ∧
      (v.replaceAt k item).topItems = v.topItems := by
  unfold TileItemVector.downItems at hk
  rw [List.length_take] at hk
  rw [replaceAt_items (by omega)]
  unfold TileItemVector.topItems TileItemVector.downItems
  constructor
  · exact List.take_set
  · have hkd : k < v.downItemCount := by omega
    exact List.drop_set_of_lt hkd

variable {item : ι} {pos : ℤ}

/-- After the insertion the tile stays. -/
theorem atCreatures_inserted : replaceThing.atCreatures item tile pos true = tile := by
  have hdown : ∀ pos, replaceThing.atDown item tile pos true = tile := by
    intro pos
    unfold replaceThing.atDown
    split
    · next h => cases h
    · rfl
  unfold replaceThing.atCreatures
  split
  · exact hdown _
  · exact hdown _

theorem atTop_inserted : replaceThing.atTop item tile pos true = tile := by
  unfold replaceThing.atTop
  split
  · next h => cases h
  · exact atCreatures_inserted

theorem atCreatures_skip (h0 : 0 ≤ pos) :
    replaceThing.atCreatures item tile (pos + (tile.creatures.getD []).length) false =
      replaceThing.atDown item tile pos false := by
  unfold replaceThing.atCreatures
  cases hc : tile.creatures with
  | none => simp
  | some l =>
    have hge : ¬ pos + l.length < l.length := by omega
    simp only [Option.getD_some, Bool.not_false, Bool.true_and, decide_eq_true_eq, if_neg hge,
      add_sub_cancel_right]

theorem atTop_top {v : TileItemVector ι} (hv : tile.items = some v) (hp : pos < v.getTopItemCount) :
    replaceThing.atTop item tile pos false =
      { tile with items := some (v.replaceAt (v.getDownItemCount + pos.toNat) item) } := by
  unfold replaceThing.atTop
  simp only [hv, if_pos hp]
  exact atCreatures_inserted

theorem atTop_down {v : TileItemVector ι} (hv : tile.items = some v) {k : ℕ}
    (hk : k < v.getDownItemCount) : replaceThing.atTop item tile
      (k + (tile.creatures.getD []).length + v.getTopItemCount) false =
        { tile with items := some (v.replaceAt k item) } := by
  have hge : ¬ ((k : ℤ) + (tile.creatures.getD []).length + v.getTopItemCount <
      v.getTopItemCount) := by omega
  have hk' : (k : ℤ) < v.getDownItemCount := by exact_mod_cast hk
  unfold replaceThing.atTop
  simp only [hv, if_neg hge, add_sub_cancel_right]
  rw [atCreatures_skip (Int.natCast_nonneg k)]
  unfold replaceThing.atDown
  simp only [hv, if_pos hk', Int.toNat_natCast]

/-- Past the ground. -/
theorem replaceThing_rest (k : ℕ) (new : ι) :
    tile.replaceThing (tile.ground.toList.length + k) (.item new) =
      replaceThing.atTop new tile k false := by
  unfold replaceThing
  cases hg : tile.ground with
  | none => simp
  | some g =>
    have hne : ¬ (((1 + k : ℕ) : ℤ) = 0) := by omega
    have hsub : ((1 + k : ℕ) : ℤ) - 1 = k := by omega
    simp only [Option.toList_some, List.length_singleton, if_neg hne, hsub]

theorem replaceThing_ground {old : ι} (hg : tile.ground = some old) (new : ι) :
    tile.replaceThing 0 (.item new) = { tile with ground := some new } := by
  unfold replaceThing
  simp only [hg, Nat.cast_zero, if_true]
  exact atTop_inserted

/-- Where an item stands in the list of things. -/
theorem item_position {index : ℕ} {old : ι} (hi : tile.things[index]? = some (.item old)) :
    (tile.ground = some old ∧ index = 0) ∨
    (∃ v k, tile.items = some v ∧ v.topItems[k]? = some old ∧
      index = tile.ground.toList.length + k) ∨
    (∃ v k, tile.items = some v ∧ v.downItems[k]? = some old ∧
      index = tile.ground.toList.length +
        (k + (tile.creatures.getD []).length + v.topItems.length)) := by
  unfold things at hi
  rw [List.getElem?_append, List.length_map] at hi
  split at hi
  · next hlt =>
    left
    cases hg : tile.ground with
    | none => simp [hg] at hlt
    | some g =>
      have h0 : index = 0 := by simpa [hg] using hlt
      subst h0
      simp only [hg, Option.toList_some, List.map_cons, List.getElem?_cons_zero, Option.some.injEq,
        Thing.item.injEq] at hi
      exact ⟨by rw [hi], rfl⟩
  · next hge =>
    right
    obtain ⟨m, rfl⟩ := Nat.exists_eq_add_of_le (Nat.le_of_not_lt hge)
    rw [Nat.add_sub_cancel_left, List.getElem?_append, List.length_map] at hi
    unfold topItems downItems at hi
    split at hi
    · next hm =>
      left
      cases hv : tile.items with
      | none => simp [hv] at hm
      | some v =>
        simp only [hv, Option.map_some, Option.getD_some, List.getElem?_map,
          Option.map_eq_some_iff, Thing.item.injEq, exists_eq_right] at hi
        exact ⟨v, m, rfl, hi, rfl⟩
    · next hm =>
      right
      rw [List.getElem?_append, List.length_map] at hi
      split at hi
      · exact absurd hi (by simp)
      · next hc =>
        cases hv : tile.items with
        | none => simp [hv] at hi
        | some v =>
          simp only [hv, Option.map_some, Option.getD_some, List.getElem?_map,
            Option.map_eq_some_iff, Thing.item.injEq, exists_eq_right] at hi hm hc
          exact ⟨v, _, rfl, hi, by omega⟩

/-- The invariant of a tile whose vector has one item replaced. -/
theorem Ok.replaceAt (h : tile.Ok isAlwaysOnTop) {v : TileItemVector ι} (hv : tile.items = some v)
    {i : ℕ} {new : ι} (hi : i < v.items.length) (hnew : ¬ tile.Has (.item new))
    (hdown : ∀ j ∈ (v.replaceAt i new).downItems, isAlwaysOnTop j = false)
    (htop : ∀ j ∈ (v.replaceAt i new).topItems, isAlwaysOnTop j = true) :
    ({ tile with items := some (v.replaceAt i new) } : Tile ι κ).Ok isAlwaysOnTop := by
  have hset := replaceAt_items hi new
  have hfresh : new ∉ v.items := fun hmem => hnew (.inr ⟨v, hv, hmem⟩)
  have hcount := h.count v hv
  constructor
  · rintro w ⟨rfl⟩
    rw [hset]
    simpa using hcount
  · rintro w ⟨rfl⟩
    exact hdown
  · rintro w ⟨rfl⟩
    exact htop
  · rintro w ⟨rfl⟩
    rw [hset]
    exact (h.nodup v hv).set hfresh
  · rintro w ⟨rfl⟩ g hg hmem
    rw [hset] at hmem
    rcases List.mem_or_eq_of_mem_set hmem with hmem | rfl
    · exact h.ground v hv g hg hmem
    · exact hnew (.inl hg)
  · exact h.creatures

/-- A tile with a new item in the place of one of the same class. -/
theorem replaceThing_spec (h : tile.Ok isAlwaysOnTop) {index : ℕ} {old new : ι}
    (hi : tile.things[index]? = some (.item old)) (hnew : ¬ tile.Has (.item new))
    (hclass : tile.ground = some old ∨ isAlwaysOnTop new = isAlwaysOnTop old) :
    (tile.replaceThing index (.item new)).things = tile.things.set index (.item new) ∧
      (tile.replaceThing index (.item new)).Ok isAlwaysOnTop := by
  have hother : ∀ v, tile.items = some v → old ∈ v.items → isAlwaysOnTop new = isAlwaysOnTop old :=
    fun v hv hmem => hclass.resolve_left fun hg => h.ground v hv old hg hmem
  rcases item_position hi with ⟨hg, rfl⟩ | ⟨v, k, hv, hk, rfl⟩ | ⟨v, k, hv, hk, rfl⟩
  · rw [replaceThing_ground hg]
    constructor
    · simp [things, hg, topItems, downItems]
    · exact { count := h.count, down := h.down, top := h.top, nodup := h.nodup,
              creatures := h.creatures
              ground := fun v hv g hg => by cases hg; exact fun hmem => hnew (.inr ⟨v, hv, hmem⟩) }
  · obtain ⟨hlt, rfl⟩ := List.getElem?_eq_some_iff.1 hk
    have hmem : v.topItems[k] ∈ v.topItems := List.getElem_mem hlt
    have hc := hother v hv ((mem_items_iff v _).2 (.inl hmem))
    obtain ⟨ht, hd⟩ := topItems_replaceAt hlt new
    rw [replaceThing_rest, atTop_top hv (by rw [← length_topItems]; exact_mod_cast hlt),
      Int.toNat_natCast]
    constructor
    · simp only [things, topItems, downItems, hv, Option.map_some, Option.getD_some, ht, hd]
      rw [List.set_append_right _ _ (by simp), List.length_map, Nat.add_sub_cancel_left,
        List.set_append_left _ _ (by simpa using hlt), List.map_set]
    · refine h.replaceAt hv ?_ hnew ?_ ?_
      · rw [length_topItems] at hlt
        unfold TileItemVector.getTopItemCount at hlt
        unfold TileItemVector.getDownItemCount
        omega
      · rw [hd]
        exact h.down v hv
      · rw [ht]
        intro j hj
        rcases List.mem_or_eq_of_mem_set hj with hj | rfl
        · exact h.top v hv j hj
        · rw [hc]
          exact h.top v hv _ hmem
  · obtain ⟨hlt, rfl⟩ := List.getElem?_eq_some_iff.1 hk
    have hmem : v.downItems[k] ∈ v.downItems := List.getElem_mem hlt
    have hc := hother v hv ((mem_items_iff v _).2 (.inr hmem))
    obtain ⟨hd, ht⟩ := downItems_replaceAt hlt new
    have hlt' := hlt
    rw [length_downItems (h.count v hv)] at hlt'
    rw [replaceThing_rest, length_topItems]
    push_cast
    rw [atTop_down hv hlt']
    constructor
    · simp only [things, topItems, downItems, hv, Option.map_some, Option.getD_some, ht, hd]
      rw [List.set_append_right _ _ (by simp), List.length_map, Nat.add_sub_cancel_left,
        List.set_append_right _ _ (by rw [List.length_map, length_topItems]; omega),
        List.length_map, length_topItems, Nat.add_sub_cancel,
        List.set_append_right _ _ (by simp), List.length_map, Nat.add_sub_cancel, List.map_set]
    · refine h.replaceAt hv ?_ hnew ?_ ?_
      · exact lt_of_lt_of_le hlt (List.length_take_le' _ _)
      · rw [hd]
        intro j hj
        rcases List.mem_or_eq_of_mem_set hj with hj | rfl
        · exact h.down v hv j hj
        · rw [hc]
          exact h.down v hv _ hmem
      · rw [ht]
        exact h.top v hv

end ReplaceThing

variable {tile} {isAlwaysOnTop : ι → Bool}

/-- **Indices and things are inverse.** The index of a thing leads back to it,
every index below the count leads to a thing with that index, and replacing an
item by a new one of its class changes what stands at its index and nothing else. -/
theorem index_inverse (h : tile.Ok isAlwaysOnTop) :
    (∀ t, tile.Has t → ∃ i : ℕ, tile.getThingIndex isAlwaysOnTop t = i ∧
      tile.getThing i = some t) ∧
    (∀ i < tile.getThingCount, ∃ t, tile.getThing i = some t ∧
      tile.getThingIndex isAlwaysOnTop t = i) ∧
    (∀ i, tile.getThingCount ≤ i → tile.getThing i = none) ∧
    (∀ (old new : ι) (i : ℕ), tile.Has (.item old) → ¬ tile.Has (.item new) →
      (tile.ground = some old ∨ isAlwaysOnTop new = isAlwaysOnTop old) →
      tile.getThingIndex isAlwaysOnTop (.item old) = i →
      (tile.replaceThing i (.item new)).getThing i = some (.item new) ∧
      (tile.replaceThing i (.item new)).getThingIndex isAlwaysOnTop (.item new) = i ∧
      (∀ j, j ≠ i → (tile.replaceThing i (.item new)).getThing j = tile.getThing j) ∧
      (∀ t, tile.Has t → t ≠ .item old →
        (tile.replaceThing i (.item new)).getThingIndex isAlwaysOnTop t =
          tile.getThingIndex isAlwaysOnTop t)) := by
  have hindex : ∀ t, tile.Has t → ∃ i : ℕ, tile.getThingIndex isAlwaysOnTop t = i ∧
      tile.things[i]? = some t := by
    intro t ht
    obtain ⟨i, hi⟩ := List.getElem?_of_mem ((mem_things t).2 ht)
    exact ⟨i, getThingIndex_of_getElem h hi, hi⟩
  refine ⟨?_, ?_, ?_, ?_⟩
  · intro t ht
    obtain ⟨i, h1, h2⟩ := hindex t ht
    exact ⟨i, h1, by rw [getThing_eq, h2]⟩
  · intro i hi
    rw [← length_things h] at hi
    have hget : tile.things[i]? = some tile.things[i] := List.getElem?_eq_getElem hi
    exact ⟨_, by rw [getThing_eq, hget], getThingIndex_of_getElem h hget⟩
  · intro i hi
    rw [getThing_eq, List.getElem?_eq_none]
    rw [length_things h]
    exact hi
  · intro old new i hold hnew hclass hi
    obtain ⟨k, h1, h2⟩ := hindex _ hold
    obtain rfl : k = i := by exact_mod_cast h1.symm.trans hi
    obtain ⟨hset, hok⟩ := replaceThing_spec h h2 hnew hclass
    have hlt : k < tile.things.length := (List.getElem?_eq_some_iff.1 h2).1
    have hnewAt : (tile.replaceThing k (.item new)).things[k]? = some (.item new) := by
      rw [hset, List.getElem?_set_self hlt]
    have helse : ∀ j, j ≠ k →
        (tile.replaceThing k (.item new)).things[j]? = tile.things[j]? := by
      intro j hj
      rw [hset, List.getElem?_set_ne hj.symm]
    refine ⟨?_, getThingIndex_of_getElem hok hnewAt, ?_, ?_⟩
    · rw [getThing_eq, hnewAt]
    · intro j hj
      rw [getThing_eq, getThing_eq, helse j hj]
    · intro t ht hne
      obtain ⟨j, h3, h4⟩ := hindex t ht
      have hj : j ≠ k := by
        rintro rfl
        rw [h4] at h2
        exact hne (Option.some.inj h2)
      rw [h3]
      exact getThingIndex_of_getElem hok ((helse j hj).trans h4)

/-- A tile with ground 1, the down item 4, the top items 2 and 3 and creature 7. -/
def crowded : Tile ℕ ℕ :=
  { ground := some 1, items := some ⟨[4, 2, 3], 1⟩, creatures := some [7] }

/-- The items of `crowded` that are always on top, and one more. -/
def crowdedOnTop (i : ℕ) : Bool := i == 2 || i == 3 || i == 9

theorem crowded_ok : crowded.Ok crowdedOnTop := by
  constructor <;> simp [crowded, crowdedOnTop, TileItemVector.downItems, TileItemVector.topItems]

theorem index_inverse_crowded :
    crowded.getThingIndex crowdedOnTop (.item 3) = 2 ∧
      (crowded.replaceThing 2 (.item 9)).getThing 2 = some (.item 9) ∧
      (crowded.replaceThing 2 (.item 9)).getThing 4 = some (.item 4) := by
  have h3 : crowded.getThingIndex crowdedOnTop (.item 3) = 2 := by decide
  obtain ⟨h1, -, h2, -⟩ := (index_inverse crowded_ok).2.2.2 3 9 2 (.inr ⟨_, rfl, by decide⟩)
    (by simp [crowded, Has]) (.inr rfl) h3
  exact ⟨h3, h1, (h2 4 (by decide)).trans rfl⟩

end Tile
end TileStack
end ForgottenServer
