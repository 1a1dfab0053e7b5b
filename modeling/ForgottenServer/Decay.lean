/-
# Decaying items

An item that decays waits in `toDecayItems` until the next `cleanup`, and then
in one of the four buckets `decayItems`. Every 250 ms `checkDecay` goes through
one bucket: it takes up to a second off the duration of each item there, and
decays the items whose time is up into another type or out of the world. The
decay state of an item says whether it waits in these lists. It is an attribute
of the item, and `Item::setID` sets it back without looking at the lists.

Objects are named by their place in memory; what the parent of an item answers
is data of the item.

Key definitions: `State`, `transformItem`, `internalRemoveItem`, `startDecay`,
`internalDecayItem`, `turn`, `checkDecay`, `cleanup`, `Watched.step`.
Key theorems: `Item.isDecaying_setID`, `State.count_push`, `State.decays_setThing`.
-/
import Mathlib.Tactic
import ForgottenServer.Lib.Run
import ForgottenServer.ItemRestore

namespace ForgottenServer

namespace Item

/-- `DECAYING_TRUE` -/
def isDecaying (it : Item) : Bool := it.getDecaying = 1

/-- `Item::getDuration`, a `uint32_t`. -/
def getDuration (it : Item) : ℕ := uint 4 (it.getIntAttr .duration)

/-- `Item::increaseIntAttr` -/
def increaseIntAttr (it : Item) (t : ItemAttr) (n : ℤ) : Item :=
  { it with attributes := some (it.getAttributes.setIntAttr t (it.getAttributes.getIntAttr t + n)) }

def decreaseDuration (it : Item) (time : ℤ) : Item := it.increaseIntAttr .duration (-time)

/-- `setID` takes the decay state away, or sets it to `DECAYING_FALSE`. -/
def SetBack (items : UInt16 → ItemType) (it : Item) (newid : UInt16) : Prop :=
  ((items newid).decayTime * 1000 = 0 ∧ ¬ (items newid).stopTime ∧ (items newid).decayTo < 0) ∨
    (0 < (items newid).decayTime * 1000 ∧
      (¬ (items it.id).stopTime ∨ ¬ it.hasAttribute .duration))

instance (items : UInt16 → ItemType) (it : Item) (newid : UInt16) :
    Decidable (it.SetBack items newid) := inferInstanceAs (Decidable (_ ∨ _))

section DecayState

variable {it : Item}

theorem isDecaying_congr {a b : Item} (h : a.existing .decayState = b.existing .decayState) :
    a.isDecaying = b.isDecaying := by
  unfold isDecaying getDecaying
  rw [getIntAttr_congr rfl h]

theorem isDecaying_setDecaying (it : Item) {n : ℕ} (hn : n < 2 ^ 8) :
    (it.setDecaying n).isDecaying = decide (n = 1) := by
  have h : (it.setDecaying n).existing .decayState = some (.integer (int32 n)) := by
    unfold setDecaying
    rw [existing_setIntAttr _ _ rfl, if_pos rfl]
  have hr : int32 n = n := int32_of_range ⟨by omega, by omega⟩
  unfold isDecaying getDecaying
  rw [getIntAttr_of_existing h rfl, hr, hr, uint_natCast (by omega)]

theorem isDecaying_of_none (h : it.existing .decayState = none) : it.isDecaying = false := by
  unfold isDecaying getDecaying
  rw [getIntAttr_of_none h]
  rfl

@[simp] theorem isDecaying_setSubType (items : UInt16 → ItemType) (it : Item) (n : ℕ) :
    (it.setSubType items n).isDecaying = it.isDecaying :=
  isDecaying_congr (existing_setSubType it n (by decide) (by decide))

theorem setDefaultSubtype_id (items : UInt16 → ItemType) (it : Item) :
    (it.setDefaultSubtype items).id = it.id := by
  unfold setDefaultSubtype
  dsimp only
  split_ifs <;> rfl

theorem existing_setDefaultSubtype (items : UInt16 → ItemType) (it : Item) {t : ItemAttr}
    (ht : t ≠ .charges) : (it.setDefaultSubtype items).existing t = it.existing t := by
  unfold setDefaultSubtype
  dsimp only
  split_ifs
  · rfl
  · rw [setCharges, existing_setIntAttr _ _ rfl, if_neg ht]
    rfl
  · rfl

theorem existing_decreaseDuration (it : Item) (time : ℤ) (u : ItemAttr) :
    (it.decreaseDuration time).existing u =
      if u = .duration then
        some (.integer (it.getAttributes.getIntAttr .duration + -time))
      else it.existing u := by
  unfold decreaseDuration increaseIntAttr ItemAttributes.setIntAttr existing
  rw [dif_pos (show ItemAttr.duration.isInt from rfl), Option.bind_some,
    ItemAttributes.existing_set, existing_getAttributes]
  rfl

@[simp] theorem isDecaying_decreaseDuration (it : Item) (time : ℤ) :
    (it.decreaseDuration time).isDecaying = it.isDecaying := by
  apply isDecaying_congr
  rw [existing_decreaseDuration, if_neg (by decide)]

/-- What `setID` does with the decay state. -/
theorem isDecaying_setID (items : UInt16 → ItemType) (it : Item) (newid : UInt16) :
    (it.setID items newid).isDecaying = (it.isDecaying && !decide (it.SetBack items newid)) := by
  unfold setID
  dsimp only
  by_cases h1 : (items newid).decayTime * 1000 = 0 ∧ ¬ (items newid).stopTime ∧
      (items newid).decayTo < 0
  · have hs : it.SetBack items newid := .inl h1
    have h0 : ¬ (0 < (items newid).decayTime * 1000) := by rw [h1.1]; decide
    rw [if_pos h1, if_neg fun h => h0 h.1, decide_eq_true hs, Bool.not_true, Bool.and_false]
    apply isDecaying_of_none
    rw [existing_removeAttribute, if_neg (by decide), existing_removeAttribute,
      if_neg (by decide), existing_removeAttribute, if_pos rfl]
  rw [if_neg h1]
  have hd : (({ it with id := newid } : Item).removeAttribute .corpseOwner).hasAttribute .duration =
      it.hasAttribute .duration := by
    rw [hasAttribute_eq, existing_removeAttribute, if_neg (by decide), hasAttribute_eq]
    rfl
  rw [hd]
  by_cases h2 : 0 < (items newid).decayTime * 1000 ∧
      (¬ (items it.id).stopTime ∨ ¬ it.hasAttribute .duration)
  · have hs : it.SetBack items newid := .inr h2
    rw [if_pos h2, decide_eq_true hs, Bool.not_true, Bool.and_false, setDuration]
    rw [isDecaying_congr (b := (({ it with id := newid } : Item).removeAttribute
      .corpseOwner).setDecaying 0) (by rw [existing_setIntAttr _ _ rfl, if_neg (by decide)]; rfl)]
    exact isDecaying_setDecaying _ (by decide)
  · have hs : ¬ it.SetBack items newid := by
      rintro (h | h)
      · exact h1 h
      · exact h2 h
    rw [if_neg h2, decide_eq_false hs, Bool.not_false, Bool.and_true]
    apply isDecaying_congr
    rw [existing_removeAttribute, if_neg (by decide)]
    rfl

/-- The subtype does not count for what `setID` does with the decay state. -/
theorem isDecaying_setID_setDefaultSubtype (items : UInt16 → ItemType) (it : Item)
    (newid : UInt16) :
    ((it.setDefaultSubtype items).setID items newid).isDecaying =
      (it.setID items newid).isDecaying := by
  have hd : (it.setDefaultSubtype items).hasAttribute .duration = it.hasAttribute .duration := by
    rw [hasAttribute_eq, existing_setDefaultSubtype items it (by decide), hasAttribute_eq]
  have hs : (it.setDefaultSubtype items).SetBack items newid ↔ it.SetBack items newid := by
    unfold SetBack
    rw [hd, setDefaultSubtype_id]
  rw [isDecaying_setID, isDecaying_setID, decide_eq_decide.2 hs,
    isDecaying_congr (existing_setDefaultSubtype items it (by decide))]

/-- A new item is not decaying. -/
theorem isDecaying_createItem {items : UInt16 → ItemType} {type : UInt16} {n : ℕ}
    (h : createItem items type n = some it) : it.isDecaying = false := by
  have hc : ∃ cls id m, it = construct items cls id m := by
    unfold createItem at h
    dsimp only at h
    split_ifs at h with h1 h2 h3
    all_goals split at h <;> exact ⟨_, _, _, (Option.some.inj h).symm⟩
  obtain ⟨cls, id, m, rfl⟩ := hc
  exact isDecaying_of_none (existing_construct items (by decide) (by decide) (by simp))

end DecayState

end Item

namespace Decay

/-- `EVENT_DECAYINTERVAL` -/
def decayInterval : ℤ := 250

/-- `EVENT_DECAY_BUCKETS` -/
def decayBuckets : ℕ := 4

instance decayBuckets_neZero : NeZero decayBuckets := ⟨by decide⟩

abbrev Bucket := Fin decayBuckets

/-- `EVENT_DECAYINTERVAL * EVENT_DECAY_BUCKETS` -/
def decayCycle : ℤ := decayInterval * decayBuckets

/-- A pointer to an item. -/
abbrev Ref := ℕ

/-- What holds an item: a container, or a part of the world that says itself
whether it is removed. -/
inductive Cylinder
  | container (r : Ref)
  | world (removed : Bool)
  deriving DecidableEq

/-- The parent of an item and what it answers about the item. -/
structure Parent where
  cylinder : Cylinder
  /-- `getThingIndex(item) != -1` -/
  hasThing : Bool := true
  /-- the item has a parent again after `removeThing` and `addThing` -/
  keeps : Bool := true
  deriving DecidableEq

/-- An object of class `Item`. -/
structure Thing where
  item : Item
  parent : Option Parent := none
  canTransform : Bool := true
  canRemove : Bool := true
  referenceCounter : UInt32 := 1
  deriving DecidableEq

/-- The members of `Game` that the decay of items uses, and the items. -/
structure State where
  things : Ref → Thing
  /-- the next object -/
  next : Ref
  decayItems : Bucket → List Ref := fun _ => []
  toDecayItems : List Ref := []
  toReleaseItems : List Ref := []
  lastBucket : Bucket := 0

namespace State

variable (s : State)

def item (r : Ref) : Item := (s.things r).item

/-- The items that wait, in all five lists. -/
def queued : List Ref := s.toDecayItems ++ (List.finRange decayBuckets).flatMap s.decayItems

/-- The item is in state `DECAYING_TRUE` and has a parent. -/
def Decays (r : Ref) : Prop := (s.item r).isDecaying ∧ (s.things r).parent ≠ none

def setThing (r : Ref) (t : Thing) : State := { s with things := Function.update s.things r t }

def setItem (r : Ref) (it : Item) : State := s.setThing r { s.things r with item := it }

/-- `setParent(nullptr)` -/
def detach (r : Ref) : State := s.setThing r { s.things r with parent := none }

def releaseItem (r : Ref) : State := { s with toReleaseItems := s.toReleaseItems ++ [r] }

def push (bucket : Bucket) (r : Ref) : State :=
  { s with decayItems := Function.update s.decayItems bucket (s.decayItems bucket ++ [r]) }

@[simp] theorem queued_setItem (r : Ref) (it : Item) : (s.setItem r it).queued = s.queued := rfl

theorem count_queued (r : Ref) :
    s.queued.count r = s.toDecayItems.count r + ∑ b, (s.decayItems b).count r := by
  unfold queued
  rw [List.count_append, List.count_flatMap, Fin.sum_univ_def]
  rfl

@[simp] theorem decayItems_push_self (bucket : Bucket) (r : Ref) :
    (s.push bucket r).decayItems bucket = s.decayItems bucket ++ [r] :=
  Function.update_self ..

theorem decayItems_push_of_ne {b bucket : Bucket} (r : Ref) (h : b ≠ bucket) :
    (s.push bucket r).decayItems b = s.decayItems b :=
  Function.update_of_ne h ..

theorem count_push (bucket : Bucket) (r q : Ref) :
    (s.push bucket r).queued.count q = s.queued.count q + [r].count q := by
  have hsum : ∑ b, ((s.push bucket r).decayItems b).count q =
      (∑ b, (s.decayItems b).count q) + [r].count q := by
    calc ∑ b, ((s.push bucket r).decayItems b).count q
        = ∑ b, ((s.decayItems b).count q + if b = bucket then [r].count q else 0) := by
          refine Finset.sum_congr rfl fun b _ => ?_
          by_cases hb : b = bucket
          · subst hb
            rw [if_pos rfl, decayItems_push_self, List.count_append]
          · rw [if_neg hb, add_zero, s.decayItems_push_of_ne r hb]
      _ = (∑ b, (s.decayItems b).count q) + [r].count q := by
          rw [Finset.sum_add_distrib, Finset.sum_ite_eq', if_pos (Finset.mem_univ _)]
  rw [count_queued, count_queued, hsum, ← add_assoc]
  rfl

@[simp] theorem things_setThing_self (r : Ref) (t : Thing) : (s.setThing r t).things r = t :=
  Function.update_self ..

theorem things_setThing_of_ne {r q : Ref} (t : Thing) (h : q ≠ r) :
    (s.setThing r t).things q = s.things q :=
  Function.update_of_ne h ..

theorem decays_setThing {r q : Ref} {t : Thing} :
    (s.setThing r t).Decays q ↔
      if q = r then t.item.isDecaying ∧ t.parent ≠ none else s.Decays q := by
  unfold Decays item
  by_cases hq : q = r
  · subst hq
    rw [if_pos rfl, things_setThing_self]
  · rw [if_neg hq, things_setThing_of_ne s t hq]

theorem item_setItem_self (r : Ref) (it : Item) : (s.setItem r it).item r = it := by
  unfold item setItem
  rw [things_setThing_self]

theorem setItem_setItem (r : Ref) (a b : Item) : (s.setItem r a).setItem r b = s.setItem r b := by
  unfold setItem
  rw [things_setThing_self]
  unfold setThing
  rw [Function.update_idem]

/-- An item that does not begin to decay. -/
theorem decays_setItem {r q : Ref} {it : Item} (hit : it.isDecaying → (s.item r).isDecaying)
    (h : (s.setItem r it).Decays q) : s.Decays q := by
  unfold setItem at h
  rw [decays_setThing] at h
  split at h
  · next hq => exact hq ▸ ⟨hit h.1, h.2⟩
  · exact h

theorem decays_detach {r q : Ref} (h : (s.detach r).Decays q) : q ≠ r ∧ s.Decays q := by
  unfold detach at h
  rw [decays_setThing] at h
  split at h
  · exact absurd rfl h.2
  · next hq => exact ⟨hq, h⟩

/-- `isRemoved`, up the parents; the first argument bounds how far. -/
def isRemovedUp : ℕ → Ref → Bool
  | 0, _ => true
  | n + 1, r =>
    match (s.things r).parent with
    | none => true
    | some p =>
      match p.cylinder with
      | .container q => isRemovedUp n q
      | .world removed => removed

def isRemoved (r : Ref) : Bool := s.isRemovedUp s.next r

end State

section Types

variable (items : UInt16 → ItemType)

/-- `Item::canDecay` -/
def canDecay (s : State) (r : Ref) : Bool :=
  !s.isRemoved r &&
  !((items (s.item r).id).decayTo < 0 || (items (s.item r).id).decayTime = 0) &&
  !(s.item r).hasAttribute .uniqueId

/-! ### Removing and transforming -/

/-- `Game::internalRemoveItem`, of the whole item. -/
def internalRemoveItem (s : State) (r : Ref) : State :=
  match (s.things r).parent with
  | none => s
  | some p =>
    -- `queryRemove`
    if !p.hasThing || (s.item r).count = 0 then s
    else if !(s.things r).canRemove then s
    else (s.detach r).releaseItem r

/-- A new item in the place of the old one. -/
def replaceThing (s : State) (r : Ref) (p : Parent) : Option Item → State × Option Ref
  | none => (s, none)
  | some newItem =>
    let thing : Thing :=
      { item := newItem, parent := some p, canRemove := newItem.cls ≠ .depotLocker }
    ((({ s with next := s.next + 1 }.setThing s.next thing).detach r).releaseItem r, some s.next)

/-- `updateThing` of a tile, a container or a player. -/
def updateThing (s : State) (r : Ref) (itemId : UInt16) (count : ℤ) : State :=
  s.setItem r (((s.item r).setID items itemId).setSubType items (uint 2 count))

/-- `transformItem` between a top item and a down item: the item is removed,
changed and added again. -/
def transformOnTop (s : State) (r : Ref) (p : Parent) (newId : UInt16) (newCount : ℤ) :
    State × Option Ref :=
  let changed := (s.item r).setID items newId
  let changed := if newCount ≠ -1 then changed.setSubType items (uint 2 newCount) else changed
  if p.keeps then (s.setItem r changed, some r)
  else (((s.setItem r changed).detach r).releaseItem r, none)

/-- `transformItem` of an item that is used up. -/
def transformUsedUp (s : State) (r : Ref) (p : Parent) (newId : UInt16)
    (again : State × Option Ref) : State × Option Ref :=
  let curType := items (s.item r).id
  if curType.stackable then (internalRemoveItem s r, none)
  else
    let newItemId : ℤ := if curType.id = (items newId).id then curType.decayTo else newId.toNat
    if newItemId < 0 then (internalRemoveItem s r, none)
    else if newItemId ≠ newId.toNat then
      replaceThing s r p (Item.createItem items (.ofNat (uint 2 newItemId)) 1)
    else again

/-- `transformItem` of an item into one of the same type. -/
def transformSame (s : State) (r : Ref) (newId : UInt16) (newCount : ℤ) : State :=
  let item := s.item r
  let newType := items newId
  let curType := items item.id
  let itemId := if curType.id ≠ newType.id then newId else item.id
  let count : ℤ :=
    if newCount ≠ -1 ∧ newType.hasSubType then newCount else item.getSubType items
  if curType.id ≠ newType.id ∧ newType.group ≠ curType.group then
    updateThing items (s.setItem r (item.setDefaultSubtype items)) r itemId count
  else updateThing items s r itemId count

/-- The body of `Game::transformItem`; the last argument is its call of itself. -/
def transformItemWith (s : State) (r : Ref) (newId : UInt16) (newCount : ℤ)
    (again : State × Option Ref) : State × Option Ref :=
  let item := s.item r
  let newType := items newId
  let curType := items item.id
  if item.id = newId ∧ (newCount = -1 ∨ (newCount = item.getSubType items ∧ newCount ≠ 0)) then
    (s, some r)
  else
    match (s.things r).parent with
    | none => (s, none)
    | some p =>
      if !p.hasThing then (s, some r)
      else if !(s.things r).canTransform then (s, some r)
      else if newType.id = 0 then (s, some r)
      else if curType.alwaysOnTop ≠ newType.alwaysOnTop then
        transformOnTop items s r p newId newCount
      else if curType.type = newType.type then
        if newCount = 0 ∧ (curType.stackable ∨ item.hasAttribute .charges) then
          transformUsedUp items s r p newId again
        else (transformSame items s r newId newCount, some r)
      else
        replaceThing s r p
          (Item.createItem items newId (if newCount = -1 then 0 else uint 2 newCount))

/-- `Game::transformItem` -/
def transformItem (s : State) (r : Ref) (newId : UInt16) (newCount : ℤ) : State × Option Ref :=
  transformItemWith items s r newId newCount
    (transformItemWith items s r newId (-1) (s, none))

/-! ### The queues -/

mutual

/-- `Game::startDecay`, with a bound on the depth of the calls. -/
def startDecay : ℕ → State → Option Ref → Option State
  | 0, _, _ => none
  | _ + 1, s, none => some s
  | depth + 1, s, some r =>
    if !canDecay items s r then some s
    else if (s.item r).isDecaying then some s
    else if 0 < (s.item r).getDuration then
      let thing :=
        { s.things r with
          item := (s.item r).setDecaying 1
          referenceCounter := (s.things r).referenceCounter + 1 }
      some { s.setThing r thing with toDecayItems := r :: s.toDecayItems }
    else internalDecayItem depth s r

/-- `Game::internalDecayItem` -/
def internalDecayItem : ℕ → State → Ref → Option State
  | 0, _, _ => none
  | depth + 1, s, r =>
    let decayTo := (items (s.item r).id).decayTo
    if decayTo ≠ 0 then
      let transformed := transformItem items s r (.ofNat (uint 2 decayTo)) (-1)
      startDecay depth transformed.1 transformed.2
    else some (internalRemoveItem s r)

end

/-- What `checkDecay` does with an item of the bucket: an item that is kept
stays in the buckets. -/
inductive Outcome
  | dropped | decayed | kept
  deriving DecidableEq

/-- What is left of the duration of an item after its turn. -/
def leftTime (it : Item) : ℤ :=
  int32 it.getDuration - min decayCycle (int32 it.getDuration)

/-- One turn of the loop of `Game::checkDecay`. The lists hold what the iterator
has passed. -/
def turn (depth : ℕ) (bucket : Bucket) (s : State) (r : Ref) : Option (State × Outcome) :=
  if !canDecay items s r then
    some ((s.setItem r ((s.item r).setDecaying 0)).releaseItem r, .dropped)
  else
    let decreaseTime := min decayCycle (int32 (s.item r).getDuration)
    let duration := leftTime (s.item r)
    let s := s.setItem r ((s.item r).decreaseDuration decreaseTime)
    if duration ≤ 0 then
      (internalDecayItem items depth s r).map fun s => (s.releaseItem r, .decayed)
    else if duration < decayCycle then
      let newBucket := Fin.ofNat decayBuckets (bucket + ((duration + decayInterval / 2) / 1000).toNat)
      if newBucket = bucket then
        (internalDecayItem items depth s r).map fun s => (s.releaseItem r, .decayed)
      else some (s.push newBucket r, .kept)
    else some (s.push bucket r, .kept)

/-- The loop of `Game::checkDecay`. -/
def turns (depth : ℕ) (bucket : Bucket) :
    State → List Ref → Option (State × List (Ref × Outcome))
  | s, [] => some (s, [])
  | s, r :: rest =>
    (turn items depth bucket s r).bind fun (s, outcome) =>
      (turns depth bucket s rest).map fun (s, outcomes) => (s, (r, outcome) :: outcomes)

end Types

/-- `decrementReferenceCounter` -/
def decrementReferenceCounter (things : Ref → Thing) (r : Ref) : Ref → Thing :=
  Function.update things r
    { things r with referenceCounter := (things r).referenceCounter - 1 }

/-- An item of `toDecayItems` goes into its bucket. -/
def enqueue (s : State) (r : Ref) : State :=
  let dur := (s.item r).getDuration
  if decayCycle ≤ dur then s.push s.lastBucket r
  else s.push (Fin.ofNat decayBuckets (s.lastBucket + 1 + dur / 1000)) r

/-- `Game::cleanup` -/
def cleanup (s : State) : State :=
  let s :=
    { s with
      things := s.toReleaseItems.foldl decrementReferenceCounter s.things
      toReleaseItems := [] }
  { s.toDecayItems.foldl enqueue s with toDecayItems := [] }

section Types

variable (items : UInt16 → ItemType)

/-- `Game::checkDecay`, and what it did with the items of its bucket. -/
def checkDecay (depth : ℕ) (s : State) : Option (State × List (Ref × Outcome)) :=
  let bucket := s.lastBucket + 1
  (turns items depth bucket { s with decayItems := Function.update s.decayItems bucket [] }
    (s.decayItems bucket)).map fun (s, outcomes) =>
      (cleanup { s with lastBucket := bucket }, outcomes)

/-! ### Runs -/

/-- What happens to the items of the world. The first argument of the two
functions that call themselves bounds the depth of the calls. -/
inductive Action
  | appear (thing : Thing)
  | move (r : Ref) (parent : Parent)
  | startDecay (depth : ℕ) (r : Ref)
  | transformItem (r : Ref) (newId : UInt16) (newCount : ℤ)
  | removeItem (r : Ref)
  | checkDecay (depth : ℕ)
  | cleanup

/-- The state, and what every `checkDecay` so far did, the newest first. -/
structure Watched where
  state : State
  passes : List (List (Ref × Outcome)) := []

/-- A new item is not decaying: a constructor sets no decay state, and
`unserialize` sets `DECAYING_PENDING`. -/
def appear (s : State) (thing : Thing) : State :=
  if thing.item.isDecaying then s
  else { s.setThing s.next thing with next := s.next + 1 }

/-- An item with a parent gets another. -/
def move (s : State) (r : Ref) (parent : Parent) : State :=
  if (s.things r).parent = none then s
  else s.setThing r { s.things r with parent := some parent }

/-- One step. Only objects that exist take part; a call that is too deep leaves
the state alone. -/
def Watched.step (w : Watched) : Action → Watched
  | .appear thing => { w with state := appear w.state thing }
  | .move r parent => { w with state := move w.state r parent }
  | .startDecay depth r =>
    if r < w.state.next then
      { w with state := (startDecay items depth w.state (some r)).getD w.state }
    else w
  | .transformItem r newId newCount =>
    if r < w.state.next then
      { w with state := (transformItem items w.state r newId newCount).1 }
    else w
  | .removeItem r => { w with state := internalRemoveItem w.state r }
  | .checkDecay depth =>
    match checkDecay items depth w.state with
    | some (s, outcomes) => { state := s, passes := outcomes :: w.passes }
    | none => w
  | .cleanup => { w with state := cleanup w.state }

end Types

end Decay
end ForgottenServer
