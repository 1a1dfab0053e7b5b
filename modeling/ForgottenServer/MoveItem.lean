/-
# Moving an item

`Game::internalMoveItem` follows the redirections of the destination, asks the
two cylinders, and then takes the item, or a part of its count, out of one and
puts it into the other. Where another item is in the way, the two are exchanged:
the item in the way goes to the source first, and the questions are asked again.

Key definitions: `internalMoveItem`, `Exchanges`, `Cleared`.
Key theorems: `internalMoveItem_cases`, `internalMoveItem_of_exchanges`.
-/
import ForgottenServer.InventoryPlaces

namespace ForgottenServer
namespace Inventory

variable (cfg : Config)

/-- `MAP_MAX_LAYERS` -/
def mapMaxLayers : ℕ := 16

/-- The loop over `queryDestination`; the first argument counts the redirections
that are left. -/
def findDestination (s : State) (item : Ref) : ℕ → Destination → Destination
  | 0, d => d
  | n + 1, d =>
    let subCylinder := queryDestination cfg s d.index item d.destItem d.flags d.cylinder
    if subCylinder.cylinder = d.cylinder then subCylinder
    else findDestination s item n { subCylinder with flags := {} }

/-- The count that is moved. -/
def moveCount (s : State) (item : Ref) (count maxQueryCount : ℕ) : ℕ :=
  if (s.type cfg item).stackable then
    if (s.type cfg item).isRune then min (s.item item).count maxQueryCount
    else min count maxQueryCount
  else maxQueryCount

/-- The part of the count that is put on the item that is there. -/
def mergeCount (s : State) (item : Ref) (toItem : Option Ref) (m : ℕ) : ℕ :=
  match toItem with
  | some x =>
    if !(s.type cfg item).isRune && s.equals item toItem then min (uint 4 (100 - (s.item x).count)) m
    else 0
  | none => 0

/-- What is left of the count is put into the destination, as the item itself
or as a new one. -/
def addRest (s : State) (toCylinder : Cylinder) (index : ℤ) (item : Ref) (newCount : ℕ) :
    Option (State × Option Ref) :=
  if (s.type cfg item).stackable then
    if 0 < newCount then
      (addThing cfg (s.clone item newCount) index s.next toCylinder).map fun s' => (s', some s.next)
    else some (s, none)
  else (addThing cfg s index item toCylinder).map fun s' => (s', some item)

/-- `postAddNotification` for an item that has an index in the cylinder. -/
def notifyAdded (s : State) (item : Option Ref) (c : Cylinder) : State :=
  match item with
  | some x => if s.getThingIndex cfg.items x c = -1 then s else postAddNotification cfg s x c
  | none => s

/-- `postRemoveNotification` for an item that had an index in the cylinder. -/
def notifyRemoved (s : State) (index : ℤ) (c : Cylinder) : State :=
  if index = -1 then s else postRemoveNotification cfg.items s c

/-- The item is removed, put on the item that is there, and the rest added. -/
def transfer (s : State) (fromCylinder toCylinder : Cylinder) (index : ℤ) (item : Ref)
    (toItem : Option Ref) (m : ℕ) : Option State :=
  let itemIndex := s.getThingIndex cfg.items item fromCylinder
  let s := removeThing cfg s item m fromCylinder
  let n := if (s.type cfg item).stackable then mergeCount cfg s item toItem m else 0
  let merges := (s.type cfg item).stackable && !(s.type cfg item).isRune && s.equals item toItem
  let updateItem := if merges then toItem else none
  let s :=
    match updateItem with
    | some x => updateThing cfg s x (s.item x).id ((s.item x).count + n) toCylinder
    | none => s
  (addRest cfg s toCylinder index item (m - n)).map fun (s, moveItem) =>
    let s := notifyRemoved cfg s itemIndex fromCylinder
    let s := notifyAdded cfg s moveItem toCylinder
    notifyAdded cfg s updateItem toCylinder

/-- The cylinder is the item, or lies in it. -/
def isWithin (s : State) (item : Ref) (c : Cylinder) : Bool := s.isHeldInUp item (s.next + 3) (some c)

/-- `internalMoveItem` from the question for the count on. -/
def moveChecked (s : State) (fromCylinder toCylinder : Cylinder) (index : ℤ) (item : Ref) (count : ℕ)
    (toItem : Option Ref) (flags : Flags) (tradeItem : Option Ref) : Option (ReturnValue × State) :=
  let answer := queryMaxCount cfg s index item count flags toCylinder
  let retMaxCount := answer.1
  let maxQueryCount := answer.2
  if retMaxCount ≠ .noError ∧ maxQueryCount = 0 then some (retMaxCount, s)
  else
    let m := moveCount cfg s item count maxQueryCount
    let ret := queryRemove cfg s item m flags fromCylinder
    if ret ≠ .noError then some (ret, s)
    else if tradeItem.any fun x => isWithin s x toCylinder then some (.notEnoughRoom, s)
    else
      (transfer cfg s fromCylinder toCylinder index item toItem m).map fun s' =>
        (if (s.type cfg item).stackable ∧ maxQueryCount < count then retMaxCount else ret, s')

/-- The item in the way goes to the source. -/
def exchange (s : State) (fromCylinder toCylinder : Cylinder) (toItem : Ref) : Option State :=
  let oldToItemIndex := s.getThingIndex cfg.items toItem toCylinder
  let s := removeThing cfg s toItem (s.item toItem).count toCylinder
  (addThingFront cfg s toItem fromCylinder).map fun s =>
    notifyAdded cfg (notifyRemoved cfg s oldToItemIndex toCylinder) (some toItem) fromCylinder

/-- `Game::internalMoveItem`. Where an exchange is asked for and there is no
item to exchange, a null pointer is followed. -/
def internalMoveItem (s : State) (fromCylinder toCylinder : Cylinder) (index : ℤ) (item : Ref)
    (count : UInt32) (flags : Flags) (actor : Option CreatureId) (tradeItem : Option Ref) :
    Option (ReturnValue × State) :=
  let count := count.toNat
  let d := findDestination cfg s item mapMaxLayers ⟨toCylinder, index, none, flags⟩
  let move s toItem :=
    moveChecked cfg s fromCylinder d.cylinder d.index item count toItem d.flags tradeItem
  if d.destItem = some item then some (.noError, s)
  else
    match queryAdd cfg s d.index item count d.flags actor d.cylinder with
    | .noError => move s d.destItem
    | .needExchange =>
      match d.destItem with
      | none => none
      | some toItem =>
        let toCount := (s.item toItem).count
        let ret := queryAdd cfg s (s.getThingIndex cfg.items item fromCylinder) toItem toCount {} none
          fromCylinder
        let answer := queryMaxCount cfg s indexWhereever toItem toCount {} fromCylinder
        if ret ≠ .noError then some (ret, s)
        else if answer.1 ≠ .noError ∧ answer.2 = 0 then some (answer.1, s)
        else if queryRemove cfg s toItem toCount d.flags d.cylinder = .noError then
          (exchange cfg s fromCylinder d.cylinder toItem).bind fun s =>
            let ret := queryAdd cfg s d.index item count d.flags none d.cylinder
            if ret ≠ .noError then some (ret, s) else move s none
        else move s d.destItem
    | ret => some (ret, s)

/-! ### The course of a move -/

section Course

variable {cfg} {s s' : State} {fromCylinder toCylinder c : Cylinder} {index : ℤ} {item x : Ref}
  {count : ℕ} {flags : Flags} {actor : Option CreatureId} {tradeItem toItem : Option Ref}
  {ret : ReturnValue} {d : Destination} {p : CreatureId}

/-- The exchange with the item in the way is begun. -/
structure Exchanges (cfg : Config) (s : State) (fromCylinder : Cylinder) (d : Destination)
    (item : Ref) (count : ℕ) (actor : Option CreatureId) (x : Ref) : Prop where
  asked : queryAdd cfg s d.index item count d.flags actor d.cylinder = .needExchange
  there : d.destItem = some x
  ne : x ≠ item
  taken : queryAdd cfg s (s.getThingIndex cfg.items item fromCylinder) x (s.item x).count {} none
    fromCylinder = .noError
  room : ¬ ((queryMaxCount cfg s indexWhereever x (s.item x).count {} fromCylinder).1 ≠ .noError ∧
    (queryMaxCount cfg s indexWhereever x (s.item x).count {} fromCylinder).2 = 0)
  removed : queryRemove cfg s x (s.item x).count d.flags d.cylinder = .noError

/-- The questions after `queryAdd` are answered so that the item is moved. -/
structure Cleared (cfg : Config) (s : State) (fromCylinder toCylinder : Cylinder) (index : ℤ)
    (item : Ref) (count : ℕ) (flags : Flags) (tradeItem : Option Ref) : Prop where
  room : ¬ ((queryMaxCount cfg s index item count flags toCylinder).1 ≠ .noError ∧
    (queryMaxCount cfg s index item count flags toCylinder).2 = 0)
  removed : queryRemove cfg s item
    (moveCount cfg s item count (queryMaxCount cfg s index item count flags toCylinder).2) flags
    fromCylinder = .noError
  trade : ¬ tradeItem.any fun x => isWithin s x toCylinder

theorem moveChecked_of_cleared
    (h : Cleared cfg s fromCylinder toCylinder index item count flags tradeItem) :
    moveChecked cfg s fromCylinder toCylinder index item count toItem flags tradeItem =
      let answer := queryMaxCount cfg s index item count flags toCylinder
      (transfer cfg s fromCylinder toCylinder index item toItem
        (moveCount cfg s item count answer.2)).map fun s' =>
          (if (s.type cfg item).stackable ∧ answer.2 < count then answer.1 else .noError, s') := by
  have hremoved := h.removed
  unfold moveChecked
  dsimp only
  rw [if_neg h.room, if_neg (not_not_intro hremoved), if_neg h.trade, hremoved]

variable (toItem) in
theorem moveChecked_of_not_cleared
    (h : ¬ Cleared cfg s fromCylinder toCylinder index item count flags tradeItem) :
    ∃ ret, ret ≠ .noError ∧
      moveChecked cfg s fromCylinder toCylinder index item count toItem flags tradeItem = some (ret, s) := by
  unfold moveChecked
  dsimp only
  by_cases hroom : (queryMaxCount cfg s index item count flags toCylinder).1 ≠ .noError ∧
      (queryMaxCount cfg s index item count flags toCylinder).2 = 0
  · rw [if_pos hroom]
    exact ⟨_, hroom.1, rfl⟩
  rw [if_neg hroom]
  split
  · next hremoved => exact ⟨_, hremoved, rfl⟩
  split
  · exact ⟨_, by decide, rfl⟩
  · next hremoved htrade => exact absurd ⟨hroom, not_not.1 hremoved, htrade⟩ h

/-- What a move comes to: nothing changes, or the item is moved as it is asked,
or an exchange is begun. -/
theorem internalMoveItem_cases {count : UInt32}
    (hd : d = findDestination cfg s item mapMaxLayers ⟨toCylinder, index, none, flags⟩)
    (h : internalMoveItem cfg s fromCylinder toCylinder index item count flags actor tradeItem =
      some (ret, s')) :
    s' = s ∨
    (∃ toItem, toItem = d.destItem ∧ toItem ≠ some item ∧
      (queryAdd cfg s d.index item count.toNat d.flags actor d.cylinder = .noError ∨
        ∃ x, d.destItem = some x ∧
          queryAdd cfg s d.index item count.toNat d.flags actor d.cylinder = .needExchange ∧
          queryRemove cfg s x (s.item x).count d.flags d.cylinder ≠ .noError) ∧
      moveChecked cfg s fromCylinder d.cylinder d.index item count.toNat toItem d.flags tradeItem =
        some (ret, s')) ∨
    ∃ x s₁, Exchanges cfg s fromCylinder d item count.toNat actor x ∧
      exchange cfg s fromCylinder d.cylinder x = some s₁ ∧
      if queryAdd cfg s₁ d.index item count.toNat d.flags none d.cylinder = .noError then
        moveChecked cfg s₁ fromCylinder d.cylinder d.index item count.toNat none d.flags tradeItem =
          some (ret, s')
      else ret ≠ .noError ∧ s' = s₁ := by
  unfold internalMoveItem at h
  dsimp only at h
  rw [← hd] at h
  by_cases hitem : d.destItem = some item
  · rw [if_pos hitem] at h
    exact .inl (congrArg Prod.snd (Option.some.inj h)).symm
  rw [if_neg hitem] at h
  cases hadd : queryAdd cfg s d.index item count.toNat d.flags actor d.cylinder
  case noError =>
    rw [hadd] at h
    exact .inr (.inl ⟨_, rfl, hitem, .inl rfl, h⟩)
  case needExchange =>
    rw [hadd] at h
    dsimp only at h
    cases hx : d.destItem with
    | none =>
      rw [hx] at h
      exact nomatch h
    | some x =>
      rw [hx] at h hitem
      dsimp only at h
      split at h
      · exact .inl (congrArg Prod.snd (Option.some.inj h)).symm
      next htaken =>
      split at h
      · exact .inl (congrArg Prod.snd (Option.some.inj h)).symm
      next hroom =>
      by_cases hremoved : queryRemove cfg s x (s.item x).count d.flags d.cylinder = .noError
      · rw [if_pos hremoved] at h
        obtain ⟨s₁, hs₁, h⟩ := Option.bind_eq_some_iff.1 h
        refine .inr (.inr ⟨x, s₁, ⟨hadd, hx, fun e => hitem (e ▸ rfl), not_not.1 htaken, hroom, hremoved⟩,
          hs₁, ?_⟩)
        split at h
        · next hagain =>
          rw [if_neg hagain]
          have he := Prod.mk.inj (Option.some.inj h)
          exact ⟨he.1 ▸ hagain, he.2.symm⟩
        · next hagain =>
          rw [if_pos (not_not.1 hagain)]
          exact h
      · rw [if_neg hremoved] at h
        exact .inr (.inl ⟨_, rfl, hitem, .inr ⟨x, rfl, rfl, hremoved⟩, h⟩)
  all_goals
    rw [hadd] at h
    exact .inl (congrArg Prod.snd (Option.some.inj h)).symm

/-- An exchange that is begun is carried out, whatever is answered after it. -/
theorem internalMoveItem_of_exchanges {count : UInt32} {s₁ : State}
    (hd : d = findDestination cfg s item mapMaxLayers ⟨toCylinder, index, none, flags⟩)
    (hx : Exchanges cfg s fromCylinder d item count.toNat actor x)
    (hs₁ : exchange cfg s fromCylinder d.cylinder x = some s₁) :
    internalMoveItem cfg s fromCylinder toCylinder index item count flags actor tradeItem =
      let ret := queryAdd cfg s₁ d.index item count.toNat d.flags none d.cylinder
      if ret ≠ .noError then some (ret, s₁)
      else moveChecked cfg s₁ fromCylinder d.cylinder d.index item count.toNat none d.flags tradeItem := by
  have hitem : ¬ d.destItem = some item := fun e => hx.ne (Option.some.inj (hx.there.symm.trans e))
  unfold internalMoveItem
  dsimp only
  rw [← hd, if_neg hitem, hx.asked]
  dsimp only
  rw [hx.there]
  dsimp only
  rw [if_neg (not_not_intro hx.taken), if_neg hx.room, if_pos hx.removed, hs₁]
  rfl

/-! ### Destinations -/

theorem queryDestination_player (h : (queryDestination cfg s index item toItem flags c).cylinder = .player p) :
    c = .player p := by
  cases c with
  | container q =>
    have hi := Container.queryDestination_isItem cfg s q item index flags toItem
    unfold queryDestination at h
    dsimp only at h
    rw [h] at hi
    exact hi.elim
  | player p' =>
    have hcases := Player.queryDestination_cases cfg s item p' index flags toItem
    unfold queryDestination at h
    dsimp only at h hcases
    rw [h] at hcases
    rcases hcases with hi | ⟨he, -⟩
    · exact hi.elim
    · exact he.symm
  | tile t =>
    unfold queryDestination Tile.queryDestination at h
    dsimp only at h
    split at h <;> exact nomatch h
  | device d => exact nomatch h

theorem findDestination_player : ∀ {n : ℕ} {d : Destination},
    (findDestination cfg s item n d).cylinder = .player p → d.cylinder = .player p
  | 0, _, h => h
  | n + 1, d, h => by
    unfold findDestination at h
    dsimp only at h
    split at h
    · exact queryDestination_player h
    · have hsub := findDestination_player h
      exact queryDestination_player hsub

/-- Where a move comes to a player, the player was asked once. -/
theorem findDestination_of_player {n : ℕ}
    (h : (findDestination cfg s item (n + 1) ⟨c, index, none, flags⟩).cylinder = .player p) :
    c = .player p ∧
      findDestination cfg s item (n + 1) ⟨c, index, none, flags⟩ =
        Player.queryDestination cfg s p index item none flags := by
  obtain rfl : c = .player p := findDestination_player h
  unfold findDestination at h ⊢
  dsimp only at h ⊢
  split
  · exact ⟨rfl, rfl⟩
  · next hne =>
    rw [if_neg hne] at h
    exact absurd (findDestination_player h) hne

/-- The item that a player asks to exchange is the one in the slot. -/
theorem slot_of_needExchange
    (hd : d = findDestination cfg s item mapMaxLayers ⟨toCylinder, index, none, flags⟩)
    (hp : d.cylinder = .player p) (hx : d.destItem = some x)
    (hasked : queryAdd cfg s d.index item count d.flags actor d.cylinder = .needExchange) :
    d.flags = flags ∧ s.getInventoryItem p d.index = some x ∧ s.asCylinder x = none := by
  have he : d = Player.queryDestination cfg s p index item none flags := by
    rw [hd] at hp ⊢
    exact (findDestination_of_player hp).2
  have hcases := Player.queryDestination_cases cfg s item p index flags none
  dsimp only at hcases
  rw [← he, hp] at hcases
  rw [hp] at hasked
  obtain hi | ⟨-, hflags, hslot⟩ := hcases
  · exact hi.elim
  · exact ⟨hflags, hslot x hx (Player.queryAdd_eq_needExchange hasked).2.2.2⟩

/-- The item in the way never goes to a player: the item that is moved is in
the slot there. -/
theorem not_player_of_exchanges (hitem : item ∈ s.contents fromCylinder)
    (hx : Exchanges cfg s fromCylinder d item count actor x) (hp : d.cylinder = .player p)
    (hslot : s.getInventoryItem p d.index = some x) : ∀ p', fromCylinder ≠ .player p' := by
  rintro p' rfl
  obtain ⟨i, hi, hinv, hidx⟩ := State.getThingIndex_player cfg.items hitem
  have htaken := hx.taken
  rw [hidx] at htaken
  have hfree := Player.occupied_of_noError rfl htaken
  have hgot : s.getInventoryItem p' i = some item := by
    unfold State.getInventoryItem
    rw [if_pos (by rw [mem_slots] at hi; omega), Int.toNat_natCast, hinv]
  have hasked := hx.asked
  rw [hp] at hasked
  obtain ⟨y, hy, hne⟩ := Player.occupied_iff.1 (Player.queryAdd_eq_needExchange hasked).2.2.2
  obtain rfl := Option.some.inj (hslot.symm.trans hy)
  have hstack : (s.type cfg item).stackable = true ∧ (s.type cfg item).isRune = false ∧
      (s.item item).id = (s.item x).id := by
    by_contra hne'
    exact Bool.false_ne_true (hfree.symm.trans (Player.occupied_iff.2 ⟨item, hgot, hne'⟩))
  obtain ⟨hs, hr, hid⟩ := hstack
  unfold State.type at hs hr hne
  rw [hid] at hs hr
  exact hne ⟨hs, hr, hid.symm⟩

end Course

end Inventory
end ForgottenServer
