/-
# Deliveries to players who are not online

`Mailbox::sendItem`, `House::transferToDepot` and `Houses::payHouses` load such
a player, put items into its depot locker and save it. `savePlayer` writes the
depot and inbox rows only if `lastDepotId` is set, which a player gets by
opening a depot in the game; a player that was only loaded has -1 there. So the
rows stay as they were, and the next time the player is loaded the locker is
without the items.

Key definitions: `deliver`, `sendItem`, `transferToDepot`, `payHouse`,
`Durable`.
Key theorems: `delivery_durable_iff`.
-/
import ForgottenServer.IOLoginData

namespace ForgottenServer
namespace IOLoginData

open Item

/-- An item with all that it holds. -/
abbrev Tree := Item × Forest Item

/-! ### Depot lockers -/

/-- `Player::getDepotLocker`: a new locker holds the depot chest of its id. -/
def getDepotLocker (items : UInt16 → ItemType) (p : Player) (depotId : ℕ) : Player × Forest Item :=
  match p.depotLockerMap.lookup depotId with
  | some f => (p, f)
  | none =>
    let f := Forest.cons (depotChest items) .nil .nil
    ({ p with
        depotChests :=
          if (p.depotChests.lookup depotId).isSome then p.depotChests
          else SortedMap.insert depotId .nil p.depotChests
        depotLockerMap := SortedMap.insert depotId f p.depotLockerMap }, f)

/-- The locker has new contents. -/
def setDepotLocker (p : Player) (depotId : ℕ) (f : Forest Item) : Player :=
  { p with depotLockerMap := SortedMap.insert depotId f p.depotLockerMap }

/-- The `maxSize` of a `DepotLocker`. -/
def lockerCapacity : ℕ := 30

/-- `Container::addThing` on the locker: an index beyond its capacity drops the
item. -/
def lockerAddThing (index : ℤ) (t : Tree) (f : Forest Item) : Forest Item :=
  if lockerCapacity ≤ index then f else .cons t.1 t.2 f

/-- The first stack of `it` with fewer than 100 items: its index, and the locker
with `n` more on it. -/
def mergeStack (it : Item) (n : ℕ) : Forest Item → Option (ℕ × ℕ × Forest Item)
  | .nil => none
  | .cons a c s =>
    if a.equals it ∧ a.count < 100 then
      let k := min (100 - a.count) n
      some (0, k, .cons { a with count := a.count + k } c s)
    else (mergeStack it n s).map fun r => (r.1 + 1, r.2.1, .cons a c r.2.2)

/-- `Game::internalMoveItem` of a whole item from the map into the locker with
`FLAG_NOLIMIT`, or `none` if it does not return `RETURNVALUE_NOERROR`. -/
def moveToLocker (items : UInt16 → ItemType) (f : Forest Item) (t : Tree) : Option (Forest Item) :=
  let type := items t.1.id
  let m := if type.stackable then t.1.count else max 1 t.1.count
  if !type.pickupable then none
  else if m = 0 ∨ !type.moveable then none
  else if !type.stackable then some (lockerAddThing (-1) t f)
  else
    match mergeStack t.1 (if type.isRune then 0 else m) f with
    | none => some (lockerAddThing (-1) ({ t.1 with count := m }, t.2) f)
    | some (index, n, f') =>
      if m - n = 0 then some f'
      else some (lockerAddThing index ({ t.1 with count := m - n }, t.2) f')

/-- The item is put into the locker, on the stacks that it fits on; a rest is
added again. -/
def addToLocker (items : UInt16 → ItemType) : ℕ → Forest Item → Tree → Forest Item
  | 0, f, _ => f
  | fuel + 1, f, t =>
    let type := items t.1.id
    if !type.stackable then lockerAddThing (-1) t f
    else
      match mergeStack t.1 (if type.isRune then 0 else t.1.count) f with
      | none => lockerAddThing (-1) t f
      | some (index, n, f') =>
        if type.isRune then lockerAddThing index t f
        else if t.1.count - n = 0 then f'
        else if n = 0 then lockerAddThing index t f'
        else addToLocker items fuel f' ({ t.1 with count := t.1.count - n }, t.2)

/-- `Game::internalAddItem` of a new item into the locker of `depotId` with
`FLAG_NOLIMIT`. -/
def addItem (items : UInt16 → ItemType) (p : Player) (depotId : ℕ) (t : Tree) : Option Player :=
  let (p, f) := getDepotLocker items p depotId
  if (items t.1.id).pickupable then
    some (setDepotLocker p depotId (addToLocker items (t.1.count + 1) f t))
  else none

/-- The locker of `depotId` gets the item, if it can. -/
def deliver (items : UInt16 → ItemType) (p : Player) (depotId : ℕ) (t : Tree) : Option Player :=
  let (p, f) := getDepotLocker items p depotId
  (moveToLocker items f t).map (setDepotLocker p depotId)

/-! ### Mail -/

/-- `trimString` -/
def trimString (s : Bytes) : Bytes := ((s.dropWhile (· = 32)).reverse.dropWhile (· = 32)).reverse

/-- The lines that `getline` reads. -/
def lines : Bytes → List Bytes
  | [] => []
  | c :: s =>
    if c = 10 then [] :: lines s
    else
      match lines s with
      | [] => [[c]]
      | l :: ls => (c :: l) :: ls

/-- The addressee and the depot on a label or letter: its first two lines. -/
def receiverOfText (townNamed : Bytes → Option ℕ) (text : Bytes) : Option (Bytes × ℕ) :=
  match lines text with
  | [] => none
  | name :: rest => (townNamed (trimString (rest.headD []))).map fun id => (name, id)

/-- `ITEM_LABEL` -/
def itemLabel : UInt16 := 2599

/-- The first label in a container that has an addressee; a label is read
itself, also if it should be a container. -/
def labelReceiver (townNamed : Bytes → Option ℕ) : Forest Item → Option (Bytes × ℕ)
  | .nil => none
  | .cons it content rest =>
    let r :=
      if it.id = itemLabel then
        if it.isContainer then labelReceiver townNamed content
        else receiverOfText townNamed it.getText
      else none
    match r with
    | some r => some r
    | none => labelReceiver townNamed rest

/-- `Mailbox::getReceiver` -/
def getReceiver (townNamed : Bytes → Option ℕ) (t : Tree) : Option (Bytes × ℕ) :=
  if t.1.isContainer then labelReceiver townNamed t.2 else receiverOfText townNamed t.1.getText

/-- The players: those in the game and the stored ones, by name. -/
structure Players where
  online : Bytes → Option Player
  stored : Bytes → Option Record

/-- `Game::transformItem` of the mail that was put first into the locker: it is
stamped. A stack was cloned, and the item itself is not in the locker. -/
def stamp (items : UInt16 → ItemType) (it : Item) : Forest Item → Forest Item
  | .cons a c s =>
    if (items it.id).stackable then .cons a c s else .cons (a.setID items (it.id + 1)) c s
  | .nil => .nil

/-- The mail is put into the locker and stamped. -/
def deliverMail (items : UInt16 → ItemType) (p : Player) (depotId : ℕ) (t : Tree) : Option Player :=
  (deliver items p depotId t).map fun p =>
    setDepotLocker p depotId (stamp items t.1 (getDepotLocker items p depotId).2)

/-- `Mailbox::sendItem`; `loadTime` and `saveTime` are the clock when the player
is loaded and saved. -/
def sendItem (W : World) (townNamed : Bytes → Option ℕ) (loadTime saveTime : ℤ) (P : Players)
    (t : Tree) : Bool × Players :=
  match getReceiver townNamed t with
  | none => (false, P)
  | some (receiver, depotId) =>
    if receiver = [] ∨ depotId = 0 then (false, P)
    else
      match P.online receiver with
      | some p =>
        match deliverMail W.env.items p depotId t with
        | none => (false, P)
        | some p => (true, { P with online := Function.update P.online receiver (some p) })
      | none =>
        match P.stored receiver with
        | none => (false, P)
        | some r =>
          match loadPlayer W loadTime r with
          | none => (false, P)
          | some p =>
            match deliverMail W.env.items p depotId t with
            | none => (false, P)
            | some p => (true, { P with
                stored := Function.update P.stored receiver (some (savePlayer W saveTime r p)) })

/-! ### Houses -/

/-- The members of `House` that its rent and its items depend on; `tiles` are
the items of its tiles. -/
structure House where
  owner : ℕ
  townid : ℕ
  rent : UInt32
  paidUntil : ℤ
  payRentWarnings : ℕ
  name : Bytes
  tiles : List (Forest Item)

/-- Items moved one by one: the player, the items that stayed and those that
were moved. -/
structure Moved where
  player : Player
  rest : Forest Item
  moved : List Tree

/-- Every item of a list is moved, if it can. -/
def moveItems (items : UInt16 → ItemType) (depotId : ℕ) (p : Player) : Forest Item → Moved
  | .nil => ⟨p, .nil, []⟩
  | .cons it c s =>
    match deliver items p depotId (it, c) with
    | some p =>
      let r := moveItems items depotId p s
      { r with moved := (it, c) :: r.moved }
    | none =>
      let r := moveItems items depotId p s
      { r with rest := .cons it c r.rest }

/-- The items of a tile that can be picked up are moved, and those in the other
containers. -/
def moveTile (items : UInt16 → ItemType) (depotId : ℕ) (p : Player) : Forest Item → Moved
  | .nil => ⟨p, .nil, []⟩
  | .cons it c s =>
    if (items it.id).pickupable then
      match deliver items p depotId (it, c) with
      | some p =>
        let r := moveTile items depotId p s
        { r with moved := (it, c) :: r.moved }
      | none =>
        let r := moveTile items depotId p s
        { r with rest := .cons it c r.rest }
    else if it.isContainer then
      let r := moveItems items depotId p c
      let r' := moveTile items depotId r.player s
      { r' with rest := .cons it r.rest r'.rest, moved := r.moved ++ r'.moved }
    else
      let r := moveTile items depotId p s
      { r with rest := .cons it c r.rest }

/-- The loop over the tiles. -/
def moveTiles (items : UInt16 → ItemType) (depotId : ℕ) (p : Player) :
    List (Forest Item) → Player × List (Forest Item) × List Tree
  | [] => (p, [], [])
  | tile :: tiles =>
    let r := moveTile items depotId p tile
    let (p, rest, moved) := moveTiles items depotId r.player tiles
    (p, r.rest :: rest, r.moved ++ moved)

/-- `House::transferToDepot(Player*)`: the player, the house and the items that
were moved. -/
def transferToDepot (items : UInt16 → ItemType) (h : House) (p : Player) :
    Player × House × List Tree :=
  if h.townid = 0 ∨ h.owner = 0 then (p, h, [])
  else
    let (p, tiles, moved) := moveTiles items h.townid p h.tiles
    (p, { h with tiles }, moved)

/-- `House::transferToDepot()` for an owner who is not online: the record of the
owner, the house and the items that were moved. -/
def transferToDepotOffline (W : World) (loadTime saveTime : ℤ) (h : House) (r : Record) :
    Bool × Record × House × List Tree :=
  if h.townid = 0 ∨ h.owner = 0 then (false, r, h, [])
  else
    match loadPlayer W loadTime r with
    | none => (false, r, h, [])
    | some p =>
      let (p, h, moved) := transferToDepot W.env.items h p
      (true, savePlayer W saveTime r p, h, moved)

/-- `RentPeriod_t` -/
inductive RentPeriod
  | daily | weekly | monthly | yearly | never
  deriving DecidableEq

/-- The time that is paid for. -/
def RentPeriod.seconds : RentPeriod → ℤ
  | .daily => 24 * 60 * 60
  | .weekly => 24 * 60 * 60 * 7
  | .monthly => 24 * 60 * 60 * 30
  | .yearly => 24 * 60 * 60 * 365
  | .never => 0

/-- The word for the period in the letter. -/
def RentPeriod.word : RentPeriod → String
  | .daily => "daily"
  | .weekly => "weekly"
  | .monthly => "monthly"
  | .yearly => "annual"
  | .never => ""

/-- The bytes of a text. -/
def bytes (s : String) : Bytes := s.toUTF8.toList

/-- The text of the warning letter. -/
def warning (period : RentPeriod) (h : House) : Bytes :=
  bytes ("Warning! \nThe " ++ period.word ++ " rent of " ++ toString h.rent.toNat ++
    " gold for your house \"") ++ h.name ++
  bytes ("\" is payable. Have it within " ++ toString (7 - h.payRentWarnings) ++
    " days or you will lose this house.")

/-- `ITEM_LETTER_STAMPED` -/
def itemLetterStamped : UInt16 := 2598

/-- `House::setOwner(0)`, after the items were moved. -/
def House.reset (h : House) : House := { h with owner := 0, paidUntil := 0, payRentWarnings := 0 }

/-- What `Houses::payHouses` does with one house and the stored record of its
owner, if there is one: the house, the record and the items that were put into
the depot locker. -/
def payHouse (W : World) (period : RentPeriod) (currentTime loadTime saveTime : ℤ) (h : House)
    (stored : Option Record) : House × Option Record × List Tree :=
  if period = .never ∨ h.owner = 0 ∨ h.rent = 0 ∨ currentTime < h.paidUntil ∨
      (W.towns h.townid.toUInt32).isNone then (h, stored, [])
  else
    match stored with
    | none => (h.reset, none, [])
    | some r =>
      match loadPlayer W loadTime r with
      | none => (h.reset, stored, [])
      | some p =>
        if h.rent.toUInt64 ≤ p.bankBalance then
          let p := { p with bankBalance := p.bankBalance - h.rent.toUInt64 }
          ({ h with paidUntil := currentTime + period.seconds }, some (savePlayer W saveTime r p), [])
        else if h.payRentWarnings < 7 then
          let letter := (createItem W.env.items itemLetterStamped 0).map
            (·.setStrAttr .text (warning period h))
          let h := { h with payRentWarnings := h.payRentWarnings + 1 }
          match letter with
          | none => (h, some (savePlayer W saveTime r p), [])
          | some letter =>
            match addItem W.env.items p h.townid (letter, .nil) with
            | none => (h, some (savePlayer W saveTime r p), [])
            | some p => (h, some (savePlayer W saveTime r p), [(letter, .nil)])
        else
          let (p, h, moved) := transferToDepot W.env.items h p
          (h.reset, some (savePlayer W saveTime r p), moved)

/-! ### What a locker holds -/

/-- How many things of a type a forest holds: a stack is as many as its count,
any other item one. -/
def held (items : UInt16 → ItemType) (id : UInt16) : Forest Item → ℕ
  | .nil => 0
  | .cons it c s =>
    (if it.id = id then if (items id).stackable then max 1 it.count else 1 else 0) +
      held items id c + held items id s

/-- How many things of a type are in the locker of `depotId`, its chest included,
once the player is loaded. -/
def lockerHolds (W : World) (loadTime : ℤ) (r : Record) (depotId : ℕ) (id : UInt16) : ℕ :=
  match loadPlayer W loadTime r with
  | none => 0
  | some p =>
    let (p, f) := getDepotLocker W.env.items p depotId
    held W.env.items id f + held W.env.items id ((p.depotChests.lookup depotId).getD .nil)

/-- Things of a type among some trees. -/
def heldTrees (items : UInt16 → ItemType) (id : UInt16) (l : List Tree) : ℕ :=
  (l.map fun t => held items id (.cons t.1 t.2 .nil)).sum

/-- The delivered items are in the locker the next time the player is loaded,
besides what was there. -/
def Durable (W : World) (loadTime nextTime : ℤ) (r r' : Record) (depotId : ℕ)
    (delivered : List Tree) : Prop :=
  ∀ id, lockerHolds W nextTime r' depotId id =
    lockerHolds W loadTime r depotId id + heldTrees W.env.items id delivered

section Durable

variable {W : World} {r r' : Record} {loadTime nextTime saveTime : ℤ} {depotId : ℕ}

/-- A player that still has the depot rows it was loaded from. -/
structure Untouched (p q : Player) : Prop where
  lastDepotId : q.lastDepotId = -1
  group : q.group = p.group
  vocation : q.vocation = p.vocation
  town : q.town = p.town

theorem loadPlayer_some {p : Player} (h : loadPlayer W loadTime r = some p) :
    ∃ voc town, W.groups r.columns.groupId ∧ W.vocations r.columns.vocation = some voc ∧
      W.towns r.columns.townId = some town ∧ p = loadFields W loadTime r voc town := by
  unfold loadPlayer at h
  split at h
  · exact nomatch h
  · next hg =>
    split at h
    · next voc town hv ht =>
      exact ⟨voc, town, by simpa using hg, hv, ht, (Option.some.inj h).symm⟩
    · exact nomatch h

theorem getDepotLocker_congr (items : UInt16 → ItemType) (depotId : ℕ) {p q : Player}
    (hl : q.depotLockerMap = p.depotLockerMap) (hc : q.depotChests = p.depotChests) :
    (getDepotLocker items q depotId).2 = (getDepotLocker items p depotId).2 ∧
      (getDepotLocker items q depotId).1.depotChests =
        (getDepotLocker items p depotId).1.depotChests := by
  unfold getDepotLocker
  rw [hl, hc]
  split
  · exact ⟨rfl, hc⟩
  · exact ⟨rfl, rfl⟩

/-- What a locker holds after loading is a matter of the depot and inbox rows. -/
theorem lockerHolds_congr (loadTime nextTime : ℤ) (hd : r'.depotItems = r.depotItems) (hi : r'.inboxItems = r.inboxItems)
    (hg : r'.columns.groupId = r.columns.groupId) (hv : r'.columns.vocation = r.columns.vocation)
    (ht : r'.columns.townId = r.columns.townId) (depotId : ℕ) (id : UInt16) :
    lockerHolds W nextTime r' depotId id = lockerHolds W loadTime r depotId id := by
  unfold lockerHolds loadPlayer
  rw [hg, hv, ht]
  by_cases hgroup : W.groups r.columns.groupId
  · cases hvoc : W.vocations r.columns.vocation with
    | none => simp [hgroup]
    | some voc =>
      cases htown : W.towns r.columns.townId with
      | none => simp [hgroup]
      | some town =>
        have hlockers : (loadFields W nextTime r' voc town).depotLockerMap =
            (loadFields W loadTime r voc town).depotLockerMap := by
          unfold loadFields
          rw [hi]
        have hchests : (loadFields W nextTime r' voc town).depotChests =
            (loadFields W loadTime r voc town).depotChests := by
          unfold loadFields
          rw [hd, hi]
        obtain ⟨h1, h2⟩ := getDepotLocker_congr W.env.items depotId hlockers hchests
        simp only [hgroup, Bool.not_true, Bool.false_eq_true, if_false, h1, h2]
  · simp [hgroup]

/-- Saving a player that was loaded leaves its depot and inbox rows, its group,
vocation and town. -/
theorem savePlayer_untouched (saveTime : ℤ) {p q : Player} (hp : loadPlayer W loadTime r = some p)
    (hq : Untouched p q) :
    (savePlayer W saveTime r q).depotItems = r.depotItems ∧
    (savePlayer W saveTime r q).inboxItems = r.inboxItems ∧
    (savePlayer W saveTime r q).columns.groupId = r.columns.groupId ∧
    (savePlayer W saveTime r q).columns.vocation = r.columns.vocation ∧
    (savePlayer W saveTime r q).columns.townId = r.columns.townId := by
  obtain ⟨voc, town, -, -, -, rfl⟩ := loadPlayer_some hp
  obtain ⟨hd, hg, hv, ht⟩ := hq
  by_cases hs : r.columns.save = 0
  · rw [savePlayer_unsaved hs]
    exact ⟨rfl, rfl, rfl, rfl, rfl⟩
  · have hne : ¬ q.lastDepotId ≠ -1 := fun h => h hd
    have hhealth : ∀ q' : Player, q' = (if q.health ≤ 0 then changeHealth q else q) →
        q'.lastDepotId = -1 ∧ q'.group = q.group ∧ q'.vocation = q.vocation ∧ q'.town = q.town := by
      rintro q' rfl
      split
      · exact ⟨hd, rfl, rfl, rfl⟩
      · exact ⟨hd, rfl, rfl, rfl⟩
    obtain ⟨k1, k2, k3, k4⟩ := hhealth _ rfl
    unfold savePlayer
    simp only [if_neg hs, k1, ne_eq, not_true_eq_false, if_false]
    exact ⟨trivial, trivial, k2.trans hg, k3.trans hv, k4.trans ht⟩

theorem held_pos (items : UInt16 → ItemType) (t : Tree) :
    0 < held items t.1.id (.cons t.1 t.2 .nil) := by
  simp only [held, if_true]
  split <;> omega

/-- **The delivery is lost.** What is stored after it is durable exactly if
nothing was delivered. -/
theorem durable_iff {p q : Player} {delivered : List Tree}
    (hp : loadPlayer W loadTime r = some p) (hq : Untouched p q) :
    Durable W loadTime nextTime r (savePlayer W saveTime r q) depotId delivered ↔
      delivered = [] := by
  obtain ⟨h1, h2, h3, h4, h5⟩ := savePlayer_untouched saveTime hp hq
  have hsame := lockerHolds_congr (W := W) loadTime nextTime h1 h2 h3 h4 h5 depotId
  constructor
  · intro hdur
    cases hdel : delivered with
    | nil => rfl
    | cons t l =>
      have ht := held_pos W.env.items t
      have h := hdur t.1.id
      rw [hsame, hdel] at h
      simp only [heldTrees, List.map_cons, List.sum_cons] at h
      omega
  · rintro rfl id
    rw [hsame]
    rfl

/-! ### What the three functions do to the player -/

variable {items : UInt16 → ItemType} {p q : Player}

theorem Untouched.getDepotLocker (h : Untouched p q) (d : ℕ) :
    Untouched p (getDepotLocker items q d).1 := by
  unfold IOLoginData.getDepotLocker
  split
  · exact h
  · exact ⟨h.1, h.2, h.3, h.4⟩

theorem Untouched.setDepotLocker (h : Untouched p q) (d : ℕ) (f : Forest Item) :
    Untouched p (setDepotLocker q d f) := ⟨h.1, h.2, h.3, h.4⟩

theorem Untouched.deliver {q' : Player} {d : ℕ} {t : Tree} (h : Untouched p q)
    (hd : deliver items q d t = some q') : Untouched p q' := by
  obtain ⟨f, -, rfl⟩ := Option.map_eq_some_iff.1 hd
  exact (h.getDepotLocker d).setDepotLocker d f

theorem Untouched.deliverMail {q' : Player} {d : ℕ} {t : Tree} (h : Untouched p q)
    (hd : deliverMail items q d t = some q') : Untouched p q' := by
  obtain ⟨q1, h1, rfl⟩ := Option.map_eq_some_iff.1 hd
  exact (h.deliver h1).setDepotLocker d _

theorem Untouched.addItem {q' : Player} {d : ℕ} {t : Tree} (h : Untouched p q)
    (hd : addItem items q d t = some q') : Untouched p q' := by
  unfold IOLoginData.addItem at hd
  simp only at hd
  split at hd
  · rw [← Option.some.inj hd]
    exact (h.getDepotLocker d).setDepotLocker d _
  · exact nomatch hd

theorem untouched_moveItems {d : ℕ} : ∀ (f : Forest Item) {q : Player}, Untouched p q →
    Untouched p (moveItems items d q f).player
  | .nil, _, h => h
  | .cons it c s, q, h => by
    unfold moveItems
    split
    · next q' hd => exact untouched_moveItems s (h.deliver hd)
    · exact untouched_moveItems s h

theorem untouched_moveTile {d : ℕ} : ∀ (f : Forest Item) {q : Player}, Untouched p q →
    Untouched p (moveTile items d q f).player
  | .nil, _, h => h
  | .cons it c s, q, h => by
    unfold moveTile
    split
    · split
      · next q' hd => exact untouched_moveTile s (h.deliver hd)
      · exact untouched_moveTile s h
    · split
      · exact untouched_moveTile s (untouched_moveItems c h)
      · exact untouched_moveTile s h

theorem untouched_moveTiles {d : ℕ} : ∀ (l : List (Forest Item)) {q : Player}, Untouched p q →
    Untouched p (moveTiles items d q l).1
  | [], _, h => h
  | f :: l, _, h => untouched_moveTiles l (untouched_moveTile f h)

theorem Untouched.transferToDepot (h : Untouched p q) (house : House) :
    Untouched p (transferToDepot items house q).1 := by
  unfold IOLoginData.transferToDepot
  split
  · exact h
  · exact untouched_moveTiles house.tiles h

theorem untouched_of_load (hp : loadPlayer W loadTime r = some p) : Untouched p p := by
  obtain ⟨voc, town, -, -, -, rfl⟩ := loadPlayer_some hp
  exact ⟨rfl, rfl, rfl, rfl⟩

/-- Mail that was sent to a player who is not online: the player was loaded, got
the mail and was saved. -/
theorem sendItem_offline {townNamed : Bytes → Option ℕ} {P P' : Players} {t : Tree}
    {receiver : Bytes} (hr : getReceiver townNamed t = some (receiver, depotId))
    (ho : P.online receiver = none) (hs : P.stored receiver = some r)
    (h : sendItem W townNamed loadTime saveTime P t = (true, P')) :
    ∃ p q, loadPlayer W loadTime r = some p ∧ Untouched p q ∧
      P'.stored receiver = some (savePlayer W saveTime r q) := by
  unfold sendItem at h
  simp only [hr, ho, hs] at h
  split at h
  · exact nomatch congrArg Prod.fst h
  · split at h
    · exact nomatch congrArg Prod.fst h
    · next p hp =>
      split at h
      · exact nomatch congrArg Prod.fst h
      · next q hq =>
        refine ⟨p, q, hp, (untouched_of_load hp).deliverMail hq, ?_⟩
        rw [← (Prod.mk.inj h).2]
        exact Function.update_self _ _ _

/-- What a locker gets when `t` is mailed: the stamped item. -/
def mailed (items : UInt16 → ItemType) (t : Tree) : Tree :=
  if (items t.1.id).stackable then t else (t.1.setID items (t.1.id + 1), t.2)

theorem durable_refl : Durable W loadTime nextTime r r depotId [] := fun id => by
  rw [lockerHolds_congr loadTime nextTime rfl rfl rfl rfl rfl]
  rfl

theorem transferToDepotOffline_durable {h h' : House} {moved : List Tree}
    (heq : transferToDepotOffline W loadTime saveTime h r = (true, r', h', moved)) :
    Durable W loadTime nextTime r r' h.townid moved ↔ moved = [] := by
  unfold transferToDepotOffline at heq
  split at heq
  · exact nomatch congrArg Prod.fst heq
  · split at heq
    · exact nomatch congrArg Prod.fst heq
    · next p hp =>
      obtain ⟨-, rfl, -, rfl⟩ := heq
      exact durable_iff hp ((untouched_of_load hp).transferToDepot h)

theorem payHouse_durable {period : RentPeriod} {currentTime : ℤ} {h h' : House}
    {delivered : List Tree}
    (heq : payHouse W period currentTime loadTime saveTime h (some r) =
      (h', some r', delivered)) :
    Durable W loadTime nextTime r r' h.townid delivered ↔ delivered = [] := by
  have hnone : ∀ {r1 : Record} {l : List Tree}, some r1 = some r' → l = delivered →
      (Durable W loadTime nextTime r r1 h.townid l ↔ l = []) →
      (Durable W loadTime nextTime r r' h.townid delivered ↔ delivered = []) := by
    rintro r1 l h1 rfl hl
    rwa [← Option.some.inj h1]
  unfold payHouse at heq
  split at heq
  · obtain ⟨-, h1⟩ := Prod.mk.inj heq
    exact hnone (Prod.mk.inj h1).1 (Prod.mk.inj h1).2 (iff_of_true durable_refl rfl)
  · dsimp only at heq
    split at heq
    · obtain ⟨-, h1⟩ := Prod.mk.inj heq
      exact hnone (Prod.mk.inj h1).1 (Prod.mk.inj h1).2 (iff_of_true durable_refl rfl)
    · next p hp =>
      have hu : Untouched p p := untouched_of_load hp
      split at heq
      · -- the rent is paid
        obtain ⟨-, h1⟩ := Prod.mk.inj heq
        exact hnone (Prod.mk.inj h1).1 (Prod.mk.inj h1).2 (durable_iff hp ⟨hu.1, hu.2, hu.3, hu.4⟩)
      · split at heq
        · -- a warning
          split at heq
          · obtain ⟨-, h1⟩ := Prod.mk.inj heq
            exact hnone (Prod.mk.inj h1).1 (Prod.mk.inj h1).2 (durable_iff hp hu)
          · split at heq
            · obtain ⟨-, h1⟩ := Prod.mk.inj heq
              exact hnone (Prod.mk.inj h1).1 (Prod.mk.inj h1).2 (durable_iff hp hu)
            · next q hq =>
              obtain ⟨-, h1⟩ := Prod.mk.inj heq
              exact hnone (Prod.mk.inj h1).1 (Prod.mk.inj h1).2 (durable_iff hp (hu.addItem hq))
        · -- the house is lost
          obtain ⟨-, h1⟩ := Prod.mk.inj heq
          exact hnone (Prod.mk.inj h1).1 (Prod.mk.inj h1).2 (durable_iff hp (hu.transferToDepot h))

/-- **No delivery to a player who is not online is durable.** After mail was
sent, or items of a house or a letter were put into the locker, the next time
the player is loaded the locker holds them, besides what it held, only if
nothing was delivered. -/
theorem delivery_durable_iff (W : World) (townNamed : Bytes → Option ℕ) (period : RentPeriod)
    (currentTime loadTime saveTime nextTime : ℤ) :
    (∀ P P' t receiver depotId r, getReceiver townNamed t = some (receiver, depotId) →
      P.online receiver = none → P.stored receiver = some r →
      sendItem W townNamed loadTime saveTime P t = (true, P') →
      ∃ r', P'.stored receiver = some r' ∧
        ¬ Durable W loadTime nextTime r r' depotId [mailed W.env.items t]) ∧
    (∀ h h' r r' moved,
      transferToDepotOffline W loadTime saveTime h r = (true, r', h', moved) →
      (Durable W loadTime nextTime r r' h.townid moved ↔ moved = [])) ∧
    (∀ h h' r r' delivered,
      payHouse W period currentTime loadTime saveTime h (some r) = (h', some r', delivered) →
      (Durable W loadTime nextTime r r' h.townid delivered ↔ delivered = [])) := by
  refine ⟨fun P P' t receiver depotId r hr ho hs h => ?_,
    fun h h' r r' moved heq => transferToDepotOffline_durable heq,
    fun h h' r r' delivered heq => payHouse_durable heq⟩
  obtain ⟨p, q, hp, hq, hstored⟩ := sendItem_offline hr ho hs h
  refine ⟨_, hstored, fun hd => ?_⟩
  exact List.cons_ne_nil _ _ ((durable_iff hp hq).1 hd)

end Durable

/-! ### A letter -/

/-- An island where everything can be carried. -/
def postOffice : World :=
  { island with env := { fruitBag with items := fun id =>
    { id, pickupable := true, moveable := true } } }

/-- The one town is T. -/
def townT : Bytes → Option ℕ := fun name => if name = [84] then some 1 else none

/-- The stored newcomer is B, and nobody is online. -/
def mailDay : Players := ⟨fun _ => none, fun name => if name = [66] then some newcomer else none⟩

/-- A letter to B in T. -/
def letter : Tree :=
  (({ cls := .item, id := 2597, count := 1, attributes := none } : Item).setStrAttr .text
    [66, 10, 84], .nil)

theorem letter_sent : (sendItem postOffice townT 10 20 mailDay letter).1 = true := by decide

theorem delivery_durable_iff_letter :
    ∃ r', (sendItem postOffice townT 10 20 mailDay letter).2.stored [66] = some r' ∧
      ¬ Durable postOffice 10 30 newcomer r' 1 [mailed postOffice.env.items letter] :=
  (delivery_durable_iff postOffice townT .weekly 0 10 20 30).1 mailDay _ letter [66] 1 newcomer
    (by decide) rfl rfl (Prod.ext letter_sent rfl)

theorem letter_not_durable : ¬ ∀ (W : World) (townNamed : Bytes → Option ℕ)
    (loadTime saveTime nextTime : ℤ) (P P' : Players) (t : Tree) (receiver : Bytes) (depotId : ℕ)
    (r : Record), getReceiver townNamed t = some (receiver, depotId) →
    P.online receiver = none → P.stored receiver = some r →
    sendItem W townNamed loadTime saveTime P t = (true, P') →
    ∃ r', P'.stored receiver = some r' ∧
      Durable W loadTime nextTime r r' depotId [mailed W.env.items t] := by
  intro h
  have hr : getReceiver townT letter = some ([66], 1) := by decide
  have hsent : sendItem postOffice townT 10 20 mailDay letter =
      (true, (sendItem postOffice townT 10 20 mailDay letter).2) := Prod.ext letter_sent rfl
  obtain ⟨r', h1, h2⟩ := h _ _ 10 20 30 mailDay _ letter [66] 1 newcomer hr rfl rfl hsent
  obtain ⟨p, q, hp, hq, hstored⟩ := sendItem_offline hr rfl rfl hsent
  rw [hstored] at h1
  rw [← Option.some.inj h1] at h2
  exact List.cons_ne_nil _ _ ((durable_iff hp hq).1 h2)

end IOLoginData
end ForgottenServer
