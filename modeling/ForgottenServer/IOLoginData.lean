/-
# The stored player

`IOLoginData::loadPlayer` makes a `Player` of a row of `players` and of the rows
of the player in five other tables; `IOLoginData::savePlayer` writes a `Player`
back. `Mailbox::sendItem`, `House::transferToDepot` and `Houses::payHouses` do
both, one after the other, for a player who is not online. What this leaves of
the stored player is `touched`: the stored conditions are gone, because they
are loaded to `storedConditionList` and `savePlayer` writes `conditions`, and
some columns are clamped; it is the record as it was exactly if `Intact` holds
of it.

Key definitions: `Record`, `Player`, `loadPlayer`, `savePlayer`, `touch`,
`touched`, `Intact`.
Key theorems: `touch_eq`, `touch_same_iff`.
-/
import ForgottenServer.Experience
import ForgottenServer.SettledRows

namespace ForgottenServer
namespace IOLoginData

open Item

/-! ### The record -/

/-- A `Condition`: the fields of the base class, and the bytes that its class
writes after them. -/
structure Condition where
  id : ℤ
  conditionType : UInt32
  ticks : ℤ
  isBuff : Bool
  subId : UInt32
  props : Bytes
  deriving DecidableEq

/-- `Condition::isPersistent`: `CONDITIONID_DEFAULT` is -1 and
`CONDITIONID_COMBAT` is 0. -/
def Condition.isPersistent (c : Condition) : Bool :=
  if c.ticks = -1 then false else c.id = -1 || c.id = 0

/-- The row of `players`, with every column at the type that `loadPlayer` reads. -/
structure Columns where
  save : UInt16
  level : UInt32
  groupId : UInt16
  vocation : UInt16
  health : Int32
  healthmax : Int32
  experience : UInt64
  lookbody : UInt16
  lookfeet : UInt16
  lookhead : UInt16
  looklegs : UInt16
  looktype : UInt16
  maglevel : UInt32
  mana : UInt32
  manamax : UInt32
  manaspent : UInt64
  soul : UInt16
  townId : UInt32
  posx : UInt16
  posy : UInt16
  posz : UInt16
  cap : UInt32
  sex : UInt16
  lastlogin : ℤ
  lastip : UInt32
  skulltime : ℤ
  skull : UInt16
  lastlogout : ℤ
  balance : UInt64
  offlinetrainingTime : Int32
  offlinetrainingSkill : Int32
  skills : Fin 7 → UInt16
  skillTries : Fin 7 → UInt64
  onlinetime : ℤ
  blessings : UInt16
  deriving DecidableEq, Inhabited

/-- What is stored of a player. The blob `conditions` is the list of the
conditions serialized in it. -/
structure Record where
  columns : Columns
  conditions : List Condition
  spells : List Bytes
  items : List Row
  depotItems : List Row
  inboxItems : List Row
  storage : List (ℕ × Int32)
  deriving DecidableEq, Inhabited

/-! ### The player -/

/-- `Skulls_t` -/
inductive Skull
  | none | yellow | green | white | red
  deriving DecidableEq

/-- The value of the enumerator. -/
def Skull.code : Skull → UInt16
  | .none => 0
  | .yellow => 1
  | .green => 2
  | .white => 3
  | .red => 4

/-- `Outfit_t` -/
structure Outfit where
  lookType : UInt16
  lookHead : UInt8
  lookBody : UInt8
  lookLegs : UInt8
  lookFeet : UInt8
  deriving DecidableEq

/-- `Skill` -/
structure Skill where
  level : UInt16
  tries : UInt64
  percent : UInt8
  deriving DecidableEq

/-- `storageMap`; no value is -1. -/
structure StorageMap where
  pairs : List (ℕ × Int32)
  sorted : SortedMap.Sorted pairs
  noErased : ∀ p ∈ pairs, p.2 ≠ -1

def StorageMap.empty : StorageMap := ⟨[], List.Pairwise.nil, by simp⟩

/-- `Player::addStorageValue` -/
def StorageMap.addStorageValue (m : StorageMap) (key : ℕ) (value : Int32) : StorageMap :=
  if h : value ≠ -1 then
    ⟨SortedMap.insert key value m.pairs, SortedMap.insert_sorted m.sorted, fun p hp => by
      rcases SortedMap.mem_insert hp with rfl | hp
      · exact h
      · exact m.noErased p hp⟩
  else
    ⟨m.pairs.filter (·.1 ≠ key), m.sorted.filter _, fun p hp =>
      m.noErased p (List.mem_of_mem_filter hp)⟩

/-- The rows of `player_storage`, added one after the other. -/
def loadStorage (rows : List (ℕ × Int32)) : StorageMap :=
  rows.foldl (fun m p => m.addStorageValue p.1 p.2) StorageMap.empty

/-- The fields of `Player` that are loaded or saved. `varMaxHitPoints` is
`varStats[STAT_MAXHITPOINTS]`. The item of a depot chest in its locker holds
what `depotChests` has under the id. -/
structure Player where
  level : UInt32
  experience : UInt64
  levelPercent : UInt8
  group : UInt16
  bankBalance : UInt64
  sex : UInt16
  soul : UInt8
  capacity : UInt32
  blessings : UInt8
  conditions : List Condition
  storedConditionList : List Condition
  vocation : UInt16
  mana : UInt32
  manaMax : UInt32
  magLevel : UInt32
  manaSpent : UInt64
  magLevelPercent : UInt8
  health : Int32
  healthMax : Int32
  varMaxHitPoints : Int32
  defaultOutfit : Outfit
  currentOutfit : Outfit
  skullTicks : ℤ
  skull : Skull
  loginPosition : UInt16 × UInt16 × UInt8
  lastLoginSaved : ℤ
  lastLogout : ℤ
  lastIP : UInt32
  offlineTrainingTime : Int32
  offlineTrainingSkill : Int32
  town : UInt32
  skills : Fin 7 → Skill
  learnedInstantSpellList : List Bytes
  inventory : ℕ → Option (Item × Forest Item)
  depotChests : List (ℕ × Forest Item)
  depotLockerMap : List (ℕ × Forest Item)
  lastDepotId : ℤ
  storageMap : StorageMap
  isOffline : Bool

/-! ### Loading -/

/-- What `Vocation` requires for the next magic level and skill level. -/
structure Vocation where
  getReqMana : UInt32 → UInt64
  getReqSkillTries : Fin 7 → UInt16 → UInt64

/-- What the functions read of the running server: the groups, vocations and
towns (with their temple positions) by id. -/
structure World where
  env : Env
  pvpEnforced : Bool
  groups : UInt16 → Bool
  vocations : UInt16 → Option Vocation
  towns : UInt32 → Option (UInt16 × UInt16 × UInt8)

/-- `ITEM_DEPOT` -/
def itemDepot : UInt16 := 2594

/-- `new DepotChest(ITEM_DEPOT)`, as an item of its locker. -/
def depotChest (items : UInt16 → ItemType) : Item := construct items .container itemDepot 0

/-- The trees that a table puts into the chests or lockers of the ids below 100. -/
def loadDepots (T : Table) (E : Env) (rows : List Row) (id : ℕ) : Forest Item :=
  let m := loadItems E rows
  let h := load T E rows
  h.trees m m.length (h.contents (T.root id))

/-- The skill column `i`, loaded. -/
def loadSkill (voc : Vocation) (c : Columns) (i : Fin 7) : Skill :=
  let nextSkillTries := voc.getReqSkillTries i (c.skills i + 1)
  let skillTries := if nextSkillTries < c.skillTries i then 0 else c.skillTries i
  { level := c.skills i
    tries := skillTries
    percent := Experience.getPercentLevel skillTries nextSkillTries }

/-- The experience that is loaded: that of the level, if the stored one does not
belong to it. -/
def loadExperience (level : UInt32) (experience : UInt64) : UInt64 :=
  let currExpCount := Experience.expOf level
  let nextExpCount := Experience.expOf (level + 1)
  if experience < currExpCount ∨ nextExpCount < experience then currExpCount else experience

def loadManaSpent (voc : Vocation) (c : Columns) : UInt64 :=
  if voc.getReqMana (c.maglevel + 1) < c.manaspent then 0 else c.manaspent

/-- The fields of the player, once its vocation and the temple of its town are
found. -/
def loadFields (W : World) (now : ℤ) (r : Record) (voc : Vocation)
    (templePosition : UInt16 × UInt16 × UInt8) : Player :=
  let c := r.columns
  let level := max 1 c.level
  let currExpCount := Experience.expOf level
  let nextExpCount := Experience.expOf (level + 1)
  let experience := loadExperience level c.experience
  let manaSpent := loadManaSpent voc c
  let outfit : Outfit :=
    { lookType := c.looktype
      lookHead := c.lookhead.toUInt8
      lookBody := c.lookbody.toUInt8
      lookLegs := c.looklegs.toUInt8
      lookFeet := c.lookfeet.toUInt8 }
  let skullSeconds := c.skulltime - now
  let skullTime : Bool := !W.pvpEnforced && 0 < skullSeconds
  let loginPos := (c.posx, c.posy, c.posz.toUInt8)
  let lockers := (List.range 100).filter fun id =>
    loadDepots .inboxItems W.env r.inboxItems id ≠ .nil
  let chests := (List.range 100).filter fun id =>
    id ∈ lockers || loadDepots .depotItems W.env r.depotItems id ≠ .nil
  { level
    experience
    levelPercent :=
      if currExpCount < nextExpCount then
        Experience.getPercentLevel (experience - currExpCount) (nextExpCount - currExpCount)
      else 0
    group := c.groupId
    bankBalance := c.balance
    sex := c.sex
    soul := c.soul.toUInt8
    capacity := c.cap * 100
    blessings := c.blessings.toUInt8
    conditions := []
    storedConditionList := r.conditions.reverse
    vocation := c.vocation
    mana := c.mana
    manaMax := c.manamax
    magLevel := c.maglevel
    manaSpent
    magLevelPercent := Experience.getPercentLevel manaSpent (voc.getReqMana (c.maglevel + 1))
    health := c.health
    healthMax := c.healthmax
    varMaxHitPoints := 0
    defaultOutfit := outfit
    currentOutfit := outfit
    -- the ticks are rounded up
    skullTicks := if skullTime then (skullSeconds + 2) * 1000 else 0
    skull := if skullTime && c.skull = Skull.red.code then .red else .none
    loginPosition := if loginPos = (0, 0, 0) then templePosition else loginPos
    lastLoginSaved := c.lastlogin
    lastLogout := c.lastlogout
    lastIP := 0
    offlineTrainingTime := c.offlinetrainingTime * 1000
    offlineTrainingSkill := c.offlinetrainingSkill
    town := c.townId
    skills := loadSkill voc c
    learnedInstantSpellList := r.spells.reverse
    inventory := loadInventory W.env r.items
    depotChests := chests.map fun id => (id, loadDepots .depotItems W.env r.depotItems id)
    depotLockerMap := lockers.map fun id =>
      (id, loadDepots .inboxItems W.env r.inboxItems id ++
        .cons (depotChest W.env.items) .nil .nil)
    lastDepotId := -1
    storageMap := loadStorage r.storage
    isOffline := true }

/-- `IOLoginData::loadPlayer` into a newly built `Player`, at the time `now`. -/
def loadPlayer (W : World) (now : ℤ) (r : Record) : Option Player :=
  if !W.groups r.columns.groupId then none
  else
    match W.vocations r.columns.vocation, W.towns r.columns.townId with
    | some voc, some templePosition => some (loadFields W now r voc templePosition)
    | _, _ => none

/-! ### Saving -/

/-- `player->changeHealth(1)` -/
def changeHealth (p : Player) : Player :=
  let maxHealth := max 1 (p.healthMax + p.varMaxHitPoints)
  { p with health := p.health + min 1 (maxHealth - p.health) }

/-- The columns that `savePlayer` writes. -/
def saveColumns (W : World) (now : ℤ) (c : Columns) (p : Player) : Columns :=
  { save := c.save
    level := p.level
    groupId := p.group
    vocation := p.vocation
    health := p.health
    healthmax := p.healthMax
    experience := p.experience
    lookbody := p.defaultOutfit.lookBody.toUInt16
    lookfeet := p.defaultOutfit.lookFeet.toUInt16
    lookhead := p.defaultOutfit.lookHead.toUInt16
    looklegs := p.defaultOutfit.lookLegs.toUInt16
    looktype := p.defaultOutfit.lookType
    maglevel := p.magLevel
    mana := p.mana
    manamax := p.manaMax
    manaspent := p.manaSpent
    soul := p.soul.toUInt16
    townId := p.town
    posx := p.loginPosition.1
    posy := p.loginPosition.2.1
    posz := p.loginPosition.2.2.toUInt16
    cap := p.capacity / 100
    sex := p.sex
    lastlogin := if p.lastLoginSaved ≠ 0 then p.lastLoginSaved else c.lastlogin
    lastip := if p.lastIP ≠ 0 then p.lastIP else c.lastip
    skulltime :=
      if W.pvpEnforced then c.skulltime
      else if 0 < p.skullTicks then int32 (now + p.skullTicks.tdiv 1000) else 0
    skull :=
      if W.pvpEnforced then c.skull
      else if p.skull = .red then Skull.red.code else Skull.none.code
    lastlogout := p.lastLogout
    balance := p.bankBalance
    offlinetrainingTime := p.offlineTrainingTime / 1000
    offlinetrainingSkill := p.offlineTrainingSkill
    skills := fun i => (p.skills i).level
    skillTries := fun i => (p.skills i).tries
    onlinetime := if p.isOffline then c.onlinetime else c.onlinetime + (now - p.lastLoginSaved)
    blessings := p.blessings.toUInt16 }

/-- The items of the depot chests, in the order of their ids. -/
def depotBlocks (depotChests : List (ℕ × Forest Item)) : List ItemBlock :=
  depotChests.flatMap fun d => children d.1 d.2

/-- The items of the depot lockers, without the chests. -/
def inboxBlocks (depotLockerMap : List (ℕ × Forest Item)) : List ItemBlock :=
  (depotBlocks depotLockerMap).filter fun b => b.2.1.id ≠ itemDepot

/-- `IOLoginData::savePlayer` over the record `r`, at the time `now`. -/
def savePlayer (W : World) (now : ℤ) (r : Record) (p : Player) : Record :=
  let p := if p.health ≤ 0 then changeHealth p else p
  if r.columns.save = 0 then
    { r with columns := { r.columns with lastlogin := p.lastLoginSaved, lastip := p.lastIP } }
  else
    { columns := saveColumns W now r.columns p
      conditions := p.conditions.filter (·.isPersistent)
      spells := p.learnedInstantSpellList
      items := saveItems W.env.items (slotBlocks p.inventory)
      depotItems :=
        if p.lastDepotId ≠ -1 then saveItems W.env.items (depotBlocks p.depotChests)
        else r.depotItems
      inboxItems :=
        if p.lastDepotId ≠ -1 then saveItems W.env.items (inboxBlocks p.depotLockerMap)
        else r.inboxItems
      storage := p.storageMap.pairs }

/-- Loading a player who is not online and saving it, with nothing done in
between. -/
def touch (W : World) (loadTime saveTime : ℤ) (r : Record) : Record :=
  match loadPlayer W loadTime r with
  | none => r
  | some p => savePlayer W saveTime r p

/-! ### The storage values come back -/

theorem addStorageValue_pairs {m : StorageMap} {key : ℕ} {value : Int32} (h : value ≠ -1) :
    (m.addStorageValue key value).pairs = SortedMap.insert key value m.pairs := by
  unfold StorageMap.addStorageValue
  rw [dif_pos h]

theorem foldl_addStorageValue : ∀ {l : List (ℕ × Int32)} (m : StorageMap), (∀ p ∈ l, p.2 ≠ -1) →
    (l.foldl (fun m p => m.addStorageValue p.1 p.2) m).pairs =
      l.foldl (fun m p => SortedMap.insert p.1 p.2 m) m.pairs
  | [], _, _ => rfl
  | p :: l, m, h => by
    have ih := foldl_addStorageValue (m.addStorageValue p.1 p.2) fun q hq =>
      h q (List.mem_cons_of_mem _ hq)
    rw [List.foldl_cons, List.foldl_cons, ih, addStorageValue_pairs (h p List.mem_cons_self)]

theorem loadStorage_pairs (m : StorageMap) : (loadStorage m.pairs).pairs = m.pairs := by
  unfold loadStorage
  rw [foldl_addStorageValue _ m.noErased]
  exact SortedMap.ofList_eq m.sorted (List.Perm.refl _)

/-! ### What savePlayer writes -/

/-- A player in the game: its login position is not (0, 0, 0), it has no skull
time, its group, vocation and town exist, and its items are of the classes that
`Item::CreateItem` builds. -/
structure Living (W : World) (p : Player) : Prop where
  alive : 0 < p.health
  loginPosition : p.loginPosition ≠ (0, 0, 0)
  skullTicks : p.skullTicks ≤ 0
  group : W.groups p.group
  vocation : (W.vocations p.vocation).isSome
  town : (W.towns p.town).isSome
  inventory : CreatableInventory W.env.items p.inventory

/-- A record that `savePlayer` wrote for a living player. -/
def Written (W : World) (r : Record) : Prop :=
  ∃ now r0 p, Living W p ∧ r = savePlayer W now r0 p

/-- What holds of every record written in full. -/
structure FullRecord (W : World) (r : Record) : Prop where
  save : r.columns.save ≠ 0
  health : 0 < r.columns.health
  looks : r.columns.lookbody.toUInt8.toUInt16 = r.columns.lookbody ∧
    r.columns.lookfeet.toUInt8.toUInt16 = r.columns.lookfeet ∧
    r.columns.lookhead.toUInt8.toUInt16 = r.columns.lookhead ∧
    r.columns.looklegs.toUInt8.toUInt16 = r.columns.looklegs
  soul : r.columns.soul.toUInt8.toUInt16 = r.columns.soul
  blessings : r.columns.blessings.toUInt8.toUInt16 = r.columns.blessings
  posz : r.columns.posz.toUInt8.toUInt16 = r.columns.posz
  position : (r.columns.posx, r.columns.posy, r.columns.posz.toUInt8) ≠ (0, 0, 0)
  cap : r.columns.cap * 100 / 100 = r.columns.cap
  offlinetraining : r.columns.offlinetrainingTime * 1000 / 1000 = r.columns.offlinetrainingTime
  skulltime : W.pvpEnforced ∨ r.columns.skulltime = 0
  skull : W.pvpEnforced ∨ r.columns.skull = Skull.none.code ∨ r.columns.skull = Skull.red.code
  group : W.groups r.columns.groupId
  vocation : (W.vocations r.columns.vocation).isSome
  town : (W.towns r.columns.townId).isSome
  items : ∃ inventory, CreatableInventory W.env.items inventory ∧
    r.items = saveItems W.env.items (slotBlocks inventory)
  storage : ∃ m : StorageMap, r.storage = m.pairs

theorem cap_stable (c : UInt32) : c / 100 * 100 / 100 = c / 100 := by
  have hk : (100 : UInt32).toNat = 100 := rfl
  have h := c.toNat_lt
  rw [← UInt32.toNat_inj, UInt32.toNat_div, UInt32.toNat_mul, UInt32.toNat_div, hk]
  omega

theorem tdiv_mul_bounds {t : ℤ} (h1 : -2 ^ 31 ≤ t) (h2 : t < 2 ^ 31) :
    -2 ^ 31 ≤ t.tdiv 1000 * 1000 ∧ t.tdiv 1000 * 1000 < 2 ^ 31 := by
  rcases le_total 0 t with h | h
  · rw [Int.tdiv_eq_ediv_of_nonneg h]
    omega
  · obtain ⟨s, rfl⟩ : ∃ s, t = -s := ⟨-t, (neg_neg t).symm⟩
    rw [Int.neg_tdiv, Int.tdiv_eq_ediv_of_nonneg (by omega)]
    omega

theorem offlinetraining_stable (t : Int32) : t / 1000 * 1000 / 1000 = t / 1000 := by
  have hk : (1000 : Int32).toInt = 1000 := rfl
  obtain ⟨h1, h2⟩ := tdiv_mul_bounds t.le_toInt t.toInt_lt
  rw [← Int32.toInt_inj, Int32.toInt_div_of_ne_right _ _ (by decide), Int32.toInt_mul,
    Int32.toInt_div_of_ne_right _ _ (by decide), hk, Int.bmod_eq_of_le h1 h2,
    Int.mul_tdiv_cancel _ (by decide)]

theorem fullRecord_savePlayer {W : World} (now : ℤ) {r : Record} {p : Player} (hp : Living W p)
    (hs : r.columns.save ≠ 0) : FullRecord W (savePlayer W now r p) := by
  have hh : ¬ p.health ≤ 0 := Int32.not_le.2 hp.alive
  unfold savePlayer
  rw [if_neg hh, if_neg hs]
  refine ⟨hs, hp.alive, ?_, ?_, ?_, ?_, ?_, cap_stable _, offlinetraining_stable _, ?_, ?_, hp.group,
    hp.vocation, hp.town, ⟨p.inventory, hp.inventory, rfl⟩, ⟨p.storageMap, rfl⟩⟩
  · simp [saveColumns]
  · simp [saveColumns]
  · simp [saveColumns]
  · simp [saveColumns]
  · simpa [saveColumns] using hp.loginPosition
  · by_cases hw : W.pvpEnforced
    · exact .inl hw
    · refine .inr ?_
      simp only [saveColumns, hw, if_neg (not_lt.2 hp.skullTicks)]
      rfl
  · by_cases hw : W.pvpEnforced
    · exact .inl hw
    · refine .inr ?_
      simp only [saveColumns, hw]
      by_cases hr : p.skull = .red
      · exact .inr (by rw [if_pos hr]; rfl)
      · exact .inl (by rw [if_neg hr]; rfl)

/-! ### What touching leaves -/

/-- The record after its player was loaded and saved. -/
def touched (W : World) (voc : Vocation) (r : Record) : Record :=
  let c := r.columns
  let level := max 1 c.level
  { r with
    columns := { c with
      level
      experience := loadExperience level c.experience
      manaspent := loadManaSpent voc c
      skillTries := fun i => (loadSkill voc c i).tries
      skull := if W.pvpEnforced then c.skull else Skull.none.code }
    conditions := []
    spells := r.spells.reverse
    items := r.items.map (Row.resave W.env) }

section Touch

variable {W : World} {r : Record} {voc : Vocation} {loadTime saveTime : ℤ}

theorem loadPlayer_eq {town : UInt16 × UInt16 × UInt8} (hg : W.groups r.columns.groupId)
    (hv : W.vocations r.columns.vocation = some voc) (ht : W.towns r.columns.townId = some town) :
    loadPlayer W loadTime r = some (loadFields W loadTime r voc town) := by
  unfold loadPlayer
  simp only [hg, hv, ht]
  rfl

/-- **Nothing else changes.** -/
theorem touch_eq (h : FullRecord W r) (hv : W.vocations r.columns.vocation = some voc)
    (ht : 0 ≤ loadTime) : touch W loadTime saveTime r = touched W voc r := by
  obtain ⟨town, htown⟩ := Option.isSome_iff_exists.1 h.town
  obtain ⟨inventory, hinv, hitems⟩ := h.items
  obtain ⟨storage, hstorage⟩ := h.storage
  have hload : loadPlayer W loadTime r = some (loadFields W loadTime r voc town) :=
    loadPlayer_eq h.group hv htown
  have halive : ¬ (loadFields W loadTime r voc town).health ≤ 0 := Int32.not_le.2 h.health
  have hskull : (!W.pvpEnforced && decide (0 < r.columns.skulltime - loadTime)) = false := by
    rcases h.skulltime with hs | hs
    · simp [hs]
    · rw [hs]
      simp only [Bool.and_eq_false_iff, decide_eq_false_iff_not]
      exact .inr (by omega)
  have hcols : saveColumns W saveTime r.columns (loadFields W loadTime r voc town) =
      (touched W voc r).columns := by
    obtain ⟨h1, h2, h3, h4⟩ := h.looks
    have htime : (if W.pvpEnforced then r.columns.skulltime else 0) = r.columns.skulltime := by
      rcases h.skulltime with hs | hs
      · rw [if_pos hs]
      · rw [hs, ite_self]
    unfold saveColumns loadFields touched
    simp only [h1, h2, h3, h4, h.soul, h.blessings, h.posz, h.cap, h.offlinetraining, hskull,
      if_neg h.position, ite_self, Bool.false_eq_true, Bool.false_and, if_false, lt_irrefl, htime,
      ne_eq, not_true_eq_false, reduceCtorEq, if_true]
    rfl
  have hrows : saveItems W.env.items (slotBlocks (loadInventory W.env r.items)) =
      r.items.map (Row.resave W.env) := by
    rw [hitems]
    exact saveItems_loadInventory hinv (List.Perm.refl _)
  have hstore : (loadStorage r.storage).pairs = r.storage := by
    rw [hstorage, loadStorage_pairs]
  unfold touch
  rw [hload]
  show savePlayer W saveTime r _ = _
  unfold savePlayer
  rw [if_neg halive, if_neg h.save, hcols]
  show Record.mk _ _ _ (saveItems W.env.items (slotBlocks (loadInventory W.env r.items))) _ _
    (loadStorage r.storage).pairs = _
  rw [hrows, hstore]
  rfl

/-- The conditions on a record under which touching it changes nothing: no column is out of
its bounds, and every item row is that of an item that loading leaves as it is. -/
structure Intact (W : World) (voc : Vocation) (r : Record) : Prop where
  conditions : r.conditions = []
  level : 1 ≤ r.columns.level
  experience : r.columns.experience = Experience.expOf r.columns.level ∨
    Experience.expOf r.columns.level ≤ r.columns.experience ∧
      r.columns.experience ≤ Experience.expOf (r.columns.level + 1)
  manaspent : r.columns.manaspent ≤ voc.getReqMana (r.columns.maglevel + 1)
  skillTries : ∀ i, r.columns.skillTries i ≤ voc.getReqSkillTries i (r.columns.skills i + 1)
  skull : W.pvpEnforced ∨ r.columns.skull ≠ Skull.red.code
  items : ∀ row ∈ r.items, SettledRow W.env row

/-- The record is the same: every column, the stored conditions up to their
order, the item rows, the learned spells and the storage values. -/
structure SameRecord (r r' : Record) : Prop where
  columns : r'.columns = r.columns
  conditions : r'.conditions.Perm r.conditions
  items : r'.items = r.items
  depotItems : r'.depotItems = r.depotItems
  inboxItems : r'.inboxItems = r.inboxItems
  spells : r'.spells.Perm r.spells
  storage : r'.storage = r.storage

/-- What a written record is to satisfy. A row of `players` with `save` 0 is
written in two columns only, and not at all if the player cannot be loaded. -/
def Unchanged (W : World) (r : Record) : Prop :=
  if r.columns.save = 0 then
    r.columns.lastip = 0 ∨ ¬ (W.groups r.columns.groupId ∧
      (W.vocations r.columns.vocation).isSome ∧ (W.towns r.columns.townId).isSome)
  else ∀ voc, W.vocations r.columns.vocation = some voc → Intact W voc r

/-- With `save` 0, two columns are written. -/
theorem savePlayer_unsaved {now : ℤ} {p : Player} (hs : r.columns.save = 0) :
    savePlayer W now r p =
      { r with columns := { r.columns with lastlogin := p.lastLoginSaved, lastip := p.lastIP } } := by
  unfold savePlayer
  rw [if_pos hs]
  split
  · rfl
  · rfl

theorem touch_unsaved (hs : r.columns.save = 0) :
    SameRecord r (touch W loadTime saveTime r) ↔ r.columns.lastip = 0 ∨
      ¬ (W.groups r.columns.groupId ∧ (W.vocations r.columns.vocation).isSome ∧
        (W.towns r.columns.townId).isSome) := by
  by_cases hl : W.groups r.columns.groupId ∧ (W.vocations r.columns.vocation).isSome ∧
      (W.towns r.columns.townId).isSome
  · obtain ⟨hg, hv, ht⟩ := hl
    obtain ⟨voc, hv⟩ := Option.isSome_iff_exists.1 hv
    obtain ⟨town, ht⟩ := Option.isSome_iff_exists.1 ht
    have htouch : touch W loadTime saveTime r =
        { r with columns := { r.columns with lastip := 0 } } := by
      unfold touch
      rw [loadPlayer_eq hg hv ht]
      exact savePlayer_unsaved hs
    rw [htouch]
    constructor
    · intro h
      exact .inl (congrArg Columns.lastip h.columns).symm
    · intro h
      have hip : r.columns.lastip = 0 := h.resolve_right fun hn => hn ⟨hg, by simp [hv], by simp [ht]⟩
      exact ⟨by rw [← hip], .refl _, rfl, rfl, rfl, .refl _, rfl⟩
  · have hload : loadPlayer W loadTime r = none := by
      unfold loadPlayer
      split
      · rfl
      · next hg =>
        split
        · next hv ht =>
          exact absurd ⟨by simpa using hg, by simp [hv], by simp [ht]⟩ hl
        · rfl
    have htouch : touch W loadTime saveTime r = r := by
      unfold touch
      rw [hload]
    rw [htouch]
    exact ⟨fun _ => .inr hl, fun _ => ⟨rfl, .refl _, rfl, rfl, rfl, .refl _, rfl⟩⟩

theorem loadExperience_eq (level : UInt32) (e : UInt64) : loadExperience level e = e ↔
    e = Experience.expOf level ∨
      Experience.expOf level ≤ e ∧ e ≤ Experience.expOf (level + 1) := by
  unfold loadExperience
  simp only [← UInt64.not_le, ← not_and_or]
  by_cases h : Experience.expOf level ≤ e ∧ e ≤ Experience.expOf (level + 1)
  · simp [h]
  · simp [h, eq_comm]

theorem clamp_eq {a b : UInt64} : (if b < a then 0 else a) = a ↔ a ≤ b := by
  rw [← UInt64.not_lt]
  by_cases h : b < a
  · have : (0 : UInt64) ≠ a := fun h0 => by simp [← h0] at h
    simp [h, this]
  · simp [h]

theorem max_one_eq {a : UInt32} : max 1 a = a ↔ 1 ≤ a := by
  show (if 1 ≤ a then a else 1) = a ↔ _
  by_cases h : 1 ≤ a
  · simp [h]
  · have : (1 : UInt32) ≠ a := fun h1 => h (h1 ▸ UInt32.le_refl 1)
    simp [h, this]

theorem map_eq_self {α : Type*} (f : α → α) (l : List α) : l.map f = l ↔ ∀ a ∈ l, f a = a := by
  have h := List.map_inj_left (l := l) (f := f) (g := id)
  rwa [List.map_id] at h

theorem same_touched_iff (h : FullRecord W r) :
    SameRecord r (touched W voc r) ↔ Intact W voc r := by
  have hrow : ∀ row ∈ r.items, row.resave W.env = row ↔ SettledRow W.env row := by
    obtain ⟨inventory, hinv, hitems⟩ := h.items
    rw [hitems]
    exact fun _ hrow => resave_eq_self_iff (creatable_slotBlocks hinv) hrow
  have hitems : r.items.map (Row.resave W.env) = r.items ↔ ∀ row ∈ r.items, SettledRow W.env row :=
    (map_eq_self _ _).trans (forall₂_congr hrow)
  constructor
  · intro hs
    have hlevel : max 1 r.columns.level = r.columns.level := congrArg Columns.level hs.columns
    have hexp := congrArg Columns.experience hs.columns
    have hmana : loadManaSpent voc r.columns = r.columns.manaspent :=
      congrArg Columns.manaspent hs.columns
    have htries := congrArg Columns.skillTries hs.columns
    have hskull : (if W.pvpEnforced then r.columns.skull else Skull.none.code) = r.columns.skull :=
      congrArg Columns.skull hs.columns
    refine ⟨List.nil_perm.1 hs.conditions, max_one_eq.1 hlevel, ?_, clamp_eq.1 hmana,
      fun i => clamp_eq.1 (congrFun htries i), ?_, hitems.1 hs.items⟩
    · simp only [touched, hlevel] at hexp
      exact (loadExperience_eq _ _).1 hexp
    · by_cases hw : W.pvpEnforced
      · exact .inl hw
      · rw [if_neg hw] at hskull
        rw [← hskull]
        exact .inr (by decide)
  · intro hi
    have hlevel := max_one_eq.2 hi.level
    have hskull : (if W.pvpEnforced then r.columns.skull else Skull.none.code) = r.columns.skull := by
      rcases hi.skull with hw | hne
      · rw [if_pos hw]
      · rcases h.skull with hw | hn | hr
        · rw [if_pos hw]
        · rw [hn, ite_self]
        · exact absurd hr hne
    have htries : (fun i => (loadSkill voc r.columns i).tries) = r.columns.skillTries :=
      funext fun i => clamp_eq.2 (hi.skillTries i)
    refine ⟨?_, ?_, hitems.2 hi.items, rfl, rfl, List.reverse_perm _, rfl⟩
    · unfold touched
      simp only [hlevel, (loadExperience_eq _ _).2 hi.experience, hskull, htries]
      rw [loadManaSpent, clamp_eq.2 hi.manaspent]
    · rw [hi.conditions]
      exact List.Perm.refl _

/-- **Touching a player who is not online.** A record that `savePlayer` wrote
for a living player is the same after it was loaded and saved again if and only
if it is `Unchanged`. -/
theorem touch_same_iff (h : Written W r) (ht : 0 ≤ loadTime) :
    SameRecord r (touch W loadTime saveTime r) ↔ Unchanged W r := by
  obtain ⟨now, r0, p, hp, rfl⟩ := h
  unfold Unchanged
  by_cases hs : r0.columns.save = 0
  · have hsave : (savePlayer W now r0 p).columns.save = 0 := by
      rw [savePlayer_unsaved hs]
      exact hs
    rw [if_pos hsave]
    exact touch_unsaved hsave
  · have hfull := fullRecord_savePlayer now hp hs
    obtain ⟨voc, hv⟩ := Option.isSome_iff_exists.1 hfull.vocation
    rw [if_neg hfull.save, touch_eq hfull hv ht, same_touched_iff hfull]
    refine ⟨fun hi voc' hv' => ?_, fun hi => hi voc hv⟩
    rw [hv] at hv'
    exact Option.some.inj hv' ▸ hi

end Touch

/-! ### A poisoned player -/

/-- One group, one vocation and one town. -/
def island : World where
  env := fruitBag
  pvpEnforced := false
  groups id := id = 1
  vocations id := if id = 0 then some ⟨fun _ => 400, fun _ _ => 50⟩ else none
  towns id := if id = 1 then some (100, 100, 7) else none

/-- The row of a new player. -/
def newcomer : Record :=
  { (default : Record) with
    columns := { (default : Columns) with
      save := 1, level := 1, groupId := 1, townId := 1, health := 150, healthmax := 150,
      posx := 100, posy := 101, posz := 7 } }

/-- A poisoned player in the game, with an empty inventory. -/
def poisoned : Player :=
  { loadFields island 0 newcomer ⟨fun _ => 400, fun _ _ => 50⟩ (100, 100, 7) with
    conditions := [{ id := -1, conditionType := 1, ticks := 2000, isBuff := false, subId := 0, props := [] }]
    inventory := fun _ => none }

theorem living_poisoned : Living island poisoned :=
  ⟨by decide, by decide, by decide, by decide, by decide, by decide, fun _ _ h => nomatch h⟩

theorem touch_same_iff_poisoned :
    SameRecord (savePlayer island 0 newcomer poisoned)
      (touch island 10 20 (savePlayer island 0 newcomer poisoned)) ↔
    Unchanged island (savePlayer island 0 newcomer poisoned) :=
  touch_same_iff ⟨0, newcomer, poisoned, living_poisoned, rfl⟩ (by decide)

/-- The poison that `savePlayer` stored is gone once mail was delivered. -/
theorem touch_forgets_condition : ¬ ∀ (W : World) (r : Record) (loadTime saveTime : ℤ),
    Written W r → 0 ≤ loadTime → SameRecord r (touch W loadTime saveTime r) := by
  intro h
  have hsame := h island (savePlayer island 0 newcomer poisoned) 10 20
    ⟨0, newcomer, poisoned, living_poisoned, rfl⟩ (by decide)
  have hfull : FullRecord island (savePlayer island 0 newcomer poisoned) :=
    fullRecord_savePlayer 0 living_poisoned (by decide)
  rw [touch_eq hfull rfl (by decide)] at hsame
  exact absurd (List.nil_perm.1 hsame.conditions) (by decide)

end IOLoginData
end ForgottenServer
