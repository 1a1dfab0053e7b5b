/-
# Effects of worn items

`MoveEvent::EquipItem` and `MoveEvent::DeEquipItem` for items without an equip
transformation: the ability flag of the slot, the conditions whose id is the
slot, the speed, the suppressed conditions, and the modifiers of skills and
stats. A percent modifier is resolved against the default stats of the player
at the time of the call, in exact arithmetic, once when the item is put on and
once more when it is taken off. Messages to clients are left out, and so is
what a changed speed does to a walk in progress. Signed sums wrap.

A history interleaves the calls on the items in the slots with level and magic
level changes; beside the player it carries what each slot's item contributed
when it was equipped.

Key definitions: `EquipItem`, `DeEquipItem`, `step`, `Balanced`, `Resolved`,
`Immune`, `Unshared`.
Key theorems: `EquipItem_cases`, `DeEquipItem_eq`, `balanced_iff_resolved`,
`immune_iff_unshared`.
-/
import ForgottenServer.Lib.Run
import ForgottenServer.Lib.Ledger
import ForgottenServer.Experience

namespace ForgottenServer
namespace Equipment

open Run Ledger
open Experience (Vocation maxZero)

/-! ### The model -/

/-- `slots_t` -/
inductive Slot
  | wherever | head | necklace | backpack | armor | right | left | legs | feet | ring | ammo
  deriving DecidableEq

/-- `skills_t`, those that an item can modify. -/
inductive Skill
  | fist | club | sword | axe | distance | shield | fishing
  deriving DecidableEq

/-- `stats_t` -/
inductive Stat
  | maxHitPoints | maxManaPoints | soulPoints | magicPoints
  deriving DecidableEq

/-- `SKILL_FIRST` to `SKILL_LAST` -/
def Skill.all : List Skill := [.fist, .club, .sword, .axe, .distance, .shield, .fishing]

/-- `STAT_FIRST` to `STAT_LAST` -/
def Stat.all : List Stat := [.maxHitPoints, .maxManaPoints, .soulPoints, .magicPoints]

def Slot.all : List Slot :=
  [.wherever, .head, .necklace, .backpack, .armor, .right, .left, .legs, .feet, .ring, .ammo]

theorem Skill.mem_all (k : Skill) : k ∈ all := by cases k <;> decide
theorem Stat.mem_all (s : Stat) : s ∈ all := by cases s <;> decide
theorem Slot.mem_all (s : Slot) : s ∈ all := by cases s <;> decide

instance : Fintype Slot := Fintype.ofList Slot.all Slot.mem_all

/-- The gains of a `CONDITION_REGENERATION`. -/
structure Regeneration where
  healthGain : UInt32 := 0
  healthTicks : UInt32 := 1000
  manaGain : UInt32 := 0
  manaTicks : UInt32 := 1000
  deriving DecidableEq

/-- The fields of `Abilities` that the two functions read. -/
structure Abilities where
  healthGain : UInt32 := 0
  healthTicks : UInt32 := 0
  manaGain : UInt32 := 0
  manaTicks : UInt32 := 0
  conditionSuppressions : BitVec 32 := 0
  stats : Stat → Int32 := fun _ => 0
  statsPercent : Stat → Int32 := fun _ => 0
  skills : Skill → Int32 := fun _ => 0
  speed : Int32 := 0
  manaShield : Bool := false
  invisible : Bool := false
  regeneration : Bool := false

/-- The conditions of a player whose id is a slot. -/
structure SlotConditions where
  invisible : Bool := false
  manaShield : Bool := false
  regeneration : Option Regeneration := none

/-- The requirements of a `MoveEvent` on who may wear the item. -/
structure MoveEvent where
  wieldInfo : UInt32
  reqLevel : UInt32
  reqMagLevel : UInt32
  premium : Bool
  vocEquipMap : List UInt16

/-- The fields of `Player` that equipping reads or changes.
`ignoreWeaponCheck` is the flag `PlayerFlag_IgnoreWeaponCheck`, `premium` what
`isPremium` returns. -/
structure Player extends Experience.Player where
  magLevel : UInt32
  varSkills : Skill → Int32
  varStats : Stat → Int32
  varSpeed : Int32
  conditionSuppressions : BitVec 32
  inventoryAbilities : Slot → Bool
  slotConditions : Slot → SlotConditions
  vocationId : UInt16
  premium : Bool
  ignoreWeaponCheck : Bool

namespace Player

def isItemAbilityEnabled (p : Player) (slot : Slot) : Bool := p.inventoryAbilities slot

def setItemAbility (p : Player) (slot : Slot) (enabled : Bool) : Player :=
  { p with inventoryAbilities := Function.update p.inventoryAbilities slot enabled }

def getMagicLevel (p : Player) : UInt32 :=
  (maxZero (p.magLevel.toInt32 + p.varStats .magicPoints)).toUInt32

def getMaxHealth (p : Player) : Int32 :=
  let h := p.healthMax + p.varStats .maxHitPoints
  if 1 < h then h else 1

def getMaxMana (p : Player) : UInt32 :=
  (maxZero (p.manaMax.toInt32 + p.varStats .maxManaPoints)).toUInt32

def getDefaultStats (p : Player) : Stat → Int32
  | .maxHitPoints => p.healthMax
  | .maxManaPoints => p.manaMax.toInt32
  | .magicPoints => p.magLevel.toInt32
  | .soulPoints => 0

/-- `Creature::changeHealth` -/
def changeHealth (p : Player) (healthChange : Int32) : Player :=
  if 0 < healthChange then
    let room := p.getMaxHealth - p.health
    { p with health := p.health + if healthChange < room then healthChange else room }
  else { p with health := maxZero (p.health + healthChange) }

/-- `Creature::changeMana` -/
def changeMana (p : Player) (manaChange : Int32) : Player :=
  if 0 < manaChange then
    let room := (p.getMaxMana - p.mana).toInt32
    { p with mana := p.mana + (if manaChange < room then manaChange else room).toUInt32 }
  else { p with mana := (maxZero (p.mana.toInt32 + manaChange)).toUInt32 }

def setVarSkill (p : Player) (skill : Skill) (modifier : Int32) : Player :=
  { p with varSkills := Function.update p.varSkills skill (p.varSkills skill + modifier) }

def setVarStats (p : Player) (stat : Stat) (modifier : Int32) : Player :=
  let p := { p with varStats := Function.update p.varStats stat (p.varStats stat + modifier) }
  match stat with
  | .maxHitPoints =>
    if p.getMaxHealth < p.health then p.changeHealth (p.getMaxHealth - p.health) else p
  | .maxManaPoints =>
    if p.getMaxMana < p.mana then p.changeMana (p.getMaxMana - p.mana).toInt32 else p
  | _ => p

def addConditionSuppressions (p : Player) (conditions : BitVec 32) : Player :=
  { p with conditionSuppressions := p.conditionSuppressions ||| conditions }

def removeConditionSuppressions (p : Player) (conditions : BitVec 32) : Player :=
  { p with conditionSuppressions := p.conditionSuppressions &&& ~~~ conditions }

def setSlotConditions (p : Player) (slot : Slot) (c : SlotConditions) : Player :=
  { p with slotConditions := Function.update p.slotConditions slot c }

def getSpeed (p : Player) : Int32 := (p.baseSpeed + p.varSpeed.toUInt32).toInt32

end Player

/-- `Game::changeSpeed` -/
def changeSpeed (p : Player) (varSpeedDelta : Int32) : Player :=
  { p with varSpeed := (p.getSpeed.toUInt32 - p.baseSpeed).toInt32 + varSpeedDelta }

/-- The amount of a percent modifier: `default * (percent - 100) / 100`,
truncated. -/
def share (default percent : Int32) : Int32 :=
  .ofInt ((default.toInt * (percent.toInt - 100)).tdiv 100)

/-- The body of the loop over the skills; taking the item off negates. -/
def modifySkill (sign : Int32 → Int32) (a : Abilities) (p : Player) (i : Skill) : Player :=
  if a.skills i ≠ 0 then p.setVarSkill i (sign (a.skills i)) else p

/-- The body of the loop over the stats; taking the item off negates. -/
def modifyStat (sign : Int32 → Int32) (a : Abilities) (p : Player) (s : Stat) : Player :=
  let p := if a.stats s ≠ 0 then p.setVarStats s (sign (a.stats s)) else p
  if a.statsPercent s ≠ 0 then p.setVarStats s (sign (share (p.getDefaultStats s) (a.statsPercent s)))
  else p

/-- The `CONDITION_REGENERATION` that an item gives. -/
def regenerationOf (a : Abilities) : Regeneration :=
  let c : Regeneration := {}
  let c := if a.healthGain ≠ 0 then { c with healthGain := a.healthGain } else c
  let c := if a.healthTicks ≠ 0 then { c with healthTicks := a.healthTicks } else c
  let c := if a.manaGain ≠ 0 then { c with manaGain := a.manaGain } else c
  if a.manaTicks ≠ 0 then { c with manaTicks := a.manaTicks } else c

section Functions

variable (abilities : UInt16 → Option Abilities)

/-- `MoveEvent::EquipItem` with the return value; `abilities` is
`Item::items[id].abilities`. -/
def EquipItem (moveEvent : MoveEvent) (p : Player) (item : UInt16) (slot : Slot)
    (isCheck : Bool) : UInt32 × Player :=
  if p.isItemAbilityEnabled slot then (1, p)
  else if !p.ignoreWeaponCheck && moveEvent.wieldInfo ≠ 0 &&
      (p.level < moveEvent.reqLevel || p.getMagicLevel < moveEvent.reqMagLevel) then (0, p)
  else if !p.ignoreWeaponCheck && moveEvent.wieldInfo ≠ 0 &&
      moveEvent.premium && !p.premium then (0, p)
  else if !p.ignoreWeaponCheck && moveEvent.wieldInfo ≠ 0 &&
      !moveEvent.vocEquipMap.isEmpty && !moveEvent.vocEquipMap.contains p.vocationId then (0, p)
  else if isCheck then (1, p)
  else
    let p := p.setItemAbility slot true
    match abilities item with
    | none => (1, p)
    | some a =>
      let c := p.slotConditions slot
      let p := if a.invisible then p.setSlotConditions slot { c with invisible := true } else p
      let c := p.slotConditions slot
      let p := if a.manaShield then p.setSlotConditions slot { c with manaShield := true } else p
      let p := if a.speed ≠ 0 then changeSpeed p a.speed else p
      let p := if a.conditionSuppressions ≠ 0 then p.addConditionSuppressions a.conditionSuppressions
        else p
      let c := p.slotConditions slot
      let p := if a.regeneration then
          p.setSlotConditions slot { c with regeneration := some (regenerationOf a) } else p
      let p := Skill.all.foldl (modifySkill id a) p
      (1, Stat.all.foldl (modifyStat id a) p)

/-- `MoveEvent::DeEquipItem` with the return value. -/
def DeEquipItem (p : Player) (item : UInt16) (slot : Slot) : UInt32 × Player :=
  if !p.isItemAbilityEnabled slot then (1, p)
  else
    let p := p.setItemAbility slot false
    match abilities item with
    | none => (1, p)
    | some a =>
      let c := p.slotConditions slot
      let p := if a.invisible then p.setSlotConditions slot { c with invisible := false } else p
      let c := p.slotConditions slot
      let p := if a.manaShield then p.setSlotConditions slot { c with manaShield := false } else p
      let p := if a.speed ≠ 0 then changeSpeed p (-a.speed) else p
      let p := if a.conditionSuppressions ≠ 0 then
          p.removeConditionSuppressions a.conditionSuppressions else p
      let c := p.slotConditions slot
      let p := if a.regeneration then p.setSlotConditions slot { c with regeneration := none } else p
      let p := Skill.all.foldl (modifySkill Neg.neg a) p
      (1, Stat.all.foldl (modifyStat Neg.neg a) p)

end Functions

/-- `Player::addExperience` and `Player::removeExperience`: a new level ends in
`changeSpeed(this, 0)`. -/
def changeExperience (f : Experience.Player → UInt64 → Experience.Player) (p : Player)
    (exp : UInt64) : Player :=
  let p' := { p with toPlayer := f p.toPlayer exp }
  if p.level ≠ p'.level then changeSpeed p' 0 else p'

/-! ### What the two functions change -/

/-- What an item adds to a stat, for given default stats. -/
def statAmount (a : Abilities) (default : Stat → Int32) (s : Stat) : Int32 :=
  a.stats s + if a.statsPercent s ≠ 0 then share (default s) (a.statsPercent s) else 0

/-- The abilities of an item type; a type without any contributes nothing. -/
def abilitiesOf (abilities : UInt16 → Option Abilities) (item : UInt16) : Abilities :=
  (abilities item).getD {}

theorem changeSpeed_eq (p : Player) (d : Int32) :
    changeSpeed p d = { p with varSpeed := p.varSpeed + d } := by
  unfold changeSpeed Player.getSpeed
  have h : ((p.baseSpeed + p.varSpeed.toUInt32).toInt32.toUInt32 - p.baseSpeed).toInt32 = p.varSpeed := by
    have : (p.baseSpeed + p.varSpeed.toUInt32).toInt32.toUInt32 - p.baseSpeed = p.varSpeed.toUInt32 := by
      rw [UInt32.toUInt32_toInt32]
      grind
    rw [this, Int32.toInt32_toUInt32]
  rw [h]

/-- The player with other variable stats and whatever health and mana that
leaves him. -/
def Player.withStats (p : Player) (varStats : Stat → Int32) (health : Int32) (mana : UInt32) : Player :=
  { p with varStats, health, mana }

section WithStats

variable (p : Player) (v v' : Stat → Int32) (h h' : Int32) (n n' : UInt32)

@[simp] theorem withStats_withStats : (p.withStats v h n).withStats v' h' n' = p.withStats v' h' n' :=
  rfl

@[simp] theorem withStats_varStats : (p.withStats v h n).varStats = v := rfl

@[simp] theorem getDefaultStats_withStats : (p.withStats v h n).getDefaultStats = p.getDefaultStats := by
  funext s
  cases s <;> rfl

end WithStats

theorem setVarStats_eq (p : Player) (s : Stat) (m : Int32) :
    ∃ h n, p.setVarStats s m =
      p.withStats (Function.update p.varStats s (p.varStats s + m)) h n := by
  unfold Player.setVarStats Player.changeHealth Player.changeMana
  cases s with
  | maxHitPoints => dsimp only; split_ifs <;> exact ⟨_, _, rfl⟩
  | maxManaPoints => dsimp only; split_ifs <;> exact ⟨_, _, rfl⟩
  | soulPoints => exact ⟨_, _, rfl⟩
  | magicPoints => exact ⟨_, _, rfl⟩

/-- A loop over the skills that skips those without a modifier. -/
theorem foldl_setVarSkill (g : Skill → Prop) [DecidablePred g] (f : Skill → Int32)
    (hg : ∀ i, ¬ g i → f i = 0) : ∀ (l : List Skill) (p : Player), l.Nodup →
    l.foldl (fun p i => if g i then p.setVarSkill i (f i) else p) p = { p with
      varSkills := fun i => if i ∈ l then p.varSkills i + f i else p.varSkills i }
  | [], p, _ => by simp
  | k :: l, p, hn => by
    have hk : (if g k then p.setVarSkill k (f k) else p) = { p with
        varSkills := Function.update p.varSkills k (p.varSkills k + f k) } := by
      unfold Player.setVarSkill
      by_cases h : g k
      · rw [if_pos h]
      · rw [if_neg h, hg k h, Int32.add_zero, Function.update_eq_self]
    rw [List.foldl_cons, hk, foldl_setVarSkill g f hg l _ (List.nodup_cons.1 hn).2]
    congr 1
    funext i
    by_cases hi : i = k
    · subst hi
      simp [(List.nodup_cons.1 hn).1]
    · simp [hi]

/-- A loop over the stats whose turns each add to one of them. -/
theorem foldl_withStats {F : Player → Stat → Player} (f : (Stat → Int32) → Stat → Int32)
    (hF : ∀ p s, ∃ h n, F p s =
      p.withStats (Function.update p.varStats s (p.varStats s + f p.getDefaultStats s)) h n) :
    ∀ (l : List Stat) (p : Player), l.Nodup → ∃ h n, l.foldl F p = p.withStats (fun s =>
      if s ∈ l then p.varStats s + f p.getDefaultStats s else p.varStats s) h n
  | [], p, _ => ⟨p.health, p.mana, by simp [Player.withStats]⟩
  | k :: l, p, hn => by
    obtain ⟨h, n, e⟩ := hF p k
    obtain ⟨h', n', e'⟩ := foldl_withStats f hF l (F p k) (List.nodup_cons.1 hn).2
    refine ⟨h', n', ?_⟩
    rw [List.foldl_cons, e', e, withStats_withStats, withStats_varStats, getDefaultStats_withStats]
    congr 1
    funext s
    by_cases hs : s = k
    · subst hs
      rw [if_neg (List.nodup_cons.1 hn).1, Function.update_self, if_pos (List.mem_cons_self ..)]
    · rw [Function.update_of_ne hs]
      simp only [List.mem_cons, hs, false_or]

section Signs

variable {sign : Int32 → Int32} (hadd : ∀ x y, sign (x + y) = sign x + sign y) (a : Abilities)
include hadd

theorem sign_zero : sign 0 = 0 := by
  have h := hadd 0 0
  rw [Int32.add_zero] at h
  grind

theorem foldl_modifySkill (l : List Skill) (p : Player) (hn : l.Nodup) :
    l.foldl (modifySkill sign a) p = { p with
      varSkills := fun i => if i ∈ l then p.varSkills i + sign (a.skills i) else p.varSkills i } := by
  apply foldl_setVarSkill (fun i => a.skills i ≠ 0) (fun i => sign (a.skills i)) ?_ l p hn
  intro i hi
  rw [not_not.1 hi, sign_zero hadd]

theorem modifyStat_eq (p : Player) (s : Stat) :
    ∃ h n, modifyStat sign a p s = p.withStats (Function.update p.varStats s
      (p.varStats s + sign (statAmount a p.getDefaultStats s))) h n := by
  have h1 : ∃ h n, (if a.stats s ≠ 0 then p.setVarStats s (sign (a.stats s)) else p) =
      p.withStats (Function.update p.varStats s (p.varStats s + sign (a.stats s))) h n := by
    by_cases h : a.stats s = 0
    · rw [h, if_neg (not_not.2 rfl), sign_zero hadd, Int32.add_zero, Function.update_eq_self]
      exact ⟨p.health, p.mana, rfl⟩
    · rw [if_pos h]
      exact setVarStats_eq p s _
  obtain ⟨h, n, e⟩ := h1
  unfold modifyStat statAmount
  rw [e]
  dsimp only
  rw [getDefaultStats_withStats]
  by_cases h2 : a.statsPercent s = 0
  · rw [h2, if_neg (not_not.2 rfl), if_neg (not_not.2 rfl), Int32.add_zero]
    exact ⟨h, n, rfl⟩
  · rw [if_pos h2, if_pos h2]
    obtain ⟨h', n', e'⟩ := setVarStats_eq (p.withStats
      (Function.update p.varStats s (p.varStats s + sign (a.stats s))) h n) s
      (sign (share (p.getDefaultStats s) (a.statsPercent s)))
    refine ⟨h', n', e'.trans ?_⟩
    rw [withStats_withStats, withStats_varStats, Function.update_idem, Function.update_self, hadd,
      Int32.add_assoc]

theorem foldl_modifyStat (l : List Stat) (p : Player) (hn : l.Nodup) :
    ∃ h n, l.foldl (modifyStat sign a) p = p.withStats (fun s =>
      if s ∈ l then p.varStats s + sign (statAmount a p.getDefaultStats s) else p.varStats s) h n :=
  foldl_withStats (fun d s => sign (statAmount a d s)) (modifyStat_eq hadd a) l p hn

end Signs

/-- The player with an item's abilities switched on or off in a slot: `sign`
tells which, `mask` is what becomes of the suppressed conditions. -/
def Player.switched (p : Player) (slot : Slot) (on : Bool) (sign : Int32 → Int32) (a : Abilities)
    (mask : BitVec 32) (c : Slot → SlotConditions) (health : Int32) (mana : UInt32) : Player :=
  { p with
    inventoryAbilities := Function.update p.inventoryAbilities slot on
    varSkills := fun i => p.varSkills i + sign (a.skills i)
    varStats := fun s => p.varStats s + sign (statAmount a p.getDefaultStats s)
    varSpeed := p.varSpeed + sign a.speed
    conditionSuppressions := mask
    slotConditions := c
    health, mana }

section Spec

variable {abilities : UInt16 → Option Abilities} {p : Player} {item : UInt16} {slot : Slot}

theorem all_foldl_modify (sign : Int32 → Int32) (hadd : ∀ x y, sign (x + y) = sign x + sign y)
    (a : Abilities) (p : Player) :
    ∃ h n, Stat.all.foldl (modifyStat sign a) (Skill.all.foldl (modifySkill sign a) p) =
      ({ p with varSkills := fun i => p.varSkills i + sign (a.skills i) }).withStats
        (fun s => p.varStats s + sign (statAmount a p.getDefaultStats s)) h n := by
  rw [foldl_modifySkill hadd a _ _ (by decide)]
  simp only [Skill.mem_all, if_true]
  obtain ⟨h, n, e⟩ := foldl_modifyStat hadd a Stat.all
    { p with varSkills := fun i => p.varSkills i + sign (a.skills i) } (by decide)
  simp only [Stat.mem_all, if_true] at e
  exact ⟨h, n, e⟩

/-- The player with other slot conditions, a changed speed and other
suppressions. -/
def Player.altered (p : Player) (c : Slot → SlotConditions) (speed : Int32) (mask : BitVec 32) :
    Player :=
  { p with slotConditions := c, varSpeed := p.varSpeed + speed, conditionSuppressions := mask }

theorem ite_setSlotConditions (p : Player) (slot : Slot) (b : Bool) (c : SlotConditions) :
    ∃ c', (if b then p.setSlotConditions slot c else p) = p.altered c' 0 p.conditionSuppressions := by
  cases b with
  | false => exact ⟨p.slotConditions, by simp [Player.altered]⟩
  | true => exact ⟨_, by simp only [Player.altered, Int32.add_zero]; rfl⟩

theorem ite_changeSpeed (p : Player) (speed d : Int32) (h : speed = 0 → d = 0) :
    (if speed ≠ 0 then changeSpeed p d else p) =
      p.altered p.slotConditions d p.conditionSuppressions := by
  by_cases h0 : speed = 0
  · rw [h h0, if_neg (not_not.2 h0), Player.altered, Int32.add_zero]
  · rw [if_pos h0, changeSpeed_eq]
    rfl

theorem ite_addConditionSuppressions (p : Player) (m : BitVec 32) :
    (if m ≠ 0 then p.addConditionSuppressions m else p) =
      p.altered p.slotConditions 0 (p.conditionSuppressions ||| m) := by
  by_cases h : m = 0
  · simp [h, Player.altered]
  · rw [if_pos h, Player.addConditionSuppressions, Player.altered, Int32.add_zero]

theorem ite_removeConditionSuppressions (p : Player) (m : BitVec 32) :
    (if m ≠ 0 then p.removeConditionSuppressions m else p) =
      p.altered p.slotConditions 0 (p.conditionSuppressions &&& ~~~ m) := by
  by_cases h : m = 0
  · rw [h, if_neg (not_not.2 rfl), BitVec.ofNat_eq_ofNat, BitVec.not_zero, BitVec.and_allOnes,
      Player.altered, Int32.add_zero]
  · rw [if_pos h, Player.removeConditionSuppressions, Player.altered, Int32.add_zero]

theorem altered_altered (p : Player) (c c' : Slot → SlotConditions) (d d' : Int32)
    (m m' : BitVec 32) : (p.altered c d m).altered c' d' m' = p.altered c' (d + d') m' := by
  simp only [Player.altered, Int32.add_assoc]

variable (abilities p item slot) in
/-- What a call of `EquipItem` does: nothing, or it switches the item on. -/
theorem EquipItem_cases (ev : MoveEvent) :
    (EquipItem abilities ev p item slot false).2 = p ∨
    (p.inventoryAbilities slot = false ∧ ∃ c h n, (EquipItem abilities ev p item slot false).2 =
      p.switched slot true id (abilitiesOf abilities item)
        (p.conditionSuppressions ||| (abilitiesOf abilities item).conditionSuppressions) c h n) := by
  unfold EquipItem
  by_cases hs : p.isItemAbilityEnabled slot
  · rw [if_pos hs]
    exact Or.inl rfl
  rw [if_neg hs, if_neg Bool.false_ne_true]
  -- a player who may not wear the item is left alone
  split_ifs
  · exact Or.inl rfl
  · exact Or.inl rfl
  · exact Or.inl rfl
  refine Or.inr ⟨by simpa [Player.isItemAbilityEnabled] using hs, ?_⟩
  cases ha : abilities item with
  | none =>
    refine ⟨p.slotConditions, p.health, p.mana, ?_⟩
    simp [abilitiesOf, ha, Player.switched, Player.setItemAbility, statAmount]
  | some a =>
    dsimp only
    obtain ⟨c1, e1⟩ := ite_setSlotConditions (p.setItemAbility slot true) slot a.invisible _
    rw [e1]
    obtain ⟨c2, e2⟩ := ite_setSlotConditions _ slot a.manaShield _
    rw [e2, altered_altered, ite_changeSpeed _ _ _ (fun h => h), altered_altered,
      ite_addConditionSuppressions, altered_altered]
    obtain ⟨c3, e3⟩ := ite_setSlotConditions _ slot a.regeneration _
    rw [e3, altered_altered]
    obtain ⟨h, n, e⟩ := all_foldl_modify id (fun _ _ => rfl) a _
    rw [e]
    simp only [Int32.add_zero, Int32.zero_add]
    exact ⟨_, h, n, by rw [abilitiesOf, ha]; rfl⟩

theorem neg_add (x y : Int32) : -(x + y) = -x + -y := by grind

theorem DeEquipItem_of_disabled (hs : p.inventoryAbilities slot = false) :
    (DeEquipItem abilities p item slot).2 = p := by
  unfold DeEquipItem Player.isItemAbilityEnabled
  rw [hs]
  rfl

variable (abilities item) in
/-- `DeEquipItem` on an enabled slot switches the item off. -/
theorem DeEquipItem_eq (hs : p.inventoryAbilities slot = true) :
    ∃ c h n, (DeEquipItem abilities p item slot).2 =
      p.switched slot false Neg.neg (abilitiesOf abilities item)
        (p.conditionSuppressions &&& ~~~ (abilitiesOf abilities item).conditionSuppressions) c h n := by
  unfold DeEquipItem Player.isItemAbilityEnabled
  rw [hs, Bool.not_true, if_neg Bool.false_ne_true]
  cases ha : abilities item with
  | none =>
    refine ⟨p.slotConditions, p.health, p.mana, ?_⟩
    have hm : p.conditionSuppressions &&& 4294967295#32 = p.conditionSuppressions :=
      BitVec.and_allOnes
    simp [abilitiesOf, ha, hm, Player.switched, Player.setItemAbility, statAmount]
  | some a =>
    dsimp only
    obtain ⟨c1, e1⟩ := ite_setSlotConditions (p.setItemAbility slot false) slot a.invisible _
    rw [e1]
    obtain ⟨c2, e2⟩ := ite_setSlotConditions _ slot a.manaShield _
    rw [e2, altered_altered, ite_changeSpeed _ _ _ (fun h => by rw [h]; rfl), altered_altered,
      ite_removeConditionSuppressions, altered_altered]
    obtain ⟨c3, e3⟩ := ite_setSlotConditions _ slot a.regeneration _
    rw [e3, altered_altered]
    obtain ⟨h, n, e⟩ := all_foldl_modify Neg.neg neg_add a _
    rw [e]
    simp only [Int32.add_zero, Int32.zero_add]
    exact ⟨_, h, n, by rw [abilitiesOf, ha]; rfl⟩

end Spec

/-! ### Histories -/

/-- What an item contributed. -/
structure Contribution where
  skills : Skill → Int32
  stats : Stat → Int32
  speed : Int32

/-- What a call added to the player's modifiers. -/
def contributed (before after : Player) : Contribution where
  skills i := after.varSkills i - before.varSkills i
  stats s := after.varStats s - before.varStats s
  speed := after.varSpeed - before.varSpeed

/-- The player and the items in his slots, with a record, for each slot, of
what its item contributed when it was equipped and of the default stats at
that time. -/
structure State where
  player : Player
  inventory : Slot → Option UInt16
  contribution : Slot → Contribution
  defaults : Slot → Stat → Int32

/-- A player as the constructor leaves him, with nothing in his slots. -/
def newPlayer : State where
  player :=
    { level := 1, experience := 0, levelPercent := 0, health := 1000, healthMax := 1000, mana := 0
      manaMax := 0, capacity := 40000, baseSpeed := 220, setMaxSpeed := false, magLevel := 0
      varSkills := fun _ => 0, varStats := fun _ => 0, varSpeed := 0, conditionSuppressions := 0
      inventoryAbilities := fun _ => false, slotConditions := fun _ => {}, vocationId := 0
      premium := false, ignoreWeaponCheck := false }
  inventory _ := none
  contribution _ := ⟨fun _ => 0, fun _ => 0, 0⟩
  defaults _ _ := 0

/-- A `MoveEvent` without requirements. -/
def noRequirements : MoveEvent := ⟨0, 0, 0, false, []⟩

/-- The steps of a history. A call of `EquipItem` on a slot whose ability is
not enabled is for the item that has been put there; one of `DeEquipItem` is
for the item in the slot. -/
inductive Action
  | equipItem (moveEvent : MoveEvent) (item : UInt16) (slot : Slot)
  | deEquipItem (slot : Slot)
  | addExperience (voc : Vocation) (exp : UInt64)
  | removeExperience (voc : Vocation) (exp : UInt64)
  | setMagicLevel (magLevel : UInt32)

section Histories

variable (abilities : UInt16 → Option Abilities)

def step (s : State) : Action → State
  | .equipItem moveEvent item slot =>
    let p := (EquipItem abilities moveEvent s.player item slot false).2
    if s.player.inventoryAbilities slot then { s with player := p }
    else
      { player := p
        inventory := Function.update s.inventory slot (some item)
        contribution := Function.update s.contribution slot (contributed s.player p)
        defaults := Function.update s.defaults slot s.player.getDefaultStats }
  | .deEquipItem slot =>
    match s.inventory slot with
    | some item => { s with player := (DeEquipItem abilities s.player item slot).2 }
    | none => s
  | .addExperience voc exp =>
    { s with player := changeExperience (Experience.addExperience voc) s.player exp }
  | .removeExperience voc exp =>
    { s with player := changeExperience (Experience.removeExperience voc) s.player exp }
  | .setMagicLevel magLevel => { s with player := { s.player with magLevel } }

/-- The modifiers are the initial ones and what the items in the enabled slots
contributed; with no slot enabled they are the initial ones. -/
structure Balanced (init : Player) (s : State) : Prop where
  skills : ∀ i, s.player.varSkills i =
    init.varSkills i + onSum s.player.inventoryAbilities fun slot => (s.contribution slot).skills i
  stats : ∀ t, s.player.varStats t =
    init.varStats t + onSum s.player.inventoryAbilities fun slot => (s.contribution slot).stats t
  speed : s.player.varSpeed =
    init.varSpeed + onSum s.player.inventoryAbilities fun slot => (s.contribution slot).speed
  none_enabled : (∀ slot, s.player.inventoryAbilities slot = false) →
    s.player.varSkills = init.varSkills ∧ s.player.varStats = init.varStats ∧
      s.player.varSpeed = init.varSpeed

/-- An item that is taken off has no percent modifier whose amount has changed
since it was put on. -/
def Resolved (s : State) : Action → Prop
  | .deEquipItem slot => s.player.inventoryAbilities slot = true → ∀ item ∈ s.inventory slot,
      ∀ t, (abilitiesOf abilities item).statsPercent t ≠ 0 →
        share (s.player.getDefaultStats t) ((abilitiesOf abilities item).statsPercent t) =
          share (s.defaults slot t) ((abilitiesOf abilities item).statsPercent t)
  | _ => True

variable {abilities}

/-- What an item contributes for given default stats. -/
def amount (a : Abilities) (default : Stat → Int32) : Contribution where
  skills := a.skills
  stats := statAmount a default
  speed := a.speed

variable (abilities) in
/-- The records of the enabled slots are those of the items in them. -/
def Recorded (s : State) : Prop :=
  ∀ slot, s.player.inventoryAbilities slot = true → ∃ item, s.inventory slot = some item ∧
    s.contribution slot = amount (abilitiesOf abilities item) (s.defaults slot)

theorem Balanced.of_sums {init : Player} {s : State}
    (h1 : ∀ i, s.player.varSkills i =
      init.varSkills i + onSum s.player.inventoryAbilities fun slot => (s.contribution slot).skills i)
    (h2 : ∀ t, s.player.varStats t =
      init.varStats t + onSum s.player.inventoryAbilities fun slot => (s.contribution slot).stats t)
    (h3 : s.player.varSpeed =
      init.varSpeed + onSum s.player.inventoryAbilities fun slot => (s.contribution slot).speed) :
    Balanced init s where
  skills := h1
  stats := h2
  speed := h3
  none_enabled hn := by
    refine ⟨?_, ?_, ?_⟩
    · funext i
      rw [h1, onSum_eq_zero hn, add_zero]
    · funext t
      rw [h2, onSum_eq_zero hn, add_zero]
    · rw [h3, onSum_eq_zero hn, add_zero]

theorem contributed_switched (p : Player) (slot : Slot) (a : Abilities) (m : BitVec 32)
    (c : Slot → SlotConditions) (h : Int32) (n : UInt32) :
    contributed p (p.switched slot true id a m c h n) = amount a p.getDefaultStats := by
  unfold contributed amount Player.switched
  congr 1
  · funext i
    exact add_sub_cancel_left _ _
  · funext t
    exact add_sub_cancel_left _ _
  · exact add_sub_cancel_left _ _

theorem changeExperience_eq (f : Experience.Player → UInt64 → Experience.Player) (p : Player)
    (exp : UInt64) : changeExperience f p exp = { p with toPlayer := f p.toPlayer exp } := by
  unfold changeExperience
  by_cases h : p.level = (f p.toPlayer exp).level
  · exact if_neg (not_not.2 h)
  · refine (if_pos h).trans ?_
    rw [changeSpeed_eq, Int32.add_zero]

/-- One kind of contribution, summed over the slots after one of them has a
new record. -/
theorem onSum_record (on : Slot → Bool) (f : Slot → Contribution) (slot : Slot) (c : Contribution)
    (part : Contribution → Int32) (h : on slot = false) :
    (onSum on fun j => part (Function.update f slot c j)) = (onSum on fun j => part (f j)) ∧
    (onSum (Function.update on slot true) fun j => part (Function.update f slot c j)) =
      (onSum on fun j => part (f j)) + part c := by
  have hf : (fun j => part (Function.update f slot c j)) =
      Function.update (fun j => part (f j)) slot (part c) := Function.comp_update part f slot c
  rw [hf]
  exact ⟨onSum_off h _ _, onSum_insert h _⟩

/-- What an `EquipItem` step does: nothing, or the item lies in a slot that
stays off, or the item is switched on and its contribution recorded. -/
theorem equipItem_cases (s : State) (ev : MoveEvent) (item : UInt16) (slot : Slot) :
    step abilities s (.equipItem ev item slot) = s ∨
    (s.player.inventoryAbilities slot = false ∧ ∃ c d, step abilities s (.equipItem ev item slot) =
      { s with
        inventory := Function.update s.inventory slot (some item)
        contribution := Function.update s.contribution slot c
        defaults := Function.update s.defaults slot d }) ∨
    (s.player.inventoryAbilities slot = false ∧ ∃ c h n,
      step abilities s (.equipItem ev item slot) =
        { player := s.player.switched slot true id (abilitiesOf abilities item)
            (s.player.conditionSuppressions ||| (abilitiesOf abilities item).conditionSuppressions) c h n
          inventory := Function.update s.inventory slot (some item)
          contribution := Function.update s.contribution slot
            (amount (abilitiesOf abilities item) s.player.getDefaultStats)
          defaults := Function.update s.defaults slot s.player.getDefaultStats }) := by
  have hcases := EquipItem_cases abilities s.player item slot ev
  by_cases hs : s.player.inventoryAbilities slot = true
  · -- an enabled slot is left alone
    rcases hcases with he | ⟨hf, -⟩
    · exact Or.inl (by simp only [step, hs, if_true, he])
    · rw [hs] at hf; cases hf
  have hoff : s.player.inventoryAbilities slot = false := by simpa using hs
  rcases hcases with he | ⟨-, c, h, n, he⟩
  · exact Or.inr (Or.inl ⟨hoff, _, _, by simp only [step, if_neg hs, he]; rfl⟩)
  · exact Or.inr (Or.inr ⟨hoff, c, h, n, by simp only [step, if_neg hs, he, contributed_switched]⟩)

/-- Putting an item on keeps the books. -/
theorem equipItem_balanced {init : Player} {s : State} (hb : Balanced init s) (ev : MoveEvent)
    (item : UInt16) (slot : Slot) : Balanced init (step abilities s (.equipItem ev item slot)) := by
  rcases equipItem_cases s ev item slot with he | ⟨hoff, c, d, he⟩ | ⟨hoff, c, h, n, he⟩
  · rw [he]
    exact hb
  · rw [he]
    apply Balanced.of_sums
    · intro i
      rw [(onSum_record _ _ _ _ (fun c => c.skills i) hoff).1]
      exact hb.skills i
    · intro t
      rw [(onSum_record _ _ _ _ (fun c => c.stats t) hoff).1]
      exact hb.stats t
    · rw [(onSum_record _ _ _ _ (fun c => c.speed) hoff).1]
      exact hb.speed
  · rw [he]
    apply Balanced.of_sums
    · intro i
      refine Eq.trans ?_ (congrArg _ (onSum_record _ _ _ _ (fun c => c.skills i) hoff).2.symm)
      rw [← add_assoc, ← hb.skills i]
      rfl
    · intro t
      refine Eq.trans ?_ (congrArg _ (onSum_record _ _ _ _ (fun c => c.stats t) hoff).2.symm)
      rw [← add_assoc, ← hb.stats t]
      rfl
    · refine Eq.trans ?_ (congrArg _ (onSum_record _ _ _ _ (fun c => c.speed) hoff).2.symm)
      rw [← add_assoc, ← hb.speed]
      rfl

theorem equipItem_recorded {s : State} (hr : Recorded abilities s) (ev : MoveEvent) (item : UInt16)
    (slot : Slot) : Recorded abilities (step abilities s (.equipItem ev item slot)) := by
  rcases equipItem_cases s ev item slot with he | ⟨hoff, c, d, he⟩ | ⟨hoff, c, h, n, he⟩
  · rw [he]
    exact hr
  · rw [he]
    intro j hj
    have hne : j ≠ slot := fun e => by subst e; rw [hoff] at hj; cases hj
    obtain ⟨i, h1, h2⟩ := hr j hj
    refine ⟨i, (Function.update_of_ne hne _ _).trans h1, ?_⟩
    simp only [Function.update_of_ne hne]
    exact h2
  · rw [he]
    intro j hj
    by_cases hne : j = slot
    · subst hne
      refine ⟨item, Function.update_self .., ?_⟩
      simp only [Function.update_self]
    · have hon : Function.update s.player.inventoryAbilities slot true j = true := hj
      rw [Function.update_of_ne hne] at hon
      obtain ⟨i, h1, h2⟩ := hr j hon
      refine ⟨i, (Function.update_of_ne hne _ _).trans h1, ?_⟩
      simp only [Function.update_of_ne hne]
      exact h2

/-- Nothing is taken off a slot whose ability is not enabled. -/
theorem deEquipItem_off {s : State} {slot : Slot} (hs : ¬ s.player.inventoryAbilities slot = true) :
    step abilities s (.deEquipItem slot) = s := by
  cases hi : s.inventory slot with
  | none => simp only [step, hi]
  | some item => simp only [step, hi, DeEquipItem_of_disabled (Bool.eq_false_iff.2 hs)]

/-- Taking an item off keeps the records of the others. -/
theorem deEquipItem_recorded {s : State} (hr : Recorded abilities s) (slot : Slot) :
    Recorded abilities (step abilities s (.deEquipItem slot)) := by
  by_cases hs : s.player.inventoryAbilities slot = true
  · obtain ⟨item, hi, -⟩ := hr slot hs
    obtain ⟨c, h, n, he⟩ := DeEquipItem_eq abilities item hs
    intro j hj
    simp only [step, hi, he] at hj ⊢
    have hon : Function.update s.player.inventoryAbilities slot false j = true := hj
    have hne : j ≠ slot := fun e => by subst e; simp at hon
    rw [Function.update_of_ne hne] at hon
    exact hr j hon
  · rw [deEquipItem_off hs]
    exact hr

/-- Taking an item off leaves the balance right exactly when its percent
modifiers amount to what they did when it was put on. -/
theorem deEquipItem_balanced_iff {init : Player} {s : State} (hr : Recorded abilities s)
    (hb : Balanced init s) (slot : Slot) :
    Balanced init (step abilities s (.deEquipItem slot)) ↔
      Resolved abilities s (.deEquipItem slot) := by
  unfold Resolved
  by_cases hs : s.player.inventoryAbilities slot = true
  swap
  · rw [deEquipItem_off hs]
    exact ⟨fun _ h => absurd h hs, fun _ => hb⟩
  obtain ⟨item, hi, hc⟩ := hr slot hs
  obtain ⟨c, h, n, he⟩ := DeEquipItem_eq abilities item hs
  have hst : step abilities s (.deEquipItem slot) =
      { s with
        player := s.player.switched slot false Neg.neg (abilitiesOf abilities item)
          (s.player.conditionSuppressions &&& ~~~ (abilitiesOf abilities item).conditionSuppressions)
          c h n } := by
    simp only [step, hi, he]
  rw [hst]
  constructor
  · intro hb' _ i hi' t ht
    obtain rfl : item = i := by simpa [hi] using hi'
    -- the two equations for this stat
    have h1 := hb'.stats t
    have h2 : s.player.varStats t + -statAmount (abilitiesOf abilities item) s.player.getDefaultStats t =
        init.varStats t + onSum (Function.update s.player.inventoryAbilities slot false)
          fun j => (s.contribution j).stats t := h1
    rw [onSum_erase hs, hb.stats t, hc] at h2
    simp only [amount, statAmount, if_pos ht] at h2
    grind
  · intro hres
    have hres' := hres hs item hi
    have hstat : ∀ t, statAmount (abilitiesOf abilities item) s.player.getDefaultStats t =
        statAmount (abilitiesOf abilities item) (s.defaults slot) t := by
      intro t
      unfold statAmount
      by_cases ht : (abilitiesOf abilities item).statsPercent t = 0
      · rw [if_neg (not_not.2 ht), if_neg (not_not.2 ht)]
      · rw [if_pos ht, if_pos ht, hres' t ht]
    apply Balanced.of_sums
    · intro i
      calc s.player.varSkills i + -(abilitiesOf abilities item).skills i
          = init.varSkills i + ((onSum s.player.inventoryAbilities fun j => (s.contribution j).skills i) -
              (s.contribution slot).skills i) := by rw [hb.skills i, hc]; simp only [amount]; grind
        _ = init.varSkills i + onSum (Function.update s.player.inventoryAbilities slot false)
              fun j => (s.contribution j).skills i := by rw [onSum_erase hs]
    · intro t
      calc s.player.varStats t + -statAmount (abilitiesOf abilities item) s.player.getDefaultStats t
          = init.varStats t + ((onSum s.player.inventoryAbilities fun j => (s.contribution j).stats t) -
              (s.contribution slot).stats t) := by
            rw [hb.stats t, hc, hstat t]; simp only [amount]; grind
        _ = init.varStats t + onSum (Function.update s.player.inventoryAbilities slot false)
              fun j => (s.contribution j).stats t := by rw [onSum_erase hs]
    · calc s.player.varSpeed + -(abilitiesOf abilities item).speed
          = init.varSpeed + ((onSum s.player.inventoryAbilities fun j => (s.contribution j).speed) -
              (s.contribution slot).speed) := by rw [hb.speed, hc]; simp only [amount]; grind
        _ = init.varSpeed + onSum (Function.update s.player.inventoryAbilities slot false)
              fun j => (s.contribution j).speed := by rw [onSum_erase hs]

/-- One step keeps the balance exactly when what it takes off is resolved. -/
theorem step_balanced_iff {init : Player} {s : State} (hr : Recorded abilities s)
    (hb : Balanced init s) (a : Action) :
    Balanced init (step abilities s a) ↔ Resolved abilities s a := by
  cases a with
  | equipItem ev item slot => exact iff_of_true (equipItem_balanced hb ev item slot) trivial
  | deEquipItem slot => exact deEquipItem_balanced_iff hr hb slot
  | addExperience voc exp =>
    simp only [step, changeExperience_eq]
    exact iff_of_true ⟨hb.skills, hb.stats, hb.speed, hb.none_enabled⟩ trivial
  | removeExperience voc exp =>
    simp only [step, changeExperience_eq]
    exact iff_of_true ⟨hb.skills, hb.stats, hb.speed, hb.none_enabled⟩ trivial
  | setMagicLevel magLevel =>
    exact iff_of_true ⟨hb.skills, hb.stats, hb.speed, hb.none_enabled⟩ trivial

theorem step_recorded {s : State} (hr : Recorded abilities s) (a : Action) :
    Recorded abilities (step abilities s a) := by
  cases a with
  | equipItem ev item slot => exact equipItem_recorded hr ev item slot
  | deEquipItem slot => exact deEquipItem_recorded hr slot
  | addExperience voc exp =>
    simp only [step, changeExperience_eq]
    exact hr
  | removeExperience voc exp =>
    simp only [step, changeExperience_eq]
    exact hr
  | setMagicLevel magLevel => exact hr

theorem balanced_init (s : State) (h : ∀ slot, s.player.inventoryAbilities slot = false) :
    Balanced s.player s := by
  apply Balanced.of_sums
  · intro i
    rw [onSum_eq_zero h, add_zero]
  · intro t
    rw [onSum_eq_zero h, add_zero]
  · rw [onSum_eq_zero h, add_zero]

theorem recorded_init (s : State) (h : ∀ slot, s.player.inventoryAbilities slot = false) :
    Recorded abilities s := fun slot hs => by rw [h slot] at hs; cases hs

/-- The modifiers are balanced after every step of a history exactly when every
item that is taken off resolves its percent modifiers as it did when it was put
on. -/
theorem balanced_iff_resolved (abilities : UInt16 → Option Abilities) (s : State)
    (h : ∀ slot, s.player.inventoryAbilities slot = false) (history : List Action) :
    Along (step abilities) (fun s' a => Balanced s.player (step abilities s' a)) s history ↔
      Along (step abilities) (Resolved abilities) s history := by
  apply along_congr (I := fun s' => Recorded abilities s' ∧ Balanced s.player s')
  · intro s' a ⟨hr, _⟩ hb
    exact ⟨step_recorded hr a, hb⟩
  · intro s' a ⟨hr, hb⟩
    exact step_balanced_iff hr hb a
  · exact ⟨recorded_init s h, balanced_init s h⟩

/-- A ring that adds three magic levels, worn through a magic level change. -/
theorem balanced_iff_resolved_ring :
    Along (step fun _ => some { stats := fun _ => 3 })
      (fun s a => Balanced newPlayer.player (step (fun _ => some { stats := fun _ => 3 }) s a)) newPlayer
      [.equipItem noRequirements 2165 .ring, .setMagicLevel 20, .deEquipItem .ring] :=
  (balanced_iff_resolved (fun _ => some { stats := fun _ => 3 }) newPlayer (fun _ => rfl) _).2
    ⟨trivial, trivial, fun _ _ _ _ ht => absurd rfl ht, trivial⟩

/-- A ring that doubles the magic level, put on at level 10 and taken off at
level 20. -/
theorem magic_ring_unbalanced :
    ¬ Along (step fun _ => some { statsPercent := fun _ => 200 })
      (fun s a => Balanced newPlayer.player
        (step (fun _ => some { statsPercent := fun _ => 200 }) s a)) newPlayer
      [.setMagicLevel 10, .equipItem noRequirements 2165 .ring, .setMagicLevel 20,
        .deEquipItem .ring] := by
  intro ⟨_, _, _, hb, _⟩
  have h := (hb.none_enabled (fun slot => by cases slot <;> decide)).2.1
  have hm : (-10 : Int32) = 0 := congrFun h .magicPoints
  exact absurd hm (by decide)

end Histories

/-! ### Suppressed conditions -/

section Suppressions

variable (abilities : UInt16 → Option Abilities)

/-- `conditionSuppressions` of the type of the item in a slot. -/
def slotMask (s : State) (slot : Slot) : BitVec 32 :=
  match s.inventory slot with
  | some item => (abilitiesOf abilities item).conditionSuppressions
  | none => 0

/-- The suppressed conditions are those of the worn items; none that a worn
item suppresses is missing. -/
structure Immune (s : State) : Prop where
  eq_or : s.player.conditionSuppressions =
    orOf Slot.all s.player.inventoryAbilities (slotMask abilities s)
  granted : ∀ slot, s.player.inventoryAbilities slot = true →
    slotMask abilities s slot &&& s.player.conditionSuppressions = slotMask abilities s slot

/-- An item that is taken off shares no suppression with another worn item. -/
def Unshared (s : State) : Action → Prop
  | .deEquipItem slot => s.player.inventoryAbilities slot = true → ∀ other, other ≠ slot →
      s.player.inventoryAbilities other = true →
        slotMask abilities s slot &&& slotMask abilities s other = 0
  | _ => True

variable {abilities} {s : State}

theorem Immune.of_eq (h : s.player.conditionSuppressions =
    orOf Slot.all s.player.inventoryAbilities (slotMask abilities s)) : Immune abilities s where
  eq_or := h
  granted slot hs := by
    apply BitVec.eq_of_getLsbD_eq
    intro k _
    rw [BitVec.getLsbD_and, h, getLsbD_orOf]
    by_cases hk : (slotMask abilities s slot).getLsbD k
    · rw [hk, Bool.true_and, List.any_eq_true]
      exact ⟨slot, Slot.mem_all slot, by rw [hs, hk]; rfl⟩
    · rw [Bool.eq_false_iff.2 hk, Bool.false_and]

theorem slotMask_update (f : Slot → Option UInt16) (slot : Slot) (item : UInt16)
    (hs : ∀ j, s.inventory j = Function.update f slot (some item) j) {s₀ : State}
    (h₀ : s₀.inventory = f) : slotMask abilities s =
      Function.update (slotMask abilities s₀) slot (abilitiesOf abilities item).conditionSuppressions := by
  funext j
  unfold slotMask
  rw [hs j]
  by_cases hj : j = slot
  · subst hj
    rw [Function.update_self, Function.update_self]
  · rw [Function.update_of_ne hj, Function.update_of_ne hj, h₀]

theorem equipItem_immune (hi : Immune abilities s) (ev : MoveEvent) (item : UInt16) (slot : Slot) :
    Immune abilities (step abilities s (.equipItem ev item slot)) := by
  rcases equipItem_cases s ev item slot with he | ⟨hoff, c, d, he⟩ | ⟨hoff, c, h, n, he⟩
  · rw [he]
    exact hi
  · rw [he]
    apply Immune.of_eq
    rw [slotMask_update s.inventory slot item (fun _ => rfl) rfl, orOf_off hoff]
    exact hi.eq_or
  · rw [he]
    apply Immune.of_eq
    rw [slotMask_update s.inventory slot item (fun _ => rfl) rfl]
    refine Eq.trans ?_ (orOf_insert (Slot.mem_all slot) hoff _).symm
    rw [← hi.eq_or]
    rfl

/-- Taking an item off leaves the immunities of the other items exactly when it
shares none with them. -/
theorem deEquipItem_immune_iff (hr : Recorded abilities s) (hi : Immune abilities s) (slot : Slot) :
    Immune abilities (step abilities s (.deEquipItem slot)) ↔
      Unshared abilities s (.deEquipItem slot) := by
  unfold Unshared
  by_cases hs : s.player.inventoryAbilities slot = true
  · obtain ⟨item, hit, -⟩ := hr slot hs
    obtain ⟨c, h, n, he⟩ := DeEquipItem_eq abilities item hs
    have hm : slotMask abilities s slot = (abilitiesOf abilities item).conditionSuppressions := by
      rw [slotMask, hit]
    have herase := orOf_erase_iff (slotMask abilities s) (Slot.mem_all slot) hs
    rw [← hi.eq_or, hm] at herase
    have hst : (step abilities s (.deEquipItem slot)).player.conditionSuppressions =
          s.player.conditionSuppressions &&& ~~~ (abilitiesOf abilities item).conditionSuppressions ∧
        (step abilities s (.deEquipItem slot)).player.inventoryAbilities =
          Function.update s.player.inventoryAbilities slot false ∧
        slotMask abilities (step abilities s (.deEquipItem slot)) = slotMask abilities s := by
      simp only [step, hit, he]
      exact ⟨rfl, rfl, rfl⟩
    constructor
    · intro hi' _ other hne hon
      have heq := hi'.eq_or
      rw [hst.1, hst.2.1, hst.2.2] at heq
      rw [hm]
      exact herase.1 heq other (Slot.mem_all other) hne hon
    · intro hu
      apply Immune.of_eq
      rw [hst.1, hst.2.1, hst.2.2, herase]
      intro other _ hne hon
      rw [← hm]
      exact hu hs other hne hon
  · rw [deEquipItem_off hs]
    exact ⟨fun _ h => absurd h hs, fun _ => hi⟩

theorem step_immune_iff (hr : Recorded abilities s) (hi : Immune abilities s) (a : Action) :
    Immune abilities (step abilities s a) ↔ Unshared abilities s a := by
  cases a with
  | equipItem ev item slot => exact iff_of_true (equipItem_immune hi ev item slot) trivial
  | deEquipItem slot => exact deEquipItem_immune_iff hr hi slot
  | addExperience voc exp =>
    simp only [step, changeExperience_eq]
    exact iff_of_true ⟨hi.eq_or, hi.granted⟩ trivial
  | removeExperience voc exp =>
    simp only [step, changeExperience_eq]
    exact iff_of_true ⟨hi.eq_or, hi.granted⟩ trivial
  | setMagicLevel magLevel => exact iff_of_true ⟨hi.eq_or, hi.granted⟩ trivial

/-- The suppressed conditions are those of the worn items after every step of a
history exactly when no item that is taken off shares one with another worn
item. -/
theorem immune_iff_unshared (abilities : UInt16 → Option Abilities) (s : State)
    (h : ∀ slot, s.player.inventoryAbilities slot = false)
    (h0 : s.player.conditionSuppressions = 0) (history : List Action) :
    Along (step abilities) (fun s' a => Immune abilities (step abilities s' a)) s history ↔
      Along (step abilities) (Unshared abilities) s history := by
  apply along_congr (I := fun s' => Recorded abilities s' ∧ Immune abilities s')
  · intro s' a ⟨hr, _⟩ hi
    exact ⟨step_recorded hr a, hi⟩
  · intro s' a ⟨hr, hi⟩
    exact step_immune_iff hr hi a
  · refine ⟨recorded_init s h, Immune.of_eq (h0.trans (BitVec.eq_of_getLsbD_eq fun k _ => ?_))⟩
    rw [getLsbD_orOf, eq_comm]
    simp [h]

/-- One ring against drunkenness, put on and taken off. -/
theorem immune_iff_unshared_ring :
    Along (step fun _ => some { conditionSuppressions := 2048 })
      (fun s a => Immune (fun _ => some { conditionSuppressions := 2048 })
        (step (fun _ => some { conditionSuppressions := 2048 }) s a)) newPlayer
      [.equipItem noRequirements 2213 .ring, .deEquipItem .ring] := by
  refine (immune_iff_unshared (fun _ => some { conditionSuppressions := 2048 }) newPlayer
    (fun _ => rfl) rfl _).2 ⟨trivial, fun _ other hne hon => ?_, trivial⟩
  cases other <;> first | exact absurd rfl hne | exact absurd hon (by decide)

/-- Two items against drunkenness: taking the ring off makes its wearer drunk
again while the other is worn. -/
theorem shared_immunity_lost :
    ¬ Along (step fun _ => some { conditionSuppressions := 2048 })
      (fun s a => Immune (fun _ => some { conditionSuppressions := 2048 })
        (step (fun _ => some { conditionSuppressions := 2048 }) s a)) newPlayer
      [.equipItem noRequirements 2213 .ring, .equipItem noRequirements 2213 .necklace,
        .deEquipItem .ring] := by
  intro ⟨_, _, hi, _⟩
  have hg := hi.granted .necklace (by decide)
  exact absurd hg (by decide)

end Suppressions

end Equipment
end ForgottenServer
