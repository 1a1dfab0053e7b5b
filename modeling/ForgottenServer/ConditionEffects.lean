/-
# Effects of conditions

The conditions of a player that change his skills, stats and speed:
`ConditionAttributes` and `ConditionSpeed`, with `Creature::addCondition`, the
three overloads of `Creature::removeCondition`, `executeConditions`, and the
merging of a condition into one with the same type, id and sub id. A speed
condition is of type `CONDITION_HASTE` or `CONDITION_PARALYZE`, one of the
attributes of type `CONDITION_ATTRIBUTES`.

What a percentage amounts to (floating point in the source) is a parameter, and
so are the clock, the walk delay and the random speed of each call. Messages
are left out.

Key definitions: `Condition`, `addCondition`, `removeCondition`,
`executeConditions`, `step`, `InStep`.
Key theorems: `startCondition_spec`, `merge_spec`, `step_good`, `inStep_run`.
-/
import ForgottenServer.Lib.Run
import ForgottenServer.Equipment
import Mathlib.Algebra.BigOperators.Group.List.Basic
import Mathlib.Tactic.Abel

namespace ForgottenServer
namespace ConditionEffects

open Run Ledger
open Equipment (Skill Stat changeSpeed)

/-! ### Conditions -/

/-- The members of `ConditionAttributes`. -/
structure ConditionAttributes where
  skills : Skill → Int32
  skillsPercent : Skill → Int32
  stats : Stat → Int32
  statsPercent : Stat → Int32

/-- The types of a `ConditionSpeed`. -/
inductive SpeedType
  | haste | paralyze
  deriving DecidableEq

/-- What the two classes add to `Condition`. -/
inductive Effect
  | attributes (a : ConditionAttributes)
  | speed (type : SpeedType) (speedDelta : Int32)

/-- `ConditionType_t` of these classes. -/
inductive ConditionType
  | attributes | haste | paralyze
  deriving DecidableEq

structure Condition where
  id : Int8
  subId : UInt32
  ticks : Int32
  endTime : ℤ
  effect : Effect

namespace Condition

/-- `getType` -/
def type (c : Condition) : ConditionType :=
  match c.effect with
  | .attributes _ => .attributes
  | .speed .haste _ => .haste
  | .speed .paralyze _ => .paralyze

/-- What `getCondition` compares. -/
def key (c : Condition) : ConditionType × Int8 × UInt32 := (c.type, c.id, c.subId)

/-- The value of a `ConditionType_t` as a mask. -/
def mask : ConditionType → BitVec 32
  | .haste => 1 <<< 4
  | .paralyze => 1 <<< 5
  | .attributes => 1 <<< 18

def setTicks (c : Condition) (newTicks : Int32) (now : ℤ) : Condition :=
  { c with ticks := newTicks, endTime := newTicks.toInt + now }

/-- `Condition::updateCondition` -/
def updateCondition (c add : Condition) (now : ℤ) : Bool :=
  c.type = add.type && !(c.ticks = -1 && 0 < add.ticks) &&
    !(0 ≤ add.ticks && now + add.ticks.toInt < c.endTime)

/-- `Condition::executeCondition` with the condition it leaves. -/
def execute (c : Condition) (interval : Int32) (now : ℤ) : Bool × Condition :=
  if c.ticks = -1 then (true, c)
  else (now ≤ c.endTime, { c with ticks := Experience.maxZero (c.ticks - interval) })

end Condition

/-! ### The player -/

/-- The player with his base skills and conditions. -/
structure Player extends toWearer : Equipment.Player where
  skills : Skill → Int32
  conditions : List Condition

section Functions

-- `static_cast<int32_t>(value * ((percent - 100) / 100.f))`
variable (share : ℤ → Int32 → Int32)

def updatePercentSkills (p : Player) (a : ConditionAttributes) : ConditionAttributes :=
  { a with skills := fun i =>
      if a.skillsPercent i = 0 then a.skills i
      else share (p.skills i).toInt (a.skillsPercent i) }

def updateSkills (p : Player) (a : ConditionAttributes) : Player :=
  { p with toWearer := Skill.all.foldl (fun p i =>
      if a.skills i ≠ 0 then p.setVarSkill i (a.skills i) else p) p.toWearer }

def updatePercentStats (p : Player) (a : ConditionAttributes) : ConditionAttributes :=
  { a with stats := fun s =>
      if a.statsPercent s = 0 then a.stats s
      else match s with
        | .maxHitPoints => share p.getMaxHealth.toInt (a.statsPercent s)
        | .maxManaPoints => share p.getMaxMana.toNat (a.statsPercent s)
        | .magicPoints => share p.getMagicLevel.toNat (a.statsPercent s)
        | .soulPoints => a.stats s }

def updateStats (p : Player) (a : ConditionAttributes) : Player :=
  { p with toWearer := Stat.all.foldl (fun p s =>
      if a.stats s ≠ 0 then p.setVarStats s (a.stats s) else p) p.toWearer }

/-- What starting and merging attributes have in common: the percentages are
resolved and everything is added. -/
def applyAttributes (p : Player) (a : ConditionAttributes) : Player × ConditionAttributes :=
  let a := updatePercentSkills share p a
  let p := updateSkills p a
  let a := updatePercentStats share p a
  (updateStats p a, a)

def Player.changeSpeed (p : Player) (d : Int32) : Player :=
  { p with toWearer := Equipment.changeSpeed p.toWearer d }

/-- `startCondition`; `drawn` is the speed that a speed condition without one
draws. -/
def startCondition (p : Player) (c : Condition) (now : ℤ) (drawn : Int32) : Player × Condition :=
  let c := if 0 < c.ticks then { c with endTime := c.ticks.toInt + now } else c
  match c.effect with
  | .attributes a =>
    let (p, a) := applyAttributes share p a
    (p, { c with effect := .attributes a })
  | .speed type speedDelta =>
    let speedDelta := if speedDelta = 0 then drawn else speedDelta
    (p.changeSpeed speedDelta, { c with effect := .speed type speedDelta })

/-- `endCondition` -/
def endCondition (p : Player) (c : Condition) : Player :=
  match c.effect with
  | .attributes a =>
    let p := { p with toWearer := Skill.all.foldl (fun p i =>
      if a.skills i ≠ 0 ∨ a.skillsPercent i ≠ 0 then p.setVarSkill i (-a.skills i) else p) p.toWearer }
    { p with toWearer := Stat.all.foldl (fun p s =>
      if a.stats s ≠ 0 then p.setVarStats s (-a.stats s) else p) p.toWearer }
  | .speed _ speedDelta => p.changeSpeed (-speedDelta)

/-- `addCondition` of the condition `c`: `add` is merged into it. -/
def merge (p : Player) (c add : Condition) (now : ℤ) (drawn : Int32) : Player × Condition :=
  match c.effect, add.effect with
  | .attributes _, .attributes b =>
    if c.updateCondition add now then
      let c := c.setTicks add.ticks now
      let p := endCondition p c
      let (p, a) := applyAttributes share p b
      (p, { c with effect := .attributes a })
    else (p, c)
  | .speed type oldSpeedDelta, .speed _ addSpeedDelta =>
    if c.type ≠ add.type then (p, c)
    else if c.ticks = -1 ∧ 0 < add.ticks then (p, c)
    else
      let c := c.setTicks add.ticks now
      let speedDelta := if addSpeedDelta = 0 then drawn else addSpeedDelta
      let newSpeedChange := speedDelta - oldSpeedDelta
      let p := if newSpeedChange ≠ 0 then p.changeSpeed newSpeedChange else p
      (p, { c with effect := .speed type speedDelta })
  | _, _ => (p, c)

/-! ### The creature -/

/-- `Creature::hasCondition` with sub id 0. -/
def hasCondition (p : Player) (type : ConditionType) (now : ℤ) : Bool :=
  p.conditionSuppressions &&& Condition.mask type = 0 &&
    p.conditions.any fun c => c.type = type && c.subId = 0 && now ≤ c.endTime

/-- The loops that erase the conditions `q` holds for, in their order;
`endCondition` does not look at the list. -/
def eraseConditions (q : Condition → Bool) (p : Player) : Player :=
  (p.conditions.filter q).foldl endCondition
    { p with conditions := p.conditions.filter fun c => !q c }

/-- `Creature::removeCondition` for a type. -/
def removeCondition (p : Player) (type : ConditionType) (force : Bool) (walkDelay : ℤ) : Player :=
  -- the task that removes a paralysis later is another call, a forced one
  if !force && type = .paralyze && 0 < walkDelay then p
  else eraseConditions (fun c => c.type = type) p

/-- `Creature::removeCondition` for a type and an id. -/
def removeConditionId (p : Player) (type : ConditionType) (id : Int8) (force : Bool)
    (walkDelay : ℤ) : Player :=
  if !force && type = .paralyze && 0 < walkDelay then p
  else eraseConditions (fun c => c.type = type && c.id = id) p

/-- `Creature::removeCondition` for the condition at a place of the list. -/
def removeConditionAt (p : Player) (i : ℕ) (force : Bool) (walkDelay : ℤ) : Player :=
  match p.conditions[i]? with
  | none => p
  | some c =>
    if !force && c.type = .paralyze && 0 < walkDelay then p
    else endCondition { p with conditions := p.conditions.eraseIdx i } c

/-- `Creature::onAddCondition` -/
def onAddCondition (p : Player) (type : ConditionType) (now walkDelay : ℤ) : Player :=
  if type = .paralyze && hasCondition p .haste now then removeCondition p .haste false walkDelay
  else if type = .haste && hasCondition p .paralyze now then
    removeCondition p .paralyze false walkDelay
  else p

/-- `Creature::addCondition` -/
def addCondition (p : Player) (c : Condition) (force : Bool) (now walkDelay : ℤ) (drawn : Int32) :
    Player :=
  -- the task that adds the haste later is another call, a forced one
  if !force && c.type = .haste && hasCondition p .paralyze now && 0 < walkDelay then p
  else
    match p.conditions.find? fun d => d.key = c.key with
    | some prevCond =>
      let (p, merged) := merge share p prevCond c now drawn
      { p with conditions :=
          p.conditions.replaceF fun d => if d.key = c.key then some merged else none }
    | none =>
      let (p, c) := startCondition share p c now drawn
      onAddCondition { p with conditions := p.conditions ++ [c] } c.type now walkDelay

/-- `Creature::executeConditions` -/
def executeConditions (p : Player) (interval : Int32) (now : ℤ) : Player :=
  let executed := p.conditions.map fun c => c.execute interval now
  (executed.filter fun r => !r.1).foldl (fun p r => endCondition p r.2)
    { p with conditions := (executed.filter fun r => r.1).map Prod.snd }

/-- The steps of a history; a change of base values is any, with the
`changeSpeed(this, 0)` that follows a new level. -/
inductive Action
  | addCondition (c : Condition) (force : Bool) (now walkDelay : ℤ) (drawn : Int32)
  | removeCondition (type : ConditionType) (force : Bool) (walkDelay : ℤ)
  | removeConditionId (type : ConditionType) (id : Int8) (force : Bool) (walkDelay : ℤ)
  | removeConditionAt (i : ℕ) (force : Bool) (walkDelay : ℤ)
  | executeConditions (interval : Int32) (now : ℤ)
  | changeBase (base : Experience.Player) (magLevel : UInt32) (skills : Skill → Int32)
      (conditionSuppressions : BitVec 32)

def step (p : Player) : Action → Player
  | .addCondition c force now walkDelay drawn => addCondition share p c force now walkDelay drawn
  | .removeCondition type force walkDelay => removeCondition p type force walkDelay
  | .removeConditionId type id force walkDelay => removeConditionId p type id force walkDelay
  | .removeConditionAt i force walkDelay => removeConditionAt p i force walkDelay
  | .executeConditions interval now => executeConditions p interval now
  | .changeBase base magLevel skills conditionSuppressions =>
    let p := { p with
      toWearer := { p.toWearer with toPlayer := base, magLevel, conditionSuppressions }
      skills }
    p.changeSpeed 0

end Functions

/-! ### Sums -/

/-- What a condition can change. -/
inductive Part
  | skill (i : Skill)
  | stat (s : Stat)
  | speed

/-- The variable part of everything a condition can change. -/
def Player.total (p : Player) : Part → Int32
  | .skill i => p.varSkills i
  | .stat s => p.varStats s
  | .speed => p.varSpeed

def ConditionAttributes.skillPart (a : ConditionAttributes) : Part → Int32
  | .skill i => a.skills i
  | _ => 0

def ConditionAttributes.statPart (a : ConditionAttributes) : Part → Int32
  | .stat s => a.stats s
  | _ => 0

def speedPart (speedDelta : Int32) : Part → Int32
  | .speed => speedDelta
  | _ => 0

/-- `skills`, `stats` and `speedDelta` of a condition. -/
def Condition.amount (c : Condition) : Part → Int32 :=
  match c.effect with
  | .attributes a => a.skillPart + a.statPart
  | .speed _ speedDelta => speedPart speedDelta

section Specs

variable {share : ℤ → Int32 → Int32} {p : Player} {c : Condition}

theorem updateSkills_spec (p : Player) (a : ConditionAttributes) :
    (updateSkills p a).total = p.total + a.skillPart ∧
    (updateSkills p a).conditions = p.conditions := by
  unfold updateSkills
  rw [Equipment.foldl_setVarSkill (fun i => a.skills i ≠ 0) a.skills (fun i hi => not_not.1 hi) _ _
    (by decide)]
  refine ⟨?_, rfl⟩
  funext part
  cases part with
  | skill i => simp [Player.total, ConditionAttributes.skillPart, Skill.mem_all]
  | stat s => simp [Player.total, ConditionAttributes.skillPart]
  | speed => simp [Player.total, ConditionAttributes.skillPart]

/-- A loop over the stats that skips those without a modifier. -/
theorem foldl_setVarStats (f : Stat → Int32) (g : Stat → Prop) [DecidablePred g]
    (hg : ∀ s, ¬ g s → f s = 0) (p : Player) :
    ∃ h n, Stat.all.foldl (fun p s => if g s then p.setVarStats s (f s) else p) p.toWearer =
      p.toWearer.withStats (fun s => p.varStats s + f s) h n := by
  have hF : ∀ (p : Equipment.Player) (s : Stat), ∃ h n,
      (if g s then p.setVarStats s (f s) else p) =
        p.withStats (Function.update p.varStats s (p.varStats s + f s)) h n := by
    intro p s
    by_cases h : g s
    · rw [if_pos h]
      exact Equipment.setVarStats_eq p s (f s)
    · rw [if_neg h, hg s h, Int32.add_zero, Function.update_eq_self]
      exact ⟨p.health, p.mana, rfl⟩
  obtain ⟨h, n, e⟩ := Equipment.foldl_withStats (fun _ => f) hF Stat.all p.toWearer (by decide)
  refine ⟨h, n, e.trans ?_⟩
  simp only [Stat.mem_all, if_true]

theorem updateStats_spec (p : Player) (a : ConditionAttributes) :
    (updateStats p a).total = p.total + a.statPart ∧
    (updateStats p a).conditions = p.conditions := by
  unfold updateStats
  obtain ⟨h, n, e⟩ := foldl_setVarStats a.stats (fun s => a.stats s ≠ 0) (fun s hs => not_not.1 hs) p
  rw [e]
  refine ⟨?_, rfl⟩
  funext part
  cases part with
  | skill i => simp [Player.total, ConditionAttributes.statPart, Equipment.Player.withStats]
  | stat s => simp [Player.total, ConditionAttributes.statPart, Equipment.Player.withStats]
  | speed => simp [Player.total, ConditionAttributes.statPart, Equipment.Player.withStats]

variable (share) in
/-- Resolved attributes are added as a whole. -/
theorem applyAttributes_spec (p : Player) (a : ConditionAttributes) :
    (applyAttributes share p a).1.total =
      p.total + ((applyAttributes share p a).2.skillPart + (applyAttributes share p a).2.statPart) ∧
    (applyAttributes share p a).1.conditions = p.conditions := by
  unfold applyAttributes
  obtain ⟨h1, h2⟩ := updateSkills_spec p (updatePercentSkills share p a)
  obtain ⟨h3, h4⟩ := updateStats_spec (updateSkills p (updatePercentSkills share p a))
    (updatePercentStats share (updateSkills p (updatePercentSkills share p a))
      (updatePercentSkills share p a))
  refine ⟨?_, h4.trans h2⟩
  rw [h3, h1, add_assoc]
  rfl

theorem speedPart_sub (d d' : Int32) : speedPart (d - d') = speedPart d - speedPart d' := by
  funext part
  cases part with
  | skill i => exact (sub_zero (0 : Int32)).symm
  | stat s => exact (sub_zero (0 : Int32)).symm
  | speed => rfl

theorem changeSpeed_spec (p : Player) (d : Int32) :
    (p.changeSpeed d).total = p.total + speedPart d ∧ (p.changeSpeed d).conditions = p.conditions := by
  unfold Player.changeSpeed
  rw [Equipment.changeSpeed_eq]
  refine ⟨?_, rfl⟩
  funext part
  cases part with
  | skill i => exact (add_zero (p.varSkills i)).symm
  | stat s => exact (add_zero (p.varStats s)).symm
  | speed => rfl

variable (share) in
theorem startCondition_spec (p : Player) (c : Condition) (now : ℤ) (drawn : Int32) :
    (startCondition share p c now drawn).1.total =
      p.total + (startCondition share p c now drawn).2.amount ∧
    (startCondition share p c now drawn).1.conditions = p.conditions ∧
    (startCondition share p c now drawn).2.key = c.key := by
  obtain ⟨id, subId, ticks, endTime, effect⟩ := c
  unfold startCondition
  cases effect with
  | attributes a =>
    obtain ⟨h1, h2⟩ := applyAttributes_spec share p a
    by_cases ht : 0 < ticks
    · simp only [ht, if_true]
      exact ⟨h1, h2, rfl⟩
    · simp only [ht, if_false]
      exact ⟨h1, h2, rfl⟩
  | speed type speedDelta =>
    have hk : ∀ (e : ℤ) (d : Int32), (⟨id, subId, ticks, e, .speed type d⟩ : Condition).key =
        (⟨id, subId, ticks, endTime, .speed type speedDelta⟩ : Condition).key := by
      intro e d
      cases type <;> rfl
    by_cases ht : 0 < ticks
    · simp only [ht, if_true]
      exact ⟨(changeSpeed_spec p _).1, rfl, hk _ _⟩
    · simp only [ht, if_false]
      exact ⟨(changeSpeed_spec p _).1, rfl, hk _ _⟩

theorem endCondition_spec (p : Player) (c : Condition) :
    (endCondition p c).total = p.total - c.amount ∧ (endCondition p c).conditions = p.conditions := by
  obtain ⟨id, subId, ticks, endTime, effect⟩ := c
  unfold endCondition
  cases effect with
  | attributes a =>
    dsimp only
    rw [Equipment.foldl_setVarSkill (fun i => a.skills i ≠ 0 ∨ a.skillsPercent i ≠ 0)
      (fun i => -a.skills i) (fun i hi => by rw [not_or, not_not] at hi; rw [hi.1]; rfl) _ _ (by decide)]
    obtain ⟨h, n, e⟩ := foldl_setVarStats (fun s => -a.stats s) (fun s => a.stats s ≠ 0)
      (fun s hs => by rw [not_not.1 hs]; rfl) { p with toWearer := { p.toWearer with
        varSkills := fun i => if i ∈ Skill.all then p.varSkills i + -a.skills i else p.varSkills i } }
    refine ⟨?_, rfl⟩
    rw [e]
    funext part
    cases part with
    | skill i => simp [Player.total, Condition.amount, ConditionAttributes.skillPart,
        ConditionAttributes.statPart, Equipment.Player.withStats, Skill.mem_all, Int32.sub_eq_add_neg]
    | stat s => simp [Player.total, Condition.amount, ConditionAttributes.skillPart,
        ConditionAttributes.statPart, Equipment.Player.withStats, Int32.sub_eq_add_neg]
    | speed => simp [Player.total, Condition.amount, ConditionAttributes.skillPart,
        ConditionAttributes.statPart, Equipment.Player.withStats]
  | speed type speedDelta =>
    refine ⟨?_, rfl⟩
    calc (p.changeSpeed (-speedDelta)).total
        = p.total + speedPart (-speedDelta) := (changeSpeed_spec p _).1
      _ = p.total + (speedPart 0 - speedPart speedDelta) := by rw [← speedPart_sub, zero_sub]
      _ = p.total - speedPart speedDelta := by
          rw [show speedPart 0 = 0 by funext part; cases part <;> rfl, zero_sub, ← sub_eq_add_neg]

variable (share) in
/-- Merging takes the old amount off and adds the new one, and keeps the key. -/
theorem merge_spec (p : Player) (c add : Condition) (now : ℤ) (drawn : Int32) :
    (merge share p c add now drawn).1.total =
      p.total - c.amount + (merge share p c add now drawn).2.amount ∧
    (merge share p c add now drawn).1.conditions = p.conditions ∧
    (merge share p c add now drawn).2.key = c.key := by
  have hstay : ∀ r : Player × Condition, r = (p, c) → r.1.total = p.total - c.amount + r.2.amount ∧
      r.1.conditions = p.conditions ∧ r.2.key = c.key := by
    intro r hr
    rw [hr]
    exact ⟨(sub_add_cancel _ _).symm, rfl, rfl⟩
  obtain ⟨id, subId, ticks, endTime, effect⟩ := c
  obtain ⟨id', subId', ticks', endTime', effect'⟩ := add
  cases effect with
  | attributes a =>
    cases effect' with
    | speed type' d' => exact hstay _ rfl
    | attributes b =>
      unfold merge
      dsimp only
      split_ifs
      · obtain ⟨h1, h2⟩ := endCondition_spec p
          ((⟨id, subId, ticks, endTime, .attributes a⟩ : Condition).setTicks ticks' now)
        obtain ⟨h3, h4⟩ := applyAttributes_spec share (endCondition p
          ((⟨id, subId, ticks, endTime, .attributes a⟩ : Condition).setTicks ticks' now)) b
        exact ⟨h3.trans (congrArg (· + _) h1), h4.trans h2, rfl⟩
      · exact hstay _ rfl
  | speed type d =>
    cases effect' with
    | attributes b => exact hstay _ rfl
    | speed type' d' =>
      have hk : ∀ (t : Int32) (e : ℤ) (d' : Int32),
          (⟨id, subId, t, e, .speed type d'⟩ : Condition).key =
          (⟨id, subId, ticks, endTime, .speed type d⟩ : Condition).key := by
        intro t e d'
        cases type <;> rfl
      have hadd : ∀ x : Int32, (if x - d ≠ 0 then p.changeSpeed (x - d) else p).total =
          p.total - speedPart d + speedPart x ∧
          (if x - d ≠ 0 then p.changeSpeed (x - d) else p).conditions = p.conditions := by
        intro x
        by_cases hx : x - d = 0
        · rw [if_neg (not_not.2 hx), sub_eq_zero.1 hx, sub_add_cancel]
          exact ⟨rfl, rfl⟩
        · rw [if_pos hx]
          obtain ⟨h1, h2⟩ := changeSpeed_spec p (x - d)
          refine ⟨?_, h2⟩
          rw [h1, speedPart_sub, sub_add_eq_add_sub, add_sub_assoc]
      unfold merge
      dsimp only
      by_cases h1 : (⟨id, subId, ticks, endTime, .speed type d⟩ : Condition).type ≠
          (⟨id', subId', ticks', endTime', .speed type' d'⟩ : Condition).type
      · rw [if_pos h1]
        exact hstay _ rfl
      rw [if_neg h1]
      by_cases h2 : ticks = -1 ∧ 0 < ticks'
      · rw [if_pos h2]
        exact hstay _ rfl
      · rw [if_neg h2]
        exact ⟨(hadd _).1, (hadd _).2, hk _ _ _⟩

end Specs

/-! ### The list and the sums -/

section InStep

variable {share : ℤ → Int32 → Int32} {p : Player}

/-- The sum of the amounts of a list of conditions. -/
def amounts (l : List Condition) : Part → Int32 := (l.map Condition.amount).sum

/-- One condition of each key, and the totals are the sums. -/
structure Good (p : Player) : Prop where
  unique : (p.conditions.map Condition.key).Nodup
  total : p.total = amounts p.conditions

theorem amounts_append (l l' : List Condition) : amounts (l ++ l') = amounts l + amounts l' := by
  unfold amounts
  rw [List.map_append, List.sum_append]

theorem amounts_cons (c : Condition) (l : List Condition) : amounts (c :: l) = c.amount + amounts l := by
  unfold amounts
  rw [List.map_cons, List.sum_cons]

/-- What a list of conditions that end takes off. -/
theorem foldl_endCondition : ∀ (l : List Condition) (p : Player),
    (l.foldl endCondition p).total = p.total - amounts l ∧
    (l.foldl endCondition p).conditions = p.conditions
  | [], p => ⟨(sub_zero _).symm, rfl⟩
  | c :: l, p => by
    obtain ⟨h1, h2⟩ := endCondition_spec p c
    obtain ⟨h3, h4⟩ := foldl_endCondition l (endCondition p c)
    refine ⟨?_, h4.trans h2⟩
    rw [List.foldl_cons, h3, h1, amounts_cons, sub_sub]

theorem amounts_filter {α : Type} (f : α → Condition) (q : α → Bool) : ∀ l : List α,
    amounts ((l.filter q).map f) + amounts ((l.filter fun c => !q c).map f) = amounts (l.map f)
  | [] => add_zero _
  | c :: l => by
    have ih := amounts_filter f q l
    cases hq : q c
    · rw [List.filter_cons_of_neg (by simp [hq]), List.filter_cons_of_pos (by simp [hq]),
        List.map_cons, List.map_cons, amounts_cons, amounts_cons, ← ih, add_left_comm]
    · rw [List.filter_cons_of_pos (by simp [hq]), List.filter_cons_of_neg (by simp [hq]),
        List.map_cons, List.map_cons, amounts_cons, amounts_cons, ← ih, add_assoc]

theorem eraseConditions_good (h : Good p) (q : Condition → Bool) : Good (eraseConditions q p) := by
  unfold eraseConditions
  obtain ⟨h1, h2⟩ := foldl_endCondition (p.conditions.filter q)
    { p with conditions := p.conditions.filter fun c => !q c }
  constructor
  · rw [h2]
    exact h.unique.sublist (List.filter_sublist.map _)
  · rw [h1, h2]
    change p.total - _ = _
    have hsum := amounts_filter id q p.conditions
    rw [List.map_id, List.map_id, List.map_id] at hsum
    rw [h.total, ← hsum, add_sub_cancel_left]

theorem removeCondition_good (h : Good p) (type : ConditionType) (force : Bool) (walkDelay : ℤ) :
    Good (removeCondition p type force walkDelay) := by
  unfold removeCondition
  split_ifs
  · exact h
  · exact eraseConditions_good h _

theorem removeConditionId_good (h : Good p) (type : ConditionType) (id : Int8) (force : Bool)
    (walkDelay : ℤ) : Good (removeConditionId p type id force walkDelay) := by
  unfold removeConditionId
  split_ifs
  · exact h
  · exact eraseConditions_good h _

theorem removeConditionAt_good (h : Good p) (i : ℕ) (force : Bool) (walkDelay : ℤ) :
    Good (removeConditionAt p i force walkDelay) := by
  unfold removeConditionAt
  cases hi : p.conditions[i]? with
  | none => exact h
  | some c =>
    dsimp only
    split_ifs
    · exact h
    obtain ⟨h1, h2⟩ := endCondition_spec { p with conditions := p.conditions.eraseIdx i } c
    obtain ⟨hlt, hc⟩ := List.getElem?_eq_some_iff.1 hi
    constructor
    · rw [h2]
      exact h.unique.sublist ((List.eraseIdx_sublist ..).map _)
    · have hperm : (c :: p.conditions.eraseIdx i).Perm p.conditions := by
        rw [← hc]
        exact List.getElem_cons_eraseIdx_perm hlt
      have hsum : amounts p.conditions = c.amount + amounts (p.conditions.eraseIdx i) := by
        rw [← amounts_cons]
        exact ((hperm.map _).sum_eq).symm
      rw [h1, h2]
      change p.total - _ = _
      rw [h.total, hsum, add_sub_cancel_left]

theorem onAddCondition_good (h : Good p) (type : ConditionType) (now walkDelay : ℤ) :
    Good (onAddCondition p type now walkDelay) := by
  unfold onAddCondition
  split_ifs
  · exact removeCondition_good h _ _ _
  · exact removeCondition_good h _ _ _
  · exact h

/-- The condition that is found first is the one that is replaced. -/
theorem replaceF_of_find {k : ConditionType × Int8 × UInt32} {d : Condition} : ∀ {l : List Condition},
    l.find? (fun c => c.key = k) = some d → d.key = k ∧ ∃ l₁ l₂, l = l₁ ++ d :: l₂ ∧
      ∀ m, l.replaceF (fun c => if c.key = k then some m else none) = l₁ ++ m :: l₂
  | c :: l, h => by
    by_cases hc : c.key = k
    · rw [List.find?_cons_of_pos (by simpa using hc)] at h
      cases h
      exact ⟨hc, [], l, rfl, fun m => by simp [List.replaceF, hc]⟩
    · rw [List.find?_cons_of_neg (by simpa using hc)] at h
      obtain ⟨hk, l₁, l₂, h1, h2⟩ := replaceF_of_find h
      exact ⟨hk, c :: l₁, l₂, by rw [h1]; rfl, fun m => by simp [List.replaceF, hc, h2 m]⟩

theorem addCondition_good (h : Good p) (c : Condition) (force : Bool) (now walkDelay : ℤ)
    (drawn : Int32) : Good (addCondition share p c force now walkDelay drawn) := by
  unfold addCondition
  split_ifs
  · exact h
  cases hfind : p.conditions.find? fun d => d.key = c.key with
  | none =>
    have hspec := startCondition_spec share p c now drawn
    dsimp only
    generalize startCondition share p c now drawn = r at hspec ⊢
    obtain ⟨h1, h2, h3⟩ := hspec
    apply onAddCondition_good
    have hnew : c.key ∉ p.conditions.map Condition.key := by
      intro hm
      obtain ⟨d, hd, hk⟩ := List.mem_map.1 hm
      have := List.find?_eq_none.1 hfind d hd
      simp [hk] at this
    constructor
    · change ((r.1.conditions ++ [r.2]).map Condition.key).Nodup
      rw [List.map_append, List.nodup_append_comm, List.map_singleton, h3, h2]
      exact List.nodup_cons.2 ⟨hnew, h.unique⟩
    · change r.1.total = amounts (r.1.conditions ++ [r.2])
      rw [h1, h2, amounts_append, h.total, amounts_cons]
      exact congrArg _ (add_zero _).symm
  | some prevCond =>
    have hspec := merge_spec share p prevCond c now drawn
    dsimp only
    generalize merge share p prevCond c now drawn = r at hspec ⊢
    obtain ⟨h1, h2, h3⟩ := hspec
    obtain ⟨hk, l₁, l₂, hl, hrep⟩ := replaceF_of_find hfind
    constructor
    · change ((r.1.conditions.replaceF _).map Condition.key).Nodup
      have hu := h.unique
      rw [hl, List.map_append, List.map_cons] at hu
      rw [h2, hrep, List.map_append, List.map_cons, h3]
      exact hu
    · change r.1.total = amounts (r.1.conditions.replaceF _)
      have ht := h.total
      rw [hl, amounts_append, amounts_cons] at ht
      rw [h1, h2, hrep, amounts_append, amounts_cons, ht]
      abel

theorem executeConditions_good (h : Good p) (interval : Int32) (now : ℤ) :
    Good (executeConditions p interval now) := by
  have hsame : ∀ c : Condition, (c.execute interval now).2.amount = c.amount ∧
      (c.execute interval now).2.key = c.key := by
    intro c
    unfold Condition.execute
    split_ifs
    · exact ⟨rfl, rfl⟩
    · exact ⟨rfl, rfl⟩
  unfold executeConditions
  set executed := p.conditions.map fun c => c.execute interval now with hex
  have hkeys : (executed.map Prod.snd).map Condition.key = p.conditions.map Condition.key := by
    rw [hex, List.map_map, List.map_map]
    exact List.map_congr_left fun c _ => (hsame c).2
  have hamounts : amounts (executed.map Prod.snd) = amounts p.conditions := by
    unfold amounts
    rw [hex, List.map_map, List.map_map]
    exact congrArg _ (List.map_congr_left fun c _ => (hsame c).1)
  have hfold := foldl_endCondition ((executed.filter fun r => !r.1).map Prod.snd)
    { p with conditions := (executed.filter fun r => r.1).map Prod.snd }
  rw [List.foldl_map] at hfold
  obtain ⟨h1, h2⟩ := hfold
  constructor
  · rw [h2]
    have hsub : ((executed.filter fun r => r.1).map Prod.snd).Sublist (executed.map Prod.snd) :=
      List.filter_sublist.map _
    exact (hkeys ▸ h.unique).sublist (hsub.map _)
  · rw [h1, h2]
    change p.total - _ = _
    have hsum := amounts_filter Prod.snd (fun r : Bool × Condition => r.1) executed
    rw [h.total, ← hamounts, ← hsum, add_sub_cancel_right]

theorem step_good (h : Good p) (a : Action) : Good (step share p a) := by
  cases a with
  | addCondition c force now walkDelay drawn => exact addCondition_good h c force now walkDelay drawn
  | removeCondition type force walkDelay => exact removeCondition_good h type force walkDelay
  | removeConditionId type id force walkDelay => exact removeConditionId_good h type id force walkDelay
  | removeConditionAt i force walkDelay => exact removeConditionAt_good h i force walkDelay
  | executeConditions interval now => exact executeConditions_good h interval now
  | changeBase base magLevel skills conditionSuppressions =>
    obtain ⟨h1, h2⟩ := changeSpeed_spec
      { p with toWearer := { p.toWearer with toPlayer := base, magLevel, conditionSuppressions }, skills } 0
    constructor
    · change ((Player.changeSpeed _ 0).conditions.map _).Nodup
      rw [h2]
      exact h.unique
    · change (Player.changeSpeed _ 0).total = amounts (Player.changeSpeed _ 0).conditions
      have h0 : speedPart 0 = 0 := by
        funext part
        cases part <;> rfl
      rw [h1, h2, h0, add_zero]
      exact h.total

/-- At most one active condition of each type, id and sub id; the modifiers and
the speed above the base speed are the sums over the active conditions. -/
structure InStep (p : Player) : Prop where
  unique : (p.conditions.map fun c => (c.type, c.id, c.subId)).Nodup
  skills : ∀ i, p.varSkills i = (p.conditions.map fun c => c.amount (.skill i)).sum
  stats : ∀ s, p.varStats s = (p.conditions.map fun c => c.amount (.stat s)).sum
  speed : (p.getSpeed.toUInt32 - p.baseSpeed).toInt32 =
    (p.conditions.map fun c => c.amount .speed).sum
  none_active : p.conditions = [] →
    (∀ i, p.varSkills i = 0) ∧ (∀ s, p.varStats s = 0) ∧ p.varSpeed = 0

theorem amounts_apply (l : List Condition) (part : Part) :
    amounts l part = (l.map fun c => c.amount part).sum := by
  induction l with
  | nil => rfl
  | cons c l ih =>
    rw [amounts_cons, Pi.add_apply, ih, List.map_cons, List.sum_cons]

theorem Good.inStep (h : Good p) : InStep p where
  unique := h.unique
  skills i := (congrFun h.total (.skill i)).trans (amounts_apply _ _)
  stats s := (congrFun h.total (.stat s)).trans (amounts_apply _ _)
  speed := by
    have hv := (congrFun h.total .speed).trans (amounts_apply _ _)
    rw [← hv]
    have he := congrArg Equipment.Player.varSpeed (Equipment.changeSpeed_eq p.toWearer 0)
    simp only [changeSpeed, Int32.add_zero] at he
    exact he
  none_active hn := by
    have h0 : p.total = 0 := by rw [h.total, hn]; rfl
    exact ⟨fun i => congrFun h0 (.skill i), fun s => congrFun h0 (.stat s), congrFun h0 .speed⟩

/-- From a player without conditions and with all modifiers zero, conditions
and modifiers stay in step along every history. -/
theorem inStep_run (share : ℤ → Int32 → Int32) (p : Player) (hc : p.conditions = [])
    (h1 : ∀ i, p.varSkills i = 0) (h2 : ∀ s, p.varStats s = 0) (h3 : p.varSpeed = 0)
    (history : List Action) : InStep (run (step share) p history) := by
  have hgood : Good p := by
    constructor
    · rw [hc]
      exact List.nodup_nil
    · rw [hc]
      funext part
      cases part with
      | skill i => exact h1 i
      | stat s => exact h2 s
      | speed => exact h3
  exact (run_of_step (I := Good) (fun _ a h => step_good h a) history hgood).inStep

/-- A player with every skill at ten and no condition. -/
def newPlayer : Player where
  toWearer := Equipment.newPlayer.player
  skills _ := 10
  conditions := []

/-- A paralysis of a hundred, and a haste of sixty that takes it away. -/
theorem inStep_haste :
    InStep (run
      (step fun value percent => Int32.ofInt ((value * (percent.toInt - 100)).tdiv 100)) newPlayer
      [.addCondition ⟨0, 0, 10000, 0, .speed .paralyze (-100)⟩ false 1000 0 0,
        .addCondition ⟨0, 0, 20000, 0, .speed .haste 60⟩ false 2000 0 0]) :=
  inStep_run _ newPlayer rfl (fun _ => rfl) (fun _ => rfl) rfl _

end InStep

end ConditionEffects
end ForgottenServer
