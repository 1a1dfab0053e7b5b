/-
# Damage between mana and health

`Game::combatChangeHealth` with a primary value that is not positive does damage. A mana
shield takes what the mana of the target covers, first off the primary value and then off
the secondary one; what is left is cut down to the health of the target and drained. The
values in the damage structure are changed along the way, since callers read them
afterwards.

A player with `PlayerFlag_HasInfiniteMana` does not pay for his shield, and an event on the
preparation of a death can call a deadly hit off (`combatChangeHealth_conserves`).

The numbers are those of the code in 32 bits. There are no events on changes of health and
mana, those on the preparation of a death only answer, and messages and effects are left out.

Key definitions: `absorb`, `limit`, `combatChangeHealth`, `Conserves`.
Key theorems: `absorb_spec`, `limit_spec`, `combatChangeHealth_conserves`.
-/
import ForgottenServer.Lib.Words

namespace ForgottenServer
namespace Combat

open Words

/-! ### The code -/

/-- `CombatType_t` -/
inductive CombatType
  | none | physicalDamage | energyDamage | earthDamage | fireDamage | undefinedDamage
  | lifeDrain | manaDrain | healing
  deriving DecidableEq, Repr

structure DamagePart where
  type : CombatType
  value : Int32
  deriving DecidableEq, Repr

/-- `CombatDamage`; the origin only matters to events. -/
structure CombatDamage where
  primary : DamagePart
  secondary : DamagePart
  deriving DecidableEq, Repr

/-- The members of a creature that are read. `manaShield` is `hasCondition` of
`CONDITION_MANASHIELD`, `prepareDeath` what its events of `CREATURE_EVENT_PREPAREDEATH`
answer. -/
structure Target where
  health : Int32
  healthMax : Int32
  mana : UInt32
  manaMax : UInt32
  attackable : Bool := true
  manaShield : Bool := false
  -- a player with `PlayerFlag_HasInfiniteMana`
  infiniteMana : Bool := false
  prepareDeath : List Bool := []
  deriving DecidableEq, Repr

namespace Target

def changeHealth (c : Target) (healthChange : Int32) : Target :=
  if 0 < healthChange then { c with health := c.health + min healthChange (c.healthMax - c.health) }
  else { c with health := max 0 (c.health + healthChange) }

/-- `Creature::changeMana`, and `Player::changeMana` before it -/
def changeMana (c : Target) (manaChange : Int32) : Target :=
  if c.infiniteMana then c
  else if 0 < manaChange then
    { c with mana := c.mana + (min manaChange (c.manaMax - c.mana).toInt32).toUInt32 }
  else { c with mana := (max 0 (c.mana + manaChange.toUInt32).toInt32).toUInt32 }

def gainHealth (c : Target) (healthGain : Int32) : Target := c.changeHealth healthGain

def drainHealth (c : Target) (damage : Int32) : Target := c.changeHealth (-damage)

def drainMana (c : Target) (manaLoss : Int32) : Target := c.changeMana (-manaLoss)

end Target

/-- What the mana shield takes of a damage that is `healthChange` in all. -/
def absorb (target : Target) (damage : CombatDamage) (healthChange : Int32) : Target × CombatDamage :=
  if target.manaShield ∧ damage.primary.type ≠ .undefinedDamage then
    let manaDamage := min target.mana.toInt32 healthChange
    if manaDamage ≠ 0 then
      let primary := damage.primary.value - manaDamage
      (target.drainMana manaDamage,
        if primary < 0 then
          { primary := { damage.primary with value := 0 }
            secondary := { damage.secondary with value := max 0 (damage.secondary.value + primary) } }
        else { damage with primary := { damage.primary with value := primary } })
    else (target, damage)
  else (target, damage)

/-- The damage is cut down to the health of the target. -/
def limit (damage : CombatDamage) (targetHealth : Int32) : CombatDamage :=
  if targetHealth ≤ damage.primary.value then
    { primary := { damage.primary with value := targetHealth }
      secondary := { damage.secondary with value := 0 } }
  else if damage.secondary.value ≠ 0 then
    { damage with
      secondary := { damage.secondary with
        value := min damage.secondary.value (targetHealth - damage.primary.value) } }
  else damage

/-- `std::abs` -/
def abs32 (n : Int32) : Int32 := if n < 0 then -n else n

def CombatDamage.abs (damage : CombatDamage) : CombatDamage where
  primary := { damage.primary with value := abs32 damage.primary.value }
  secondary := { damage.secondary with value := abs32 damage.secondary.value }

def CombatDamage.sum (damage : CombatDamage) : Int32 := damage.primary.value + damage.secondary.value

/-- `Game::combatChangeHealth`: what it returns, the target and the damage afterwards. -/
def combatChangeHealth (target : Target) (damage : CombatDamage) : Bool × Target × CombatDamage :=
  if 0 < damage.primary.value then
    if target.health ≤ 0 then (false, target, damage)
    else (true, target.gainHealth damage.primary.value, damage)
  else if !target.attackable then (true, target, damage)
  else
    let damage := damage.abs
    let healthChange := damage.sum
    if healthChange = 0 then (true, target, damage)
    else
      let (target, damage) := absorb target damage healthChange
      let realDamage := damage.sum
      if realDamage = 0 then (true, target, damage)
      else
        let targetHealth := target.health
        let damage := limit damage targetHealth
        let realDamage := damage.sum
        if realDamage = 0 then (true, target, damage)
        else if targetHealth ≤ realDamage ∧ target.prepareDeath.any (!·) then (false, target, damage)
        else (true, target.drainHealth realDamage, damage)

/-! ### Changing mana and health -/

theorem toInt_abs32 {a : Int32} (h : -2 ^ 31 < a.toInt) : (abs32 a).toInt = |a.toInt| := by
  unfold abs32
  split_ifs with h0
  · have hneg : a.toInt < 0 := Int32.lt_iff_toInt_lt.1 h0
    rw [toInt_neg_of_range h, abs_of_neg hneg]
  · have hpos : ¬ a.toInt < 0 := fun h => h0 (Int32.lt_iff_toInt_lt.2 h)
    rw [abs_of_nonneg (not_lt.1 hpos)]

section Changes

variable {c : Target} {n : Int32}

theorem drainHealth_health (hn : 0 ≤ n.toInt) (hle : n.toInt ≤ c.health.toInt) :
    (c.drainHealth n).health.toInt = c.health.toInt - n.toInt := by
  have hlt := c.health.toInt_lt
  have hneg : (-n).toInt = -n.toInt := toInt_neg_of_range (by omega)
  have h0 : ¬ 0 < -n := by
    rw [Int32.lt_iff_toInt_lt, hneg]
    show ¬ (0 : ℤ) < _
    omega
  have hsum : (c.health + -n).toInt = c.health.toInt - n.toInt := by
    rw [toInt_add_of_range (by omega) (by omega), hneg]
    rfl
  unfold Target.drainHealth Target.changeHealth
  rw [if_neg h0]
  show (max 0 (c.health + -n)).toInt = _
  rw [toInt_max, hsum]
  exact max_eq_right (by show (0 : ℤ) ≤ _; omega)

/-- Mana that is not infinite is paid. -/
theorem drainMana_mana (hm : c.mana.toNat < 2 ^ 31) (hn : 0 ≤ n.toInt) (hle : n.toInt ≤ c.mana.toNat) :
    ((c.drainMana n).mana.toNat : ℤ) =
      if c.infiniteMana then (c.mana.toNat : ℤ) else c.mana.toNat - n.toInt := by
  have hneg : (-n).toInt = -n.toInt := toInt_neg_of_range (by omega)
  have h0 : ¬ 0 < -n := by
    rw [Int32.lt_iff_toInt_lt, hneg]
    show ¬ (0 : ℤ) < _
    omega
  unfold Target.drainMana Target.changeMana
  split_ifs with hinf
  · rfl
  · have hmana := toInt_toInt32_of_lt hm
    have hsum : (c.mana + (-n).toUInt32).toInt32.toInt = c.mana.toNat - n.toInt := by
      show (c.mana.toInt32 + -n).toInt = _
      rw [toInt_add_of_range (by omega) (by omega), hneg, hmana]
      rfl
    have hmax : (max 0 (c.mana + (-n).toUInt32).toInt32).toInt = c.mana.toNat - n.toInt := by
      rw [toInt_max, hsum]
      exact max_eq_right (by show (0 : ℤ) ≤ _; omega)
    show ((max 0 (c.mana + (-n).toUInt32).toInt32).toUInt32.toNat : ℤ) = _
    rw [toNat_toUInt32_of_nonneg (by omega), hmax]

theorem drainMana_frame (c : Target) (n : Int32) :
    (c.drainMana n).health = c.health ∧ (c.drainMana n).prepareDeath = c.prepareDeath := by
  unfold Target.drainMana Target.changeMana
  split_ifs <;> exact ⟨rfl, rfl⟩

theorem drainHealth_mana (c : Target) (n : Int32) : (c.drainHealth n).mana = c.mana := by
  unfold Target.drainHealth Target.changeHealth
  split_ifs <;> rfl

end Changes

/-! ### The steps -/

section Steps

/-- Both values are there, and their sum fits. -/
structure CombatDamage.Fits (d : CombatDamage) : Prop where
  primary : 0 ≤ d.primary.value.toInt
  secondary : 0 ≤ d.secondary.value.toInt
  sum : d.primary.value.toInt + d.secondary.value.toInt < 2 ^ 31

/-- No value of `d` is more than that of `d'`. -/
structure CombatDamage.Within (d d' : CombatDamage) : Prop where
  primary : d.primary.value.toInt ≤ d'.primary.value.toInt
  secondary : d.secondary.value.toInt ≤ d'.secondary.value.toInt
  primary_type : d.primary.type = d'.primary.type

variable {target : Target} {d d' d'' : CombatDamage}

theorem CombatDamage.Within.refl (d : CombatDamage) : d.Within d := ⟨le_refl _, le_refl _, rfl⟩

theorem CombatDamage.Within.trans (h : d.Within d') (h' : d'.Within d'') : d.Within d'' :=
  ⟨h.primary.trans h'.primary, h.secondary.trans h'.secondary, h.primary_type.trans h'.primary_type⟩

theorem CombatDamage.Fits.toInt_sum (h : d.Fits) :
    d.sum.toInt = d.primary.value.toInt + d.secondary.value.toInt := by
  obtain ⟨h1, h2, h3⟩ := h
  exact toInt_add_of_range (by omega) h3

/-- What the shield takes: the smaller one of the mana and the damage. -/
def absorbed (target : Target) (d : CombatDamage) : ℤ :=
  if target.manaShield ∧ d.primary.type ≠ .undefinedDamage then
    min (target.mana.toNat : ℤ) (d.primary.value.toInt + d.secondary.value.toInt)
  else 0

/-- The target and the damage behind the shield. -/
structure Absorbs (target : Target) (d : CombatDamage) (out : Target × CombatDamage) : Prop where
  fits : out.2.Fits
  within : out.2.Within d
  sum : out.2.primary.value.toInt + out.2.secondary.value.toInt =
    d.primary.value.toInt + d.secondary.value.toInt - absorbed target d
  mana : (out.1.mana.toNat : ℤ) =
    if target.infiniteMana then (target.mana.toNat : ℤ) else target.mana.toNat - absorbed target d
  health : out.1.health = target.health
  prepareDeath : out.1.prepareDeath = target.prepareDeath

theorem absorb_spec (hd : d.Fits) (hm : target.mana.toNat < 2 ^ 31) :
    Absorbs target d (absorb target d d.sum) := by
  obtain ⟨hp, hs, hlt⟩ := id hd
  have hsame (h0 : absorbed target d = 0) : Absorbs target d (target, d) := by
    refine ⟨hd, .refl d, by rw [h0, sub_zero], ?_, rfl, rfl⟩
    rw [h0, sub_zero, ite_self]
  unfold absorb
  by_cases hshield : target.manaShield ∧ d.primary.type ≠ .undefinedDamage
  swap
  · rw [if_neg hshield]
    exact hsame (if_neg hshield)
  rw [if_pos hshield]
  dsimp only
  have habs : absorbed target d =
      min (target.mana.toNat : ℤ) (d.primary.value.toInt + d.secondary.value.toInt) := if_pos hshield
  set m := min target.mana.toInt32 d.sum with hmdef
  have hmval : m.toInt = absorbed target d := by
    rw [hmdef, toInt_min, toInt_toInt32_of_lt hm, hd.toInt_sum, habs]
  by_cases h0 : m = 0
  · rw [if_neg (not_not.2 h0)]
    apply hsame
    rw [← hmval, h0]
    rfl
  rw [if_pos h0]
  have hm0 : 0 ≤ m.toInt := by omega
  have hmle : m.toInt ≤ target.mana.toNat := by omega
  have hmd : m.toInt ≤ d.primary.value.toInt + d.secondary.value.toInt := by omega
  have hmana := drainMana_mana hm hm0 hmle
  rw [hmval] at hmana
  obtain ⟨hhealth, hprepare⟩ := drainMana_frame target m
  have hsub : (d.primary.value - m).toInt = d.primary.value.toInt - m.toInt :=
    toInt_sub_of_range (by omega) (by omega)
  split_ifs with hneg
  · -- the mana covers the primary value and some of the secondary one
    rw [Int32.lt_iff_toInt_lt, hsub] at hneg
    change d.primary.value.toInt - m.toInt < 0 at hneg
    have hadd : (d.secondary.value + (d.primary.value - m)).toInt =
        d.secondary.value.toInt + (d.primary.value.toInt - m.toInt) := by
      rw [toInt_add_of_range (by omega) (by omega), hsub]
    have hmax : (max 0 (d.secondary.value + (d.primary.value - m))).toInt =
        d.secondary.value.toInt + (d.primary.value.toInt - m.toInt) := by
      rw [toInt_max, hadd]
      exact max_eq_right (by show (0 : ℤ) ≤ _; omega)
    refine ⟨⟨le_refl _, ?_, ?_⟩, ⟨hp, ?_, rfl⟩, ?_, hmana, hhealth, hprepare⟩
    · rw [hmax]
      omega
    · show 0 + (max 0 _ : Int32).toInt < _
      rw [hmax]
      omega
    · rw [hmax]
      omega
    · show 0 + (max 0 _ : Int32).toInt = _
      rw [hmax]
      omega
  · rw [Int32.lt_iff_toInt_lt, hsub] at hneg
    change ¬ d.primary.value.toInt - m.toInt < 0 at hneg
    refine ⟨⟨?_, hs, ?_⟩, ⟨?_, le_refl _, rfl⟩, ?_, hmana, hhealth, hprepare⟩
    all_goals
      dsimp only
      rw [hsub]
      omega

theorem limit_spec {health : Int32} (hd : d.Fits) (hh : 0 < health.toInt) :
    (limit d health).Fits ∧ (limit d health).Within d ∧
      (limit d health).primary.value.toInt + (limit d health).secondary.value.toInt =
        min health.toInt (d.primary.value.toInt + d.secondary.value.toInt) := by
  obtain ⟨hp, hs, hlt⟩ := id hd
  have hhlt := health.toInt_lt
  unfold limit
  split_ifs with h1 h2
  · have hle := Int32.le_iff_toInt_le.1 h1
    refine ⟨⟨hh.le, le_refl _, ?_⟩, ⟨hle, hs, rfl⟩, ?_⟩
    · show health.toInt + 0 < _
      omega
    · show health.toInt + 0 = _
      omega
  · have hgt : d.primary.value.toInt < health.toInt := not_le.1 fun h => h1 (Int32.le_iff_toInt_le.2 h)
    have hsub : (health - d.primary.value).toInt = health.toInt - d.primary.value.toInt :=
      toInt_sub_of_range (by omega) (by omega)
    have hmin : (min d.secondary.value (health - d.primary.value)).toInt =
        min d.secondary.value.toInt (health.toInt - d.primary.value.toInt) := by
      rw [toInt_min, hsub]
    refine ⟨⟨hp, ?_, ?_⟩, ⟨le_refl _, ?_, rfl⟩, ?_⟩
    all_goals
      dsimp only
      rw [hmin]
      omega
  · have hgt : d.primary.value.toInt < health.toInt := not_le.1 fun h => h1 (Int32.le_iff_toInt_le.2 h)
    have h0 : d.secondary.value.toInt = 0 := by
      rw [not_not.1 h2]
      rfl
    exact ⟨hd, .refl d, by omega⟩

end Steps

/-! ### The whole damage -/

section Whole

variable {target : Target} {damage : CombatDamage}

/-- The sum of the absolute values. -/
def total (damage : CombatDamage) : ℤ := |damage.primary.value.toInt| + |damage.secondary.value.toInt|

/-- The mana that the shield takes of a damage. -/
def manaTaken (target : Target) (damage : CombatDamage) : ℤ :=
  if target.manaShield ∧ damage.primary.type ≠ .undefinedDamage then
    min (target.mana.toNat : ℤ) (total damage)
  else 0

/-- The health that is left to take. -/
def healthTaken (target : Target) (damage : CombatDamage) : ℤ :=
  min target.health.toInt (total damage - manaTaken target damage)

/-- The hit would kill, and an event calls it off. -/
def CalledOff (target : Target) (damage : CombatDamage) : Prop :=
  target.health.toInt ≤ total damage - manaTaken target damage ∧ target.prepareDeath.any (!·)

/-- Mana, health and the two values after a damage. -/
structure Conserves (target : Target) (damage : CombatDamage) (out : Bool × Target × CombatDamage) :
    Prop where
  mana : (out.2.1.mana.toNat : ℤ) = target.mana.toNat - if target.infiniteMana then 0 else manaTaken target damage
  calledOff : CalledOff target damage → out.1 = false ∧ out.2.1.health = target.health
  health : ¬ CalledOff target damage → out.1 = true ∧
    out.2.1.health.toInt = target.health.toInt - healthTaken target damage
  primary : 0 ≤ out.2.2.primary.value.toInt ∧
    out.2.2.primary.value.toInt ≤ |damage.primary.value.toInt|
  secondary : 0 ≤ out.2.2.secondary.value.toInt ∧
    out.2.2.secondary.value.toInt ≤ |damage.secondary.value.toInt|
  sum : out.2.2.primary.value.toInt + out.2.2.secondary.value.toInt = healthTaken target damage

theorem CombatDamage.abs_fits (h : total damage < 2 ^ 31) :
    damage.abs.Fits ∧ damage.abs.primary.value.toInt = |damage.primary.value.toInt| ∧
      damage.abs.secondary.value.toInt = |damage.secondary.value.toInt| := by
  unfold total at h
  have hp0 := abs_nonneg damage.primary.value.toInt
  have hs0 := abs_nonneg damage.secondary.value.toInt
  have hp : damage.abs.primary.value.toInt = |damage.primary.value.toInt| :=
    toInt_abs32 (by have := neg_abs_le damage.primary.value.toInt; omega)
  have hs : damage.abs.secondary.value.toInt = |damage.secondary.value.toInt| :=
    toInt_abs32 (by have := neg_abs_le damage.secondary.value.toInt; omega)
  exact ⟨⟨by omega, by omega, by omega⟩, hp, hs⟩

theorem eq_zero_iff {n : Int32} : n = 0 ↔ n.toInt = 0 := Int32.toInt_inj.symm

/-- Nothing is left for the health. -/
theorem conserves_of_none {c : Target} {d : CombatDamage} (hh : 0 < target.health.toInt)
    (h0 : total damage - manaTaken target damage = 0)
    (hmana : (c.mana.toNat : ℤ) = target.mana.toNat - if target.infiniteMana then 0 else manaTaken target damage)
    (hhealth : c.health = target.health)
    (hp : 0 ≤ d.primary.value.toInt ∧ d.primary.value.toInt ≤ |damage.primary.value.toInt|)
    (hs : 0 ≤ d.secondary.value.toInt ∧ d.secondary.value.toInt ≤ |damage.secondary.value.toInt|)
    (hsum : d.primary.value.toInt + d.secondary.value.toInt = 0) :
    Conserves target damage (true, c, d) := by
  have htaken : healthTaken target damage = 0 := by
    unfold healthTaken
    omega
  have hoff : ¬ CalledOff target damage := fun h => absurd h.1 (by omega)
  refine ⟨hmana, fun h => absurd h hoff, fun _ => ⟨rfl, ?_⟩, hp, hs, ?_⟩
  · show c.health.toInt = _
    rw [htaken, hhealth, sub_zero]
  · rw [htaken]
    exact hsum

/-- **Damage is conserved.** Mana, health and the reported values of a target with
health whose mana fits into an `int32_t`. -/
theorem combatChangeHealth_conserves (target : Target) (damage : CombatDamage)
    (hattack : target.attackable = true) (hh : 0 < target.health) (hm : target.mana.toNat < 2 ^ 31)
    (hp : damage.primary.value ≤ 0) (hd : total damage < 2 ^ 31) :
    Conserves target damage (combatChangeHealth target damage) := by
  have hh0 : 0 < target.health.toInt := Int32.lt_iff_toInt_lt.1 hh
  have hnotpos : ¬ 0 < damage.primary.value := Int32.not_lt.2 hp
  obtain ⟨hfits, habsp, habss⟩ := CombatDamage.abs_fits hd
  have hsum := hfits.toInt_sum
  have htotal : damage.abs.primary.value.toInt + damage.abs.secondary.value.toInt = total damage := by
    rw [habsp, habss]
    rfl
  have hmana : absorbed target damage.abs = manaTaken target damage := by
    unfold absorbed manaTaken
    rw [htotal]
    rfl
  obtain ⟨hafits, hawithin, hasum, hamana, hahealth, haprepare⟩ := absorb_spec hfits hm
  rw [hmana] at hasum hamana
  rw [htotal] at hasum
  have hwithin {d : CombatDamage} (h : d.Within damage.abs) :
      d.primary.value.toInt ≤ |damage.primary.value.toInt| ∧
        d.secondary.value.toInt ≤ |damage.secondary.value.toInt| := by
    rw [← habsp, ← habss]
    exact ⟨h.primary, h.secondary⟩
  have hmanaEq {c : Target} (h : (c.mana.toNat : ℤ) = if target.infiniteMana then (target.mana.toNat : ℤ)
      else target.mana.toNat - manaTaken target damage) :
      (c.mana.toNat : ℤ) = target.mana.toNat - if target.infiniteMana then 0 else manaTaken target damage := by
    rw [h]
    split_ifs <;> omega
  unfold combatChangeHealth
  rw [if_neg hnotpos, hattack, if_neg (by decide)]
  dsimp only
  split_ifs with h1 h2 h3 h4
  · -- there is no damage
    have h0 : total damage = 0 := by rw [← htotal, ← hsum, h1]; rfl
    have hmt : manaTaken target damage = 0 := by
      unfold manaTaken
      split_ifs <;> omega
    have hw := hwithin (.refl damage.abs)
    refine conserves_of_none hh0 (by omega) ?_ rfl ⟨hfits.primary, hw.1⟩ ⟨hfits.secondary, hw.2⟩ (by omega)
    rw [hmt, ite_self, sub_zero]
  · -- the shield takes all of it
    have h0 := hafits.toInt_sum
    rw [h2] at h0
    change (0 : ℤ) = _ at h0
    have hw := hwithin hawithin
    exact conserves_of_none hh0 (by omega) (hmanaEq hamana) hahealth ⟨hafits.primary, hw.1⟩
      ⟨hafits.secondary, hw.2⟩ (by omega)
  all_goals
    have hrest : 0 < total damage - manaTaken target damage := by
      have hne : (absorb target damage.abs damage.abs.sum).2.sum.toInt ≠ 0 := mt eq_zero_iff.2 h2
      have := hafits.toInt_sum
      have := hafits.primary
      have := hafits.secondary
      omega
    obtain ⟨hlfits, hlwithin, hlsum⟩ := limit_spec hafits (hahealth ▸ hh0)
    rw [hasum, hahealth] at hlsum
    have hreal := hlfits.toInt_sum
    rw [hahealth] at hreal
    have hw := hwithin (hlwithin.trans hawithin)
    rw [hahealth] at hw
  · -- something is left of it
    rw [hahealth] at h3
    have := eq_zero_iff.1 h3
    omega
  · rw [hahealth, haprepare, Int32.le_iff_toInt_le] at h4
    have hoff : CalledOff target damage := ⟨by omega, h4.2⟩
    rw [hahealth]
    rw [hahealth] at hlfits
    exact ⟨hmanaEq hamana, fun _ => ⟨rfl, hahealth⟩, fun h => absurd hoff h,
      ⟨hlfits.primary, hw.1⟩, ⟨hlfits.secondary, hw.2⟩, hlsum⟩
  · rw [hahealth, haprepare, Int32.le_iff_toInt_le] at h4
    have hoff : ¬ CalledOff target damage := by
      rintro ⟨hle, hany⟩
      exact h4 ⟨by omega, hany⟩
    rw [hahealth]
    rw [hahealth] at hlfits
    refine ⟨?_, fun h => absurd h hoff, fun _ => ⟨rfl, ?_⟩, ⟨hlfits.primary, hw.1⟩,
      ⟨hlfits.secondary, hw.2⟩, hlsum⟩
    · show ((Target.drainHealth _ _).mana.toNat : ℤ) = _
      rw [drainHealth_mana]
      exact hmanaEq hamana
    · show (Target.drainHealth _ _).health.toInt = _
      have hlp := hlfits.primary
      have hls := hlfits.secondary
      rw [drainHealth_health (by omega) (by rw [hahealth]; omega), hahealth, hreal, hlsum]
      rfl

/-- A target behind a shield with 40 mana. -/
def shielded : Target where
  health := 100
  healthMax := 100
  mana := 40
  manaMax := 100
  manaShield := true

def hit (primary secondary : Int32) : CombatDamage := ⟨⟨.physicalDamage, primary⟩, ⟨.fireDamage, secondary⟩⟩

theorem combatChangeHealth_conserves_shielded :
    Conserves shielded (hit (-30) (-20)) (combatChangeHealth shielded (hit (-30) (-20))) :=
  combatChangeHealth_conserves shielded (hit (-30) (-20)) rfl (by decide) (by decide) (by decide)
    (by decide)

/-- With infinite mana nothing is paid for the shield; an event on the preparation of the
death calls a deadly hit off; and mana that is negative as an `int32_t` is not what is
taken. -/
theorem combatChangeHealth_otherwise :
    (combatChangeHealth { shielded with infiniteMana := true } (hit (-30) 0)).2.1.mana = 40 ∧
    (combatChangeHealth { shielded with mana := 0, prepareDeath := [false] } (hit (-100) 0)).2.1.health = 100 ∧
    (combatChangeHealth { shielded with mana := 3000000000 } (hit (-30) 0)).2.1.mana ≠ 3000000000 - 30 := by
  decide

end Whole

end Combat
end ForgottenServer
