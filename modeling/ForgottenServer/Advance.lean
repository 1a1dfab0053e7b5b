/-
# Advancing in skills and magic

Tries raise a skill and mana spent raises the magic level: what has been given
goes into the requirement of the next level, and the rest into the one after
it, until it does not suffice or the requirements do not grow any more. The
same loop is written four times, and the copies differ in what they do at the
last level.

The requirements are arbitrary functions of the level, the numbers are those of
the code, in 64 bits, with levels of 16 and 32 bits. Messages and scripts are
left out.

Key definitions: `addSkillAdvance`, `addManaSpent`, `addOfflineTrainingTries`.
Key theorems: `climb_reaches`, `advance_add`, `training_agrees_iff`.
-/
import Mathlib.Data.UInt
import ForgottenServer.Lib.Thresholds

namespace ForgottenServer
namespace Advance

open Thresholds

/-- `skills_t`, without magic and the level -/
inductive SkillName
  | fist | club | sword | axe | distance | shield | fishing
  deriving DecidableEq, Repr

/-- The skills, from `SKILL_FIRST` to `SKILL_LAST`. -/
def skillNames : List SkillName := [.fist, .club, .sword, .axe, .distance, .shield, .fishing]

theorem mem_skillNames (skill : SkillName) : skill ∈ skillNames := by
  cases skill <;> decide

/-- `skills_t` -/
inductive Skills
  | skill (name : SkillName)
  | magLevel
  | level
  deriving DecidableEq, Repr

structure Skill where
  tries : UInt64 := 0
  level : UInt16 := 10
  percent : UInt8 := 0
  deriving DecidableEq, Repr

/-- The members of `Player` that advance. -/
structure Player where
  skills : SkillName → Skill := fun _ => {}
  magLevel : UInt32 := 0
  manaSpent : UInt64 := 0
  magLevelPercent : UInt8 := 0
  -- `PlayerFlag_NotGainMana`
  notGainMana : Bool := false

/-- `Vocation::getReqSkillTries` and `Vocation::getReqMana` -/
structure Vocation where
  getReqSkillTries : SkillName → UInt16 → UInt64
  getReqMana : UInt32 → UInt64

/-- `Player::getPercentLevel` -/
def getPercentLevel (count nextLevelCount : UInt64) : UInt8 :=
  if nextLevelCount = 0 then 0
  else
    let result := (count * 100 / nextLevelCount).toUInt8
    if 100 < result then 0 else result

def Player.setSkill (p : Player) (skill : SkillName) (s : Skill) : Player :=
  { p with skills := Function.update p.skills skill s }

/-! ### The loop -/

/-- Where the loop ends: the level, what has been spent on the next one, what is
left, the last two requirements, and whether it was left at the last level. -/
structure Climb (L : Type*) where
  level : L
  spent : UInt64
  count : UInt64
  currReq : UInt64
  nextReq : UInt64
  capped : Bool

section Loop

variable {L : Type*} (succ : L → L) (req : L → UInt64)

/-- The loop, in which a level is gained each time. The requirements grow, so it
ends. -/
def climb (level : L) (spent count currReq nextReq : UInt64) : Climb L :=
  if nextReq ≤ spent + count then
    let count := count - (nextReq - spent)
    if req (succ (succ level)) ≤ nextReq then
      ⟨succ level, 0, count, nextReq, req (succ (succ level)), true⟩
    else climb (succ level) 0 count nextReq (req (succ (succ level)))
  else ⟨level, spent, count, currReq, nextReq, false⟩
termination_by 2 ^ 64 - nextReq.toNat
decreasing_by
  next hgrow =>
    have hlt := UInt64.lt_iff_toNat_lt.1 (UInt64.not_le.1 hgrow)
    have hsize := (req (succ (succ level))).toNat_lt
    omega

variable {succ req}

/-- What the loop does with a total, and what it knows of the requirements then. -/
structure Ends (succ : L → L) (req : L → UInt64) (level : L) (total : ℕ) (c : Climb L) : Prop where
  capped : c.capped = true →
    Reaches succ (fun l => (req l).toNat) level total (.capped c.level) ∧ c.spent = 0 ∧
      c.nextReq ≤ c.currReq
  stopped : c.capped = false →
    Reaches succ (fun l => (req l).toNat) level total (.stopped c.level (c.spent + c.count).toNat) ∧
      c.currReq < c.nextReq
  currReq : c.currReq = req c.level
  nextReq : c.nextReq = req (succ c.level)

/-- The loop spends what has been spent already and the count together. -/
theorem climb_ends (level : L) (spent count currReq nextReq : UInt64) (hcurr : currReq = req level)
    (hnext : nextReq = req (succ level)) (hgrow : currReq < nextReq) :
    Ends succ req level (spent + count).toNat (climb succ req level spent count currReq nextReq) := by
  induction level, spent, count, currReq, nextReq using climb.induct succ req with
  | case1 level spent count currReq nextReq hle hcap =>
    unfold climb
    rw [if_pos hle]
    dsimp only
    rw [if_pos hcap]
    subst hnext
    exact ⟨fun _ => ⟨.cap (UInt64.le_iff_toNat_le.1 hle) (UInt64.le_iff_toNat_le.1 hcap), rfl, hcap⟩,
      fun h => (nomatch h), rfl, rfl⟩
  | case2 level spent count currReq nextReq hle rest hcap ih =>
    unfold climb
    rw [if_pos hle]
    dsimp only
    rw [if_neg hcap]
    subst hnext
    obtain ⟨hcapped, hstopped, hcurr', hnext'⟩ := ih rfl rfl (UInt64.not_le.1 hcap)
    have hrest : (0 + rest).toNat = (spent + count).toNat - (req (succ level)).toNat := by
      have he : 0 + rest = spent + count - req (succ level) := by
        simp only [rest]
        grind
      rw [he, UInt64.toNat_sub_of_le _ _ hle]
    have hle := UInt64.le_iff_toNat_le.1 hle
    have hgrow' := UInt64.lt_iff_toNat_lt.1 (UInt64.not_le.1 hcap)
    rw [hrest] at hcapped hstopped
    exact ⟨fun h => ⟨.step hle hgrow' (hcapped h).1, (hcapped h).2⟩,
      fun h => ⟨.step hle hgrow' (hstopped h).1, (hstopped h).2⟩, hcurr', hnext'⟩
  | case3 level spent count currReq nextReq hle =>
    unfold climb
    rw [if_neg hle]
    subst hnext
    exact ⟨fun h => (nomatch h), fun _ => ⟨.stop (UInt64.lt_iff_toNat_lt.1 (UInt64.not_le.1 hle)), hgrow⟩, hcurr, rfl⟩

end Loop

section Functions

variable (voc : Vocation)

/-- `Player::addSkillAdvance` -/
def addSkillAdvance (p : Player) (skill : SkillName) (count : UInt64) : Player :=
  let s := p.skills skill
  let req := voc.getReqSkillTries skill
  let currReqTries := req s.level
  let nextReqTries := req (s.level + 1)
  if nextReqTries ≤ currReqTries then p
  else if count = 0 then p
  else
    let c := climb (· + 1) req s.level s.tries count currReqTries nextReqTries
    let tries := c.spent + (if c.capped then 0 else c.count)
    let newPercent := if c.currReq < c.nextReq then getPercentLevel tries c.nextReq else 0
    p.setSkill skill ⟨tries, c.level, newPercent⟩

/-- `Player::addManaSpent`, which returns from within the loop at the last level. -/
def addManaSpent (p : Player) (amount : UInt64) : Player :=
  if p.notGainMana then p
  else
    let req := voc.getReqMana
    let currReqMana := req p.magLevel
    let nextReqMana := req (p.magLevel + 1)
    if nextReqMana ≤ currReqMana then p
    else if amount = 0 then p
    else
      let c := climb (· + 1) req p.magLevel p.manaSpent amount currReqMana nextReqMana
      if c.capped then { p with magLevel := c.level, manaSpent := c.spent }
      else
        let manaSpent := c.spent + c.count
        { p with
          magLevel := c.level
          manaSpent
          magLevelPercent := if c.currReq < c.nextReq then getPercentLevel manaSpent c.nextReq else 0 }

/-- `Player::addOfflineTrainingTries` -/
def addOfflineTrainingTries (p : Player) (skill : Skills) (tries : UInt64) : Player :=
  if tries = 0 then p
  else
    match skill with
    | .level => p
    | .magLevel =>
      let req := voc.getReqMana
      let currReqMana := req p.magLevel
      let nextReqMana := req (p.magLevel + 1)
      if nextReqMana ≤ currReqMana then p
      else
        let c := climb (· + 1) req p.magLevel p.manaSpent tries currReqMana nextReqMana
        let manaSpent := c.spent + (if c.capped then 0 else c.count)
        { p with
          magLevel := c.level
          manaSpent
          magLevelPercent := if c.currReq < c.nextReq then getPercentLevel manaSpent c.nextReq else 0 }
    | .skill skill =>
      let s := p.skills skill
      let req := voc.getReqSkillTries skill
      let currReqTries := req s.level
      let nextReqTries := req (s.level + 1)
      if nextReqTries ≤ currReqTries then p
      else
        let c := climb (· + 1) req s.level s.tries tries currReqTries nextReqTries
        let tries := c.spent + (if c.capped then 0 else c.count)
        let newPercent := if c.currReq < c.nextReq then getPercentLevel tries c.nextReq else 0
        p.setSkill skill ⟨tries, c.level, newPercent⟩

end Functions

/-! ### What the functions come to -/

section Outcomes

variable {L : Type*} {succ : L → L} {req : L → UInt64} {level : L} {spent count : UInt64}

/-- The loop from a level comes to this outcome with a total. -/
def Leads (succ : L → L) (req : L → UInt64) (level : L) (total : ℕ) (o : Outcome L) : Prop :=
  Reaches succ (fun l => (req l).toNat) level total o

/-- What is spent on the next level in the end. -/
def spentOf : Outcome L → UInt64
  | .stopped _ rest => .ofNat rest
  | .capped _ => 0

def levelOf : Outcome L → L
  | .stopped level _ => level
  | .capped level => level

def isCapped : Outcome L → Bool
  | .stopped _ _ => false
  | .capped _ => true

/-- The last level has been reached, or the requirements still grow. -/
def Placed (succ : L → L) (req : L → UInt64) (o : Outcome L) : Prop :=
  if isCapped o then req (succ (levelOf o)) ≤ req (levelOf o) else req (levelOf o) < req (succ (levelOf o))

variable (succ req spent count) in
/-- The loop of the functions, by its outcome. -/
theorem climb_outcome (hgrow : req level < req (succ level)) :
    let c := climb succ req level spent count (req level) (req (succ level))
    ∃ o, Leads succ req level (spent + count).toNat o ∧ Placed succ req o ∧ c.level = levelOf o ∧
      c.capped = isCapped o ∧ c.spent + (if c.capped then 0 else c.count) = spentOf o ∧
      c.currReq = req (levelOf o) ∧ c.nextReq = req (succ (levelOf o)) := by
  intro c
  obtain ⟨hcapped, hstopped, hcurr, hnext⟩ :=
    climb_ends level spent count (req level) (req (succ level)) rfl rfl hgrow
  change c.currReq = _ at hcurr
  change c.nextReq = _ at hnext
  cases hc : c.capped with
  | true =>
    obtain ⟨hreach, hspent, hle⟩ := hcapped hc
    refine ⟨_, hreach, ?_, rfl, rfl, ?_, hcurr, hnext⟩
    · rw [hcurr, hnext] at hle
      exact hle
    · have hspent : c.spent = 0 := hspent
      rw [hspent, if_pos rfl]
      rfl
  | false =>
    obtain ⟨hreach, hlt⟩ := hstopped hc
    refine ⟨_, hreach, ?_, rfl, rfl, ?_, hcurr, hnext⟩
    · rw [hcurr, hnext] at hlt
      exact hlt
    · rw [if_neg Bool.false_ne_true]
      exact UInt64.ofNat_toNat.symm

/-- The two parts of a total come to the same outcome as both at once. -/
theorem Leads.add {a b : UInt64} {o o' : Outcome L} (h : Leads succ req level (spent + a).toNat o)
    (hsum : spent.toNat + a.toNat + b.toNat < 2 ^ 64) (hplaced : isCapped o = false)
    (h' : Leads succ req (levelOf o) (spentOf o + b).toNat o') :
    Leads succ req level (spent + (a + b)).toNat o' := by
  cases o with
  | capped _ => exact nomatch hplaced
  | stopped level' rest =>
    have ha : (spent + a).toNat = spent.toNat + a.toNat := by
      rw [UInt64.toNat_add]
      omega
    have hle := Reaches.rest_le h
    have hrest : (spentOf (.stopped level' rest) + b).toNat = rest + b.toNat := by
      unfold spentOf
      rw [UInt64.toNat_add, UInt64.toNat_ofNat']
      omega
    have htotal : (spent + (a + b)).toNat = (spent + a).toNat + b.toNat := by
      rw [← UInt64.add_assoc, UInt64.toNat_add]
      omega
    rw [hrest] at h'
    rw [htotal]
    exact Reaches.add_stopped h h'

theorem Leads.add_capped {a b : UInt64} {o : Outcome L} (h : Leads succ req level (spent + a).toNat o)
    (hsum : spent.toNat + a.toNat + b.toNat < 2 ^ 64) (hcapped : isCapped o = true) :
    Leads succ req level (spent + (a + b)).toNat o := by
  cases o with
  | stopped _ _ => exact nomatch hcapped
  | capped level' =>
    have htotal : (spent + (a + b)).toNat = (spent + a).toNat + b.toNat := by
      rw [← UInt64.add_assoc, UInt64.toNat_add, UInt64.toNat_add]
      omega
    rw [htotal]
    exact Reaches.add_capped h b.toNat

end Outcomes

section Specs

variable {voc : Vocation} {p : Player} {skill : SkillName} {count : UInt64}

/-- A skill after its outcome. -/
def skillOf (req : UInt16 → UInt64) (o : Outcome UInt16) : Skill :=
  ⟨spentOf o, levelOf o, if isCapped o then 0 else getPercentLevel (spentOf o) (req (levelOf o + 1))⟩

theorem addSkillAdvance_of_capped
    (h : voc.getReqSkillTries skill ((p.skills skill).level + 1) ≤
      voc.getReqSkillTries skill (p.skills skill).level) :
    addSkillAdvance voc p skill count = p := if_pos h

theorem addSkillAdvance_zero : addSkillAdvance voc p skill 0 = p := by
  unfold addSkillAdvance
  dsimp only
  rw [if_pos rfl, ite_self]

variable (voc) in
theorem addSkillAdvance_outcome
    (h : voc.getReqSkillTries skill (p.skills skill).level <
      voc.getReqSkillTries skill ((p.skills skill).level + 1)) (hcount : count ≠ 0) :
    ∃ o, Leads (· + 1) (voc.getReqSkillTries skill) (p.skills skill).level
        ((p.skills skill).tries + count).toNat o ∧
      Placed (· + 1) (voc.getReqSkillTries skill) o ∧
      addSkillAdvance voc p skill count = p.setSkill skill (skillOf (voc.getReqSkillTries skill) o) := by
  obtain ⟨o, hleads, hplaced, hlevel, hcapped, hspent, hcurr, hnext⟩ :=
    climb_outcome (· + 1) (voc.getReqSkillTries skill) (p.skills skill).tries count h
  refine ⟨o, hleads, hplaced, ?_⟩
  unfold addSkillAdvance
  dsimp only
  rw [if_neg (UInt64.not_le.2 h), if_neg hcount, hlevel, hspent, hcurr, hnext]
  unfold skillOf
  unfold Placed at hplaced
  congr 2
  cases hc : isCapped o with
  | true =>
    rw [hc, if_pos rfl] at hplaced
    rw [if_neg (UInt64.not_lt.2 hplaced), if_pos rfl]
  | false =>
    rw [hc, if_neg Bool.false_ne_true] at hplaced
    rw [if_pos hplaced, if_neg Bool.false_ne_true]

theorem addManaSpent_of_capped (h : voc.getReqMana (p.magLevel + 1) ≤ voc.getReqMana p.magLevel) :
    addManaSpent voc p count = p := by
  unfold addManaSpent
  split
  · rfl
  · exact if_pos h

theorem addManaSpent_zero : addManaSpent voc p 0 = p := by
  unfold addManaSpent
  dsimp only
  rw [if_pos rfl, ite_self, ite_self]

variable (voc) in
theorem addManaSpent_outcome (hflag : p.notGainMana = false)
    (h : voc.getReqMana p.magLevel < voc.getReqMana (p.magLevel + 1)) (hcount : count ≠ 0) :
    ∃ o, Leads (· + 1) voc.getReqMana p.magLevel (p.manaSpent + count).toNat o ∧
      Placed (· + 1) voc.getReqMana o ∧
      addManaSpent voc p count =
        { p with
          magLevel := levelOf o
          manaSpent := spentOf o
          magLevelPercent :=
            if isCapped o then p.magLevelPercent
            else getPercentLevel (spentOf o) (voc.getReqMana (levelOf o + 1)) } := by
  obtain ⟨o, hleads, hplaced, hlevel, hcapped, hspent, hcurr, hnext⟩ :=
    climb_outcome (· + 1) voc.getReqMana p.manaSpent count h
  refine ⟨o, hleads, hplaced, ?_⟩
  unfold addManaSpent
  dsimp only
  rw [if_neg (by rw [hflag]; exact Bool.false_ne_true), if_neg (UInt64.not_le.2 h), if_neg hcount]
  unfold Placed at hplaced
  cases hc : isCapped o with
  | true =>
    rw [hcapped, hc, if_pos rfl, UInt64.add_zero] at hspent
    rw [hcapped, hc, if_pos rfl, if_pos rfl, hlevel, hspent]
  | false =>
    rw [hc, if_neg Bool.false_ne_true] at hplaced
    rw [hcapped, hc, if_neg Bool.false_ne_true] at hspent
    rw [hcapped, hc, if_neg Bool.false_ne_true, if_neg Bool.false_ne_true, hlevel, hspent, hcurr, hnext,
      if_pos hplaced]

/-! ### Advancing is additive -/

/-- The level of magic, and the mana spent on the next. -/
def Player.magic (p : Player) : UInt32 × UInt64 := (p.magLevel, p.manaSpent)

theorem add_ne_zero {a b : UInt64} (ha : a ≠ 0) (hsum : a.toNat + b.toNat < 2 ^ 64) : a + b ≠ 0 := by
  intro h
  have hz : (a + b).toNat = 0 := by
    rw [h]
    rfl
  rw [UInt64.toNat_add] at hz
  have hpos : a.toNat ≠ 0 := fun h0 => ha (UInt64.toNat_inj.1 h0)
  omega

theorem Player.setSkill_skills (p : Player) (skill : SkillName) (s : Skill) :
    (p.setSkill skill s).skills skill = s :=
  Function.update_self ..

theorem Player.setSkill_setSkill (p : Player) (skill : SkillName) (s s' : Skill) :
    (p.setSkill skill s).setSkill skill s' = p.setSkill skill s' := by
  unfold Player.setSkill
  rw [Function.update_idem]

theorem addSkillAdvance_add (voc : Vocation) (p : Player) (skill : SkillName) {a b : UInt64}
    (hsum : (p.skills skill).tries.toNat + a.toNat + b.toNat < 2 ^ 64) :
    addSkillAdvance voc (addSkillAdvance voc p skill a) skill b = addSkillAdvance voc p skill (a + b) := by
  by_cases hcap : voc.getReqSkillTries skill ((p.skills skill).level + 1) ≤
      voc.getReqSkillTries skill (p.skills skill).level
  · rw [addSkillAdvance_of_capped hcap, addSkillAdvance_of_capped hcap, addSkillAdvance_of_capped hcap]
  have hgrow := UInt64.not_le.1 hcap
  by_cases ha : a = 0
  · rw [ha, addSkillAdvance_zero, UInt64.zero_add]
  by_cases hb : b = 0
  · rw [hb, addSkillAdvance_zero, UInt64.add_zero]
  obtain ⟨o, hleads, hplaced, he⟩ := addSkillAdvance_outcome voc hgrow ha
  obtain ⟨o', hleads', -, he'⟩ := addSkillAdvance_outcome voc hgrow (add_ne_zero (b := b) ha (by omega))
  rw [he, he']
  have hskill : (p.setSkill skill (skillOf (voc.getReqSkillTries skill) o)).skills skill =
      skillOf (voc.getReqSkillTries skill) o := p.setSkill_skills skill _
  unfold Placed at hplaced
  cases hc : isCapped o with
  | true =>
    -- the second part finds the skill at its last level
    rw [hc, if_pos rfl] at hplaced
    rw [addSkillAdvance_of_capped (by rw [hskill]; exact hplaced)]
    rw [(hleads.add_capped hsum hc).unique hleads']
  | false =>
    rw [hc, if_neg Bool.false_ne_true] at hplaced
    obtain ⟨o₂, hleads₂, -, he₂⟩ := addSkillAdvance_outcome voc
      (p := p.setSkill skill (skillOf (voc.getReqSkillTries skill) o)) (by rw [hskill]; exact hplaced) hb
    rw [hskill] at hleads₂
    rw [he₂, Player.setSkill_setSkill, (hleads.add hsum hc hleads₂).unique hleads']

theorem addManaSpent_add (voc : Vocation) (p : Player) {a b : UInt64}
    (hsum : p.manaSpent.toNat + a.toNat + b.toNat < 2 ^ 64) :
    (addManaSpent voc (addManaSpent voc p a) b).magic = (addManaSpent voc p (a + b)).magic := by
  cases hflag : p.notGainMana with
  | true =>
    have hnone (n : UInt64) : addManaSpent voc p n = p := if_pos hflag
    rw [hnone, hnone, hnone]
  | false =>
  by_cases hcap : voc.getReqMana (p.magLevel + 1) ≤ voc.getReqMana p.magLevel
  · rw [addManaSpent_of_capped hcap, addManaSpent_of_capped hcap, addManaSpent_of_capped hcap]
  have hgrow := UInt64.not_le.1 hcap
  by_cases ha : a = 0
  · rw [ha, addManaSpent_zero, UInt64.zero_add]
  by_cases hb : b = 0
  · rw [hb, addManaSpent_zero, UInt64.add_zero]
  obtain ⟨o, hleads, hplaced, he⟩ := addManaSpent_outcome voc hflag hgrow ha
  obtain ⟨o', hleads', -, he'⟩ := addManaSpent_outcome voc hflag hgrow (add_ne_zero (b := b) ha (by omega))
  let q : Player :=
    { p with
      magLevel := levelOf o
      manaSpent := spentOf o
      magLevelPercent :=
        if isCapped o then p.magLevelPercent
        else getPercentLevel (spentOf o) (voc.getReqMana (levelOf o + 1)) }
  have hq : addManaSpent voc p a = q := he
  rw [hq]
  refine Eq.trans ?_ (congrArg Player.magic he').symm
  unfold Placed at hplaced
  cases hc : isCapped o with
  | true =>
    rw [hc, if_pos rfl] at hplaced
    have hlast : addManaSpent voc q b = q := addManaSpent_of_capped hplaced
    rw [hlast, ← (hleads.add_capped hsum hc).unique hleads']
  | false =>
    rw [hc, if_neg Bool.false_ne_true] at hplaced
    obtain ⟨o₂, hleads₂, -, he₂⟩ := addManaSpent_outcome voc (p := q) hflag hplaced hb
    rw [he₂, ← (hleads.add hsum hc hleads₂).unique hleads']
    rfl

/-- Tries and mana that are given in two parts come to the same as both at once. -/
theorem advance_add (voc : Vocation) (p : Player) (skill : SkillName) (a b : UInt64) :
    ((p.skills skill).tries.toNat + a.toNat + b.toNat < 2 ^ 64 →
      addSkillAdvance voc (addSkillAdvance voc p skill a) skill b = addSkillAdvance voc p skill (a + b)) ∧
    (p.manaSpent.toNat + a.toNat + b.toNat < 2 ^ 64 →
      (addManaSpent voc (addManaSpent voc p a) b).magic = (addManaSpent voc p (a + b)).magic) :=
  ⟨addSkillAdvance_add voc p skill, addManaSpent_add voc p⟩

/-- Skills grow up to level 12, magic up to level 2. -/
def shortVocation : Vocation where
  getReqSkillTries _ level := if level ≤ 12 then 10 * level.toUInt64 else 0
  getReqMana magLevel := if magLevel ≤ 2 then 400 * magLevel.toUInt64 else 0

theorem advance_add_fist :
    addSkillAdvance shortVocation (addSkillAdvance shortVocation {} .fist 30) .fist 200 =
        addSkillAdvance shortVocation {} .fist 230 ∧
      (addManaSpent shortVocation (addManaSpent shortVocation {} 500) 900).magic =
        (addManaSpent shortVocation {} 1400).magic :=
  ⟨(advance_add shortVocation {} .fist 30 200).1 (by decide),
    (advance_add shortVocation {} .fist 500 900).2 (by decide)⟩

/-! ### Offline training -/

/-- Offline training and training come to the same player. -/
def TrainsAlike (voc : Vocation) (p : Player) (tries : UInt64) : Prop :=
  (∀ skill, addOfflineTrainingTries voc p (.skill skill) tries = addSkillAdvance voc p skill tries) ∧
    addOfflineTrainingTries voc p .magLevel tries = addManaSpent voc p tries

/-- The mana covers all requirements up to the last level of magic. -/
def ReachesLast (voc : Vocation) (p : Player) (tries : UInt64) : Prop :=
  ∃ k : ℕ, (∀ j ≤ k, voc.getReqMana (p.magLevel + .ofNat j) < voc.getReqMana (p.magLevel + .ofNat (j + 1))) ∧
    voc.getReqMana (p.magLevel + .ofNat (k + 2)) ≤ voc.getReqMana (p.magLevel + .ofNat (k + 1)) ∧
    ∑ j ∈ Finset.range (k + 1), (voc.getReqMana (p.magLevel + .ofNat (j + 1))).toNat ≤
      (p.manaSpent + tries).toNat

theorem addOfflineTrainingTries_skill :
    addOfflineTrainingTries voc p (.skill skill) count = addSkillAdvance voc p skill count := by
  unfold addOfflineTrainingTries
  by_cases h : count = 0
  · rw [if_pos h, h, addSkillAdvance_zero]
  · rw [if_neg h]
    unfold addSkillAdvance
    dsimp only
    rw [if_neg h]

variable (voc) in
theorem addOfflineTrainingTries_outcome
    (h : voc.getReqMana p.magLevel < voc.getReqMana (p.magLevel + 1)) (hcount : count ≠ 0) :
    ∃ o, Leads (· + 1) voc.getReqMana p.magLevel (p.manaSpent + count).toNat o ∧
      addOfflineTrainingTries voc p .magLevel count =
        { p with
          magLevel := levelOf o
          manaSpent := spentOf o
          magLevelPercent :=
            if isCapped o then 0 else getPercentLevel (spentOf o) (voc.getReqMana (levelOf o + 1)) } := by
  obtain ⟨o, hleads, hplaced, hlevel, hcapped, hspent, hcurr, hnext⟩ :=
    climb_outcome (· + 1) voc.getReqMana p.manaSpent count h
  refine ⟨o, hleads, ?_⟩
  unfold addOfflineTrainingTries
  dsimp only
  rw [if_neg hcount, if_neg (UInt64.not_le.2 h), hlevel, hspent, hcurr, hnext]
  unfold Placed at hplaced
  cases hc : isCapped o with
  | true =>
    rw [hc, if_pos rfl] at hplaced
    rw [if_neg (UInt64.not_lt.2 hplaced), if_pos rfl]
  | false =>
    rw [hc, if_neg Bool.false_ne_true] at hplaced
    rw [if_pos hplaced, if_neg Bool.false_ne_true]

theorem iterate_add_one (level : UInt32) : ∀ j : ℕ, (· + 1)^[j] level = level + .ofNat j
  | 0 => (UInt32.add_zero level).symm
  | j + 1 => by
    rw [Function.iterate_succ_apply', iterate_add_one level j, UInt32.ofNat_add, ← UInt32.add_assoc]
    rfl

theorem reachesLast_iff (hgrow : voc.getReqMana p.magLevel < voc.getReqMana (p.magLevel + 1))
    {o : Outcome UInt32} (h : Leads (· + 1) voc.getReqMana p.magLevel (p.manaSpent + count).toNat o) :
    ReachesLast voc p count ↔ isCapped o = true := by
  have hiff := reaches_capped_iff (· + 1) (fun l => (voc.getReqMana l).toNat) p.magLevel
    (p.manaSpent + count).toNat
  simp only [iterate_add_one, ← UInt64.lt_iff_toNat_lt, ← UInt64.le_iff_toNat_le] at hiff
  have hsame : ReachesLast voc p count ↔
      ∃ level', Leads (· + 1) voc.getReqMana p.magLevel (p.manaSpent + count).toNat (.capped level') := by
    unfold Leads
    rw [hiff]
    unfold ReachesLast
    refine exists_congr fun k => and_congr_left fun _ => ⟨fun hall j hj => hall (j + 1) hj, fun hall j hj => ?_⟩
    cases j with
    | zero =>
      rw [show p.magLevel + .ofNat 0 = p.magLevel from UInt32.add_zero _]
      exact hgrow
    | succ j => exact hall j hj
  rw [hsame]
  constructor
  · rintro ⟨level', h'⟩
    rw [h.unique h']
    rfl
  · intro hc
    cases o with
    | stopped _ _ => exact nomatch hc
    | capped level' => exact ⟨level', h⟩

/-- Offline training is training, but for the percentage of magic at the last
level, which only offline training sets to 0. -/
theorem trainsAlike_iff (voc : Vocation) (p : Player) (tries : UInt64) (hflag : p.notGainMana = false) :
    TrainsAlike voc p tries ↔
      ¬ (tries ≠ 0 ∧ p.magLevelPercent ≠ 0 ∧ ReachesLast voc p tries) := by
  unfold TrainsAlike
  rw [and_iff_right fun _ => addOfflineTrainingTries_skill]
  by_cases htries : tries = 0
  · rw [htries, addManaSpent_zero]
    exact iff_of_true (if_pos rfl) fun h => h.1 rfl
  by_cases hcap : voc.getReqMana (p.magLevel + 1) ≤ voc.getReqMana p.magLevel
  · rw [addManaSpent_of_capped hcap]
    refine iff_of_true ?_ fun h => ?_
    · unfold addOfflineTrainingTries
      rw [if_neg htries]
      exact if_pos hcap
    · obtain ⟨-, -, k, hgrow, -⟩ := h
      have hfirst := hgrow 0 k.zero_le
      rw [show p.magLevel + .ofNat 0 = p.magLevel from UInt32.add_zero _] at hfirst
      exact UInt64.not_le.2 hfirst hcap
  have hgrow := UInt64.not_le.1 hcap
  obtain ⟨o, hleads, -, he⟩ := addManaSpent_outcome voc hflag hgrow htries
  obtain ⟨o', hleads', he'⟩ := addOfflineTrainingTries_outcome voc hgrow htries
  obtain rfl := hleads.unique hleads'
  rw [he, he', reachesLast_iff hgrow hleads]
  cases hc : isCapped o with
  | true =>
    rw [if_pos rfl, if_pos rfl]
    constructor
    · rintro h ⟨-, hne, -⟩
      exact hne (congrArg Player.magLevelPercent h).symm
    · intro h
      have hzero : p.magLevelPercent = 0 := by
        by_contra hne
        exact h ⟨htries, hne, rfl⟩
      rw [hzero]
  | false => exact iff_of_true rfl fun h => Bool.false_ne_true h.2.2

theorem trainsAlike_iff_novice : TrainsAlike shortVocation {} 1400 :=
  (trainsAlike_iff shortVocation {} 1400 rfl).2 fun h => h.2.1 rfl

/-- Close to the last level of magic. -/
def adept : Player := { magLevel := 1, manaSpent := 700, magLevelPercent := 87 }

/-- At the last level the percentage stays at what it was. -/
theorem adept_trains_otherwise : ¬ TrainsAlike shortVocation adept 100 := by
  intro h
  have hgrow : shortVocation.getReqMana adept.magLevel < shortVocation.getReqMana (adept.magLevel + 1) := by
    decide
  have hlast : Leads (· + 1) shortVocation.getReqMana adept.magLevel (adept.manaSpent + 100).toNat
      (.capped 2) := .cap (by decide) (by decide)
  have hcount : (100 : UInt64) ≠ 0 := by decide
  obtain ⟨o, hleads, -, he⟩ := addManaSpent_outcome shortVocation rfl hgrow hcount
  obtain ⟨o', hleads', he'⟩ := addOfflineTrainingTries_outcome shortVocation hgrow hcount
  obtain rfl := hleads.unique hlast
  obtain rfl := hleads'.unique hlast
  have hpercent := congrArg Player.magLevelPercent h.2
  rw [he, he'] at hpercent
  exact absurd hpercent (by decide)

end Specs

end Advance
end ForgottenServer
