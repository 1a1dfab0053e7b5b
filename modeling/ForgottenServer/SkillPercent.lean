/-
# The percentage of a skill

The percentage shown for a skill is a function of its level and its tries: how
much of the requirement of the next level has been made. Loading, training and
deaths compute it each for themselves. A death takes the requirement of the
level the skill has, not of the next one, so the percentage is off until the
next gain or login, unless both requirements give the same.

Key definitions: `step`, `Shown`, `ShowsSame`, `Reached`.
Key theorems: `shown_of_reached`, `death_shown_iff`.
-/
import ForgottenServer.Death

namespace ForgottenServer
namespace Advance

open Thresholds

/-- The columns of the database that `loadPlayer` reads here. -/
structure Saved where
  level : SkillName → UInt16
  tries : SkillName → UInt64
  magLevel : UInt32
  manaSpent : UInt64

section Steps

variable (voc : Vocation) (conv : Conversion)

/-- A skill as `IOLoginData::loadPlayer` makes it. -/
def loadSkill (req : UInt16 → UInt64) (skillLevel : UInt16) (skillTries : UInt64) : Skill :=
  let nextSkillTries := req (skillLevel + 1)
  let skillTries := if nextSkillTries < skillTries then 0 else skillTries
  ⟨skillTries, skillLevel, getPercentLevel skillTries nextSkillTries⟩

/-- `IOLoginData::loadPlayer` -/
def loadPlayer (saved : Saved) (notGainMana : Bool) : Player :=
  let nextManaCount := voc.getReqMana (saved.magLevel + 1)
  let manaSpent := if nextManaCount < saved.manaSpent then 0 else saved.manaSpent
  { skills := fun skill => loadSkill (voc.getReqSkillTries skill) (saved.level skill) (saved.tries skill)
    magLevel := saved.magLevel
    manaSpent
    magLevelPercent := getPercentLevel manaSpent nextManaCount
    notGainMana }

/-- What `IOLoginData::savePlayer` writes. -/
def savePlayer (p : Player) : Saved where
  level skill := (p.skills skill).level
  tries skill := (p.skills skill).tries
  magLevel := p.magLevel
  manaSpent := p.manaSpent

inductive Action
  | load (saved : Saved) (notGainMana : Bool)
  | advance (skill : SkillName) (count : UInt64)
  | train (skill : Skills) (tries : UInt64)
  | die (fraction : ℚ) (h : fraction ≤ 1)

/-- A step, if it ends. -/
def step (p : Player) : Action → Option Player
  | .load saved notGainMana => some (loadPlayer voc saved notGainMana)
  | .advance skill count => some (addSkillAdvance voc p skill count)
  | .train skill tries => some (addOfflineTrainingTries voc p skill tries)
  | .die fraction _ => death voc conv fraction p

/-- The percentage of every skill is that of its level and tries. -/
def Shown (p : Player) : Prop :=
  ∀ skill, (p.skills skill).percent =
      getPercentLevel (p.skills skill).tries (voc.getReqSkillTries skill ((p.skills skill).level + 1)) ∨
    voc.getReqSkillTries skill ((p.skills skill).level + 1) ≤
        voc.getReqSkillTries skill (p.skills skill).level ∧
      (p.skills skill).percent = 0

/-- On the level `l` that a death leaves the skill at, with `u` tries before the
clamp, the requirements of the level and of the next give the same percentage. -/
def ShowsSame (fraction : ℚ) (p : Player) (skill : SkillName) : Prop :=
  let s := p.skills skill
  let lost := lostTries voc conv fraction p skill
  ∃ l, ∃ u : UInt64, l ≤ s.level.toNat ∧
    above (reqTries voc skill) s.level.toNat s.tries.toNat l = u.toNat + lost ∧
    (∀ l', l < l' → l' ≤ s.level.toNat → above (reqTries voc skill) s.level.toNat s.tries.toNat l' < lost) ∧
    getPercentLevel (clamp u) (voc.getReqSkillTries skill (.ofNat l)) =
      getPercentLevel (clamp u) (voc.getReqSkillTries skill (.ofNat l + 1))

/-- Only deaths that show the same. -/
def Meets (p : Player) : Action → Prop
  | .die fraction _ => ∀ skill, ShowsSame voc conv fraction p skill
  | _ => True

/-- The states of runs of a new player in which every step meets the condition. -/
inductive Reached : Player → Prop
  | new (notGainMana : Bool) : Reached { notGainMana }
  | step {p p' : Player} {a : Action} (h : Reached p) (hmeets : Meets voc conv p a)
      (hstep : step voc conv p a = some p') : Reached p'

end Steps

/-! ### What each step shows -/

section Skill

variable {voc : Vocation} {conv : Conversion} {fraction : ℚ} {p p' : Player} {skill : SkillName}

/-- The percentage of a skill is that of its level and tries, and there are no
more than the next level takes. -/
structure Kept (req : UInt16 → UInt64) (s : Skill) : Prop where
  percent : s.percent = getPercentLevel s.tries (req (s.level + 1))
  tries : s.tries ≤ req (s.level + 1)

theorem getPercentLevel_zero (n : UInt64) : getPercentLevel 0 n = 0 := by
  unfold getPercentLevel
  split
  · rfl
  · rw [UInt64.zero_mul, UInt64.zero_div]
    rfl

theorem kept_loadSkill (req : UInt16 → UInt64) (level : UInt16) (tries : UInt64) :
    Kept req (loadSkill req level tries) := by
  refine ⟨rfl, ?_⟩
  unfold loadSkill
  dsimp only
  split
  · exact UInt64.zero_le
  · next h => exact UInt64.not_lt.1 h

/-- What is loaded again is what was saved. -/
theorem Kept.loadSkill {req : UInt16 → UInt64} {s : Skill} (h : Kept req s) :
    loadSkill req s.level s.tries = s := by
  unfold Advance.loadSkill
  dsimp only
  rw [if_neg (UInt64.not_lt.2 h.tries), ← h.percent]

/-- The outcome of the loop is shown as it should be. -/
theorem kept_skillOf {req : UInt16 → UInt64} {level : UInt16} {total : ℕ} {o : Outcome UInt16}
    (hleads : Leads (· + 1) req level total o) : Kept req (skillOf req o) := by
  cases o with
  | stopped level' rest =>
    refine ⟨rfl, UInt64.le_iff_toNat_le.2 ?_⟩
    have hlt := Reaches.rest_lt hleads
    have hsize := (req (level' + 1)).toNat_lt
    have hrest : (skillOf req (.stopped level' rest)).tries.toNat = rest :=
      UInt64.toNat_ofNat_of_lt' (hlt.trans hsize)
    rw [hrest]
    exact hlt.le
  | capped level' => exact ⟨(getPercentLevel_zero _).symm, UInt64.zero_le⟩

theorem kept_setSkill {s : Skill} (hp : ∀ skill, Kept (voc.getReqSkillTries skill) (p.skills skill))
    (hs : Kept (voc.getReqSkillTries skill) s) :
    ∀ skill', Kept (voc.getReqSkillTries skill') ((p.setSkill skill s).skills skill') := by
  intro skill'
  by_cases h : skill' = skill
  · subst h
    rwa [Player.setSkill_skills]
  · have he : (p.setSkill skill s).skills skill' = p.skills skill' := Function.update_of_ne h ..
    rw [he]
    exact hp skill'

theorem kept_addSkillAdvance (hp : ∀ skill, Kept (voc.getReqSkillTries skill) (p.skills skill))
    (count : UInt64) :
    ∀ skill', Kept (voc.getReqSkillTries skill') ((addSkillAdvance voc p skill count).skills skill') := by
  by_cases hcount : count = 0
  · rw [hcount, addSkillAdvance_zero]
    exact hp
  by_cases hcap : voc.getReqSkillTries skill ((p.skills skill).level + 1) ≤
      voc.getReqSkillTries skill (p.skills skill).level
  · rw [addSkillAdvance_of_capped hcap]
    exact hp
  obtain ⟨o, hleads, -, he⟩ := addSkillAdvance_outcome voc (UInt64.not_le.1 hcap) hcount
  rw [he]
  exact kept_setSkill hp (kept_skillOf hleads)

theorem kept_addOfflineTrainingTries (hp : ∀ skill, Kept (voc.getReqSkillTries skill) (p.skills skill))
    (skill : Skills) (tries : UInt64) :
    ∀ skill', Kept (voc.getReqSkillTries skill')
      ((addOfflineTrainingTries voc p skill tries).skills skill') := by
  cases skill with
  | skill skill =>
    rw [addOfflineTrainingTries_skill]
    exact kept_addSkillAdvance hp tries
  | magLevel =>
    have he : (addOfflineTrainingTries voc p .magLevel tries).skills = p.skills := by
      unfold addOfflineTrainingTries
      dsimp only
      split
      · rfl
      · split <;> rfl
    rwa [he]
  | level =>
    have he : addOfflineTrainingTries voc p .level tries = p := ite_self p
    rwa [he]

theorem skills_death (h : death voc conv fraction p = some p') (skill : SkillName) :
    p'.skills skill = deathSkill conv (voc.getReqSkillTries skill) fraction (p.skills skill) := by
  unfold death at h
  split at h
  · exact nomatch h
  split at h
  · exact nomatch h
  rw [← Option.some.inj h]

/-- A death shows the percentage of the skill when both requirements give the same. -/
theorem death_shown_iff (h1 : fraction ≤ 1) (h : death voc conv fraction p = some p') :
    (p'.skills skill).percent =
        getPercentLevel (p'.skills skill).tries (voc.getReqSkillTries skill ((p'.skills skill).level + 1)) ↔
      ShowsSame voc conv fraction p skill := by
  obtain ⟨-, u, -, hfalls, htries, hpercent⟩ := deathSkill_falls conv h1 voc p skill
  rw [← skills_death h skill] at hfalls htries hpercent
  have hofNat : UInt16.ofNat (p'.skills skill).level.toNat = (p'.skills skill).level := UInt16.ofNat_toNat
  rw [hpercent, htries]
  constructor
  · intro he
    obtain ⟨hle, hsum, hhigher⟩ := falls_iff.1 hfalls
    refine ⟨_, u, hle, hsum, hhigher, ?_⟩
    rw [hofNat]
    exact he
  · rintro ⟨l, u', hle, hsum, hhigher, he⟩
    obtain ⟨rfl, hu⟩ := hfalls.unique (falls_iff.2 ⟨hle, hsum, hhigher⟩)
    obtain rfl := UInt64.toNat_inj.1 hu
    rwa [hofNat] at he

/-- A death leaves no more tries than the next level takes. -/
theorem tries_le_of_death (h1 : fraction ≤ 1) (h : death voc conv fraction p = some p')
    (hp : (p.skills skill).tries ≤ voc.getReqSkillTries skill ((p.skills skill).level + 1)) :
    (p'.skills skill).tries ≤ voc.getReqSkillTries skill ((p'.skills skill).level + 1) := by
  obtain ⟨-, u, -, hfalls, htries, -⟩ := deathSkill_falls conv h1 voc p skill
  rw [← skills_death h skill] at hfalls htries
  rw [UInt64.le_iff_toNat_le, htries]
  refine (clamp_le u).trans ?_
  rcases Nat.lt_or_ge (p'.skills skill).level.toNat (p.skills skill).level.toNat with hlt | hge
  · have hrest := hfalls.rest_lt hlt
    have hsucc : (p'.skills skill).level + 1 = .ofNat ((p'.skills skill).level.toNat + 1) := by
      rw [UInt16.ofNat_add, UInt16.ofNat_toNat]
      rfl
    rw [hsucc]
    exact hrest.le
  · have he : (p'.skills skill).level.toNat = (p.skills skill).level.toNat := le_antisymm hfalls.le hge
    rw [he] at hfalls
    have hle := hfalls.rest_le
    have hp := UInt64.le_iff_toNat_le.1 hp
    rw [UInt16.toNat_inj.1 he]
    omega

/-- What every step of a run keeps. -/
theorem Reached.kept (h : Reached voc conv p) : ∀ skill, Kept (voc.getReqSkillTries skill) (p.skills skill) := by
  induction h with
  | new => exact fun skill => ⟨(getPercentLevel_zero _).symm, UInt64.zero_le⟩
  | @step p p' a _ hmeets hstep ih =>
    cases a with
    | load saved notGainMana =>
      obtain rfl := Option.some.inj hstep
      exact fun skill => kept_loadSkill _ _ _
    | advance skill count =>
      obtain rfl := Option.some.inj hstep
      exact kept_addSkillAdvance ih count
    | train skill tries =>
      obtain rfl := Option.some.inj hstep
      exact kept_addOfflineTrainingTries ih skill tries
    | die fraction h1 =>
      exact fun skill => ⟨(death_shown_iff h1 hstep).2 (hmeets skill), tries_le_of_death h1 hstep (ih skill).tries⟩

/-- In a run of steps that meet the condition every percentage is that of the
level and the tries, and loading the player again changes no skill. -/
theorem shown_of_reached (h : Reached voc conv p) :
    Shown voc p ∧ ∀ notGainMana, (loadPlayer voc (savePlayer p) notGainMana).skills = p.skills :=
  ⟨fun skill => .inl (h.kept skill).percent, fun _ => funext fun skill => (h.kept skill).loadSkill⟩

end Skill

/-! ### Deaths at level 11 -/

/-- Ten tries more for each level. -/
def steadyVocation : Vocation where
  getReqSkillTries _ level := 10 * level.toUInt64
  getReqMana magLevel := 400 * magLevel.toUInt64

/-- Level 11 in all skills, with as many tries in each. -/
def savedWith (tries : UInt64) : Saved where
  level _ := 11
  tries _ := tries
  magLevel := 0
  manaSpent := 0

/-- Nothing is lost: the loss of a skill is 0. -/
theorem lostTries_zero (voc : Vocation) (conv : Conversion) (p : Player) (skill : SkillName) :
    lostTries voc conv 0 p skill = 0 := by
  unfold lostTries
  dsimp only
  rw [lostOf_zero]
  exact conv.toNat_toUInt32 0 (by decide)

/-- A sixteenth of 120 tries, of which 110 made level 11: three of the ten are left. -/
theorem lostTries_novice (skill : SkillName) :
    lostTries steadyVocation truncating (1 / 16) (loadPlayer steadyVocation (savedWith 10) false) skill = 7 := by
  have hlost : lostOf (1 / 16) 120 = 7 := by decide +kernel
  show (truncating.toUInt32 (lostOf (1 / 16) 120)).toNat = 7
  rw [hlost]
  rfl

/-- Three tries show two percent of the 110 for level 11, and of the 120 for level 12. -/
theorem shown_of_reached_novice :
    ∃ p', death steadyVocation truncating (1 / 16) (loadPlayer steadyVocation (savedWith 10) false) = some p' ∧
      Shown steadyVocation p' ∧
      ∀ notGainMana, (loadPlayer steadyVocation (savePlayer p') notGainMana).skills = p'.skills := by
  let a : Action := .load (savedWith 10) false
  have hloaded : Reached steadyVocation truncating (loadPlayer steadyVocation (savedWith 10) false) :=
    .step (a := a) (.new false) trivial rfl
  have hle : (1 / 16 : ℚ) ≤ 1 := by norm_num
  refine ⟨_, rfl, shown_of_reached (.step (a := .die (1 / 16) hle) hloaded (fun skill => ?_) rfl)⟩
  refine ⟨11, 3, le_rfl, ?_, fun l' hl hl' => absurd hl' (Nat.not_le.2 hl), ?_⟩
  · rw [lostTries_novice]
    exact above_self
  · have hclamp : clamp 3 = 3 := clamp_of_lt (by decide)
    rw [hclamp]
    show getPercentLevel 3 (10 * 11) = getPercentLevel 3 (10 * 12)
    decide

/-- After a death 60 of 120 tries show 54 percent. -/
theorem death_shows_otherwise :
    ∃ p', death steadyVocation truncating 0 (loadPlayer steadyVocation (savedWith 60) false) = some p' ∧
      ¬ Shown steadyVocation p' := by
  refine ⟨_, rfl, fun hshown => ?_⟩
  have hfist := hshown .fist
  let req := steadyVocation.getReqSkillTries .fist
  let s := deathSkill truncating req 0 ⟨60, 11, 50⟩
  change s.percent = getPercentLevel s.tries (req (s.level + 1)) ∨
    req (s.level + 1) ≤ req s.level ∧ s.percent = 0 at hfist
  obtain ⟨-, u, -, hfalls, htries, hpercent⟩ := deathSkill_falls truncating (zero_le_one' ℚ) steadyVocation
    (loadPlayer steadyVocation (savedWith 60) false) .fist
  rw [lostTries_zero] at hfalls
  have hstop : Falls (reqTries steadyVocation .fist) 11 60 0 11 60 := .stop (Nat.zero_le _)
  obtain ⟨hlevel, hu⟩ := hfalls.unique hstop
  have hlevel : s.level = 11 := UInt16.toNat_inj.1 hlevel
  have hu : u = 60 := UInt64.toNat_inj.1 hu
  have hclamp : clamp 60 = 60 := clamp_of_lt (by decide)
  have htries : s.tries = 60 := by
    rw [← hclamp, ← hu]
    exact htries
  have hpercent : s.percent = getPercentLevel s.tries (req s.level) := hpercent
  rw [hpercent, htries, hlevel] at hfist
  revert hfist
  decide

end Advance
end ForgottenServer
