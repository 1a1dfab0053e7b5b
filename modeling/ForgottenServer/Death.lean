/-
# What a death takes

A death takes a fraction of all the mana and of all the tries that went into
the levels. The loss is taken from what has been spent on the next level, then
from the level below, and so on down. For the skills it is counted in 32 bits,
and what is left is a signed number of 32 bits for a moment.

The fraction is any from 0 to 1. What is lost is a product of doubles, rounded down:
from 2^53 on it can be more than there is. What a conversion to 32 or 64 bits gives for a
greater number is not defined by the language: it is a parameter (`Conversion`).

Key definitions: `lostOf`, `death`, `magicTotal`, `skillTotal`, `LosesExactly`.
Key theorems: `lowerMana_falls`, `lowerSkill_falls`, `losesExactly_iff`.
-/
import ForgottenServer.Advance
import ForgottenServer.Item
import ForgottenServer.Lib.Rounding

namespace ForgottenServer
namespace Advance

open Thresholds Rounding

/-- `static_cast<uint32_t>` and `static_cast<uint64_t>` of a floating-point number, by
its integer part. -/
structure Conversion where
  toUInt32 : ℕ → UInt32
  toNat_toUInt32 : ∀ n < 2 ^ 32, (toUInt32 n).toNat = n
  toUInt64 : ℕ → UInt64
  toNat_toUInt64 : ∀ n < 2 ^ 64, (toUInt64 n).toNat = n

section Code

variable (voc : Vocation) (conv : Conversion)

/-- The `double` that is nearest to a number. -/
def double (x : ℚ) : ℚ := roundTo 53 (-1074) x

/-- A fraction of a sum: the product of doubles, rounded down. -/
def lostOf (fraction : ℚ) (sum : ℕ) : ℕ := ⌊double (double sum * fraction)⌋₊

/-- The sum of the requirements from a level to another. -/
def sumReq (req : ℕ → UInt64) (first last : ℕ) : UInt64 :=
  ((List.range' first (last + 1 - first)).map req).sum

/-- The loop over the magic level: the level, the mana spent and the mana that
is still lost. -/
def lowerMana (req : UInt32 → UInt64) (magLevel : UInt32) (manaSpent lostMana : UInt64) :
    UInt32 × UInt64 × UInt64 :=
  if manaSpent < lostMana ∧ 0 < magLevel then
    lowerMana req (magLevel - 1) (req magLevel) (lostMana - manaSpent)
  else (magLevel, manaSpent, lostMana)
termination_by magLevel.toNat
decreasing_by
  next h =>
    have hpos := UInt32.lt_iff_toNat_lt.1 h.2
    have hone : (1 : UInt32) ≤ magLevel := UInt32.le_iff_toNat_le.2 hpos
    rw [UInt32.toNat_sub_of_le _ _ hone]
    exact Nat.sub_lt hpos Nat.one_pos

/-- The loop over a skill. -/
def lowerSkill (req : UInt16 → UInt64) (level : UInt16) (tries : UInt64) (lostSkillTries : UInt32) :
    UInt16 × UInt64 × UInt32 :=
  if tries < lostSkillTries.toUInt64 then
    if level ≤ 10 then (10, 0, 0)
    else lowerSkill req (level - 1) (req level) (lostSkillTries.toUInt64 - tries).toUInt32
  else (level, tries, lostSkillTries)
termination_by level.toNat
decreasing_by
  rename_i hlevel
  have hpos := UInt16.lt_iff_toNat_lt.1 (UInt16.not_le.1 hlevel)
  have hone : (1 : UInt16) ≤ level := UInt16.le_iff_toNat_le.2 (Nat.one_le_of_lt hpos)
  rw [UInt16.toNat_sub_of_le _ _ hone]
  exact Nat.sub_lt (Nat.zero_lt_of_lt hpos) Nat.one_pos

/-- `std::max<int32_t>(0, n)` of an unsigned number of 64 bits -/
def clamp (n : UInt64) : UInt64 := .ofNat (max 0 (int32 n.toNat)).toNat

/-- What a death makes of a skill. -/
def deathSkill (req : UInt16 → UInt64) (fraction : ℚ) (s : Skill) : Skill :=
  let sumSkillTries := sumReq (fun c => req (.ofNat c)) 11 s.level.toNat + s.tries
  let lostSkillTries := conv.toUInt32 (lostOf fraction sumSkillTries.toNat)
  let (level, tries, lost) := lowerSkill req s.level s.tries lostSkillTries
  let tries := clamp (tries - lost.toUInt64)
  ⟨tries, level, getPercentLevel tries (req level)⟩

/-- What a death makes of the magic level. -/
def deathMagic (req : UInt32 → UInt64) (fraction : ℚ) (p : Player) : Player :=
  let sumMana := sumReq (fun i => req (.ofNat i)) 1 p.magLevel.toNat + p.manaSpent
  let lostMana := conv.toUInt64 (lostOf fraction sumMana.toNat)
  let (magLevel, manaSpent, lost) := lowerMana req p.magLevel p.manaSpent lostMana
  let manaSpent := manaSpent - lost
  let nextReqMana := req (magLevel + 1)
  { p with
    magLevel
    manaSpent
    magLevelPercent := if req magLevel < nextReqMana then getPercentLevel manaSpent nextReqMana else 0 }

/-- The losses in `Player::death`. The sums are made by loops that do not end at
the last number of their counter. -/
def death (fraction : ℚ) (p : Player) : Option Player :=
  if p.magLevel.toNat = 2 ^ 32 - 1 then none
  else if skillNames.any fun skill => (p.skills skill).level.toNat = 2 ^ 16 - 1 then none
  else
    some
      { deathMagic conv voc.getReqMana fraction p with
        skills := fun skill => deathSkill conv (voc.getReqSkillTries skill) fraction (p.skills skill) }

end Code

/-! ### The sums -/

section Sums

/-- The requirements as numbers. -/
def reqMana (voc : Vocation) (i : ℕ) : ℕ := (voc.getReqMana (.ofNat i)).toNat

def reqTries (voc : Vocation) (skill : SkillName) (c : ℕ) : ℕ := (voc.getReqSkillTries skill (.ofNat c)).toNat

/-- All the mana that has been spent on magic. -/
def magicTotal (voc : Vocation) (p : Player) : ℕ := above (reqMana voc) p.magLevel.toNat p.manaSpent.toNat 0

/-- All the tries that have been made in a skill above level 10. -/
def skillTotal (voc : Vocation) (p : Player) (skill : SkillName) : ℕ :=
  above (reqTries voc skill) (p.skills skill).level.toNat (p.skills skill).tries.toNat 10

theorem toNat_sum (l : List UInt64) : l.sum.toNat = (l.map UInt64.toNat).sum % 2 ^ 64 := by
  induction l with
  | nil => rfl
  | cons a l ih =>
    rw [List.sum_cons, List.map_cons, List.sum_cons, UInt64.toNat_add, ih, Nat.add_mod_mod]

theorem sum_range'_eq (f : ℕ → ℕ) (base : ℕ) : ∀ n : ℕ,
    ((List.range' (base + 1) n).map f).sum = ∑ c ∈ Finset.Ioc base (base + n), f c
  | 0 => by simp
  | n + 1 => by
    rw [List.range'_1_concat, List.map_append, List.sum_append, sum_range'_eq f base n, ← Nat.add_assoc,
      Finset.sum_Ioc_succ_top (Nat.le_add_right base n)]
    simp [Nat.add_right_comm]

/-- The sum of the code is the total, in 64 bits. -/
theorem toNat_sumReq (req : ℕ → UInt64) (spent : UInt64) {base level : ℕ} (h : base ≤ level) :
    (sumReq req (base + 1) level + spent).toNat =
      above (fun c => (req c).toNat) level spent.toNat base % 2 ^ 64 := by
  obtain ⟨n, rfl⟩ := Nat.exists_eq_add_of_le h
  have hlength : base + n + 1 - (base + 1) = n := by omega
  have hmap : ((List.range' (base + 1) n).map req).map UInt64.toNat =
      (List.range' (base + 1) n).map fun c => (req c).toNat := by
    rw [List.map_map]
    rfl
  unfold sumReq above
  rw [hlength, UInt64.toNat_add, toNat_sum, hmap, sum_range'_eq, Nat.mod_add_mod]

theorem double_natCast {n : ℕ} (h : n < 2 ^ 53) : double n = n := by
  unfold double
  simpa using roundTo_eq_self (K := ℚ) (e := 0) h (by decide : (-1074 : ℤ) ≤ 0)

theorem double_le {x : ℚ} {n : ℕ} (h : n < 2 ^ 53) (hx : x ≤ n) : double x ≤ n := by
  unfold double
  simpa using roundTo_le (e := 0) h (by decide : (-1074 : ℤ) ≤ 0) (by simpa using hx)

/-- Below 2^53 no more is lost than there is. -/
theorem lostOf_le {fraction : ℚ} (h1 : fraction ≤ 1) {sum : ℕ} (h : sum < 2 ^ 53) :
    lostOf fraction sum ≤ sum := by
  unfold lostOf
  rw [double_natCast h]
  have hle : (sum : ℚ) * fraction ≤ sum := mul_le_of_le_one_right (Nat.cast_nonneg _) h1
  exact Nat.floor_le_of_le (double_le h hle)

/-- From 2^53 on the sum itself is rounded, here to an even number. -/
example : lostOf 1 (2 ^ 53 + 3) = 2 ^ 53 + 4 := by decide +kernel

theorem lostOf_zero (sum : ℕ) : lostOf 0 sum = 0 := by
  have hzero : double 0 = 0 := double_natCast (n := 0) (by decide)
  unfold lostOf
  rw [mul_zero, hzero, Nat.floor_zero]

theorem Conversion.le (conv : Conversion) (n : ℕ) : (conv.toUInt32 n).toNat ≤ n := by
  rcases Nat.lt_or_ge n (2 ^ 32) with hlt | hge
  · exact (conv.toNat_toUInt32 n hlt).le
  · exact (conv.toUInt32 n).toNat_lt.le.trans hge

/-- In 32 bits no more is lost than there is, whatever there is. -/
theorem Conversion.lost_le (conv : Conversion) {fraction : ℚ} (h1 : fraction ≤ 1) (sum : ℕ) :
    (conv.toUInt32 (lostOf fraction sum)).toNat ≤ sum := by
  rcases Nat.lt_or_ge sum (2 ^ 53) with hlt | hge
  · exact (conv.le _).trans (lostOf_le h1 hlt)
  · have hsize := (conv.toUInt32 (lostOf fraction sum)).toNat_lt
    omega

theorem clamp_le (n : UInt64) : (clamp n).toNat ≤ n.toNat := by
  have hlt := n.toNat_lt
  unfold clamp int32
  rw [UInt64.toNat_ofNat']
  omega

end Sums

/-! ### The loops -/

section Loops

/-- The loop over magic takes the loss level by level; what is left of it is no
more than the mana spent. -/
theorem lowerMana_falls (req : UInt32 → UInt64) (level : UInt32) (spent lost : UInt64)
    (h : lost.toNat ≤ above (fun i => (req (.ofNat i)).toNat) level.toNat spent.toNat 0) :
    let c := lowerMana req level spent lost
    c.2.2 ≤ c.2.1 ∧ Falls (fun i => (req (.ofNat i)).toNat) level.toNat spent.toNat lost.toNat
      c.1.toNat (c.2.1.toNat - c.2.2.toNat) := by
  induction level, spent, lost using lowerMana.induct req with
  | case1 level spent lost hgo ih =>
    unfold lowerMana
    rw [if_pos hgo]
    have hlost := UInt64.lt_iff_toNat_lt.1 hgo.1
    obtain ⟨n, hn⟩ := Nat.exists_eq_succ_of_ne_zero (UInt32.lt_iff_toNat_lt.1 hgo.2).ne'
    have hone : (1 : UInt32) ≤ level := UInt32.le_iff_toNat_le.2 (hn ▸ Nat.succ_pos n)
    have hpred : (level - 1).toNat = n := by
      rw [UInt32.toNat_sub_of_le _ _ hone, hn]
      rfl
    have hreq : (req level).toNat = (fun i => (req (.ofNat i)).toNat) (n + 1) := by
      dsimp only
      rw [← Nat.succ_eq_add_one, ← hn, UInt32.ofNat_toNat]
    have hsub : (lost - spent).toNat = lost.toNat - spent.toNat :=
      UInt64.toNat_sub_of_le _ _ (UInt64.le_of_lt hgo.1)
    rw [hpred, hreq, hsub] at ih
    rw [hn] at h ⊢
    rw [Nat.succ_eq_add_one, above_succ n.zero_le] at h
    obtain ⟨hle, hfalls⟩ := ih (Nat.sub_le_iff_le_add.2 h)
    exact ⟨hle, .step hlost hfalls⟩
  | case2 level spent lost hstop =>
    unfold lowerMana
    rw [if_neg hstop]
    have hle : lost ≤ spent := by
      by_contra hlt
      have hzero : level = 0 := by
        by_contra hne
        exact hstop ⟨UInt64.not_le.1 hlt, UInt32.pos_iff_ne_zero.2 hne⟩
      subst hzero
      have h0 : (0 : UInt32).toNat = 0 := rfl
      rw [h0, above_self] at h
      exact hlt (UInt64.le_iff_toNat_le.2 h)
    exact ⟨hle, .stop (UInt64.le_iff_toNat_le.1 hle)⟩

/-- The loop over a skill likewise. Its branch for level 10 is never taken. -/
theorem lowerSkill_falls (req : UInt16 → UInt64) (level : UInt16) (tries : UInt64) (lost : UInt32) {base : ℕ}
    (hbase : base ≤ level.toNat) (hten : base = level.toNat ∨ 10 ≤ base)
    (h : lost.toNat ≤ above (fun c => (req (.ofNat c)).toNat) level.toNat tries.toNat base) :
    let c := lowerSkill req level tries lost
    c.2.2.toUInt64 ≤ c.2.1 ∧ Falls (fun c => (req (.ofNat c)).toNat) level.toNat tries.toNat lost.toNat
      c.1.toNat (c.2.1.toNat - c.2.2.toNat) := by
  induction level, tries, lost using lowerSkill.induct req with
  | case1 level tries lost hgo hlevel =>
    -- the loss would leave the base
    exfalso
    have hlost : tries.toNat < lost.toNat := by
      have hlt := UInt64.lt_iff_toNat_lt.1 hgo
      rwa [UInt32.toNat_toUInt64] at hlt
    have hle := UInt16.le_iff_toNat_le.1 hlevel
    have hbase : base = level.toNat := by
      have hten' : (10 : UInt16).toNat = 10 := rfl
      omega
    rw [hbase, above_self] at h
    omega
  | case2 level tries lost hgo hlevel ih =>
    unfold lowerSkill
    rw [if_pos hgo, if_neg hlevel]
    have hlost : tries.toNat < lost.toNat := by
      have hlt := UInt64.lt_iff_toNat_lt.1 hgo
      rwa [UInt32.toNat_toUInt64] at hlt
    have hne : base ≠ level.toNat := by
      rintro rfl
      rw [above_self] at h
      omega
    obtain ⟨n, hn⟩ : ∃ n, level.toNat = n + 1 := ⟨level.toNat - 1, by omega⟩
    have hone : (1 : UInt16) ≤ level := UInt16.le_iff_toNat_le.2 (hn ▸ Nat.succ_pos n)
    have hpred : (level - 1).toNat = n := by
      rw [UInt16.toNat_sub_of_le _ _ hone, hn]
      rfl
    have hreq : (req level).toNat = (fun c => (req (.ofNat c)).toNat) (n + 1) := by
      dsimp only
      rw [← hn, UInt16.ofNat_toNat]
    have hsub : (lost.toUInt64 - tries).toUInt32.toNat = lost.toNat - tries.toNat := by
      have hlt32 := lost.toNat_lt
      rw [UInt64.toNat_toUInt32, UInt64.toNat_sub_of_le _ _ (UInt64.le_of_lt hgo), UInt32.toNat_toUInt64]
      exact Nat.mod_eq_of_lt (by omega)
    rw [hpred, hreq, hsub] at ih
    rw [hn] at h ⊢
    have hbase' : base ≤ n := by omega
    rw [above_succ hbase'] at h
    obtain ⟨hle, hfalls⟩ := ih hbase' (by omega) (Nat.sub_le_iff_le_add.2 h)
    exact ⟨hle, .step hlost hfalls⟩
  | case3 level tries lost hstop =>
    unfold lowerSkill
    rw [if_neg hstop]
    have hle := UInt64.not_lt.1 hstop
    refine ⟨hle, .stop ?_⟩
    have hle := UInt64.le_iff_toNat_le.1 hle
    rwa [UInt32.toNat_toUInt64] at hle

end Loops

/-! ### What a death takes from a skill -/

section DeathSkill

variable {voc : Vocation} {conv : Conversion} {fraction : ℚ} {p p' : Player} {skill : SkillName}

/-- The tries that are lost, in the 32 bits of the code. -/
def lostTries (voc : Vocation) (conv : Conversion) (fraction : ℚ) (p : Player) (skill : SkillName) : ℕ :=
  let s := p.skills skill
  let sum := sumReq (fun c => voc.getReqSkillTries skill (.ofNat c)) 11 s.level.toNat + s.tries
  (conv.toUInt32 (lostOf fraction sum.toNat)).toNat

/-- The loop over the tries of a skill does not subtract more than there is. -/
def SkillFits (voc : Vocation) (conv : Conversion) (fraction : ℚ) (p : Player) (skill : SkillName) : Prop :=
  let s := p.skills skill
  let sum := sumReq (fun c => voc.getReqSkillTries skill (.ofNat c)) 11 s.level.toNat + s.tries
  let c := lowerSkill (voc.getReqSkillTries skill) s.level s.tries
    (conv.toUInt32 (lostOf fraction sum.toNat))
  c.2.2.toUInt64 ≤ c.2.1

variable (voc conv p skill) in
theorem lostTries_le (h1 : fraction ≤ 1) :
    lostTries voc conv fraction p skill ≤
      above (reqTries voc skill) (p.skills skill).level.toNat (p.skills skill).tries.toNat
        (min (p.skills skill).level.toNat 10) := by
  refine (conv.lost_le h1 _).trans ?_
  rcases Nat.lt_or_ge (p.skills skill).level.toNat 10 with hlt | hge
  · have hlength : (p.skills skill).level.toNat + 1 - 11 = 0 := by omega
    rw [Nat.min_eq_left hlt.le, above_self]
    unfold sumReq
    rw [hlength]
    exact (congrArg UInt64.toNat (UInt64.zero_add _)).le
  · rw [Nat.min_eq_right hge, toNat_sumReq _ _ hge]
    exact Nat.mod_le _ _

/-- A death takes the lost tries from the skill, and what the clamp takes. -/
theorem deathSkill_falls (conv : Conversion) (h1 : fraction ≤ 1) (voc : Vocation) (p : Player) (skill : SkillName) :
    let s := p.skills skill
    let s' := deathSkill conv (voc.getReqSkillTries skill) fraction s
    SkillFits voc conv fraction p skill ∧
    ∃ u : UInt64, min s.level.toNat 10 ≤ s'.level.toNat ∧
      Falls (reqTries voc skill) s.level.toNat s.tries.toNat (lostTries voc conv fraction p skill)
        s'.level.toNat u.toNat ∧
      s'.tries = clamp u ∧ s'.percent = getPercentLevel s'.tries (voc.getReqSkillTries skill s'.level) := by
  intro s s'
  have hle := lostTries_le voc conv p skill h1
  have hten : min s.level.toNat 10 = s.level.toNat ∨ 10 ≤ min s.level.toNat 10 := by omega
  obtain ⟨hfits, hfalls⟩ := lowerSkill_falls (voc.getReqSkillTries skill) s.level s.tries _
    (Nat.min_le_left _ _) hten hle
  refine ⟨hfits, _, ?_, ?_, rfl, rfl⟩
  · obtain ⟨l, u, hbase, hl⟩ := exists_falls (Nat.min_le_left _ _) hle
    exact (hl.unique hfalls).1 ▸ hbase
  · rw [UInt64.toNat_sub_of_le _ _ hfits, UInt32.toNat_toUInt64]
    exact hfalls

/-! ### Deaths that take exactly the loss -/

/-- A player as a death finds him: below the next requirement everywhere, no
skill below 10, and sums of 64 bits. -/
structure Ready (voc : Vocation) (p : Player) : Prop where
  mana : p.manaSpent < voc.getReqMana (p.magLevel + 1)
  level : ∀ skill, 10 ≤ (p.skills skill).level.toNat
  tries : ∀ skill, (p.skills skill).tries < voc.getReqSkillTries skill ((p.skills skill).level + 1)
  magicTotal : magicTotal voc p < 2 ^ 64
  skillTotal : ∀ skill, skillTotal voc p skill < 2 ^ 64

/-- The totals fall by the lost amounts, and no subtraction wraps. -/
structure LosesExactly (voc : Vocation) (conv : Conversion) (fraction : ℚ) (p p' : Player) : Prop where
  magic : magicTotal voc p' + lostOf fraction (magicTotal voc p) = magicTotal voc p
  mana : p'.manaSpent < voc.getReqMana (p'.magLevel + 1)
  skill : ∀ skill, skillTotal voc p' skill + lostOf fraction (skillTotal voc p skill) = skillTotal voc p skill
  magicFits :
    let sum := sumReq (fun i => voc.getReqMana (.ofNat i)) 1 p.magLevel.toNat + p.manaSpent
    let c := lowerMana voc.getReqMana p.magLevel p.manaSpent (conv.toUInt64 (lostOf fraction sum.toNat))
    c.2.2 ≤ c.2.1
  skillFits : ∀ skill, SkillFits voc conv fraction p skill

/-- The loss of a skill, in 32 bits and with what is left clamped, is the loss:
where it ends, at the highest level above whose base there is as much, the
clamp takes what the conversion has left out. -/
def Counts (conv : Conversion) (req : ℕ → ℕ) (level tries lost : ℕ) : Prop :=
  let lost' := (conv.toUInt32 lost).toNat
  ∃ l, ∃ u : UInt64, l ≤ level ∧ above req level tries l = u.toNat + lost' ∧
    (∀ l', l < l' → l' ≤ level → above req level tries l' < lost') ∧
    lost' + (u.toNat - (clamp u).toNat) = lost

theorem clamp_of_lt {n : UInt64} (h : n.toNat < 2 ^ 31) : clamp n = n := by
  unfold clamp int32
  rw [if_pos (by omega), Int.emod_eq_of_lt (by omega) (by omega), max_eq_right (by omega), Int.toNat_natCast,
    UInt64.ofNat_toNat]

/-- A loss of 32 bits that leaves less than 31 bits is exact. -/
theorem counts_of_lt {req : ℕ → ℕ} {level tries lost l u : ℕ} (hlost : lost < 2 ^ 32) (hu : u < 2 ^ 31)
    (hfalls : Falls req level tries lost l u) : Counts conv req level tries lost := by
  obtain ⟨hle, hsum, hhigher⟩ := falls_iff.1 hfalls
  have hu' : (UInt64.ofNat u).toNat = u := UInt64.toNat_ofNat_of_lt' (hu.trans (by decide))
  unfold Counts
  rw [conv.toNat_toUInt32 lost hlost]
  refine ⟨l, .ofNat u, hle, ?_, hhigher, ?_⟩
  · rw [hu', hsum]
  · rw [clamp_of_lt (by rwa [hu']), Nat.sub_self, Nat.add_zero]

theorem lostTries_eq (hready : Ready voc p) :
    lostTries voc conv fraction p skill =
      (conv.toUInt32 (lostOf fraction (skillTotal voc p skill))).toNat := by
  have hsum : (sumReq (fun c => voc.getReqSkillTries skill (.ofNat c)) 11 (p.skills skill).level.toNat +
      (p.skills skill).tries).toNat = skillTotal voc p skill := by
    rw [toNat_sumReq _ _ (hready.level skill)]
    exact Nat.mod_eq_of_lt (hready.skillTotal skill)
  unfold lostTries
  dsimp only
  rw [hsum]

variable (p' skill) in
/-- The total of a skill falls by the loss when the 32 bits do no harm. -/
theorem deathSkill_exact_iff (hready : Ready voc p) (h1 : fraction ≤ 1)
    (hp' : p'.skills skill = deathSkill conv (voc.getReqSkillTries skill) fraction (p.skills skill)) :
    skillTotal voc p' skill + lostOf fraction (skillTotal voc p skill) = skillTotal voc p skill ↔
      Counts conv (reqTries voc skill) (p.skills skill).level.toNat (p.skills skill).tries.toNat
        (lostOf fraction (skillTotal voc p skill)) := by
  obtain ⟨-, u, hbase, hfalls, htries, -⟩ := deathSkill_falls conv h1 voc p skill
  rw [Nat.min_eq_right (hready.level skill)] at hbase
  rw [← hp'] at hbase hfalls htries
  rw [lostTries_eq hready] at hfalls
  have htotal : skillTotal voc p' skill + u.toNat = above (reqTries voc skill) (p'.skills skill).level.toNat
      u.toNat 10 + (clamp u).toNat := by
    unfold skillTotal above
    rw [htries]
    omega
  have hsum := (hfalls.above_add hbase).2
  change _ = skillTotal voc p skill at hsum
  have hclamp := clamp_le u
  have hiff : skillTotal voc p' skill + lostOf fraction (skillTotal voc p skill) = skillTotal voc p skill ↔
      (conv.toUInt32 (lostOf fraction (skillTotal voc p skill))).toNat + (u.toNat - (clamp u).toNat) =
        lostOf fraction (skillTotal voc p skill) := by
    omega
  rw [hiff]
  constructor
  · intro h
    obtain ⟨hle, hl, hhigher⟩ := falls_iff.1 hfalls
    exact ⟨_, u, hle, hl, hhigher, h⟩
  · rintro ⟨l, u', hle, hl, hhigher, h⟩
    have hu : u = u' := UInt64.toNat_inj.1 (hfalls.unique (falls_iff.2 ⟨hle, hl, hhigher⟩)).2
    subst hu
    exact h

variable (conv p') in
/-- The magic level loses exactly what the code has computed, where that is no more than there is. -/
theorem deathMagic_exact (hready : Ready voc p)
    (hle : lostOf fraction (magicTotal voc p) ≤ magicTotal voc p)
    (hlevel : p'.magLevel = (deathMagic conv voc.getReqMana fraction p).magLevel)
    (hspent : p'.manaSpent = (deathMagic conv voc.getReqMana fraction p).manaSpent) :
    magicTotal voc p' + lostOf fraction (magicTotal voc p) = magicTotal voc p ∧
      p'.manaSpent < voc.getReqMana (p'.magLevel + 1) ∧
      let sum := sumReq (fun i => voc.getReqMana (.ofNat i)) 1 p.magLevel.toNat + p.manaSpent
      let c := lowerMana voc.getReqMana p.magLevel p.manaSpent (conv.toUInt64 (lostOf fraction sum.toNat))
      c.2.2 ≤ c.2.1 := by
  have hsum : (sumReq (fun i => voc.getReqMana (.ofNat i)) 1 p.magLevel.toNat + p.manaSpent).toNat =
      magicTotal voc p := by
    rw [toNat_sumReq _ _ p.magLevel.toNat.zero_le]
    exact Nat.mod_eq_of_lt hready.magicTotal
  have hlost : (conv.toUInt64 (lostOf fraction (magicTotal voc p))).toNat = lostOf fraction (magicTotal voc p) :=
    conv.toNat_toUInt64 _ (hle.trans_lt hready.magicTotal)
  obtain ⟨hfits, hfalls⟩ := lowerMana_falls voc.getReqMana p.magLevel p.manaSpent
    (conv.toUInt64 (lostOf fraction (magicTotal voc p))) (by rw [hlost]; exact hle)
  have hspent : p'.manaSpent.toNat =
      (lowerMana voc.getReqMana p.magLevel p.manaSpent
        (conv.toUInt64 (lostOf fraction (magicTotal voc p)))).2.1.toNat -
      (lowerMana voc.getReqMana p.magLevel p.manaSpent
        (conv.toUInt64 (lostOf fraction (magicTotal voc p)))).2.2.toNat := by
    rw [hspent, ← UInt64.toNat_sub_of_le _ _ hfits, ← hsum]
    rfl
  have hlevel : p'.magLevel = (lowerMana voc.getReqMana p.magLevel p.manaSpent
        (conv.toUInt64 (lostOf fraction (magicTotal voc p)))).1 := by
    rw [hlevel, ← hsum]
    rfl
  rw [hlost, ← hspent, ← hlevel] at hfalls
  refine ⟨(hfalls.above_add (Nat.zero_le _)).2, ?_, ?_⟩
  · rw [UInt64.lt_iff_toNat_lt]
    rcases Nat.lt_or_ge p'.magLevel.toNat p.magLevel.toNat with hlt | hge
    · have hrest := hfalls.rest_lt hlt
      have hsucc : p'.magLevel + 1 = .ofNat (p'.magLevel.toNat + 1) := by
        rw [UInt32.ofNat_add, UInt32.ofNat_toNat]
        rfl
      rw [hsucc]
      exact hrest
    · have he : p'.magLevel.toNat = p.magLevel.toNat := le_antisymm hfalls.le hge
      rw [he] at hfalls
      have hle := hfalls.rest_le
      have hmana := UInt64.lt_iff_toNat_lt.1 hready.mana
      rw [UInt32.toNat_inj.1 he]
      omega
  · dsimp only
    rw [hsum]
    exact hfits

/-- A death takes exactly the loss when its sums end, no more mana is lost than there is and, for
every skill, the 32 bits do no harm. -/
theorem losesExactly_iff (hready : Ready voc p) (h1 : fraction ≤ 1) :
    (∃ p', death voc conv fraction p = some p' ∧ LosesExactly voc conv fraction p p') ↔
      p.magLevel.toNat ≠ 2 ^ 32 - 1 ∧ lostOf fraction (magicTotal voc p) ≤ magicTotal voc p ∧
        ∀ skill, (p.skills skill).level.toNat ≠ 2 ^ 16 - 1 ∧
          Counts conv (reqTries voc skill) (p.skills skill).level.toNat (p.skills skill).tries.toNat
            (lostOf fraction (skillTotal voc p skill)) := by
  let p₁ : Player :=
    { deathMagic conv voc.getReqMana fraction p with
      skills := fun skill => deathSkill conv (voc.getReqSkillTries skill) fraction (p.skills skill) }
  have hskill (skill : SkillName) := deathSkill_exact_iff p₁ skill hready h1 rfl
  have hends : (skillNames.any fun skill => decide ((p.skills skill).level.toNat = 2 ^ 16 - 1)) = true ↔
      ∃ skill, (p.skills skill).level.toNat = 2 ^ 16 - 1 := by
    simp only [List.any_eq_true, decide_eq_true_eq, mem_skillNames, true_and]
  constructor
  · rintro ⟨p', hp', hexact⟩
    unfold death at hp'
    split at hp'
    · exact nomatch hp'
    next hmag =>
    split at hp'
    · exact nomatch hp'
    next hnone =>
    obtain rfl := Option.some.inj hp'
    have hmagic := hexact.magic
    refine ⟨hmag, by omega, fun skill => ⟨fun h => hnone (hends.2 ⟨skill, h⟩), ?_⟩⟩
    exact (hskill skill).1 (hexact.skill skill)
  · rintro ⟨hmag, hle, hall⟩
    obtain ⟨hmagic, hmana, hfits⟩ := deathMagic_exact conv p₁ hready hle rfl rfl
    refine ⟨p₁, ?_, hmagic, hmana, fun skill => (hskill skill).2 (hall skill).2, hfits, fun skill => ?_⟩
    · unfold death
      rw [if_neg hmag, if_neg fun h => ?_]
      obtain ⟨skill, h⟩ := hends.1 h
      exact (hall skill).1 h
    · exact (deathSkill_falls conv h1 voc p skill).1

/-! ### A squire and a veteran -/

/-- The conversion that cuts off the upper bits. -/
def truncating : Conversion where
  toUInt32 n := .ofNat n
  toNat_toUInt32 _ h := UInt32.toNat_ofNat_of_lt' h
  toUInt64 n := .ofNat n
  toNat_toUInt64 _ h := UInt64.toNat_ofNat_of_lt' h

def squire : Player := { skills := fun _ => { tries := 4 } }

theorem squire_ready : Ready shortVocation squire where
  mana := by decide
  level _ := le_rfl
  tries skill := by
    cases skill <;> decide
  magicTotal := by
    have htotal : magicTotal shortVocation squire = 0 := above_self
    rw [htotal]
    decide
  skillTotal skill := by
    have htotal : skillTotal shortVocation squire skill = 4 := above_self
    rw [htotal]
    decide

/-- Half of what he has: two tries. -/
theorem losesExactly_iff_squire :
    ∃ p', death shortVocation truncating (1 / 2) squire = some p' ∧
      LosesExactly shortVocation truncating (1 / 2) squire p' := by
  have hmana : magicTotal shortVocation squire = 0 := above_self
  refine (losesExactly_iff squire_ready (by norm_num)).2 ⟨by decide, ?_, fun skill => ⟨?_, ?_⟩⟩
  · rw [hmana]
    exact lostOf_le (by norm_num) (by decide)
  · show (10 : ℕ) ≠ 2 ^ 16 - 1
    decide
  · have htotal : skillTotal shortVocation squire skill = 4 := above_self
    have hlost : lostOf (1 / 2) 4 = 2 := by decide +kernel
    rw [htotal, hlost]
    have hfalls : Falls (reqTries shortVocation skill) 10 4 2 10 2 := .stop (by decide)
    exact counts_of_lt (by decide) (by decide) hfalls

/-- Each level takes as many tries. -/
def steepVocation : Vocation where
  getReqSkillTries _ _ := 2 ^ 32
  getReqMana _ := 400

def veteran : Player := { skills := fun _ => { tries := 2 ^ 31 } }

/-- He loses all tries of his skills, whatever the fraction: the clamp takes them. -/
theorem veteran_loses_all : Ready steepVocation veteran ∧ ∀ conv : Conversion,
    ¬ ∃ p', death steepVocation conv 0 veteran = some p' ∧ LosesExactly steepVocation conv 0 veteran p' := by
  have hready : Ready steepVocation veteran := by
    refine ⟨by decide, fun _ => le_rfl, fun skill => ?_, ?_, fun skill => ?_⟩
    · cases skill <;> decide
    · have htotal : magicTotal steepVocation veteran = 0 := above_self
      rw [htotal]
      decide
    · have htotal : skillTotal steepVocation veteran skill = 2 ^ 31 := above_self
      rw [htotal]
      decide
  refine ⟨hready, ?_⟩
  rintro conv ⟨p', hp', hexact⟩
  have hskill : p'.skills .fist =
      deathSkill conv (steepVocation.getReqSkillTries .fist) 0 (veteran.skills .fist) := by
    unfold death at hp'
    rw [if_neg (by decide), if_neg (by decide)] at hp'
    rw [← Option.some.inj hp']
  obtain ⟨l, u, hl, hsum, hhigher, hclamp⟩ :=
    (deathSkill_exact_iff p' .fist hready (by norm_num) hskill).1 (hexact.skill .fist)
  rw [lostOf_zero, conv.toNat_toUInt32 0 (by decide)] at hsum hhigher hclamp
  have hlevel : l = (veteran.skills .fist).level.toNat := by
    by_contra hne
    exact Nat.not_lt_zero _ (hhigher _ (lt_of_le_of_ne hl hne) le_rfl)
  subst hlevel
  rw [above_self] at hsum
  have hu : u = 2 ^ 31 := UInt64.toNat_inj.1 hsum.symm
  rw [hu] at hclamp
  exact absurd hclamp (by decide)

end DeathSkill

end Advance
end ForgottenServer
