/-
# Level and experience

`Player::addExperience` and `Player::removeExperience` with
`Player::getExpForLevel` and `Player::getPercentLevel`, on the fixed-width
integers of the source. Scripts are inert: `eventPlayerOnGainExperience` and
`eventPlayerOnLoseExperience` leave the amount as it is.

`getExpForLevel` is exact while its triple fits in 64 bits, up to level
717217; the next value wraps, and `addExperience` takes a level whose
successor's value is not larger for the maximum level. Below it the two
loops stop at the same thresholds: after any history of calls the level is
the one the experience belongs to (`level_of_experience`).
-/
import ForgottenServer.Lib.Run
import Mathlib.Data.UInt
import Mathlib.Tactic.Ring
import Mathlib.Tactic.Linarith

namespace ForgottenServer
namespace Experience

open Run

/-! ### The model -/

/-- What `Vocation` grants per level, and its base speed. -/
structure Vocation where
  gainHP : UInt32
  gainMana : UInt32
  gainCap : UInt32
  baseSpeed : UInt32

/-- The fields of `Player` that the level depends on or that depend on it.
`setMaxSpeed` is the group flag `PlayerFlag_SetMaxSpeed`. -/
structure Player where
  level : UInt32
  experience : UInt64
  levelPercent : UInt8
  health : Int32
  healthMax : Int32
  mana : UInt32
  manaMax : UInt32
  capacity : UInt32
  baseSpeed : UInt32
  setMaxSpeed : Bool
  deriving DecidableEq

/-- `Player::getExpForLevel`; `lv` is converted to `unsigned long long` in
each product. -/
def getExpForLevel (lv : Int32) : UInt64 :=
  let lv := (lv - 1).toInt64.toUInt64
  (50 * lv * lv * lv - 150 * lv * lv + 400 * lv) / 3

/-- The experience a level starts at, `getExpForLevel` as the handlers call it. -/
def expOf (level : UInt32) : UInt64 := getExpForLevel level.toInt32

/-- `Player::getPercentLevel` -/
def getPercentLevel (count nextLevelCount : UInt64) : UInt8 :=
  if nextLevelCount = 0 then 0
  else
    let result := (count * 100 / nextLevelCount).toUInt8
    if 100 < result then 0 else result

/-- `PLAYER_MAX_SPEED` -/
def playerMaxSpeed : UInt32 := 1500

/-- `Player::updateBaseSpeed` -/
def updateBaseSpeed (voc : Vocation) (p : Player) : Player :=
  { p with baseSpeed :=
      if p.setMaxSpeed then playerMaxSpeed else voc.baseSpeed + 2 * (p.level - 1) }

/-- The body of the loop of `addExperience`. -/
def levelUp (voc : Vocation) (p : Player) : Player :=
  { p with
    level := p.level + 1
    healthMax := p.healthMax + voc.gainHP.toInt32
    health := p.health + voc.gainHP.toInt32
    manaMax := p.manaMax + voc.gainMana
    mana := p.mana + voc.gainMana
    capacity := p.capacity + voc.gainCap }

/-- The loop of `addExperience`: the player, `currLevelExp` and
`nextLevelExp` after it. It ends because `nextLevelExp` grows in every
iteration that does not break. -/
def advance (voc : Vocation) (p : Player) (currLevelExp nextLevelExp : UInt64) :
    Player × UInt64 × UInt64 :=
  if nextLevelExp ≤ p.experience then
    let p' := levelUp voc p
    let next := expOf (p'.level + 1)
    if next ≤ nextLevelExp then (p', nextLevelExp, next)
    else advance voc p' nextLevelExp next
  else (p, currLevelExp, nextLevelExp)
termination_by 2 ^ 64 - nextLevelExp.toNat
decreasing_by
  rename_i h
  have h1 : nextLevelExp.toNat < (expOf ((levelUp voc p).level + 1)).toNat := by
    simpa [UInt64.le_iff_toNat_le] using h
  have h2 := (expOf ((levelUp voc p).level + 1)).toNat_lt
  omega

/-- `Player::addExperience` -/
def addExperience (voc : Vocation) (p : Player) (exp : UInt64) : Player :=
  let currLevelExp := expOf p.level
  let nextLevelExp := expOf (p.level + 1)
  if nextLevelExp ≤ currLevelExp then { p with levelPercent := 0 }
  else if exp = 0 then p
  else
    let (p', curr, next) :=
      advance voc { p with experience := p.experience + exp } currLevelExp nextLevelExp
    let p' := if p.level ≠ p'.level then updateBaseSpeed voc p' else p'
    { p' with levelPercent :=
        if curr < next then getPercentLevel (p'.experience - curr) (next - curr) else 0 }

/-- `std::max<int32_t>(0, x)` -/
def maxZero (x : Int32) : Int32 := if 0 < x then x else 0

/-- The body of the loop of `removeExperience`. -/
def levelDown (voc : Vocation) (p : Player) : Player :=
  { p with
    level := p.level - 1
    healthMax := maxZero (p.healthMax - voc.gainHP.toInt32)
    manaMax := (maxZero (p.manaMax - voc.gainMana).toInt32).toUInt32
    capacity := (maxZero (p.capacity - voc.gainCap).toInt32).toUInt32 }

/-- The loop of `removeExperience`. -/
def downgrade (voc : Vocation) (p : Player) : Player :=
  if 1 < p.level ∧ p.experience < expOf p.level then downgrade voc (levelDown voc p) else p
termination_by p.level.toNat
decreasing_by
  rename_i h
  have h1 : 1 < p.level.toNat := by simpa [UInt32.lt_iff_toNat_lt] using h.1
  have h2 : (p.level - 1).toNat = p.level.toNat - 1 := by
    rw [UInt32.toNat_sub_of_le _ _ (by rw [UInt32.le_iff_toNat_le]; simpa using h1.le)]; rfl
  simp only [levelDown, h2]
  omega

/-- `Player::removeExperience` -/
def removeExperience (voc : Vocation) (p : Player) (exp : UInt64) : Player :=
  if p.experience = 0 ∨ exp = 0 then p
  else
    -- the difference wraps before the comparison with 0 reads it as signed
    let d := (p.experience - exp).toInt64
    let p1 := { p with experience := if 0 < d then d.toUInt64 else 0 }
    let p2 := downgrade voc p1
    let p3 := if p.level ≠ p2.level then
        updateBaseSpeed voc { p2 with health := p2.healthMax, mana := p2.manaMax }
      else p2
    let curr := expOf p3.level
    let next := expOf (p3.level + 1)
    { p3 with levelPercent :=
        if curr < next then getPercentLevel (p3.experience - curr) (next - curr) else 0 }

/-! ### The thresholds -/

/-- Three times the experience that level `m + 1` starts at. -/
def triple (m : ℕ) : ℕ := 50 * m ^ 3 + 400 * m - 150 * m ^ 2

/-- The experience that level `n` starts at, as a number. -/
def expAt (n : ℕ) : ℕ := triple (n - 1) / 3

/-- The maximum level: the last one whose `getExpForLevel` is exact. -/
def maxLevel : ℕ := 717217

theorem triple_add (m : ℕ) : triple m + 150 * m ^ 2 = 50 * m ^ 3 + 400 * m := by
  have h : 150 * m ^ 2 ≤ 50 * m ^ 3 + 400 * m := by
    have h1 : 3 * m ≤ m ^ 2 + 8 := by nlinarith [sq_nonneg ((m : ℤ) - 2)]
    calc 150 * m ^ 2 = 50 * m * (3 * m) := by ring
      _ ≤ 50 * m * (m ^ 2 + 8) := Nat.mul_le_mul_left _ h1
      _ = 50 * m ^ 3 + 400 * m := by ring
  unfold triple
  omega

theorem triple_succ (m : ℕ) : triple m + 300 ≤ triple (m + 1) := by
  have h1 := triple_add m
  have h2 := triple_add (m + 1)
  have h3 : m ≤ m ^ 2 := Nat.le_self_pow (by norm_num) m
  have h4 : 50 * (m + 1) ^ 3 + 400 * (m + 1) + 150 * m ^ 2 + 150 * m =
      50 * m ^ 3 + 400 * m + 150 * (m + 1) ^ 2 + 150 * m ^ 2 + 300 := by ring
  omega

theorem triple_mono {m n : ℕ} (h : m ≤ n) : triple m ≤ triple n := by
  induction h with
  | refl => exact le_rfl
  | @step k _ ih => exact ih.trans ((Nat.le_add_right _ _).trans (triple_succ k))

theorem expAt_succ {n : ℕ} (h : 1 ≤ n) : expAt n + 100 ≤ expAt (n + 1) := by
  obtain ⟨m, rfl⟩ : ∃ m, n = m + 1 := ⟨n - 1, by omega⟩
  have := triple_succ m
  simp only [expAt, Nat.add_sub_cancel]
  omega

theorem expAt_mono {m n : ℕ} (h : m ≤ n) : expAt m ≤ expAt n :=
  Nat.div_le_div_right (triple_mono (Nat.sub_le_sub_right h 1))

/-- No level below the maximum is long enough for a percentage to wrap. -/
theorem expAt_gap {n : ℕ} (h : n < maxLevel) : (expAt (n + 1) - expAt n) * 100 < 2 ^ 64 := by
  have h1 : expAt (n + 1) ≤ expAt n + 30 * 10 ^ 12 := by
    rcases n with _ | m
    · decide
    have h2 := triple_add m
    have h3 := triple_add (m + 1)
    have h4 : 50 * (m + 1) ^ 3 + 400 * (m + 1) + 150 * m ^ 2 + 150 * m =
      50 * m ^ 3 + 400 * m + 150 * (m + 1) ^ 2 + 150 * m ^ 2 + 300 := by ring
    have h5 : m ^ 2 ≤ 717217 ^ 2 := Nat.pow_le_pow_left (by unfold maxLevel at h; omega) 2
    simp only [expAt, Nat.add_sub_cancel]
    omega
  omega

/-- The wrapped product is the exact one. -/
theorem cubic_ofNat (m : ℕ) (h : triple m < 2 ^ 64) :
    (50 * UInt64.ofNat m * UInt64.ofNat m * UInt64.ofNat m - 150 * UInt64.ofNat m * UInt64.ofNat m +
      400 * UInt64.ofNat m).toNat = triple m := by
  have h1 : UInt64.ofNat (triple m + 150 * m ^ 2) = UInt64.ofNat (50 * m ^ 3 + 400 * m) := by
    rw [triple_add]
  simp only [pow_succ, pow_zero, one_mul, UInt64.ofNat_add, UInt64.ofNat_mul] at h1
  have h2 : 50 * UInt64.ofNat m * UInt64.ofNat m * UInt64.ofNat m -
      150 * UInt64.ofNat m * UInt64.ofNat m + 400 * UInt64.ofNat m = UInt64.ofNat (triple m) := by
    grind
  rw [h2, UInt64.toNat_ofNat_of_lt' h]

theorem triple_lt {n : ℕ} (h : n ≤ maxLevel) : triple (n - 1) < 2 ^ 64 :=
  calc triple (n - 1) ≤ triple 717216 := triple_mono (by unfold maxLevel at h; omega)
    _ < 2 ^ 64 := by decide

/-- The conversions of the argument of `getExpForLevel`. -/
theorem toUInt64_level (n : UInt32) (h1 : 1 ≤ n.toNat) (h : n.toNat ≤ maxLevel) :
    (n.toInt32 - 1).toInt64.toUInt64 = UInt64.ofNat (n.toNat - 1) := by
  have h2 : (n.toBitVec - 1#32).toNat = n.toNat - 1 := by
    have := n.toNat_toBitVec
    unfold maxLevel at h
    bv_omega
  have hm : (n.toBitVec - 1#32).msb = false := by
    rw [BitVec.msb_eq_false_iff_two_mul_lt, h2]
    unfold maxLevel at h
    omega
  apply UInt64.toBitVec_inj.mp
  apply BitVec.toNat_inj.mp
  simp only [Int64.toBitVec_toUInt64, Int32.toBitVec_toInt64, Int32.toBitVec_sub,
    UInt32.toBitVec_toInt32, Int32.toBitVec_one]
  rw [BitVec.signExtend_eq_setWidth_of_msb_false hm, BitVec.toNat_setWidth, h2]
  simp

/-- Up to the maximum level `getExpForLevel` is exact. -/
theorem expOf_toNat (n : UInt32) (h1 : 1 ≤ n.toNat) (h : n.toNat ≤ maxLevel) :
    (expOf n).toNat = expAt n.toNat := by
  unfold expOf getExpForLevel
  simp only [toUInt64_level n h1 h]
  rw [UInt64.toNat_div, cubic_ofNat _ (triple_lt h)]
  rfl

theorem succ_toNat {n : UInt32} (h : n.toNat < maxLevel) : (n + 1).toNat = n.toNat + 1 := by
  unfold maxLevel at h
  rw [UInt32.toNat_add]
  exact Nat.mod_eq_of_lt (by simp; omega)

theorem expOf_succ_toNat {n : UInt32} (h : n.toNat < maxLevel) :
    (expOf (n + 1)).toNat = expAt (n.toNat + 1) := by
  rw [expOf_toNat _ (by rw [succ_toNat h]; omega) (by rw [succ_toNat h]; exact h), succ_toNat h]

/-- Below the maximum level the thresholds grow. -/
theorem expOf_lt_succ {n : UInt32} (h1 : 1 ≤ n.toNat) (h : n.toNat < maxLevel) :
    expOf n < expOf (n + 1) := by
  rw [UInt64.lt_iff_toNat_lt, expOf_toNat n h1 h.le, expOf_succ_toNat h]
  have := expAt_succ h1
  omega

/-! ### What the level determines -/

/-- The level is the one the experience belongs to. -/
def Good (p : Player) : Prop :=
  expOf p.level ≤ p.experience ∧ p.experience < expOf (p.level + 1)

instance : DecidablePred Good := fun p => by unfold Good; infer_instance

/-- `levelPercent` is the part of the level that is done. -/
def PercentOK (p : Player) : Prop :=
  p.levelPercent.toNat = 100 * (p.experience.toNat - (expOf p.level).toNat) /
    ((expOf (p.level + 1)).toNat - (expOf p.level).toNat)

/-- The three maxima of `p'` are those of `p` plus the gain for the difference
of the levels, in 32-bit arithmetic. -/
def Grown (voc : Vocation) (p p' : Player) : Prop :=
  p'.healthMax = p.healthMax + (p'.level - p.level).toInt32 * voc.gainHP.toInt32 ∧
  p'.manaMax = p.manaMax + (p'.level - p.level) * voc.gainMana ∧
  p'.capacity = p.capacity + (p'.level - p.level) * voc.gainCap

theorem Grown.refl (voc : Vocation) (p : Player) : Grown voc p p := by
  simp [Grown]

theorem Grown.trans {voc : Vocation} {p q r : Player} (h1 : Grown voc p q) (h2 : Grown voc q r) :
    Grown voc p r := by
  obtain ⟨a1, b1, c1⟩ := h1
  obtain ⟨a2, b2, c2⟩ := h2
  refine ⟨?_, ?_, ?_⟩
  · rw [a2, a1]; simp only [UInt32.toInt32_sub]; grind
  · rw [b2, b1]; grind
  · rw [c2, c1]; grind

theorem grown_levelUp (voc : Vocation) (p : Player) : Grown voc p (levelUp voc p) := by
  refine ⟨?_, ?_, ?_⟩
  · simp only [levelUp, UInt32.toInt32_sub, UInt32.toInt32_add]
    have : (1 : UInt32).toInt32 = 1 := rfl
    rw [this]; grind
  · simp only [levelUp]; grind
  · simp only [levelUp]; grind

/-- Fields other than the level and the maxima do not matter. -/
theorem Grown.congr {voc : Vocation} {p q : Player} {p' q' : Player} (h : Grown voc p q)
    (hp : (p'.level, p'.healthMax, p'.manaMax, p'.capacity) =
      (p.level, p.healthMax, p.manaMax, p.capacity))
    (hq : (q'.level, q'.healthMax, q'.manaMax, q'.capacity) =
      (q.level, q.healthMax, q.manaMax, q.capacity)) : Grown voc p' q' := by
  simp only [Prod.mk.injEq] at hp hq
  obtain ⟨p1, p2, p3, p4⟩ := hp
  obtain ⟨q1, q2, q3, q4⟩ := hq
  simpa only [Grown, p1, p2, p3, p4, q1, q2, q3, q4] using h

theorem getPercentLevel_toNat {count next : UInt64} (h : count < next)
    (hn : next.toNat * 100 < 2 ^ 64) :
    (getPercentLevel count next).toNat = 100 * count.toNat / next.toNat := by
  rw [UInt64.lt_iff_toNat_lt] at h
  have h0 : next ≠ 0 := fun h0 => by subst h0; simp at h
  have hm : (count * 100).toNat = count.toNat * 100 := by
    rw [UInt64.toNat_mul]
    exact Nat.mod_eq_of_lt (by simp only [UInt64.reduceToNat]; omega)
  have hq : count.toNat * 100 / next.toNat < 100 := by
    rw [Nat.div_lt_iff_lt_mul (by omega)]; omega
  have hr : (count * 100 / next).toUInt8.toNat = count.toNat * 100 / next.toNat := by
    rw [UInt64.toNat_toUInt8, UInt64.toNat_div, hm]
    exact Nat.mod_eq_of_lt (by omega)
  have hle : ¬ 100 < (count * 100 / next).toUInt8 := by
    rw [UInt8.lt_iff_toNat_lt, hr]; simp only [UInt8.reduceToNat]; omega
  simp only [getPercentLevel, if_neg h0, if_neg hle, hr, Nat.mul_comm]

/-- What both handlers do with `levelPercent` in the end. -/
theorem percentOK_of {p : Player} (h1 : 1 ≤ p.level.toNat) (h : p.level.toNat < maxLevel)
    (hg : Good p) (x : UInt8) (hx : x = if expOf p.level < expOf (p.level + 1) then
      getPercentLevel (p.experience - expOf p.level) (expOf (p.level + 1) - expOf p.level) else 0) :
    PercentOK { p with levelPercent := x } := by
  have hlt := expOf_lt_succ h1 h
  have hd : (expOf (p.level + 1) - expOf p.level).toNat =
      (expOf (p.level + 1)).toNat - (expOf p.level).toNat := UInt64.toNat_sub_of_le _ _ (UInt64.le_of_lt hlt)
  have hc : (p.experience - expOf p.level).toNat = p.experience.toNat - (expOf p.level).toNat :=
    UInt64.toNat_sub_of_le _ _ hg.1
  have h2 := UInt64.lt_iff_toNat_lt.mp hg.2
  have h3 := UInt64.le_iff_toNat_le.mp hg.1
  have hgap := expAt_gap h
  rw [if_pos hlt] at hx
  simp only [PercentOK, hx]
  rw [getPercentLevel_toNat, hc, hd]
  · rw [UInt64.lt_iff_toNat_lt, hc, hd]; omega
  · rw [hd, expOf_succ_toNat h, expOf_toNat _ h1 h.le]; exact hgap

/-! ### The loops -/

/-- The level an experience below the start of the maximum level reaches. -/
theorem level_lt_of_le {n : UInt32} (h : n.toNat < maxLevel) {e : UInt64}
    (he : e.toNat < expAt maxLevel) (hle : expOf (n + 1) ≤ e) : n.toNat + 1 < maxLevel := by
  rw [UInt64.le_iff_toNat_le, expOf_succ_toNat h] at hle
  by_contra hc
  have := expAt_mono (show maxLevel ≤ n.toNat + 1 by omega)
  omega

/-- The loop of `addExperience` stops at the level of the experience. -/
theorem advance_spec (voc : Vocation) (p : Player) (c n : UInt64) (hc : c = expOf p.level)
    (hn : n = expOf (p.level + 1)) (hce : c ≤ p.experience) (h1 : 1 ≤ p.level.toNat)
    (h : p.level.toNat < maxLevel) (he : p.experience.toNat < expAt maxLevel) :
    (advance voc p c n).1.experience = p.experience ∧
    1 ≤ (advance voc p c n).1.level.toNat ∧ (advance voc p c n).1.level.toNat < maxLevel ∧
    (advance voc p c n).2.1 = expOf (advance voc p c n).1.level ∧
    (advance voc p c n).2.2 = expOf ((advance voc p c n).1.level + 1) ∧
    Good (advance voc p c n).1 ∧ Grown voc p (advance voc p c n).1 := by
  fun_induction advance voc p c n with
  | case1 p c n hle p' next hbreak =>
    -- the next threshold is larger, so the loop does not break
    subst hn
    have hl : p'.level = p.level + 1 := rfl
    have hlt := level_lt_of_le h he hle
    have h2 := expOf_lt_succ (n := p'.level) (by rw [hl, succ_toNat h]; omega)
      (by rw [hl, succ_toNat h]; exact hlt)
    rw [UInt64.lt_iff_toNat_lt] at h2
    rw [UInt64.le_iff_toNat_le] at hbreak
    exact absurd h2 (not_lt.mpr hbreak)
  | case2 p c n hle p' next hbreak ih =>
    subst hn
    have hl : p'.level = p.level + 1 := rfl
    have hlt := level_lt_of_le h he hle
    obtain ⟨i1, i2, i3, i4, i5, i6, i7⟩ := ih rfl rfl hle (by rw [hl, succ_toNat h]; omega)
      (by rw [hl, succ_toNat h]; exact hlt) he
    exact ⟨i1, i2, i3, i4, i5, i6, (grown_levelUp voc p).trans i7⟩
  | case3 p c n hlt =>
    subst hc hn
    exact ⟨rfl, h1, h, rfl, rfl, ⟨hce, UInt64.not_le.mp hlt⟩, Grown.refl voc p⟩

/-- None of the maxima is clamped at zero when one level is lost. -/
def Unclamped (voc : Vocation) (p : Player) : Prop :=
  0 ≤ p.healthMax - voc.gainHP.toInt32 ∧ 0 ≤ (p.manaMax - voc.gainMana).toInt32 ∧
    0 ≤ (p.capacity - voc.gainCap).toInt32

/-- None of the maxima is clamped at zero on the way from `p` down to the level
of `p'`: each is still non-negative with the gain for every level lost taken
off. -/
def NoClamp (voc : Vocation) (p p' : Player) : Prop :=
  ∀ j : ℕ, p'.level.toNat + j < p.level.toNat → Unclamped voc { p with
    healthMax := p.healthMax - (UInt32.ofNat j).toInt32 * voc.gainHP.toInt32
    manaMax := p.manaMax - UInt32.ofNat j * voc.gainMana
    capacity := p.capacity - UInt32.ofNat j * voc.gainCap }

theorem maxZero_eq {x : Int32} (h : 0 ≤ x) : maxZero x = x := by
  unfold maxZero
  split
  · rfl
  · rename_i hx
    exact Int32.le_antisymm h (Int32.not_lt.mp hx)

/-- A lost level that is not clamped. -/
theorem levelDown_eq {voc : Vocation} {p : Player} (h : Unclamped voc p) :
    levelDown voc p = { p with
      level := p.level - 1
      healthMax := p.healthMax - voc.gainHP.toInt32
      manaMax := p.manaMax - voc.gainMana
      capacity := p.capacity - voc.gainCap } := by
  obtain ⟨h1, h2, h3⟩ := h
  simp only [levelDown, maxZero_eq h1, maxZero_eq h2, maxZero_eq h3]
  rfl

theorem grown_levelDown {voc : Vocation} {p : Player} (h : Unclamped voc p) :
    Grown voc p (levelDown voc p) := by
  rw [levelDown_eq h]
  refine ⟨?_, ?_, ?_⟩
  · simp only [UInt32.toInt32_sub]
    have : (1 : UInt32).toInt32 = 1 := rfl
    rw [this]; grind
  · simp only; grind
  · simp only; grind

theorem pred_toNat {n : UInt32} (h : 1 < n) : (n - 1).toNat = n.toNat - 1 := by
  have h1 : 1 < n.toNat := by simpa [UInt32.lt_iff_toNat_lt] using h
  rw [UInt32.toNat_sub_of_le _ _ (by rw [UInt32.le_iff_toNat_le]; simpa using h1.le)]; rfl

/-- The loop of `removeExperience` does not raise the level. -/
theorem downgrade_level_le (voc : Vocation) (p : Player) :
    (downgrade voc p).level.toNat ≤ p.level.toNat := by
  fun_induction downgrade voc p with
  | case1 p h ih =>
    have : (levelDown voc p).level.toNat = p.level.toNat - 1 := pred_toNat h.1
    omega
  | case2 p h => exact le_rfl

/-- It stops at the level of the experience. -/
theorem downgrade_good (voc : Vocation) (p : Player) (h1 : 1 ≤ p.level.toNat)
    (h : p.level.toNat < maxLevel) (he : p.experience < expOf (p.level + 1)) :
    (downgrade voc p).experience = p.experience ∧ 1 ≤ (downgrade voc p).level.toNat ∧
      (downgrade voc p).level.toNat < maxLevel ∧ Good (downgrade voc p) := by
  fun_induction downgrade voc p with
  | case1 p hc ih =>
    have hl : (levelDown voc p).level.toNat = p.level.toNat - 1 := pred_toNat hc.1
    have h2 : 1 < p.level.toNat := by simpa [UInt32.lt_iff_toNat_lt] using hc.1
    have hs : (levelDown voc p).level + 1 = p.level := by
      change p.level - 1 + 1 = p.level
      grind
    refine ih (by omega) (by omega) ?_
    rw [hs]; exact hc.2
  | case2 p hc =>
    refine ⟨rfl, h1, h, ?_, he⟩
    by_contra hlt
    have h2 : ¬ 1 < p.level := fun h2 => hc ⟨h2, UInt64.not_le.mp hlt⟩
    -- level 1 starts at 0
    have h3 : p.level = 1 := by
      rw [UInt32.lt_iff_toNat_lt] at h2
      apply UInt32.toNat_inj.mp
      simp only [UInt32.reduceToNat] at h2 ⊢
      omega
    apply hlt
    rw [h3, show expOf 1 = 0 by decide, UInt64.le_iff_toNat_le]
    exact Nat.zero_le _

theorem NoClamp.step {voc : Vocation} {p p' : Player} (h : NoClamp voc p p') (hp : 1 < p.level)
    (hl : p'.level.toNat < p.level.toNat) :
    Unclamped voc p ∧ NoClamp voc (levelDown voc p) p' := by
  have h0 : Unclamped voc p := by simpa [Unclamped] using h 0 (by simpa using hl)
  refine ⟨h0, fun j hj => ?_⟩
  have hd : (levelDown voc p).level.toNat = p.level.toNat - 1 := pred_toNat hp
  have := h (j + 1) (by omega)
  rw [levelDown_eq h0]
  simp only [Unclamped, UInt32.ofNat_add, UInt32.toInt32_add] at this ⊢
  have h1 : (UInt32.ofNat 1).toInt32 = 1 := rfl
  have h2 : UInt32.ofNat 1 = 1 := rfl
  rw [h1, h2] at this
  have e1 : ∀ x g i : Int32, x - (i + 1) * g - g = x - g - i * g - g := by intros; grind
  have e2 : ∀ x g i : UInt32, x - (i + 1) * g - g = x - g - i * g - g := by intros; grind
  rwa [e1, e2, e2] at this

/-- Unless it clamps, the loop of `removeExperience` takes off what the levels
brought. -/
theorem downgrade_grown (voc : Vocation) (p : Player) (hn : NoClamp voc p (downgrade voc p)) :
    Grown voc p (downgrade voc p) := by
  fun_induction downgrade voc p with
  | case1 p hc ih =>
    have hl : (levelDown voc p).level.toNat = p.level.toNat - 1 := pred_toNat hc.1
    have h2 : 1 < p.level.toNat := by simpa [UInt32.lt_iff_toNat_lt] using hc.1
    have h3 := downgrade_level_le voc (levelDown voc p)
    obtain ⟨h4, h5⟩ := hn.step hc.1 (by omega)
    exact (grown_levelDown h4).trans (ih h5)
  | case2 p hc => exact Grown.refl voc p

/-! ### The handlers -/

/-- The clamp of `removeExperience` is the truncated difference, if the amount
is at most `2 ^ 63`. -/
theorem clamp_toNat {e x : UInt64} (he : e.toNat < 2 ^ 63) (hx : x.toNat ≤ 2 ^ 63) :
    (if 0 < (e - x).toInt64 then (e - x).toInt64.toUInt64 else 0).toNat = e.toNat - x.toNat := by
  have hd : (e - x).toNat = (2 ^ 64 - x.toNat + e.toNat) % 2 ^ 64 := UInt64.toNat_sub e x
  have hi : (e - x).toInt64.toInt = if 2 * (e - x).toNat < 2 ^ 64 then ((e - x).toNat : ℤ)
      else ((e - x).toNat : ℤ) - (2 ^ 64 : ℕ) := by
    rw [← Int64.toInt_toBitVec, UInt64.toBitVec_toInt64, BitVec.toInt_eq_toNat_cond,
      UInt64.toNat_toBitVec]
  have h64 := x.toNat_lt
  by_cases hpos : 0 < (e - x).toInt64
  · rw [if_pos hpos]
    have h1 : (0 : ℤ) < (e - x).toInt64.toInt := by simpa [Int64.lt_iff_toInt_lt] using hpos
    have h2 : (e - x).toInt64.toUInt64 = e - x := by simp
    rw [h2]
    rw [hi] at h1
    split at h1 <;> omega
  · rw [if_neg hpos]
    have h1 : (e - x).toInt64.toInt ≤ 0 := by
      have : ¬ (0 : ℤ) < (e - x).toInt64.toInt := by simpa [Int64.lt_iff_toInt_lt] using hpos
      omega
    rw [hi] at h1
    simp only [UInt64.reduceToNat]
    split at h1 <;> omega

/-- The level of a good state is at least 1. -/
theorem Good.level_pos {p : Player} (h : Good p) : 1 ≤ p.level.toNat := by
  by_contra hc
  have h0 : p.level = 0 := UInt32.toNat_inj.mp (by simp only [UInt32.reduceToNat]; omega)
  have := h.2
  rw [h0, show expOf (0 + 1) = 0 by decide, UInt64.lt_iff_toNat_lt] at this
  simp at this

theorem Good.experience_lt {p : Player} (h : Good p) (hl : p.level.toNat < maxLevel) :
    p.experience.toNat < expAt maxLevel := by
  have h1 := UInt64.lt_iff_toNat_lt.mp h.2
  rw [expOf_succ_toNat hl] at h1
  exact h1.trans_le (expAt_mono hl)

/-- The calls of the two handlers. -/
inductive Call
  | addExperience (exp : UInt64)
  | removeExperience (exp : UInt64)

def step (voc : Vocation) (p : Player) : Call → Player
  | .addExperience exp => addExperience voc p exp
  | .removeExperience exp => removeExperience voc p exp

/-- The amounts the law holds for: no gain reaches the start of the maximum
level, and no loss is above `2 ^ 63`. -/
def InRange (p : Player) : Call → Prop
  | .addExperience exp => p.experience.toNat + exp.toNat < expAt maxLevel
  | .removeExperience exp => exp.toNat ≤ 2 ^ 63

/-- A good state below the maximum level. -/
structure Below (p : Player) : Prop where
  good : Good p
  lt : p.level.toNat < maxLevel

/-- A gain leaves a good state below the maximum level, and either changes
nothing or sets the right `levelPercent`. -/
theorem addExperience_below (voc : Vocation) {p : Player} (hp : Below p) {exp : UInt64}
    (hr : InRange p (.addExperience exp)) :
    Below (addExperience voc p exp) ∧
      (addExperience voc p exp = p ∨ PercentOK (addExperience voc p exp)) ∧
      Grown voc p (addExperience voc p exp) := by
  obtain ⟨hg, hl⟩ := hp
  have h1 := hg.level_pos
  have hlt := expOf_lt_succ h1 hl
  by_cases h0 : exp = 0
  · have : addExperience voc p exp = p := by
      simp only [addExperience, if_neg (UInt64.not_le.mpr hlt), if_pos h0]
    rw [this]
    exact ⟨⟨hg, hl⟩, Or.inl rfl, Grown.refl voc p⟩
  have he : (p.experience + exp).toNat = p.experience.toNat + exp.toNat := by
    rw [UInt64.toNat_add]
    exact Nat.mod_eq_of_lt (hr.trans (by decide))
  obtain ⟨i1, i2, i3, i4, i5, i6, i7⟩ := advance_spec voc { p with experience := p.experience + exp }
    _ _ rfl rfl (by
      have := UInt64.le_iff_toNat_le.mp hg.1
      rw [UInt64.le_iff_toNat_le, he]; simp only; omega) h1 hl (by simp only [he]; exact hr)
  simp only [addExperience, if_neg (UInt64.not_le.mpr hlt), if_neg h0]
  generalize advance voc _ _ _ = r at *
  obtain ⟨q, c, n⟩ := r
  simp only at i1 i2 i3 i4 i5 i6 i7 ⊢
  subst i4 i5
  split
  · refine ⟨⟨i6, i3⟩, Or.inr ?_, i7.congr rfl rfl⟩
    exact percentOK_of (p := updateBaseSpeed voc q) i2 i3 i6 _ rfl
  · refine ⟨⟨i6, i3⟩, Or.inr ?_, i7.congr rfl rfl⟩
    exact percentOK_of i2 i3 i6 _ rfl

/-- So does a loss; the maxima follow the level unless one is clamped. -/
theorem removeExperience_below (voc : Vocation) {p : Player} (hp : Below p) {exp : UInt64}
    (hr : InRange p (.removeExperience exp)) :
    Below (removeExperience voc p exp) ∧
      (removeExperience voc p exp = p ∨ PercentOK (removeExperience voc p exp)) ∧
      (NoClamp voc p (removeExperience voc p exp) → Grown voc p (removeExperience voc p exp)) := by
  obtain ⟨hg, hl⟩ := hp
  by_cases h0 : p.experience = 0 ∨ exp = 0
  · have : removeExperience voc p exp = p := by simp only [removeExperience, if_pos h0]
    rw [this]
    exact ⟨⟨hg, hl⟩, Or.inl rfl, fun _ => Grown.refl voc p⟩
  have he := clamp_toNat (e := p.experience) (x := exp)
    ((hg.experience_lt hl).trans (by decide)) hr
  simp only [removeExperience, if_neg h0]
  set e' : UInt64 := if 0 < (p.experience - exp).toInt64 then (p.experience - exp).toInt64.toUInt64
    else 0 with he'
  obtain ⟨i1, i2, i3, i4⟩ := downgrade_good voc { p with experience := e' } hg.level_pos hl (by
    have := UInt64.lt_iff_toNat_lt.mp hg.2
    rw [UInt64.lt_iff_toNat_lt]; simp only; omega)
  have i5 := downgrade_grown voc { p with experience := e' }
  generalize downgrade voc _ = q at *
  simp only at i1 i2 i3 i4 i5 ⊢
  split
  · refine ⟨⟨i4, i3⟩, Or.inr ?_, fun hn => (i5 hn).congr rfl rfl⟩
    exact percentOK_of (p := updateBaseSpeed voc { q with health := q.healthMax, mana := q.manaMax })
      i2 i3 i4 _ rfl
  · refine ⟨⟨i4, i3⟩, Or.inr ?_, fun hn => (i5 hn).congr rfl rfl⟩
    exact percentOK_of i2 i3 i4 _ rfl

/-! ### The theorems -/

/-- **Level is a function of experience.** From a good state below the maximum
level, whatever amounts in range are gained and lost in whatever order, the
level is the one the experience belongs to, at least 1; `levelPercent` is the
done part of the level unless nothing has changed at all; and if no call
clamps a maximum at zero, the maxima are the initial ones plus the gain for
the difference of the levels. -/
theorem level_of_experience (voc : Vocation) (p : Player) (hp : Good p)
    (hl : p.level.toNat < maxLevel) (calls : List Call)
    (hr : Along (step voc) InRange p calls) :
    Good (run (step voc) p calls) ∧ 1 ≤ (run (step voc) p calls).level.toNat ∧
      (run (step voc) p calls = p ∨ PercentOK (run (step voc) p calls)) ∧
      (Along (step voc) (fun p c => NoClamp voc p (step voc p c)) p calls →
        Grown voc p (run (step voc) p calls)) := by
  -- one call, from a state with the property relative to the initial one
  have hstep : ∀ q c, Below q → InRange q c → Below (step voc q c) ∧
      (step voc q c = q ∨ PercentOK (step voc q c)) ∧
      (NoClamp voc q (step voc q c) → Grown voc q (step voc q c)) := by
    intro q c hq hc
    cases c with
    | addExperience exp =>
      obtain ⟨h1, h2, h3⟩ := addExperience_below voc hq hc
      exact ⟨h1, h2, fun _ => h3⟩
    | removeExperience exp => exact removeExperience_below voc hq hc
  induction calls generalizing p with
  | nil => exact ⟨hp, hp.level_pos, Or.inl rfl, fun _ => Grown.refl voc p⟩
  | cons c calls ih =>
    obtain ⟨h1, h2, h3⟩ := hstep p c ⟨hp, hl⟩ hr.1
    obtain ⟨i1, i2, i3, i4⟩ := ih (step voc p c) h1.good h1.lt hr.2
    refine ⟨i1, i2, ?_, fun hn => (h3 hn.1).trans (i4 hn.2)⟩
    rcases i3 with i3 | i3
    · rcases h2 with h2 | h2
      · exact Or.inl (i3.trans h2)
      · refine Or.inr ?_
        change PercentOK (run (step voc) (step voc p c) calls)
        rw [i3]; exact h2
    · exact Or.inr i3

/-- A player of level 2 with 150 points. -/
def novice : Player :=
  { level := 2, experience := 150, levelPercent := 50, health := 155, healthMax := 155, mana := 5,
    manaMax := 5, capacity := 41000, baseSpeed := 222, setMaxSpeed := false }

/-- `Vocation` with the gains 5, 5 and 1000. -/
def rookie : Vocation := ⟨5, 5, 1000, 220⟩

/-- He gains 20 points and loses 100. -/
theorem level_of_experience_novice :
    Good (run (step rookie) novice [.addExperience 20, .removeExperience 100]) := by
  have hr : Along (step rookie) InRange novice [.addExperience 20, .removeExperience 100] :=
    ⟨(by decide : 150 + 20 < expAt maxLevel), (by decide : 100 ≤ 2 ^ 63), trivial⟩
  exact (level_of_experience rookie novice (by decide) (by decide) _ hr).1

/-- **A gain that wraps.** Without a bound on the amounts the law fails: a gain
of `2 ^ 64 - 100` leaves 50 points at level 2. -/
theorem level_of_experience_fails : ¬ ∀ (voc : Vocation) (p : Player), Good p →
    ∀ calls : List Call,
      Along (step voc) (fun q c => (expOf ((step voc q c).level + 1)).toNat < 2 ^ 63 ∧
        ∀ exp, c = .removeExperience exp → exp.toNat ≤ 2 ^ 63) p calls →
      Good (run (step voc) p calls) := by
  intro h
  have h1 : (addExperience rookie novice (0 - 100)).level = 2 ∧
      (addExperience rookie novice (0 - 100)).experience = 50 := by
    rw [addExperience, advance]
    decide
  have h2 := h rookie novice (by decide) [.addExperience (0 - 100)]
  simp only [Along, run, step, Good, h1] at h2
  exact absurd (h2 ⟨⟨by decide, nofun⟩, trivial⟩) (by decide)

/-- **A gain that reaches the maximum level.** There the next threshold has
wrapped and lies below the experience. -/
theorem maxLevel_not_good :
    let p : Player := { novice with level := 717216, experience := getExpForLevel 717217 - 1 }
    Good p ∧ (addExperience rookie p 1).level = 717217 ∧ ¬ Good (addExperience rookie p 1) := by
  intro p
  have h1 : (addExperience rookie p 1).level = 717217 ∧
      (addExperience rookie p 1).experience = getExpForLevel 717217 := by
    rw [addExperience, advance]
    decide
  refine ⟨by decide, h1.1, fun hg => ?_⟩
  rw [Good, h1.1, h1.2] at hg
  exact absurd hg (by decide)

end Experience
end ForgottenServer
