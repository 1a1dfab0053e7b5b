/-
# The mana for a magic level

`Vocation::getReqMana` takes `400 * manaMultiplier ^ (magLevel - 1)` and rounds it in
twenties. A remainder below 10 is taken off. From 10 on the code takes off the remainder
and another 20, where the way up would have been 20 less the remainder. So the result can
fall from one level to the next, and below zero: it wraps for 10 to 19. The callers take a
player whose next requirement is not the larger one for one at the last level.

Powers are exact here, of a rational multiplier. The numbers are those of the code, with
`magLevel` cast to `int32_t` for the exponent.

Key definitions: `unrounded`, `reqMana64`, `ManaCache.getReqMana`, `GrowsAt`, `Apart`.
Key theorems: `toNat_roundMana`, `addManaSpent_ne`, `growsAt_iff`.
-/
import Mathlib.Tactic
import ForgottenServer.Death

namespace ForgottenServer
namespace Advance

open Thresholds

/-! ### The requirement -/

section Code

variable (manaMultiplier : ℚ)

/-- `static_cast<int32_t>(magLevel) - 1` -/
def manaExponent (magLevel : UInt32) : ℤ := int32 (int32 magLevel.toNat - 1)

/-- `400 * std::pow<double>(manaMultiplier, static_cast<int32_t>(magLevel) - 1)` -/
def unrounded (magLevel : UInt32) : ℚ := 400 * manaMultiplier ^ manaExponent magLevel

/-- The rounding: `reqMana -= modResult` or `reqMana -= modResult + 20`. -/
def roundMana (reqMana : UInt64) : UInt64 :=
  let modResult := (reqMana % 20).toUInt32
  if modResult < 10 then reqMana - modResult.toUInt64
  else reqMana - (modResult + 20).toUInt64

/-- What `Vocation::getReqMana` computes for a level that is not in the cache. -/
def reqMana64 (magLevel : UInt32) : UInt64 :=
  roundMana (.ofNat ⌊unrounded manaMultiplier magLevel⌋₊)

/-- `cacheMana`, which holds nothing but what has been computed. -/
structure ManaCache where
  find : UInt32 → Option UInt64
  valid : ∀ magLevel value, find magLevel = some value → value = reqMana64 manaMultiplier magLevel

variable {manaMultiplier}

def ManaCache.empty : ManaCache manaMultiplier := ⟨fun _ => none, nofun⟩

/-- `cacheMana[magLevel] = reqMana` -/
def ManaCache.insert (cache : ManaCache manaMultiplier) (magLevel : UInt32) : ManaCache manaMultiplier where
  find := Function.update cache.find magLevel (some (reqMana64 manaMultiplier magLevel))
  valid m value h := by
    rcases eq_or_ne m magLevel with rfl | hne
    · rw [Function.update_self] at h
      exact (Option.some.inj h).symm
    · rw [Function.update_of_ne hne] at h
      exact cache.valid m value h

/-- `Vocation::getReqMana` -/
def ManaCache.getReqMana (cache : ManaCache manaMultiplier) (magLevel : UInt32) :
    UInt64 × ManaCache manaMultiplier :=
  match cache.find magLevel with
  | some value => (value, cache)
  | none => (reqMana64 manaMultiplier magLevel, cache.insert magLevel)

/-- The cache does not show. -/
theorem ManaCache.getReqMana_fst (cache : ManaCache manaMultiplier) (magLevel : UInt32) :
    (cache.getReqMana magLevel).1 = reqMana64 manaMultiplier magLevel := by
  unfold ManaCache.getReqMana
  cases h : cache.find magLevel with
  | none => rfl
  | some value => exact cache.valid magLevel value h

/-- A vocation with this multiplier, whatever is in its cache. -/
def ManaCache.vocation (cache : ManaCache manaMultiplier)
    (getReqSkillTries : SkillName → UInt16 → UInt64) : Vocation where
  getReqSkillTries
  getReqMana magLevel := (cache.getReqMana magLevel).1

end Code

/-! ### Rounding -/

/-- The rounding in natural numbers. -/
theorem toNat_roundMana {n : ℕ} (h : n < 2 ^ 63) :
    (roundMana (.ofNat n)).toNat =
      if n % 20 < 10 then n - n % 20 else if n < 20 then 2 ^ 64 - 20 else n - n % 20 - 20 := by
  have hn : (UInt64.ofNat n).toNat = n := by
    rw [UInt64.toNat_ofNat']
    omega
  have hmod : ((UInt64.ofNat n) % 20).toNat = n % 20 := by
    rw [UInt64.toNat_mod, hn]
    rfl
  have hmod32 : ((UInt64.ofNat n) % 20).toUInt32.toNat = n % 20 := by
    rw [UInt64.toNat_toUInt32, hmod]
    omega
  have hlt : ((UInt64.ofNat n) % 20).toUInt32 < 10 ↔ n % 20 < 10 := by
    rw [UInt32.lt_iff_toNat_lt, hmod32]
    rfl
  have h20 : (20 : UInt32).toNat = 20 := rfl
  unfold roundMana
  dsimp only
  split_ifs with h1 h2 h3 h3 h4
  · rw [UInt64.toNat_sub, hn, UInt32.toNat_toUInt64, hmod32]
    omega
  · exact absurd (hlt.1 h1) h2
  · exact absurd (hlt.1 h1) h2
  · exact absurd (hlt.2 h3) h1
  · rw [UInt64.toNat_sub, hn, UInt32.toNat_toUInt64, UInt32.toNat_add, hmod32, h20]
    omega
  · rw [UInt64.toNat_sub, hn, UInt32.toNat_toUInt64, UInt32.toNat_add, hmod32, h20]
    omega

/-- The second value is ahead in twenties: by two, by one unless only the second
loses another twenty, or by none when only the first does. -/
def Apart (u v : ℕ) : Prop :=
  u / 20 + 2 ≤ v / 20 ∨ (v / 20 = u / 20 + 1 ∧ (10 ≤ u % 20 ∨ v % 20 < 10)) ∨
    (v / 20 = u / 20 ∧ 10 ≤ u % 20 ∧ v % 20 < 10)

instance Apart.decidable (u v : ℕ) : Decidable (Apart u v) := inferInstanceAs (Decidable (_ ∨ _))

/-- The values that wrap. -/
def Wraps (u : ℕ) : Prop := 10 ≤ u ∧ u < 20

instance Wraps.decidable (u : ℕ) : Decidable (Wraps u) := inferInstanceAs (Decidable (_ ∧ _))

theorem roundMana_le_iff {u : ℕ} (h : u < 2 ^ 63) :
    (roundMana (.ofNat u)).toNat ≤ u ↔ ¬ Wraps u := by
  rw [toNat_roundMana h]
  unfold Wraps
  split_ifs <;> omega

theorem roundMana_lt_iff {u v : ℕ} (hu : u < 2 ^ 63) (hv : v < 2 ^ 63) (hwu : ¬ Wraps u)
    (hwv : ¬ Wraps v) :
    roundMana (.ofNat u) < roundMana (.ofNat v) ↔ Apart u v := by
  rw [UInt64.lt_iff_toNat_lt, toNat_roundMana hu, toNat_roundMana hv]
  unfold Apart
  unfold Wraps at hwu hwv
  split_ifs <;> omega

/-! ### Levels -/

section Levels

variable {k : ℚ} {m : UInt32}

/-- The exponent is not past that of the formula. -/
theorem manaExponent_le (m : UInt32) : manaExponent m ≤ m.toNat - 1 := by
  have hm := m.toNat_lt
  unfold manaExponent int32
  omega

theorem manaExponent_succ_le (m : UInt32) : manaExponent (m + 1) ≤ m.toNat := by
  have hm := m.toNat_lt
  have h1 : (m + 1).toNat = (m.toNat + 1) % 2 ^ 32 := UInt32.toNat_add m 1
  have h := manaExponent_le (m + 1)
  omega

theorem unrounded_pos (hk : 1 ≤ k) : 0 < unrounded k m := by
  unfold unrounded
  have := zpow_pos (zero_lt_one.trans_le hk) (manaExponent m)
  linarith

theorem unrounded_le (hk : 1 ≤ k) : unrounded k m ≤ 400 * k ^ ((m.toNat : ℤ) - 1) := by
  unfold unrounded
  have := zpow_le_zpow_right₀ hk (manaExponent_le m)
  linarith

theorem unrounded_succ_le (hk : 1 ≤ k) : unrounded k (m + 1) ≤ 400 * k ^ (m.toNat : ℤ) := by
  unfold unrounded
  have := zpow_le_zpow_right₀ hk (manaExponent_succ_le m)
  linarith

/-- The value before the rounding. -/
def floored (k : ℚ) (m : UInt32) : ℕ := ⌊unrounded k m⌋₊

/-- The formula gives a number of 63 bits for this level and the next. -/
def InRange (k : ℚ) (m : UInt32) : Prop := 400 * k ^ (m.toNat : ℤ) < 2 ^ 63

theorem floored_lt (h : unrounded k m < 2 ^ 63) : floored k m < 2 ^ 63 := by
  apply (Nat.floor_lt' (by decide)).2
  exact_mod_cast h

theorem InRange.floored (h : InRange k m) (hk : 1 ≤ k) :
    floored k m < 2 ^ 63 ∧ Advance.floored k (m + 1) < 2 ^ 63 := by
  have hle : k ^ ((m.toNat : ℤ) - 1) ≤ k ^ (m.toNat : ℤ) := zpow_le_zpow_right₀ hk (by omega)
  have h1 : unrounded k m < 2 ^ 63 := by
    calc unrounded k m ≤ 400 * k ^ ((m.toNat : ℤ) - 1) := unrounded_le hk
      _ ≤ 400 * k ^ (m.toNat : ℤ) := by linarith
      _ < 2 ^ 63 := h
  exact ⟨floored_lt h1, floored_lt ((unrounded_succ_le hk).trans_lt h)⟩

/-- A requirement is not above the formula if and only if it has not wrapped. -/
theorem reqMana64_le_iff (hk : 1 ≤ k) (hlt : floored k m < 2 ^ 63) {bound : ℚ}
    (hle : unrounded k m ≤ bound) (hbound : bound < 2 ^ 63) :
    ((reqMana64 k m).toNat : ℚ) ≤ bound ↔ ¬ Wraps (floored k m) := by
  have hfloor : (floored k m : ℚ) ≤ unrounded k m := Nat.floor_le (unrounded_pos hk).le
  unfold reqMana64
  rw [← roundMana_le_iff hlt]
  constructor
  · intro h
    by_contra hgt
    have hwraps : Wraps (floored k m) := not_not.1 (mt (roundMana_le_iff hlt).2 hgt)
    have hval := toNat_roundMana hlt
    unfold Wraps at hwraps
    rw [if_neg (by omega), if_pos hwraps.2] at hval
    have h64 : ((roundMana (.ofNat (floored k m))).toNat : ℚ) < 2 ^ 63 := h.trans_lt hbound
    rw [hval] at h64
    norm_num at h64
  · intro h
    have : ((roundMana (.ofNat (floored k m))).toNat : ℚ) ≤ floored k m := by exact_mod_cast h
    exact (this.trans hfloor).trans hle

end Levels

/-! ### The callers -/

section Callers

variable {L : Type*} {succ : L → L} {req : L → ℕ} {level : L} {total : ℕ} {o : Outcome L}

/-- A level that is gained has a requirement as large as that of the next one. -/
theorem le_req_levelOf (h : Reaches succ req level total o) :
    o = .stopped level total ∨ req (succ level) ≤ req (levelOf o) := by
  induction h with
  | stop _ => exact .inl rfl
  | cap _ _ => exact .inr (le_refl _)
  | step _ hnext _ ih =>
    rcases ih with rfl | ih
    · exact .inr (le_refl _)
    · exact .inr (hnext.le.trans ih)

/-- Back at the level it started from, nothing has been spent on levels. -/
theorem stopped_of_levelOf_eq (h : Reaches succ req level total o) (hgrow : req level < req (succ level))
    (he : levelOf o = level) : o = .stopped level total := by
  rcases le_req_levelOf h with h | h
  · exact h
  · rw [he] at h
    exact absurd hgrow h.not_gt

variable {voc : Vocation} {p : Player} {count : UInt64}

/-- A player whose requirement grows is given what he has spent. -/
theorem outcome_ne (h : voc.getReqMana p.magLevel < voc.getReqMana (p.magLevel + 1)) (hcount : count ≠ 0)
    {o : Outcome UInt32} (hleads : Leads (· + 1) voc.getReqMana p.magLevel (p.manaSpent + count).toNat o) :
    (levelOf o, spentOf o) ≠ p.magic := by
  intro he
  obtain ⟨hlevel, hspent⟩ := Prod.mk.inj he
  have ho := stopped_of_levelOf_eq hleads (UInt64.lt_iff_toNat_lt.1 h) hlevel
  rw [ho] at hspent
  have hsum : p.manaSpent + count = p.manaSpent := by
    rw [← hspent]
    show _ = UInt64.ofNat _
    rw [UInt64.ofNat_toNat, hspent]
  apply hcount
  calc count = p.manaSpent + count - p.manaSpent := by grind
    _ = 0 := by rw [hsum]; grind

theorem addManaSpent_ne (hflag : p.notGainMana = false)
    (h : voc.getReqMana p.magLevel < voc.getReqMana (p.magLevel + 1)) (hcount : count ≠ 0) :
    addManaSpent voc p count ≠ p := by
  obtain ⟨o, hleads, -, he⟩ := addManaSpent_outcome voc hflag h hcount
  intro hsame
  apply outcome_ne h hcount hleads
  rw [he] at hsame
  exact congrArg Player.magic hsame

theorem addOfflineTrainingTries_ne
    (h : voc.getReqMana p.magLevel < voc.getReqMana (p.magLevel + 1)) (hcount : count ≠ 0) :
    addOfflineTrainingTries voc p .magLevel count ≠ p := by
  obtain ⟨o, hleads, he⟩ := addOfflineTrainingTries_outcome voc h hcount
  intro hsame
  apply outcome_ne h hcount hleads
  rw [he] at hsame
  exact congrArg Player.magic hsame

/-- The loop is left at a level as the last one only when its requirement does not grow. -/
theorem le_of_climb_capped {req : UInt32 → UInt64} {level : UInt32} {spent count : UInt64}
    (hgrow : req level < req (level + 1))
    (hc : (climb (· + 1) req level spent count (req level) (req (level + 1))).capped = true) :
    req ((climb (· + 1) req level spent count (req level) (req (level + 1))).level + 1) ≤
      req (climb (· + 1) req level spent count (req level) (req (level + 1))).level := by
  obtain ⟨o, -, hplaced, hlevel, hcapped, -⟩ := climb_outcome (· + 1) req spent count hgrow
  unfold Placed at hplaced
  rw [← hcapped, hc, if_pos rfl] at hplaced
  rw [hlevel]
  exact hplaced

end Callers

/-! ### When it grows -/

section Grows

variable {k : ℚ}

/-- The requirements of a level and the next: they do not fall, and grow where the
formula does by 20, they are not above the formula, and no one is taken to be at the
last level, when he is given something or when the loop gets there. -/
structure GrowsAt (voc : Vocation) (k : ℚ) (m : UInt32) : Prop where
  le : voc.getReqMana m ≤ voc.getReqMana (m + 1)
  lt : 20 ≤ 400 * k ^ (m.toNat : ℤ) - 400 * k ^ ((m.toNat : ℤ) - 1) →
    voc.getReqMana m < voc.getReqMana (m + 1)
  bound : ((voc.getReqMana m).toNat : ℚ) ≤ 400 * k ^ ((m.toNat : ℤ) - 1)
  bound_next : ((voc.getReqMana (m + 1)).toNat : ℚ) ≤ 400 * k ^ (m.toNat : ℤ)
  spends : ∀ p : Player, p.magLevel = m → p.notGainMana = false → ∀ amount ≠ 0,
    addManaSpent voc p amount ≠ p
  trains : ∀ p : Player, p.magLevel = m → ∀ tries ≠ 0,
    addOfflineTrainingTries voc p .magLevel tries ≠ p
  climbs : ∀ (level : UInt32) (spent count : UInt64),
    voc.getReqMana level < voc.getReqMana (level + 1) →
      (climb (· + 1) voc.getReqMana level spent count (voc.getReqMana level)
        (voc.getReqMana (level + 1))).capped = true →
      (climb (· + 1) voc.getReqMana level spent count (voc.getReqMana level)
        (voc.getReqMana (level + 1))).level ≠ m

/-- The callers' part and the growth are one. -/
theorem GrowsAt.of_lt {voc : Vocation} {m : UInt32} (hlt : voc.getReqMana m < voc.getReqMana (m + 1))
    (hbound : ((voc.getReqMana m).toNat : ℚ) ≤ 400 * k ^ ((m.toNat : ℤ) - 1))
    (hnext : ((voc.getReqMana (m + 1)).toNat : ℚ) ≤ 400 * k ^ (m.toNat : ℤ)) : GrowsAt voc k m where
  le := UInt64.le_of_lt hlt
  lt _ := hlt
  bound := hbound
  bound_next := hnext
  spends p hp hflag amount hamount := addManaSpent_ne hflag (hp ▸ hlt) hamount
  trains p hp tries htries := addOfflineTrainingTries_ne (hp ▸ hlt) htries
  climbs level spent count hgrow hc he := by
    have hle := le_of_climb_capped hgrow hc
    rw [he] at hle
    exact absurd hlt (UInt64.not_lt.2 hle)

theorem GrowsAt.growth {voc : Vocation} {m : UInt32} (h : GrowsAt voc k m) :
    voc.getReqMana m < voc.getReqMana (m + 1) := by
  by_contra hle
  have hrefused : addManaSpent voc { magLevel := m } 1 = { magLevel := m } :=
    addManaSpent_of_capped (UInt64.not_lt.1 hle)
  exact h.spends _ rfl rfl 1 (by decide) hrefused

/-- **When the requirements grow.** Neither value before the rounding may be one
that wraps, and the second has to be ahead in twenties. -/
theorem growsAt_iff (k : ℚ) (hk : 1 ≤ k) (m : UInt32) (hrange : InRange k m) (cache : ManaCache k)
    (getReqSkillTries : SkillName → UInt16 → UInt64) :
    GrowsAt (cache.vocation getReqSkillTries) k m ↔
      ¬ Wraps (floored k m) ∧ ¬ Wraps (floored k (m + 1)) ∧ Apart (floored k m) (floored k (m + 1)) := by
  obtain ⟨hu, hv⟩ := hrange.floored hk
  have hreq : ∀ level, (cache.vocation getReqSkillTries).getReqMana level = reqMana64 k level :=
    cache.getReqMana_fst
  have hstep : k ^ ((m.toNat : ℤ) - 1) ≤ k ^ (m.toNat : ℤ) := zpow_le_zpow_right₀ hk (by omega)
  have hb1 := reqMana64_le_iff hk hu (unrounded_le hk)
    (lt_of_le_of_lt (by linarith) hrange : 400 * k ^ ((m.toNat : ℤ) - 1) < 2 ^ 63)
  have hb2 := reqMana64_le_iff hk hv (unrounded_succ_le hk) hrange
  constructor
  · intro h
    have hbound := h.bound
    have hnext := h.bound_next
    have hgrowth := h.growth
    rw [hreq] at hbound hnext
    rw [hreq, hreq] at hgrowth
    have hwu := hb1.1 hbound
    have hwv := hb2.1 hnext
    exact ⟨hwu, hwv, (roundMana_lt_iff hu hv hwu hwv).1 hgrowth⟩
  · rintro ⟨hwu, hwv, hapart⟩
    apply GrowsAt.of_lt
    · rw [hreq, hreq]
      exact (roundMana_lt_iff hu hv hwu hwv).2 hapart
    · rw [hreq]
      exact hb1.2 hwu
    · rw [hreq]
      exact hb2.2 hwv

/-- A multiplier of 2 from level 0: 200 and 400. -/
theorem growsAt_iff_doubling :
    GrowsAt ((ManaCache.empty : ManaCache 2).vocation fun _ _ => 50) 2 0 := by
  have h0 : floored 2 0 = 200 := by
    rw [floored, unrounded, show manaExponent 0 = -1 by decide]
    norm_num
  have h1 : floored 2 (0 + 1) = 400 := by
    rw [floored, unrounded, show manaExponent (0 + 1) = 0 by decide]
    norm_num
  refine (growsAt_iff 2 (by norm_num) 0 ?_ .empty fun _ _ => 50).2 ?_
  · unfold InRange
    norm_num
  · rw [h0, h1]
    decide

/-- A multiplier of 33/32, which a `float` has exactly, from level 1: 400 mana are needed for it and
380 for level 2, so a player who spends mana is taken to be at the last level. -/
theorem falls_from_level_one :
    InRange (33 / 32) 1 ∧ reqMana64 (33 / 32) 1 = 400 ∧ reqMana64 (33 / 32) 2 = 380 ∧
      ¬ reqMana64 (33 / 32) 1 ≤ reqMana64 (33 / 32) 2 ∧
      ∀ (cache : ManaCache (33 / 32)) (amount : UInt64),
        addManaSpent (cache.vocation fun _ _ => 50) { magLevel := 1 } amount = { magLevel := 1 } := by
  have h1 : reqMana64 (33 / 32) 1 = 400 := by
    rw [reqMana64, unrounded, show manaExponent 1 = 0 by decide]
    norm_num
    decide
  have h2 : reqMana64 (33 / 32) 2 = 380 := by
    have hfloor : ⌊unrounded (33 / 32) 2⌋₊ = 412 := by
      rw [unrounded, show manaExponent 2 = 1 by decide, Nat.floor_eq_iff (by norm_num)]
      norm_num
    rw [reqMana64, hfloor]
    decide
  refine ⟨?_, h1, h2, ?_, fun cache amount => addManaSpent_of_capped ?_⟩
  · show (400 : ℚ) * (33 / 32) ^ (1 : ℤ) < 2 ^ 63
    norm_num
  · rw [h1, h2]
    decide
  · show (cache.getReqMana (1 + 1)).1 ≤ (cache.getReqMana 1).1
    rw [cache.getReqMana_fst, cache.getReqMana_fst, h1]
    show reqMana64 (33 / 32) 2 ≤ 400
    rw [h2]
    decide

end Grows

end Advance
end ForgottenServer
