/-
# Premium time

`Game::updatePremium` takes the days that have passed since `lastDay` off the
premium days of an account, and moves `lastDay` on by as many whole days, so
that the rest of a day is not lost. The days are counted in 32 bits, and a
`lastDay` of zero stands for none.

Key definitions: `Account`, `updatePremium`, `updates`, `afterDays`.
Key theorems: `updatePremium_eq`, `afterDays_afterDays`, `updates_eq_last`.
-/
import Mathlib.Data.UInt
import Mathlib.Tactic

namespace ForgottenServer

/-! ### The model -/

/-- The fields of `Account` that an update reads. -/
structure Account where
  premiumDays : UInt16
  lastDay : ℤ
  deriving DecidableEq

namespace Account

/-- `Game::updatePremium` at a time: the account, and whether it is saved. -/
def updatePremium (account : Account) (timeNow : ℤ) : Account × Bool :=
  if account.premiumDays ≠ 0 ∧ account.premiumDays ≠ 65535 then
    if account.lastDay = 0 then ({ account with lastDay := timeNow }, true)
    else
      let days := UInt32.ofInt ((timeNow - account.lastDay).tdiv 86400)
      if 0 < days then
        if account.premiumDays.toUInt32 ≤ days then ({ premiumDays := 0, lastDay := 0 }, true)
        else
          let remainder := (timeNow - account.lastDay).tmod 86400
          ({ premiumDays := account.premiumDays - days.toUInt16, lastDay := timeNow - remainder }, true)
      else (account, false)
  else if account.lastDay ≠ 0 then ({ account with lastDay := 0 }, true)
  else (account, false)

/-- Updates at one time after the other. -/
def updates (account : Account) (times : List ℤ) : Account :=
  times.foldl (fun account timeNow => (account.updatePremium timeNow).1) account

/-! ### Days that pass -/

/-- An account some days later. -/
def afterDays (account : Account) (days : ℕ) : Account :=
  if account.premiumDays.toNat ≤ days then { premiumDays := 0, lastDay := 0 }
  else { premiumDays := .ofNat (account.premiumDays.toNat - days), lastDay := account.lastDay + 86400 * days }

/-- Premium time that runs out some day, since a day that is not mistaken for none. -/
structure Running (account : Account) : Prop where
  pos : 0 < account.premiumDays.toNat
  lt : account.premiumDays.toNat < 65535
  lastDay : account.lastDay ≠ 0
  aligned : account.lastDay < 0 → ¬ 86400 ∣ account.lastDay

section Days

variable {account : Account} {timeNow : ℤ} {m n : ℕ}

/-- The whole days since `lastDay`. -/
def daysAt (account : Account) (timeNow : ℤ) : ℕ := ((timeNow - account.lastDay) / 86400).toNat

theorem afterDays_zero (h : Running account) : account.afterDays 0 = account := by
  have hpos := h.pos
  unfold afterDays
  rw [if_neg (by omega)]
  simp

theorem afterDays_of_le (h : account.premiumDays.toNat ≤ n) :
    account.afterDays n = { premiumDays := 0, lastDay := 0 } :=
  if_pos h

theorem toNat_afterDays (h : n < account.premiumDays.toNat) :
    (account.afterDays n).premiumDays.toNat = account.premiumDays.toNat - n := by
  have hlt := account.premiumDays.toNat_lt
  rw [afterDays, if_neg (by omega)]
  exact Nat.mod_eq_of_lt (by omega)

theorem lastDay_afterDays (h : n < account.premiumDays.toNat) :
    (account.afterDays n).lastDay = account.lastDay + 86400 * n := by
  rw [afterDays, if_neg (by omega)]

/-- The days of two updates add up. -/
theorem afterDays_afterDays (h : n < account.premiumDays.toNat) :
    (account.afterDays n).afterDays m = account.afterDays (n + m) := by
  have hn := toNat_afterDays h
  have hl := lastDay_afterDays h
  by_cases hm : account.premiumDays.toNat ≤ n + m
  · rw [afterDays_of_le hm, afterDays_of_le (by omega)]
  · have hm' : ¬ (account.afterDays n).premiumDays.toNat ≤ m := by omega
    calc (account.afterDays n).afterDays m
        = { premiumDays := .ofNat ((account.afterDays n).premiumDays.toNat - m)
            lastDay := (account.afterDays n).lastDay + 86400 * m } := if_neg hm'
      _ = { premiumDays := .ofNat (account.premiumDays.toNat - (n + m))
            lastDay := account.lastDay + 86400 * (n + m : ℕ) } := by
        rw [hn, hl, Nat.sub_sub, add_assoc, Nat.cast_add, mul_add]
      _ = account.afterDays (n + m) := (if_neg hm).symm

theorem Running.afterDays (h : Running account) (hn : n < account.premiumDays.toNat) :
    Running (account.afterDays n) := by
  have hday := lastDay_afterDays hn
  have hpremium := toNat_afterDays hn
  have hlt := h.lt
  have hne := h.lastDay
  have hal := h.aligned
  refine ⟨by omega, by omega, ?_, ?_⟩
  · rw [hday]
    omega
  · rw [hday]
    omega

/-- The next whole days are counted from the day that is kept. -/
theorem daysAt_afterDays (hn : n < account.premiumDays.toNat) (hle : n ≤ account.daysAt timeNow) :
    (account.afterDays n).daysAt timeNow = account.daysAt timeNow - n := by
  unfold daysAt at *
  rw [lastDay_afterDays hn]
  omega

/-- In the range of the counter it holds the days. -/
theorem toNat_ofInt_daysAt (hle : account.lastDay ≤ timeNow) (hlt : timeNow - account.lastDay < 86400 * 2 ^ 32) :
    (UInt32.ofInt ((timeNow - account.lastDay).tdiv 86400)).toNat = account.daysAt timeNow := by
  have hdays : (timeNow - account.lastDay) / 86400 < 2 ^ 32 := by omega
  rw [Int.tdiv_eq_ediv_of_nonneg (by omega), UInt32.ofInt, Int.emod_eq_of_lt (by omega) hdays]
  exact Nat.mod_eq_of_lt (by omega)

/-- An update in the range of the counter takes the whole days off. -/
theorem updatePremium_eq (h : Running account) (hle : account.lastDay ≤ timeNow)
    (hlt : timeNow - account.lastDay < 86400 * 2 ^ 32) :
    (account.updatePremium timeNow).1 = account.afterDays (account.daysAt timeNow) := by
  have hdays := toNat_ofInt_daysAt hle hlt
  have hpos := h.pos
  have hbound := h.lt
  have hnone : account.premiumDays ≠ 0 ∧ account.premiumDays ≠ 65535 := by
    rw [Ne, Ne, ← UInt16.toNat_inj, ← UInt16.toNat_inj]
    exact ⟨hpos.ne', hbound.ne⟩
  unfold updatePremium
  rw [if_pos hnone, if_neg h.lastDay]
  generalize UInt32.ofInt ((timeNow - account.lastDay).tdiv 86400) = days at hdays
  dsimp only
  have hzero : 0 < days ↔ 0 < account.daysAt timeNow := by
    rw [UInt32.lt_iff_toNat_lt, hdays]
    rfl
  have hout : account.premiumDays.toUInt32 ≤ days ↔ account.premiumDays.toNat ≤ account.daysAt timeNow := by
    rw [UInt32.le_iff_toNat_le, hdays]
    rfl
  split
  · split
    · next hle' => exact (afterDays_of_le (hout.1 hle')).symm
    · next hle' =>
      rw [hout, not_le] at hle'
      rw [afterDays, if_neg (by omega)]
      have hpremium : account.premiumDays - days.toUInt16 =
          .ofNat (account.premiumDays.toNat - account.daysAt timeNow) := by
        have hlow : days.toUInt16.toNat = account.daysAt timeNow := by
          rw [UInt32.toNat_toUInt16, hdays]
          exact Nat.mod_eq_of_lt (by omega)
        rw [← UInt16.toNat_inj, UInt16.toNat_sub_of_le _ _ (UInt16.le_iff_toNat_le.2 (by omega)), hlow]
        exact (Nat.mod_eq_of_lt (by omega)).symm
      have hday : timeNow - (timeNow - account.lastDay).tmod 86400 =
          account.lastDay + 86400 * account.daysAt timeNow := by
        rw [Int.tmod_eq_emod_of_nonneg (by omega)]
        unfold daysAt
        omega
      rw [hpremium, hday]
  · next hzero' =>
    have h0 : account.daysAt timeNow = 0 := by
      rw [hzero] at hzero'
      omega
    rw [h0, afterDays_zero h]

/-- Without premium time an update changes nothing. -/
theorem updates_none (times : List ℤ) :
    updates { premiumDays := 0, lastDay := 0 } times = { premiumDays := 0, lastDay := 0 } := by
  induction times with
  | nil => rfl
  | cons t times ih => exact ih

/-- The updates before the last one make no difference. -/
theorem updates_eq_last {times : List ℤ} (h : Running account) (hsorted : (times ++ [timeNow]).Pairwise (· ≤ ·))
    (hle : ∀ t ∈ times ++ [timeNow], account.lastDay ≤ t) (hlt : timeNow - account.lastDay < 86400 * 2 ^ 32) :
    account.updates (times ++ [timeNow]) = (account.updatePremium timeNow).1 := by
  induction times generalizing account with
  | nil => rfl
  | cons t times ih =>
    rw [List.cons_append, List.pairwise_cons] at hsorted
    obtain ⟨hfirst, hsorted⟩ := hsorted
    have hnow : timeNow ∈ times ++ [timeNow] := by simp
    have hle₀ : t ≤ timeNow := hfirst timeNow hnow
    have hlt₀ : account.lastDay ≤ t := hle t List.mem_cons_self
    have hmono : account.daysAt t ≤ account.daysAt timeNow := by
      unfold daysAt
      omega
    have hupdate : account.updates (t :: times ++ [timeNow]) =
        (account.afterDays (account.daysAt t)).updates (times ++ [timeNow]) := by
      rw [← updatePremium_eq h hlt₀ (by omega)]
      rfl
    rw [hupdate, updatePremium_eq h (by omega) hlt]
    by_cases hout : account.premiumDays.toNat ≤ account.daysAt t
    · -- the premium time has run out, and stays so
      rw [afterDays_of_le hout, afterDays_of_le (hout.trans hmono), updates_none]
    · have hday := @lastDay_afterDays account (account.daysAt t) (by omega)
      have hkept : (account.afterDays (account.daysAt t)).lastDay ≤ t := by
        rw [hday]
        unfold daysAt
        omega
      have hrest : ∀ s ∈ times ++ [timeNow], (account.afterDays (account.daysAt t)).lastDay ≤ s :=
        fun s hs => hkept.trans (hfirst s hs)
      rw [ih (h.afterDays (by omega)) hsorted hrest (by omega), updatePremium_eq (h.afterDays (by omega))
        (hrest timeNow hnow) (by omega), daysAt_afterDays (by omega) hmono, afterDays_afterDays (by omega),
        Nat.add_sub_cancel' hmono]

/-- Thirty days, and three updates at times of the next two days. -/
theorem updates_three :
    updates { premiumDays := 30, lastDay := 1000 } [50000, 100000, 186000] =
      (updatePremium { premiumDays := 30, lastDay := 1000 } 186000).1 :=
  @updates_eq_last _ _ [50000, 100000] ⟨by decide, by decide, by decide, by decide⟩ (by decide) (by decide)
    (by decide)

/-- Past the range of the counter, and where a kept day is the zero of the
clock, an update before makes a difference. -/
theorem updates_ne_last :
    updates { premiumDays := 30, lastDay := 1 } [86401, 371085174374401] ≠
        (updatePremium { premiumDays := 30, lastDay := 1 } 371085174374401).1 ∧
      updates { premiumDays := 30, lastDay := -86400 } [0, 86400] ≠
        (updatePremium { premiumDays := 30, lastDay := -86400 } 86400).1 := by
  decide

end Days
end Account
end ForgottenServer
