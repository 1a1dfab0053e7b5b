/-
# Connections of one address

`Ban::acceptConnection` keeps for each address when it last tried to connect, and how
often in a row. The sixth attempt in a row that comes within half a second of the one
before is refused, and with it all attempts of the next three seconds, each of which makes
the time longer by a quarter of a second.

The attempts of a run come in the order of their times, in milliseconds, from any
addresses. At most six of one address are accepted in half a second (`accepted_le`), and an
address that was refused stays out just as long as its attempts are early
(`refused_iff`).

Key definitions: `acceptConnection`, `attempt`, `State.acceptedOf`, `Paced`.
Key theorems: `paced_attempt`, `accepted_le`, `refused_iff`.
-/
import Mathlib.Tactic
import ForgottenServer.Lib.Run

namespace ForgottenServer
namespace Ban

/-! ### The model -/

structure ConnectBlock where
  lastAttempt : ℕ
  blockTime : ℕ
  count : ℕ
deriving DecidableEq

abbrev IpConnectMap := UInt32 → Option ConnectBlock

/-- `Ban::acceptConnection`: the map, and whether the connection is accepted. -/
def acceptConnection (ipConnectMap : IpConnectMap) (clientip : UInt32) (currentTime : ℕ) : IpConnectMap × Bool :=
  match ipConnectMap clientip with
  | none => (Function.update ipConnectMap clientip (some ⟨currentTime, 0, 1⟩), true)
  | some connectBlock =>
    if currentTime < connectBlock.blockTime then
      (Function.update ipConnectMap clientip
        (some { connectBlock with blockTime := connectBlock.blockTime + 250 }), false)
    else
      let timeDiff : ℤ := currentTime - connectBlock.lastAttempt
      let connectBlock := { connectBlock with lastAttempt := currentTime }
      if timeDiff ≤ 5000 then
        if 5 < connectBlock.count + 1 then
          if timeDiff ≤ 500 then
            (Function.update ipConnectMap clientip
              (some { connectBlock with count := 0, blockTime := currentTime + 3000 }), false)
          else (Function.update ipConnectMap clientip (some { connectBlock with count := 0 }), true)
        else
          (Function.update ipConnectMap clientip (some { connectBlock with count := connectBlock.count + 1 }), true)
      else (Function.update ipConnectMap clientip (some { connectBlock with count := 1 }), true)

/-- The map, with the attempts that were accepted, newest first. -/
structure State where
  ipConnectMap : IpConnectMap := fun _ => none
  accepted : List (UInt32 × ℕ) := []

/-- A connection is made, from an address at a time. -/
def attempt (s : State) (a : UInt32 × ℕ) : State :=
  let r := acceptConnection s.ipConnectMap a.1 a.2
  ⟨r.1, if r.2 then a :: s.accepted else s.accepted⟩

/-- The times at which an address was accepted. -/
def State.acceptedOf (s : State) (ip : UInt32) : List ℕ := (s.accepted.filter (·.1 = ip)).map (·.2)

/-- The attempts of an address. -/
def attemptsOf (ip : UInt32) (as : List (UInt32 × ℕ)) : List ℕ := (as.filter (·.1 = ip)).map (·.2)

/-! ### What an attempt does -/

variable {s : State} {ip : UInt32} {now : ℕ} {B : ConnectBlock}

theorem attempt_of_ne {a : UInt32 × ℕ} (ha : a.1 ≠ ip) : (attempt s a).ipConnectMap ip = s.ipConnectMap ip ∧
    (attempt s a).acceptedOf ip = s.acceptedOf ip := by
  constructor
  · unfold attempt acceptConnection
    dsimp only
    split
    · exact Function.update_of_ne ha.symm _ _
    · split_ifs
      all_goals exact Function.update_of_ne ha.symm _ _
  · unfold attempt State.acceptedOf
    dsimp only
    split_ifs
    · simp [ha]
    · rfl

/-- An attempt of the address, in its four cases: the first one; one while the address is
blocked; the one for which it is blocked; and any other. -/
theorem attempt_self (s : State) (ip : UInt32) (now : ℕ) :
    (s.ipConnectMap ip = none ∧ (attempt s (ip, now)).ipConnectMap ip = some ⟨now, 0, 1⟩ ∧
      (attempt s (ip, now)).acceptedOf ip = now :: s.acceptedOf ip) ∨
    ∃ B, s.ipConnectMap ip = some B ∧
      ((now < B.blockTime ∧
          (attempt s (ip, now)).ipConnectMap ip = some { B with blockTime := B.blockTime + 250 } ∧
          (attempt s (ip, now)).acceptedOf ip = s.acceptedOf ip) ∨
        (B.blockTime ≤ now ∧ now ≤ B.lastAttempt + 500 ∧ 5 ≤ B.count ∧
          (attempt s (ip, now)).ipConnectMap ip = some ⟨now, now + 3000, 0⟩ ∧
          (attempt s (ip, now)).acceptedOf ip = s.acceptedOf ip) ∨
        ∃ count, B.blockTime ≤ now ∧ count ≤ 5 ∧ (now ≤ B.lastAttempt + 500 → count = B.count + 1) ∧
          (attempt s (ip, now)).ipConnectMap ip = some ⟨now, B.blockTime, count⟩ ∧
          (attempt s (ip, now)).acceptedOf ip = now :: s.acceptedOf ip) := by
  cases hmap : s.ipConnectMap ip with
  | none =>
    left
    simp [attempt, acceptConnection, hmap, State.acceptedOf]
  | some B =>
    right
    refine ⟨B, rfl, ?_⟩
    by_cases hblock : now < B.blockTime
    · left
      simp [attempt, acceptConnection, hmap, hblock, State.acceptedOf]
    · right
      by_cases hslow : (now : ℤ) - B.lastAttempt ≤ 5000
      · by_cases hcount : 5 < B.count + 1
        · by_cases hfast : (now : ℤ) - B.lastAttempt ≤ 500
          · left
            simp [attempt, acceptConnection, hmap, hblock, hslow, hcount, hfast, State.acceptedOf]
            omega
          · right
            refine ⟨0, not_lt.1 hblock, Nat.zero_le 5, fun h => absurd (by omega) hfast, ?_⟩
            simp [attempt, acceptConnection, hmap, hblock, hslow, hcount, hfast, State.acceptedOf]
        · right
          refine ⟨B.count + 1, not_lt.1 hblock, not_lt.1 hcount, fun _ => rfl, ?_⟩
          simp [attempt, acceptConnection, hmap, hblock, hslow, hcount, State.acceptedOf]
      · right
        refine ⟨1, not_lt.1 hblock, Nat.one_le_of_lt (by decide : 1 < 5), fun h => by omega, ?_⟩
        simp [attempt, acceptConnection, hmap, hblock, hslow, State.acceptedOf]

/-! ### The rate -/

/-- What the block of an address says of the times at which it was accepted: they end with its last
attempt, and the last half second has no more than were counted, or there is a pause behind it. -/
structure Keeps (B : ConnectBlock) (times : List ℕ) : Prop where
  count : B.count ≤ 5
  newest : ∀ a ∈ times, a ≤ B.lastAttempt
  idle : B.count = 0 ∨ B.blockTime ≤ B.lastAttempt
  recent : B.lastAttempt + 3000 ≤ B.blockTime ∨ times.countP (B.lastAttempt ≤ · + 500) ≤ B.count + 1

/-- The invariant of an address, at a time. -/
structure Paced (s : State) (ip : UInt32) (clock : ℕ) : Prop where
  unseen : s.ipConnectMap ip = none → s.acceptedOf ip = []
  keeps : ∀ B, s.ipConnectMap ip = some B → Keeps B (s.acceptedOf ip) ∧ B.lastAttempt ≤ clock
  window : ∀ t, (s.acceptedOf ip).countP (fun a => t ≤ a ∧ a ≤ t + 500) ≤ 6

theorem Paced.init : Paced {} ip 0 where
  unseen _ := rfl
  keeps B hB := absurd hB (Option.some_ne_none B).symm
  window _ := Nat.zero_le 6

/-- A connection that is accepted is counted. -/
theorem Keeps.accept {times : List ℕ} {count : ℕ} (hB : Keeps B times) (hlast : B.lastAttempt ≤ now)
    (hblock : B.blockTime ≤ now) (hcount : count ≤ 5) (hfast : now ≤ B.lastAttempt + 500 → count = B.count + 1) :
    Keeps ⟨now, B.blockTime, count⟩ (now :: times) where
  count := hcount
  newest a ha := by
    rcases List.mem_cons.1 ha with rfl | ha
    · exact le_rfl
    · exact (hB.newest a ha).trans hlast
  idle := .inr hblock
  recent := by
    right
    rw [List.countP_cons_of_pos (by simp)]
    by_cases hle : now ≤ B.lastAttempt + 500
    · have hrecent : times.countP (B.lastAttempt ≤ · + 500) ≤ B.count + 1 := hB.recent.resolve_left (by omega)
      have hmono : times.countP (now ≤ · + 500) ≤ times.countP (B.lastAttempt ≤ · + 500) :=
        List.countP_mono_left fun a _ ha => by
          simp only [decide_eq_true_eq] at ha ⊢
          omega
      have := hfast hle
      dsimp only
      omega
    · have hnone : times.countP (now ≤ · + 500) = 0 := by
        rw [List.countP_eq_zero]
        intro a ha
        have := hB.newest a ha
        simp only [decide_eq_true_eq]
        omega
      dsimp only
      omega

/-- Six connections in half a second, if the last of them was counted. -/
theorem window_cons {times : List ℕ} (hB : Keeps B (now :: times)) (hnow : B.lastAttempt = now)
    (hblock : B.blockTime ≤ now) (hwindow : ∀ t, times.countP (fun a => t ≤ a ∧ a ≤ t + 500) ≤ 6) (t : ℕ) :
    (now :: times).countP (fun a => t ≤ a ∧ a ≤ t + 500) ≤ 6 := by
  by_cases hin : t ≤ now ∧ now ≤ t + 500
  · have hrecent : (now :: times).countP (B.lastAttempt ≤ · + 500) ≤ B.count + 1 := hB.recent.resolve_left (by omega)
    have hmono : (now :: times).countP (fun a => t ≤ a ∧ a ≤ t + 500) ≤
        (now :: times).countP (B.lastAttempt ≤ · + 500) :=
      List.countP_mono_left fun a _ ha => by
        simp only [decide_eq_true_eq] at ha ⊢
        omega
    have := hB.count
    omega
  · rw [List.countP_cons_of_neg (by simpa using hin)]
    exact hwindow t

theorem Paced.of_block {clock : ℕ} (hmap : s.ipConnectMap ip = some B) (hB : Keeps B (s.acceptedOf ip))
    (hclock : B.lastAttempt ≤ clock)
    (hwindow : ∀ t, (s.acceptedOf ip).countP (fun a => t ≤ a ∧ a ≤ t + 500) ≤ 6) : Paced s ip clock where
  unseen h := absurd (hmap.symm.trans h) (Option.some_ne_none B)
  keeps B' hB' := by
    obtain rfl : B = B' := Option.some.inj (hmap.symm.trans hB')
    exact ⟨hB, hclock⟩
  window := hwindow

/-- An attempt keeps the rate of every address. -/
theorem paced_attempt {clock : ℕ} {a : UInt32 × ℕ} (hs : Paced s ip clock) (ha : clock ≤ a.2) :
    Paced (attempt s a) ip a.2 := by
  by_cases hip : a.1 = ip
  · obtain ⟨ip', now⟩ := a
    obtain rfl : ip' = ip := hip
    rcases attempt_self s ip' now with ⟨hnone, hmap, hacc⟩ | ⟨B, hB, hcases⟩
    · have hfirst : Keeps ⟨now, 0, 1⟩ [now] := by
        refine ⟨Nat.le_add_left 1 4, by simp, .inr (Nat.zero_le _), .inr ?_⟩
        simp
      rw [hs.unseen hnone] at hacc
      refine .of_block hmap (hacc ▸ hfirst) le_rfl ?_
      rw [hacc]
      exact window_cons hfirst rfl (Nat.zero_le _) (by simp)
    · obtain ⟨hkeeps, hlast⟩ := hs.keeps B hB
      have hnow : B.lastAttempt ≤ now := hlast.trans ha
      rcases hcases with ⟨hblock, hmap, hacc⟩ | ⟨hblock, hfast, hcount, hmap, hacc⟩ |
        ⟨count, hblock, hcount, hfast, hmap, hacc⟩
      · refine .of_block hmap ?_ hnow (hacc ▸ hs.window)
        have hcount : B.count = 0 := hkeeps.idle.resolve_right (by omega)
        rw [hacc]
        exact ⟨hkeeps.count, hkeeps.newest, .inl hcount,
          hkeeps.recent.imp_left fun h => h.trans (Nat.le_add_right _ _)⟩
      · refine .of_block hmap ?_ le_rfl (hacc ▸ hs.window)
        rw [hacc]
        exact ⟨Nat.zero_le 5, fun a ha => (hkeeps.newest a ha).trans hnow, .inl rfl, .inl le_rfl⟩
      · have hkeeps' := hkeeps.accept hnow hblock hcount hfast
        refine .of_block hmap (hacc ▸ hkeeps') le_rfl ?_
        rw [hacc]
        exact window_cons hkeeps' rfl hblock hs.window
  · obtain ⟨hmap, hacc⟩ := attempt_of_ne (s := s) hip
    refine ⟨?_, ?_, hacc ▸ hs.window⟩
    · rw [hmap, hacc]
      exact hs.unseen
    · rw [hmap, hacc]
      exact fun B hB => ⟨(hs.keeps B hB).1, (hs.keeps B hB).2.trans ha⟩

/-- The rate over a run of attempts in the order of their times. -/
theorem paced_run : ∀ {as : List (UInt32 × ℕ)} {s : State} {clock : ℕ}, Paced s ip clock →
    (clock :: as.map (·.2)).Pairwise (· ≤ ·) →
    Paced (Run.run attempt s as) ip ((clock :: as.map (·.2)).getLast (List.cons_ne_nil _ _))
  | [], _, _, hs, _ => hs
  | a :: as, s, clock, hs, hsorted => by
    obtain ⟨hclock, hsorted⟩ := List.pairwise_cons.1 hsorted
    have ha : clock ≤ a.2 := hclock a.2 List.mem_cons_self
    have ih := paced_run (paced_attempt hs ha) hsorted
    exact ih

theorem paced_of_sorted {as : List (UInt32 × ℕ)} (has : (as.map (·.2)).Pairwise (· ≤ ·)) :
    Paced (Run.run attempt {} as) ip ((0 :: as.map (·.2)).getLast (List.cons_ne_nil _ _)) :=
  paced_run Paced.init (List.pairwise_cons.2 ⟨fun _ _ => Nat.zero_le _, has⟩)

/-- What lies in `k + 1` windows lies in the first `k` or in the last. -/
theorem countP_window_succ (t w k : ℕ) (times : List ℕ) :
    times.countP (fun a => t ≤ a ∧ a < t + w * (k + 1)) ≤
      times.countP (fun a => t ≤ a ∧ a < t + w * k) +
        times.countP (fun a => t + w * k ≤ a ∧ a < t + w * k + w) := by
  induction times with
  | nil => exact Nat.zero_le _
  | cons a times ih =>
    simp only [List.countP_cons, decide_eq_true_eq, Nat.mul_succ] at ih ⊢
    split_ifs <;> omega

/-- A bound for each window of length `w` bounds `k` of them end to end. -/
theorem countP_windows {times : List ℕ} {w m : ℕ} (hw : ∀ t, times.countP (fun a => t ≤ a ∧ a < t + w) ≤ m)
    (t k : ℕ) : times.countP (fun a => t ≤ a ∧ a < t + w * k) ≤ m * k := by
  induction k with
  | zero => simp
  | succ k ih =>
    calc times.countP (fun a => t ≤ a ∧ a < t + w * (k + 1))
        ≤ _ := countP_window_succ t w k times
      _ ≤ m * k + m := Nat.add_le_add ih (hw _)
      _ = m * (k + 1) := (Nat.mul_succ m k).symm

/-- Over attempts in the order of their times, no address is accepted more than six times in half
a second, nor more than `6 * k` times in `k` half seconds on end. -/
theorem accepted_le (as : List (UInt32 × ℕ)) (has : (as.map (·.2)).Pairwise (· ≤ ·)) (ip : UInt32) (t k : ℕ) :
    ((Run.run attempt {} as).acceptedOf ip).countP (fun a => t ≤ a ∧ a < t + 501 * k) ≤ 6 * k := by
  have hpaced : Paced (Run.run attempt {} as) ip _ := paced_of_sorted has
  refine countP_windows (fun t => ?_) t k
  simpa only [← Nat.lt_succ_iff, Nat.succ_eq_add_one, Nat.add_assoc] using hpaced.window t

/-- Six are accepted at one time, after five at another. -/
theorem accepted_le_burst :
    ((Run.run attempt {} (List.replicate 5 (7, 0) ++ List.replicate 8 (7, 501))).acceptedOf 7).countP
        (fun a => 501 ≤ a ∧ a < 501 + 501 * 1) = 6 ∧
      ((Run.run attempt {} (List.replicate 5 (7, 0) ++ List.replicate 8 (7, 501))).acceptedOf 7).countP
        (fun a => 501 ≤ a ∧ a < 501 + 501 * 1) ≤ 6 * 1 :=
  ⟨by decide, accepted_le _ (by decide) 7 501 1⟩

/-! ### How long an address stays out -/

/-- The attempt is not one of the address that is accepted. -/
def Refused (ip : UInt32) (s : State) (a : UInt32 × ℕ) : Prop :=
  a.1 = ip → (acceptConnection s.ipConnectMap a.1 a.2).2 = false

theorem attempt_blocked (hB : s.ipConnectMap ip = some B) (hblock : now < B.blockTime) :
    (acceptConnection s.ipConnectMap ip now).2 = false ∧
      (attempt s (ip, now)).ipConnectMap ip = some { B with blockTime := B.blockTime + 250 } := by
  simp [attempt, acceptConnection, hB, hblock]

/-- With the count at nothing, an attempt after the block is accepted. -/
theorem accepted_of_le (hB : s.ipConnectMap ip = some B) (hcount : B.count = 0) (hle : B.blockTime ≤ now) :
    (acceptConnection s.ipConnectMap ip now).2 = true := by
  have hmore : ¬ 5 < B.count + 1 := by omega
  simp only [acceptConnection, hB, not_lt.2 hle, hmore, if_false]
  split_ifs
  · rfl
  · rfl

theorem early_cons {n₀ t : ℕ} {times : List ℕ} :
    (∀ k n, (n₀ :: times)[k]? = some n → n < t + 250 * k) ↔
      n₀ < t ∧ ∀ k n, times[k]? = some n → n < t + 250 + 250 * k := by
  constructor
  · intro h
    refine ⟨h 0 n₀ rfl, fun k n hk => ?_⟩
    have := h (k + 1) n hk
    omega
  · rintro ⟨hzero, hsucc⟩ k n hk
    cases k with
    | zero =>
      obtain rfl : n₀ = n := Option.some.inj hk
      exact hzero
    | succ k =>
      have := hsucc k n hk
      omega

/-- Every attempt while the block lasts is refused, and makes it longer. The first one after
it is accepted, as the count starts again. -/
theorem along_refused_iff : ∀ (bs : List (UInt32 × ℕ)) {s : State} {B : ConnectBlock},
    s.ipConnectMap ip = some B → B.count = 0 →
    (Run.Along attempt (Refused ip) s bs ↔
      ∀ k n, (attemptsOf ip bs)[k]? = some n → n < B.blockTime + 250 * k)
  | [], s, B, _, _ => by simp [Run.Along, attemptsOf]
  | a :: bs, s, B, hB, hcount => by
    by_cases hip : a.1 = ip
    · obtain ⟨ip', now⟩ := a
      obtain rfl : ip = ip' := hip.symm
      have hcons : attemptsOf ip ((ip, now) :: bs) = now :: attemptsOf ip bs := by simp [attemptsOf]
      rw [Run.Along, hcons, early_cons]
      by_cases hblock : now < B.blockTime
      · obtain ⟨hrefused, hmap⟩ := attempt_blocked hB hblock
        have ih := along_refused_iff bs hmap hcount
        exact and_congr (iff_of_true (fun _ => hrefused) hblock) ih
      · have hacc := accepted_of_le hB hcount (not_lt.1 hblock)
        refine iff_of_false (fun h => ?_) fun h => hblock h.1
        exact Bool.false_ne_true ((h.1 rfl).symm.trans hacc)
    · have hrefused : Refused ip s a := fun h => absurd h hip
      have hmap : (attempt s a).ipConnectMap ip = some B := (attempt_of_ne hip).1.trans hB
      have hcons : attemptsOf ip (a :: bs) = attemptsOf ip bs := by simp [attemptsOf, hip]
      rw [Run.Along, and_iff_right hrefused, along_refused_iff bs hmap hcount, hcons]

/-- A refused attempt leaves the address blocked for longer than a quarter of a second, with its
count at nothing. -/
theorem block_of_refused {clock : ℕ} (hs : Paced s ip clock) (hclock : clock ≤ now)
    (hrefused : (acceptConnection s.ipConnectMap ip now).2 = false) :
    ∃ B, (attempt s (ip, now)).ipConnectMap ip = some B ∧ B.count = 0 ∧ now + 250 < B.blockTime := by
  have hacc : (attempt s (ip, now)).acceptedOf ip = s.acceptedOf ip := by
    simp [attempt, hrefused, State.acceptedOf]
  rcases attempt_self s ip now with ⟨-, -, hacc'⟩ | ⟨B, hB, hcases⟩
  · exact absurd (hacc'.symm.trans hacc) (List.cons_ne_self _ _)
  · obtain ⟨hkeeps, hlast⟩ := hs.keeps B hB
    rcases hcases with ⟨hblock, hmap, -⟩ | ⟨-, -, -, hmap, -⟩ | ⟨count, -, -, -, -, hacc'⟩
    · exact ⟨_, hmap, hkeeps.idle.resolve_right (by omega), Nat.add_lt_add_right hblock 250⟩
    · exact ⟨_, hmap, rfl, by dsimp only; omega⟩
    · exact absurd (hacc'.symm.trans hacc) (List.cons_ne_self _ _)

/-- When an address is refused there is a time, more than a quarter of a second away, such that
it is refused again exactly as long as it tries before that time, which each try puts off by
a quarter of a second. -/
theorem refused_iff (as bs : List (UInt32 × ℕ)) (ip : UInt32) (now : ℕ)
    (has : ((as ++ [(ip, now)]).map (·.2)).Pairwise (· ≤ ·))
    (hrefused : (acceptConnection (Run.run attempt {} as).ipConnectMap ip now).2 = false) :
    ∃ B, (Run.run attempt {} (as ++ [(ip, now)])).ipConnectMap ip = some B ∧ now + 250 < B.blockTime ∧
      (Run.Along attempt (Refused ip) (Run.run attempt {} (as ++ [(ip, now)])) bs ↔
        ∀ k n, (attemptsOf ip bs)[k]? = some n → n < B.blockTime + 250 * k) := by
  rw [List.map_append, List.pairwise_append] at has
  obtain ⟨has, -, hle⟩ := has
  have hclock : (0 :: as.map (·.2)).getLast (List.cons_ne_nil _ _) ≤ now := by
    rcases List.mem_cons.1 (List.getLast_mem (List.cons_ne_nil 0 (as.map (·.2)))) with hzero | hmem
    · exact hzero.le.trans (Nat.zero_le now)
    · exact hle _ hmem now (List.mem_singleton_self now)
  obtain ⟨B, hmap, hcount, hnow⟩ := block_of_refused (paced_of_sorted has) hclock hrefused
  rw [Run.run_append]
  exact ⟨B, hmap, hnow, along_refused_iff bs hmap hcount⟩

/-- The sixth of six attempts at once is refused, and so is one three seconds later less a
millisecond; the next is accepted from a quarter of a second after the three. -/
theorem refused_iff_knock :
    Run.Along attempt (Refused 7) (Run.run attempt {} (List.replicate 5 (7, 0) ++ [(7, 0)])) [(7, 2999), (7, 3249)] ∧
      ¬ Run.Along attempt (Refused 7) (Run.run attempt {} (List.replicate 5 (7, 0) ++ [(7, 0)]))
        [(7, 2999), (7, 3250)] := by
  have hblock : (Run.run attempt {} (List.replicate 5 (7, 0) ++ [(7, 0)])).ipConnectMap 7 = some ⟨0, 3000, 0⟩ := rfl
  constructor
  · obtain ⟨B, hB, -, hiff⟩ :=
      refused_iff (List.replicate 5 (7, 0)) [(7, 2999), (7, 3249)] 7 0 (by decide) (by decide)
    obtain rfl : B = ⟨0, 3000, 0⟩ := Option.some.inj (hB.symm.trans hblock)
    rw [hiff]
    rintro (_ | _ | k) n hn
    · obtain rfl : 2999 = n := Option.some.inj hn
      decide
    · obtain rfl : 3249 = n := Option.some.inj hn
      decide
    · exact absurd hn (Option.some_ne_none n).symm
  · obtain ⟨B, hB, -, hiff⟩ :=
      refused_iff (List.replicate 5 (7, 0)) [(7, 2999), (7, 3250)] 7 0 (by decide) (by decide)
    obtain rfl : B = ⟨0, 3000, 0⟩ := Option.some.inj (hB.symm.trans hblock)
    intro h
    exact absurd (hiff.1 h 1 3250 rfl) (by decide)

end Ban
end ForgottenServer
