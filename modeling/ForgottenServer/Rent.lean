/-
# House rent over a run of the server

`Houses::payHouses` takes the rent from the bank balance of the owner, or warns
it, and takes the house away after seven warnings. The warnings are counted in
the house. The count goes back to zero when the owner loses the house, and not
when the rent is paid: warnings from before a payment count against the owner.

Each house is followed with what happened at it. Besides the payments, a run
has the changes of owners, the restarts of the server and any change of the
players and of the rents.

Key definitions: `House.setOwner`, `payHouses`, `rentEvent`, `Step`, `run`,
`fresh`, `countBefore`.
Key theorems: `payHouse_follows`, `counted_run`, `evicted_iff`.
-/
import ForgottenServer.Delivery

namespace ForgottenServer
namespace Rent

open IOLoginData

/-! ### The model -/

/-- The stored players, by guid. -/
abbrev Store := ℕ → Option Record

/-- The part of `House::setOwner` that takes a house from its owner, who is not
in the game: the items go to the depot. -/
def leave (W : World) (loadTime saveTime : ℤ) (stored : Store) (h : House) : House × Store :=
  match stored h.owner with
  | none => (h.reset, stored)
  | some r =>
    let (_, r', h', _) := transferToDepotOffline W loadTime saveTime h r
    (h'.reset, Function.update stored h.owner (some r'))

/-- `House::setOwner`: the house, and the stored players. -/
def setOwner (W : World) (loadTime saveTime : ℤ) (stored : Store) (h : House) (guid : ℕ) : House × Store :=
  if h.owner = guid then (h, stored)
  else
    let r := if h.owner ≠ 0 then leave W loadTime saveTime stored h else (h, stored)
    -- a guid without a name leaves the house without an owner
    if guid ≠ 0 ∧ (r.2 guid).isSome then ({ r.1 with owner := guid }, r.2) else r

/-- `Houses::payHouses`: the houses in turn. -/
def payHouses (W : World) (period : RentPeriod) (currentTime loadTime saveTime : ℤ) :
    List House → Store → List House × Store
  | [], stored => ([], stored)
  | h :: hs, stored =>
    let r := payHouse W period currentTime loadTime saveTime h (stored h.owner)
    let rest := payHouses W period currentTime loadTime saveTime hs (Function.update stored h.owner r.2.1)
    (r.1 :: rest.1, rest.2)

/-- The house as it is saved and, at the next start of the server, loaded again;
an owner that has no name any more is not set. -/
def restart (stored : Store) (h : House) : House :=
  if (stored h.owner).isSome then h else { h with owner := 0 }

/-! ### What happens at a house -/

/-- What happens at a house; a payment and a change of hands with the warnings
that are counted at that moment. -/
inductive Event
  | warned
  | paid (warnings : ℕ)
  | received (warnings : ℕ)
  | evicted
  | released
  deriving DecidableEq, Repr

/-- What `payHouses` does at a house. -/
def rentEvent (W : World) (period : RentPeriod) (currentTime loadTime : ℤ) (h : House) (stored : Option Record) :
    Option Event :=
  if period = .never ∨ h.owner = 0 ∨ h.rent = 0 ∨ currentTime < h.paidUntil ∨
      (W.towns h.townid.toUInt32).isNone then none
  else
    match stored.bind (loadPlayer W loadTime) with
    | none => some .released
    | some p =>
      if h.rent.toUInt64 ≤ p.bankBalance then some (.paid h.payRentWarnings)
      else if h.payRentWarnings < 7 then some .warned
      else some .evicted

/-- What a change of the owner is. -/
def ownerEvents (stored : Store) (h : House) (guid : ℕ) : List Event :=
  if h.owner = guid then []
  else
    let released := if h.owner ≠ 0 then [Event.released] else []
    if guid ≠ 0 ∧ (stored guid).isSome then
      .received (if h.owner ≠ 0 then 0 else h.payRentWarnings) :: released
    else released

/-- The owner and the warnings after an event. -/
def Follows (h h' : House) : Option Event → Prop
  | none => h'.owner = h.owner ∧ h'.payRentWarnings = h.payRentWarnings
  | some .warned => h'.owner = h.owner ∧ h'.payRentWarnings = h.payRentWarnings + 1 ∧ h.payRentWarnings < 7
  | some (.paid w) => h'.owner = h.owner ∧ h'.payRentWarnings = h.payRentWarnings ∧ w = h.payRentWarnings
  | some (.received _) => False
  | some .evicted => h'.owner = 0 ∧ h'.payRentWarnings = 0 ∧ 7 ≤ h.payRentWarnings
  | some .released => h'.owner = 0 ∧ h'.payRentWarnings = 0

section Payments

variable {W : World} {period : RentPeriod} {currentTime loadTime saveTime : ℤ} {h : House} {stored : Option Record}

/-- What `payHouses` does at a house, in full. -/
theorem payHouse_follows : Follows h (payHouse W period currentTime loadTime saveTime h stored).1
    (rentEvent W period currentTime loadTime h stored) := by
  unfold payHouse rentEvent
  split
  · exact ⟨rfl, rfl⟩
  cases stored with
  | none => exact ⟨rfl, rfl⟩
  | some r =>
    dsimp only [Option.bind_some]
    cases loadPlayer W loadTime r with
    | none => exact ⟨rfl, rfl⟩
    | some p =>
      dsimp only
      split
      · exact ⟨rfl, rfl, rfl⟩
      split
      · next hlt =>
        split
        · exact ⟨rfl, rfl, hlt⟩
        split
        · exact ⟨rfl, rfl, hlt⟩
        · exact ⟨rfl, rfl, hlt⟩
      · next hge => exact ⟨rfl, rfl, by omega⟩

/-- The owner loses the house exactly when it is evicted, or cannot be loaded. -/
theorem payHouse_owner (howner : h.owner ≠ 0) :
    (payHouse W period currentTime loadTime saveTime h stored).1.owner = 0 ↔
      rentEvent W period currentTime loadTime h stored = some .evicted ∨
        rentEvent W period currentTime loadTime h stored = some .released := by
  have hfollows : Follows h (payHouse W period currentTime loadTime saveTime h stored).1
    (rentEvent W period currentTime loadTime h stored) := payHouse_follows
  cases hevent : rentEvent W period currentTime loadTime h stored with
  | none =>
    rw [hevent] at hfollows
    simp [hfollows.1, howner]
  | some e =>
    rw [hevent] at hfollows
    cases e with
    | warned => simp [hfollows.1, howner]
    | paid w => simp [hfollows.1, howner]
    | received w => exact hfollows.elim
    | evicted => simp [hfollows.1]
    | released => simp [hfollows.1]

end Payments
/-! ### Runs -/

/-- A house, and what happened at it, the latest first. -/
structure Tracked where
  house : House
  trace : List Event

structure State where
  houses : List Tracked
  stored : Store

/-- The houses after the payments, each with its event. -/
def payTracked (W : World) (period : RentPeriod) (currentTime loadTime saveTime : ℤ) :
    List Tracked → Store → List Tracked × Store
  | [], stored => ([], stored)
  | t :: ts, stored =>
    let r := payHouse W period currentTime loadTime saveTime t.house (stored t.house.owner)
    let e := rentEvent W period currentTime loadTime t.house (stored t.house.owner)
    let rest := payTracked W period currentTime loadTime saveTime ts (Function.update stored t.house.owner r.2.1)
    (⟨r.1, e.toList ++ t.trace⟩ :: rest.1, rest.2)

/-- What the following adds does not change what the loop does. -/
theorem payTracked_houses (W : World) (period : RentPeriod) (currentTime loadTime saveTime : ℤ) (ts : List Tracked)
    (stored : Store) :
    ((payTracked W period currentTime loadTime saveTime ts stored).1.map Tracked.house,
        (payTracked W period currentTime loadTime saveTime ts stored).2) =
      payHouses W period currentTime loadTime saveTime (ts.map Tracked.house) stored := by
  induction ts generalizing stored with
  | nil => rfl
  | cons t ts ih =>
    simp only [payTracked, payHouses, List.map_cons]
    rw [← ih]

/-- A step of a run. -/
inductive Step
  /-- the rents are due -/
  | payHouses (period : RentPeriod) (currentTime loadTime saveTime : ℤ)
  /-- a house gets an owner, or loses it -/
  | setOwner (i : ℕ) (guid : ℕ) (loadTime saveTime : ℤ)
  /-- the server is started again -/
  | restart
  /-- the players change -/
  | players (stored : Store)
  /-- a house changes in what the owner and the payments are not -/
  | house (i : ℕ) (rent : UInt32) (townid : ℕ) (name : Bytes) (tiles : List (Forest Item))

def step (W : World) (s : State) : Step → State
  | .payHouses period currentTime loadTime saveTime =>
    let r := payTracked W period currentTime loadTime saveTime s.houses s.stored
    ⟨r.1, r.2⟩
  | .setOwner i guid loadTime saveTime =>
    match s.houses[i]? with
    | none => s
    | some t =>
      let r := setOwner W loadTime saveTime s.stored t.house guid
      ⟨s.houses.set i ⟨r.1, ownerEvents s.stored t.house guid ++ t.trace⟩, r.2⟩
  | .restart => { s with houses := s.houses.map fun t => { t with house := restart s.stored t.house } }
  | .players stored => { s with stored }
  | .house i rent townid name tiles =>
    { s with houses := s.houses.modify i fun t => { t with house := { t.house with rent, townid, name, tiles } } }

def run (W : World) (s : State) (steps : List Step) : State := steps.foldl (step W) s

/-- A house that nobody has had. -/
def New (t : Tracked) : Prop := t.house.owner = 0 ∧ t.house.payRentWarnings = 0 ∧ t.trace = []

/-! ### The count of the warnings -/

/-- The warnings since the last payment, or since the owner has the house. -/
def fresh : List Event → ℕ
  | .warned :: l => fresh l + 1
  | _ => 0

/-- The warnings that were counted at the last payment, or when the owner got
the house. -/
def countBefore : List Event → ℕ
  | .warned :: l => countBefore l
  | .paid w :: _ => w
  | .received w :: _ => w
  | _ => 0

/-- Since its last payment, or since it was received, the house was warned only. -/
def Owned : List Event → Prop
  | .warned :: l => Owned l
  | .paid _ :: _ => True
  | .received _ :: _ => True
  | _ => False

/-- The count of a house, and that of each house that was taken away. -/
structure Counted (t : Tracked) : Prop where
  count : t.house.payRentWarnings = countBefore t.trace + fresh t.trace
  le : t.house.payRentWarnings ≤ 7
  owned : t.house.owner ≠ 0 → Owned t.trace
  evicted : ∀ newer older, t.trace = newer ++ .evicted :: older →
    countBefore older + fresh older = 7 ∧ Owned older

section Runs

variable {W : World} {t : Tracked} {h : House} {s : State}

/-- An event that is no eviction leaves the evictions as they are. -/
theorem Counted.evicted_cons {e : Event} (hc : Counted t) (he : e ≠ .evicted) :
    ∀ newer older, e :: t.trace = newer ++ .evicted :: older → countBefore older + fresh older = 7 ∧ Owned older := by
  intro newer older htrace
  cases newer with
  | nil =>
    simp only [List.nil_append, List.cons.injEq] at htrace
    exact absurd htrace.1 he
  | cons x newer =>
    simp only [List.cons_append, List.cons.injEq] at htrace
    exact hc.evicted newer older htrace.2

/-- An event at a house is counted. -/
theorem Counted.follows {e : Option Event} (hc : Counted t) (howner : e ≠ none → t.house.owner ≠ 0)
    (hf : Follows t.house h e) : Counted ⟨h, e.toList ++ t.trace⟩ := by
  have hcount := hc.count
  have hle := hc.le
  cases e with
  | none =>
    obtain ⟨hsame, hwarnings⟩ := hf
    exact ⟨hwarnings.trans hcount, hwarnings.trans_le hle, fun hne => hc.owned (hsame ▸ hne), hc.evicted⟩
  | some e =>
    have howned := hc.owned (howner (Option.some_ne_none e))
    cases e with
    | warned =>
      obtain ⟨-, hwarnings, hlt⟩ := hf
      refine ⟨?_, ?_, fun _ => howned, hc.evicted_cons (by decide)⟩
      · simp only [Option.toList_some, List.singleton_append, countBefore, fresh]
        omega
      · dsimp only
        omega
    | paid w =>
      obtain ⟨-, hwarnings, rfl⟩ := hf
      exact ⟨hwarnings, hwarnings.trans_le hle, fun _ => trivial, hc.evicted_cons (by simp)⟩
    | received w => exact hf.elim
    | evicted =>
      obtain ⟨hzero, hwarnings, hge⟩ := hf
      refine ⟨hwarnings, hwarnings.trans_le (Nat.zero_le _), fun hne => absurd hzero hne, fun newer older htrace => ?_⟩
      cases newer with
      | nil =>
        simp only [Option.toList_some, List.singleton_append, List.nil_append, List.cons.injEq, true_and] at htrace
        subst htrace
        exact ⟨by omega, howned⟩
      | cons x newer =>
        simp only [Option.toList_some, List.cons_append, List.cons.injEq] at htrace
        exact hc.evicted newer older htrace.2
    | released =>
      obtain ⟨hzero, hwarnings⟩ := hf
      exact ⟨hwarnings, hwarnings.trans_le (Nat.zero_le _), fun hne => absurd hzero hne, hc.evicted_cons (by decide)⟩

theorem owner_ne_of_rentEvent {period : RentPeriod} {currentTime loadTime : ℤ} {stored : Option Record}
    (he : rentEvent W period currentTime loadTime h stored ≠ none) : h.owner ≠ 0 := by
  intro hzero
  refine he ?_
  unfold rentEvent
  exact if_pos (.inr (.inl hzero))

theorem counted_payTracked {period : RentPeriod} {currentTime loadTime saveTime : ℤ} :
    ∀ {ts : List Tracked} {stored : Store}, (∀ t ∈ ts, Counted t) →
      ∀ t ∈ (payTracked W period currentTime loadTime saveTime ts stored).1, Counted t
  | [], _, _, _, ht => absurd ht List.not_mem_nil
  | t :: ts, stored, hts, u, hu => by
    rw [payTracked, List.mem_cons] at hu
    rcases hu with rfl | hu
    · exact (hts t List.mem_cons_self).follows owner_ne_of_rentEvent payHouse_follows
    · exact counted_payTracked (fun v hv => hts v (List.mem_cons_of_mem t hv)) u hu

theorem leave_spec (W : World) (loadTime saveTime : ℤ) (stored : Store) (h : House) :
    (leave W loadTime saveTime stored h).1.owner = 0 ∧ (leave W loadTime saveTime stored h).1.payRentWarnings = 0 ∧
      ∀ guid, guid ≠ h.owner → (leave W loadTime saveTime stored h).2 guid = stored guid := by
  unfold leave
  cases stored h.owner with
  | none => exact ⟨rfl, rfl, fun _ _ => rfl⟩
  | some r => exact ⟨rfl, rfl, fun guid hne => Function.update_of_ne hne _ _⟩

theorem setOwner_of_ne {loadTime saveTime : ℤ} {stored : Store} {guid : ℕ} (hne : h.owner ≠ guid) :
    (setOwner W loadTime saveTime stored h guid).1.payRentWarnings = (if h.owner ≠ 0 then 0 else h.payRentWarnings) ∧
      (setOwner W loadTime saveTime stored h guid).1.owner = if guid ≠ 0 ∧ (stored guid).isSome then guid else 0 := by
  unfold setOwner
  rw [if_neg hne]
  obtain ⟨r, hr, hwarnings, howner, hknown⟩ : ∃ r : House × Store,
      (if h.owner ≠ 0 then leave W loadTime saveTime stored h else (h, stored)) = r ∧
        r.1.payRentWarnings = (if h.owner ≠ 0 then 0 else h.payRentWarnings) ∧ r.1.owner = 0 ∧
        r.2 guid = stored guid := by
    by_cases howner : h.owner = 0
    · simp [howner]
    · obtain ⟨hzero, hwarnings, hknown⟩ := leave_spec W loadTime saveTime stored h
      simp [howner, hzero, hwarnings, hknown guid (Ne.symm hne)]
  rw [hr, ← hwarnings, ← hknown]
  dsimp only
  split
  · exact ⟨rfl, rfl⟩
  · exact ⟨rfl, howner⟩

/-- A change of the owner is counted. -/
theorem Counted.setOwner {loadTime saveTime : ℤ} {stored : Store} {guid : ℕ} (hc : Counted t) :
    Counted ⟨(Rent.setOwner W loadTime saveTime stored t.house guid).1,
      ownerEvents stored t.house guid ++ t.trace⟩ := by
  by_cases hne : t.house.owner = guid
  · unfold Rent.setOwner ownerEvents
    rw [if_pos hne, if_pos hne]
    exact hc
  obtain ⟨hwarnings, howner⟩ := @setOwner_of_ne W _ loadTime saveTime stored _ hne
  have hcount := hc.count
  have hle := hc.le
  unfold ownerEvents
  rw [if_neg hne]
  by_cases hzero : t.house.owner = 0
  · rw [if_neg (not_not.2 hzero)] at hwarnings ⊢
    by_cases hguid : guid ≠ 0 ∧ (stored guid).isSome
    · rw [if_pos hguid]
      rw [if_neg (not_not.2 hzero)]
      exact ⟨hwarnings, hwarnings.trans_le hle, fun _ => trivial, hc.evicted_cons (by simp)⟩
    · rw [if_neg hguid] at howner ⊢
      exact ⟨hwarnings.trans hcount, hwarnings.trans_le hle, fun h => absurd howner h, hc.evicted⟩
  · rw [if_pos hzero] at hwarnings ⊢
    have hreleased : Counted ⟨{ t.house with owner := 0, payRentWarnings := 0 }, .released :: t.trace⟩ :=
      ⟨rfl, by simp, fun h => absurd rfl h, hc.evicted_cons (by simp)⟩
    by_cases hguid : guid ≠ 0 ∧ (stored guid).isSome
    · rw [if_pos hguid, if_pos hzero]
      exact ⟨hwarnings, hwarnings.trans_le (Nat.zero_le _), fun _ => trivial, hreleased.evicted_cons (by simp)⟩
    · rw [if_neg hguid] at howner ⊢
      exact ⟨hwarnings, hwarnings.trans_le (Nat.zero_le _), fun h => absurd howner h, hreleased.evicted⟩

theorem Counted.restart {stored : Store} (hc : Counted t) :
    Counted { t with house := Rent.restart stored t.house } := by
  unfold Rent.restart
  split
  · exact hc
  · exact ⟨hc.count, hc.le, fun h => absurd rfl h, hc.evicted⟩

theorem counted_step (hs : ∀ t ∈ s.houses, Counted t) (x : Step) : ∀ t ∈ (step W s x).houses, Counted t := by
  cases x with
  | payHouses period currentTime loadTime saveTime => exact counted_payTracked hs
  | setOwner i guid loadTime saveTime =>
    rw [step]
    cases hi : s.houses[i]? with
    | none => exact hs
    | some t =>
      intro u hu
      rcases List.mem_or_eq_of_mem_set hu with hu | rfl
      · exact hs u hu
      · exact (hs t (List.mem_of_getElem? hi)).setOwner
  | restart =>
    intro u hu
    obtain ⟨t, ht, rfl⟩ := List.mem_map.1 hu
    exact (hs t ht).restart
  | players stored => exact hs
  | house i rent townid name tiles =>
    intro u hu
    obtain ⟨j, hj, rfl⟩ := List.mem_iff_getElem.1 hu
    simp only [step, List.length_modify] at hj
    simp only [step, List.getElem_modify]
    have hc := hs _ (List.getElem_mem hj)
    split
    · exact ⟨hc.count, hc.le, hc.owned, hc.evicted⟩
    · exact hc

theorem counted_run (hs : ∀ t ∈ s.houses, Counted t) (steps : List Step) :
    ∀ t ∈ (run W s steps).houses, Counted t := by
  induction steps generalizing s with
  | nil => exact hs
  | cons x steps ih => exact ih (counted_step hs x)

theorem New.counted (h : New t) : Counted t := by
  obtain ⟨howner, hwarnings, htrace⟩ := h
  refine ⟨by simp [htrace, hwarnings, countBefore, fresh], by omega, fun hne => absurd howner hne, ?_⟩
  rw [htrace]
  simp

/-- In any run, an eviction comes after seven warnings since the last payment,
or since the house was received, exactly when none was counted at that moment. -/
theorem evicted_iff (steps : List Step) (hnew : ∀ t ∈ s.houses, New t) (ht : t ∈ (run W s steps).houses)
    {newer older : List Event} (htrace : t.trace = newer ++ .evicted :: older) :
    Owned older ∧ (7 ≤ fresh older ↔ countBefore older = 0) := by
  obtain ⟨hseven, howned⟩ := (counted_run (fun u hu => (hnew u hu).counted) steps t ht).evicted newer older htrace
  exact ⟨howned, by omega⟩

/-! ### A payment between warnings -/

/-- A house that costs 100 gold. -/
def hut : House :=
  { owner := 0, townid := 1, rent := 100, paidUntil := 0, payRentWarnings := 0, name := [72], tiles := [] }

/-- The one player has some gold in the bank. -/
def withBalance (balance : UInt64) : Store := fun guid =>
  if guid = 1 then some { newcomer with columns := { newcomer.columns with balance } } else none

/-- A day on which the player has some gold in the bank. -/
def day (n : ℕ) (balance : UInt64) : List Step :=
  [.players (withBalance balance), .payHouses .daily (86400 * n) 0 0]

/-- A day without gold, one with it, and seven days without. -/
def lateOnce : List Step :=
  [.players (withBalance 0), .setOwner 0 1 0 0] ++ day 1 0 ++ day 2 1000 ++
    (day 3 0 ++ day 4 0 ++ day 5 0 ++ day 6 0 ++ day 7 0 ++ day 8 0 ++ day 9 0)

theorem trace_lateOnce : (run postOffice ⟨[⟨hut, []⟩], fun _ => none⟩ lateOnce).houses.map Tracked.trace =
    [[.evicted, .warned, .warned, .warned, .warned, .warned, .warned, .paid 1, .warned, .received 0]] := by
  decide

theorem exists_lateOnce : ∃ t ∈ (run postOffice ⟨[⟨hut, []⟩], fun _ => none⟩ lateOnce).houses, t.trace =
    [.evicted, .warned, .warned, .warned, .warned, .warned, .warned, .paid 1, .warned, .received 0] := by
  have hmem : [Event.evicted, .warned, .warned, .warned, .warned, .warned, .warned, .paid 1, .warned, .received 0] ∈
      (run postOffice ⟨[⟨hut, []⟩], fun _ => none⟩ lateOnce).houses.map Tracked.trace := by
    rw [trace_lateOnce]
    exact List.mem_cons_self
  exact List.mem_map.1 hmem

theorem evicted_iff_lateOnce :
    Owned [.warned, .warned, .warned, .warned, .warned, .warned, .paid 1, .warned, .received 0] ∧
      (7 ≤ fresh [.warned, .warned, .warned, .warned, .warned, .warned, .paid 1, .warned, .received 0] ↔
        countBefore [.warned, .warned, .warned, .warned, .warned, .warned, .paid 1, .warned, .received 0] = 0) := by
  obtain ⟨t, ht, htrace⟩ := exists_lateOnce
  refine @evicted_iff postOffice t ⟨[⟨hut, []⟩], fun _ => none⟩ lateOnce ?_ ht [] _ htrace
  intro u hu
  obtain rfl := List.mem_singleton.1 hu
  exact ⟨rfl, rfl, rfl⟩

/-- The rent was paid after the first warning, and the house is taken after six more. -/
theorem evicted_after_six : ∃ t ∈ (run postOffice ⟨[⟨hut, []⟩], fun _ => none⟩ lateOnce).houses,
    ∃ older, t.trace = .evicted :: older ∧ Owned older ∧ fresh older = 6 := by
  obtain ⟨t, ht, htrace⟩ := exists_lateOnce
  exact ⟨t, ht, _, htrace, trivial, rfl⟩

end Runs
end Rent
end ForgottenServer
