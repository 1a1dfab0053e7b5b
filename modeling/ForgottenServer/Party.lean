/-
# Parties

A party keeps its leader, members and invitees; a player keeps his party and
the parties that invited him. Both sides are changed by `Party` and `Player`
together. Parties live on a heap: `disband` deletes its party, a method that is
called on a deleted party has no result, and an address is not used twice, so
that what once referred to a deleted party stays recognisable. The script
events return true; messages, skulls, shields and the shared experience are
left out.

Key definitions: `Party`, `State`, `leaveParty`, `clearPartyInvitations`,
`step`, `Inv`.
Key theorems: `Consistent.update`, `leaveParty_inv`,
`clearPartyInvitations_inv`, `run_inv`, `membership`.
-/
import Mathlib.Data.List.Nodup
import Mathlib.Data.List.Perm.Basic
import Mathlib.Tactic.Common

namespace ForgottenServer
namespace Parties

/-! ### The model -/

/-- The fields of `Party` that the operations read or change; `Player*` is a
`ι`. -/
structure Party (ι : Type) where
  leader : ι
  memberList : List ι
  inviteList : List ι
  deriving DecidableEq

/-- The heap of parties with the next address, and for each player `party`,
`invitePartyList` and whether `getPlayerByID` finds him. -/
structure State (ι : Type) where
  parties : ℕ → Option (Party ι)
  nextParty : ℕ
  party : ι → Option ℕ
  invitePartyList : ι → List ℕ
  online : ι → Bool

variable {ι : Type} [DecidableEq ι]

namespace State

def setParty (s : State ι) (player : ι) (p : Option ℕ) : State ι :=
  { s with party := Function.update s.party player p }

/-- A party at an address, or the deletion of the one there. -/
def put (s : State ι) (p : ℕ) (o : Option (Party ι)) : State ι :=
  { s with parties := Function.update s.parties p o }

/-- `Player::addPartyInvitation` -/
def addPartyInvitation (s : State ι) (player : ι) (p : ℕ) : State ι :=
  if p ∈ s.invitePartyList player then s
  else { s with invitePartyList :=
      Function.update s.invitePartyList player (p :: s.invitePartyList player) }

/-- `Player::removePartyInvitation` -/
def removePartyInvitation (s : State ι) (player : ι) (p : ℕ) : State ι :=
  { s with invitePartyList :=
      Function.update s.invitePartyList player ((s.invitePartyList player).filter (· ≠ p)) }

/-- `Player::isInviting` -/
def isInviting (s : State ι) (inviter player : ι) : Option Bool :=
  match s.party inviter with
  | none => some false
  | some p => do
    let P ← s.parties p
    return P.leader = inviter && P.inviteList.contains player

/-- `Player::isPartner` -/
def isPartner (s : State ι) (player other : ι) : Bool :=
  (s.party player).isSome && s.party player = s.party other

end State

open State

/-- `Party::empty` -/
def Party.empty (P : Party ι) : Bool := P.memberList.isEmpty && P.inviteList.isEmpty

/-- `Party::disband` -/
def disband (s : State ι) (p : ℕ) : Option (State ι) := do
  let P ← s.parties p
  let s := s.setParty P.leader none
  let s := P.inviteList.foldl (fun s invitee => s.removePartyInvitation invitee p) s
  let s := P.memberList.foldl (fun s member => s.setParty member none) s
  return s.put p none

/-- `Party::passPartyLeadership` -/
def passPartyLeadership (s : State ι) (p : ℕ) (player : ι) : Option (State ι) := do
  let P ← s.parties p
  if P.leader = player ∨ s.party player ≠ some p then return s
  return s.put p (some { P with leader := player, memberList := P.leader :: P.memberList.erase player })

/-- The leader's part of `Party::leaveParty`: the leadership is passed, or the
party is left without a leader (`missingLeader`). -/
def resign (s : State ι) (p : ℕ) (P : Party ι) (player : ι) : Option (State ι × Bool) :=
  if P.leader = player then
    match P.memberList with
    | [] => some (s, true)
    | front :: rest =>
      if rest = [] ∧ P.inviteList = [] then some (s, true)
      else (passPartyLeadership s p front).map fun s => (s, false)
  else some (s, false)

/-- `Party::leaveParty` -/
def leaveParty (s : State ι) (p : ℕ) (player : ι) : Option (State ι) := do
  let P ← s.parties p
  if s.party player ≠ some p ∧ P.leader ≠ player then return s
  let (s, missingLeader) ← resign s p P player
  let P ← s.parties p
  let P := { P with memberList := P.memberList.erase player }
  let s := (s.put p (some P)).setParty player none
  if missingLeader || P.empty then disband s p else return s

/-- `Party::joinParty` -/
def joinParty (s : State ι) (p : ℕ) (player : ι) : Option (State ι) := do
  let P ← s.parties p
  if player ∉ P.inviteList then return s
  let P := { P with
    memberList := P.memberList ++ [player], inviteList := P.inviteList.erase player }
  return ((s.put p (some P)).setParty player (some p)).removePartyInvitation player p

/-- `Party::removeInvite` -/
def removeInvite (s : State ι) (p : ℕ) (player : ι) (removeFromPlayer : Bool) :
    Option (State ι) := do
  let P ← s.parties p
  if player ∉ P.inviteList then return s
  let P := { P with inviteList := P.inviteList.erase player }
  let s := s.put p (some P)
  let s := if removeFromPlayer then s.removePartyInvitation player p else s
  if P.empty then disband s p else return s

/-- `Party::invitePlayer` -/
def invitePlayer (s : State ι) (p : ℕ) (player : ι) : Option (State ι) := do
  let P ← s.parties p
  if player ∈ P.inviteList then return s
  return (s.put p (some { P with inviteList := P.inviteList ++ [player] })).addPartyInvitation player p

/-- `Player::clearPartyInvitations`. The list does not change while the loop
runs over it: a party that is disbanded there has no invitees left. -/
def clearPartyInvitations (s : State ι) (player : ι) : Option (State ι) := do
  let s ← (s.invitePartyList player).foldlM (fun s p => removeInvite s p player false) s
  return { s with invitePartyList := Function.update s.invitePartyList player [] }

/-- `Party::Party` -/
def newParty (s : State ι) (leader : ι) : State ι :=
  let s := { s.put s.nextParty (some ⟨leader, [], []⟩) with nextParty := s.nextParty + 1 }
  s.setParty leader (some (s.nextParty - 1))

/-- The requests of the players, and a player's leaving of the game. `inFight`
tells whether `CONDITION_INFIGHT` keeps him from leaving the party. -/
inductive Action (ι : Type)
  | inviteToParty (player invited : ι)
  | joinParty (player leader : ι)
  | revokePartyInvitation (player invited : ι)
  | passPartyLeadership (player newLeader : ι)
  | leaveParty (player : ι) (inFight : Bool)
  | logout (player : ι)

/-- `Game::playerInviteToParty` -/
def playerInviteToParty (s : State ι) (player invited : ι) : Option (State ι) := do
  if ← s.isInviting invited player then return s
  if (s.party invited).isSome then return s
  match s.party player with
  | none => invitePlayer (newParty s player) s.nextParty invited
  | some p =>
    let P ← s.parties p
    if P.leader ≠ player then return s
    invitePlayer s p invited

/-- `Game::playerJoinParty` -/
def playerJoinParty (s : State ι) (player leader : ι) : Option (State ι) := do
  if !(← s.isInviting leader player) then return s
  match s.party leader with
  | none => return s
  | some p =>
    let P ← s.parties p
    if P.leader ≠ leader then return s
    if (s.party player).isSome then return s
    joinParty s p player

/-- `Game::playerRevokePartyInvitation` -/
def playerRevokePartyInvitation (s : State ι) (player invited : ι) : Option (State ι) := do
  match s.party player with
  | none => return s
  | some p =>
    let P ← s.parties p
    if P.leader ≠ player then return s
    if !(← s.isInviting player invited) then return s
    removeInvite s p invited true

/-- `Game::playerPassPartyLeadership` -/
def playerPassPartyLeadership (s : State ι) (player newLeader : ι) : Option (State ι) := do
  match s.party player with
  | none => return s
  | some p =>
    let P ← s.parties p
    if P.leader ≠ player then return s
    if !s.isPartner player newLeader then return s
    passPartyLeadership s p newLeader

/-- `Game::playerLeaveParty` -/
def playerLeaveParty (s : State ι) (player : ι) (inFight : Bool) : Option (State ι) :=
  match s.party player with
  | none => some s
  | some p => if inFight then some s else leaveParty s p player

/-- What `Player::onRemoveCreature` does about parties. -/
def logout (s : State ι) (player : ι) : Option (State ι) := do
  let s ← clearPartyInvitations s player
  let s ← match s.party player with
    | none => some s
    | some p => leaveParty s p player
  return { s with online := Function.update s.online player false }

/-- One request; `getPlayerByID` finds the players that are online. -/
def step (s : State ι) : Action ι → Option (State ι)
  | .inviteToParty player invited =>
    if s.online player && s.online invited then playerInviteToParty s player invited else some s
  | .joinParty player leader =>
    if s.online player && s.online leader then playerJoinParty s player leader else some s
  | .revokePartyInvitation player invited =>
    if s.online player && s.online invited then playerRevokePartyInvitation s player invited
    else some s
  | .passPartyLeadership player newLeader =>
    if s.online player && s.online newLeader then playerPassPartyLeadership s player newLeader
    else some s
  | .leaveParty player inFight =>
    if s.online player then playerLeaveParty s player inFight else some s
  | .logout player => if s.online player then logout s player else some s

/-- No parties, and any players online. -/
def initial (online : ι → Bool) : State ι := ⟨fun _ => none, 0, fun _ => none, fun _ => [], online⟩

/-! ### The invariant -/

/-- Leader and members. -/
def Party.players (P : Party ι) : List ι := P.leader :: P.memberList

/-- The two sides agree: a player's party is the one he is a leader or member
of, and his invitations come from the parties that list him. A reference to a
deleted party is thereby excluded. -/
structure Consistent (s : State ι) : Prop where
  players_nodup : ∀ p P, s.parties p = some P → P.players.Nodup
  invites_nodup : ∀ p P, s.parties p = some P → P.inviteList.Nodup
  party_iff : ∀ q p, s.party q = some p ↔ ∃ P, s.parties p = some P ∧ q ∈ P.players
  invitations_nodup : ∀ q, (s.invitePartyList q).Nodup
  invite_iff : ∀ q p, p ∈ s.invitePartyList q ↔ ∃ P, s.parties p = some P ∧ q ∈ P.inviteList
  fresh : ∀ p, s.nextParty ≤ p → s.parties p = none

/-- Every party but one has a member or an invitee. -/
def BusyBut (s : State ι) (p : ℕ) : Prop :=
  ∀ p' P, p' ≠ p → s.parties p' = some P → P.empty = false

structure Inv (s : State ι) : Prop extends Consistent s where
  busy : ∀ p P, s.parties p = some P → P.empty = false

omit [DecidableEq ι] in
theorem Inv.busyBut {s : State ι} (h : Inv s) (p : ℕ) : BusyBut s p := fun p' P _ => h.busy p' P

omit [DecidableEq ι] in
theorem Party.empty_eq_false {P : Party ι} :
    P.empty = false ↔ P.memberList ≠ [] ∨ P.inviteList ≠ [] := by
  simp only [Party.empty, Bool.and_eq_false_iff, List.isEmpty_eq_false_iff]

omit [DecidableEq ι] in
/-- The way every operation keeps the invariant: one address changes, and the
players' sides change for it alone. -/
theorem Consistent.update {s s' : State ι} (h : Consistent s) (p : ℕ) (o : Option (Party ι))
    (hs : s'.parties = Function.update s.parties p o)
    (hn : ∀ P ∈ o, P.players.Nodup ∧ P.inviteList.Nodup)
    (hm : ∀ q p', s'.party q = some p' ↔
      if p' = p then ∃ P, o = some P ∧ q ∈ P.players else s.party q = some p')
    (hv : ∀ q p', p' ∈ s'.invitePartyList q ↔
      if p' = p then ∃ P, o = some P ∧ q ∈ P.inviteList else p' ∈ s.invitePartyList q)
    (hvn : ∀ q, (s'.invitePartyList q).Nodup)
    (hf : s.nextParty ≤ s'.nextParty ∧ p < s'.nextParty) : Consistent s' where
  players_nodup p' P hP := by
    rw [hs] at hP
    by_cases e : p' = p
    · subst e
      rw [Function.update_self] at hP
      exact (hn P hP).1
    · rw [Function.update_of_ne e] at hP
      exact h.players_nodup p' P hP
  invites_nodup p' P hP := by
    rw [hs] at hP
    by_cases e : p' = p
    · subst e
      rw [Function.update_self] at hP
      exact (hn P hP).2
    · rw [Function.update_of_ne e] at hP
      exact h.invites_nodup p' P hP
  party_iff q p' := by
    rw [hm q p', hs]
    by_cases e : p' = p
    · rw [if_pos e, e, Function.update_self]
    · rw [if_neg e, Function.update_of_ne e]
      exact h.party_iff q p'
  invitations_nodup := hvn
  invite_iff q p' := by
    rw [hv q p', hs]
    by_cases e : p' = p
    · rw [if_pos e, e, Function.update_self]
    · rw [if_neg e, Function.update_of_ne e]
      exact h.invite_iff q p'
  fresh p' hp' := by
    have e : p' ≠ p := by have := hf.2; omega
    rw [hs, Function.update_of_ne e]
    exact h.fresh p' (Nat.le_trans hf.1 hp')

omit [DecidableEq ι] in
/-- The address that changes ends with a party that is not empty, or with none. -/
theorem inv_of_busyBut {s s' : State ι} {p : ℕ} {o : Option (Party ι)} (h : BusyBut s p)
    (hs : s'.parties = Function.update s.parties p o) (ho : ∀ P ∈ o, P.empty = false)
    (hc : Consistent s') : Inv s' where
  toConsistent := hc
  busy p' P hP := by
    rw [hs] at hP
    by_cases e : p' = p
    · subst e
      rw [Function.update_self] at hP
      exact ho P hP
    · rw [Function.update_of_ne e] at hP
      exact h p' P e hP

/-! ### The methods -/

section Methods

variable {s : State ι} {p : ℕ} {P : Party ι} {q : ι}

omit [DecidableEq ι] in
/-- The address of a live party is allocated. -/
theorem Consistent.lt (h : Consistent s) (hP : s.parties p = some P) : p < s.nextParty := by
  by_contra hlt
  rw [h.fresh p (by omega)] at hP
  cases hP

omit [DecidableEq ι] in
theorem Consistent.party_iff_players (h : Consistent s) (hP : s.parties p = some P) (q : ι) :
    s.party q = some p ↔ q ∈ P.players := by
  rw [h.party_iff q p, hP]
  simp

omit [DecidableEq ι] in
theorem Consistent.invite_iff_mem (h : Consistent s) (hP : s.parties p = some P) (q : ι) :
    p ∈ s.invitePartyList q ↔ q ∈ P.inviteList := by
  rw [h.invite_iff q p, hP]
  simp

theorem foldl_setParty : ∀ (l : List ι) (s : State ι),
    l.foldl (fun s member => s.setParty member none) s =
      { s with party := fun q => if q ∈ l then none else s.party q }
  | [], s => by simp
  | m :: l, s => by
    rw [List.foldl_cons, foldl_setParty l]
    congr 1
    funext q
    by_cases hq : q = m
    · subst hq
      simp [setParty]
    · simp [setParty, hq]

theorem foldl_removePartyInvitation (p : ℕ) : ∀ (l : List ι) (s : State ι),
    l.foldl (fun s invitee => s.removePartyInvitation invitee p) s =
      { s with invitePartyList := fun q =>
          if q ∈ l then (s.invitePartyList q).filter (· ≠ p) else s.invitePartyList q }
  | [], s => by simp
  | m :: l, s => by
    rw [List.foldl_cons, foldl_removePartyInvitation p l]
    congr 1
    funext q
    by_cases hq : q = m
    · subst hq
      simp [removePartyInvitation, List.filter_filter]
    · simp [removePartyInvitation, hq]

/-- `disband`, with what its loops amount to. -/
theorem disband_eq (hP : s.parties p = some P) : disband s p = some
    { s with
      parties := Function.update s.parties p none
      party := fun q => if q ∈ P.players then none else s.party q
      invitePartyList := fun q =>
        if q ∈ P.inviteList then (s.invitePartyList q).filter (· ≠ p) else s.invitePartyList q } := by
  unfold disband
  rw [hP]
  simp only [Option.bind_eq_bind, Option.bind_some, foldl_setParty, foldl_removePartyInvitation]
  refine congrArg some ?_
  simp only [put, setParty, State.mk.injEq, and_true, true_and, Party.players, List.mem_cons]
  funext q
  by_cases hq : q = P.leader
  · subst hq
    simp
  · simp [hq]

/-- Disbanding a party keeps the others consistent. -/
theorem disband_inv (h : Consistent s) (hb : BusyBut s p) (hP : s.parties p = some P) :
    ∃ s', disband s p = some s' ∧ Inv s' := by
  refine ⟨_, disband_eq hP, inv_of_busyBut hb rfl (fun _ h => by cases h) ?_⟩
  apply h.update p none rfl (fun _ h => by cases h)
  · intro q p'
    by_cases e : p' = p
    · subst e
      rw [if_pos rfl]
      have hiff := h.party_iff_players hP q
      by_cases hq : q ∈ P.players
      · simp [hq]
      · simpa [hq] using fun hc => hq (hiff.1 hc)
    · rw [if_neg e]
      by_cases hq : q ∈ P.players
      · have hp : s.party q = some p := (h.party_iff q p).2 ⟨P, hP, hq⟩
        simp [hq, hp, Ne.symm e]
      · simp [hq]
  · intro q p'
    by_cases e : p' = p
    · subst e
      rw [if_pos rfl]
      have hiff := h.invite_iff_mem hP q
      by_cases hq : q ∈ P.inviteList
      · simp [hq]
      · simpa [hq] using fun hc => hq (hiff.1 hc)
    · rw [if_neg e]
      by_cases hq : q ∈ P.inviteList
      · simp [hq, e]
      · simp [hq]
  · intro q
    by_cases hq : q ∈ P.inviteList
    · simp only [hq, if_true]
      exact (h.invitations_nodup q).filter _
    · simp only [hq, if_false]
      exact h.invitations_nodup q
  · exact ⟨Nat.le_refl _, h.lt hP⟩

/-- Only the members' order changes when the leadership is passed. -/
theorem passPartyLeadership_inv (h : Inv s) (hP : s.parties p = some P) (q : ι) :
    ∃ s', passPartyLeadership s p q = some s' ∧ Inv s' := by
  unfold passPartyLeadership
  rw [hP]
  simp only [Option.bind_eq_bind, Option.bind_some]
  by_cases hc : P.leader = q ∨ s.party q ≠ some p
  · rw [if_pos hc]
    exact ⟨s, rfl, h⟩
  rw [if_neg hc]
  simp only [not_or, not_not] at hc
  have hq : q ∈ P.memberList := by
    have hq := (h.party_iff_players hP q).1 hc.2
    exact (List.mem_cons.1 hq).resolve_left fun e => hc.1 e.symm
  set P' : Party ι := { P with leader := q, memberList := P.leader :: P.memberList.erase q } with hP'
  have hperm : P'.players.Perm P.players := by
    have hswap : (q :: P.leader :: P.memberList.erase q).Perm
        (P.leader :: q :: P.memberList.erase q) := List.Perm.swap ..
    exact hswap.trans ((List.perm_cons_erase hq).symm.cons P.leader)
  refine ⟨_, rfl, inv_of_busyBut (h.busyBut p) rfl ?_ ?_⟩
  · intro P'' hP''
    cases hP''
    rw [Party.empty_eq_false]
    exact Or.inl (List.cons_ne_nil _ _)
  · apply h.toConsistent.update p (some P') rfl
    · intro P'' hP''
      cases hP''
      exact ⟨hperm.nodup_iff.2 (h.players_nodup p P hP), h.invites_nodup p P hP⟩
    · intro q' p'
      by_cases e : p' = p
      · subst e
        rw [if_pos rfl]
        simp only [Option.some.injEq, exists_eq_left', hperm.mem_iff]
        exact h.party_iff_players hP q'
      · rw [if_neg e]
        exact Iff.rfl
    · intro q' p'
      by_cases e : p' = p
      · subst e
        rw [if_pos rfl]
        simp only [Option.some.injEq, exists_eq_left']
        exact h.invite_iff_mem hP q'
      · rw [if_neg e]
        exact Iff.rfl
    · exact h.invitations_nodup
    · exact ⟨Nat.le_refl _, h.lt hP⟩

/-- A party that lists one more invitee keeps everything consistent, and is not
empty. -/
theorem invitePlayer_inv (h : Consistent s) (hb : BusyBut s p) (hP : s.parties p = some P) (q : ι) :
    ∃ s', invitePlayer s p q = some s' ∧ Inv s' := by
  unfold invitePlayer
  rw [hP]
  simp only [Option.bind_eq_bind, Option.bind_some]
  by_cases hq : q ∈ P.inviteList
  · rw [if_pos hq]
    refine ⟨s, rfl, h, fun p' P' hP' => ?_⟩
    by_cases e : p' = p
    · subst e
      rw [hP] at hP'
      cases hP'
      exact Party.empty_eq_false.2 (Or.inr (List.ne_nil_of_mem hq))
    · exact hb p' P' e hP'
  rw [if_neg hq]
  have hnot : p ∉ s.invitePartyList q := fun hc => hq ((h.invite_iff_mem hP q).1 hc)
  refine ⟨_, rfl, inv_of_busyBut (p := p) (o := some { P with inviteList := P.inviteList ++ [q] }) hb
    ?_ ?_ ?_⟩
  · rw [addPartyInvitation, if_neg (by exact hnot)]
    rfl
  · intro P' hP'
    cases hP'
    exact Party.empty_eq_false.2 (Or.inr (by simp))
  rw [addPartyInvitation, if_neg (by exact hnot)]
  apply h.update p (some { P with inviteList := P.inviteList ++ [q] }) rfl
  · intro P' hP'
    cases hP'
    refine ⟨h.players_nodup p P hP, ?_⟩
    rw [List.nodup_append_comm]
    exact List.nodup_cons.2 ⟨hq, h.invites_nodup p P hP⟩
  · intro q' p'
    by_cases e : p' = p
    · subst e
      rw [if_pos rfl]
      simp only [Option.some.injEq, exists_eq_left']
      exact h.party_iff_players hP q'
    · rw [if_neg e]
      exact Iff.rfl
  · intro q' p'
    have hself := h.invite_iff_mem hP q'
    by_cases hq' : q' = q
    · subst hq'
      by_cases e : p' = p
      · simp [put, e]
      · simp [put, e]
    · by_cases e : p' = p
      · subst e
        simpa [put, hq'] using hself
      · simp [put, e, hq']
  · intro q'
    by_cases hq' : q' = q
    · subst hq'
      simpa [put] using ⟨hnot, h.invitations_nodup q'⟩
    · simpa [put, hq'] using h.invitations_nodup q'
  · exact ⟨Nat.le_refl _, h.lt hP⟩

/-- An invitee without a party becomes a member. -/
theorem joinParty_inv (h : Inv s) (hP : s.parties p = some P) (q : ι) (hq0 : s.party q = none) :
    ∃ s', joinParty s p q = some s' ∧ Inv s' := by
  unfold joinParty
  rw [hP]
  simp only [Option.bind_eq_bind, Option.bind_some]
  by_cases hq : q ∈ P.inviteList
  swap
  · rw [if_pos hq]
    exact ⟨s, rfl, h⟩
  rw [if_neg (not_not.2 hq)]
  set P' : Party ι := { P with
    memberList := P.memberList ++ [q], inviteList := P.inviteList.erase q } with hP'
  have hnot : q ∉ P.players := fun hc => by
    rw [← h.party_iff_players hP, hq0] at hc
    cases hc
  have hmem : ∀ q', q' ∈ P'.players ↔ q' = q ∨ q' ∈ P.players := by
    intro q'
    simp only [hP', Party.players, List.mem_cons, List.mem_append, List.not_mem_nil, or_false]
    tauto
  refine ⟨_, rfl, inv_of_busyBut (p := p) (o := some P') (h.busyBut p) rfl ?_ ?_⟩
  · intro P'' hP''
    cases hP''
    exact Party.empty_eq_false.2 (Or.inl (by simp [hP']))
  apply h.toConsistent.update p (some P') rfl
  · intro P'' hP''
    cases hP''
    refine ⟨?_, (h.invites_nodup p P hP).erase q⟩
    have hperm : P'.players.Perm (q :: P.players) := by
      have hc : (P.players ++ [q]).Perm ([q] ++ P.players) := List.perm_append_comm
      exact hc
    rw [hperm.nodup_iff]
    exact List.nodup_cons.2 ⟨hnot, h.players_nodup p P hP⟩
  · intro q' p'
    have hself := h.party_iff_players hP q'
    by_cases hq' : q' = q
    · subst hq'
      by_cases e : p' = p
      · simp [removePartyInvitation, setParty, put, e, hmem]
      · simp [removePartyInvitation, setParty, put, e, hq0, Ne.symm e]
    · by_cases e : p' = p
      · subst e
        simpa [removePartyInvitation, setParty, put, hq', hmem] using hself
      · simp [removePartyInvitation, setParty, put, e, hq']
  · intro q' p'
    have hself := h.invite_iff_mem hP q'
    have hnd := h.invites_nodup p P hP
    by_cases hq' : q' = q
    · subst hq'
      by_cases e : p' = p
      · simp [removePartyInvitation, setParty, put, e, hP', hnd.mem_erase_iff]
      · simp [removePartyInvitation, setParty, put, e]
    · by_cases e : p' = p
      · subst e
        simpa [removePartyInvitation, setParty, put, hq', hP', hnd.mem_erase_iff] using hself
      · simp [removePartyInvitation, setParty, put, e, hq']
  · intro q'
    by_cases hq' : q' = q
    · subst hq'
      simpa [removePartyInvitation, setParty, put] using (h.invitations_nodup q').filter _
    · simpa [removePartyInvitation, setParty, put, hq'] using h.invitations_nodup q'
  · exact ⟨Nat.le_refl _, h.lt hP⟩

/-- An invitation taken back on both sides. -/
theorem erase_invite (h : Consistent s) (hP : s.parties p = some P) (q : ι) :
    Consistent ((s.put p (some { P with inviteList := P.inviteList.erase q })).removePartyInvitation
      q p) := by
  apply h.update p (some { P with inviteList := P.inviteList.erase q }) rfl
  · intro P' hP'
    cases hP'
    exact ⟨h.players_nodup p P hP, (h.invites_nodup p P hP).erase q⟩
  · intro q' p'
    by_cases e : p' = p
    · subst e
      rw [if_pos rfl]
      simp only [Option.some.injEq, exists_eq_left']
      exact h.party_iff_players hP q'
    · rw [if_neg e]
      exact Iff.rfl
  · intro q' p'
    have hself := h.invite_iff_mem hP q'
    have hnd := h.invites_nodup p P hP
    by_cases hq' : q' = q
    · subst hq'
      by_cases e : p' = p
      · simp [removePartyInvitation, put, e, hnd.mem_erase_iff]
      · simp [removePartyInvitation, put, e]
    · by_cases e : p' = p
      · subst e
        simpa [removePartyInvitation, put, hq', hnd.mem_erase_iff] using hself
      · simp [removePartyInvitation, put, e, hq']
  · intro q'
    by_cases hq' : q' = q
    · subst hq'
      simpa [removePartyInvitation, put] using (h.invitations_nodup q').filter _
    · simpa [removePartyInvitation, put, hq'] using h.invitations_nodup q'
  · exact ⟨Nat.le_refl _, h.lt hP⟩

omit [DecidableEq ι] in
/-- Changing one address leaves the others busy. -/
theorem BusyBut.put (hb : BusyBut s p) {s' : State ι} {o : Option (Party ι)}
    (hs : s'.parties = Function.update s.parties p o) : BusyBut s' p := by
  intro p' P' e hP'
  rw [hs, Function.update_of_ne e] at hP'
  exact hb p' P' e hP'

/-- The end of the operations that take a player or an invitee away: an empty
party is disbanded. -/
theorem disband_if_empty (h : Consistent s) (hb : BusyBut s p) (hP : s.parties p = some P) :
    ∃ s', (if P.empty then disband s p else some s) = some s' ∧ Inv s' := by
  by_cases he : P.empty
  · rw [if_pos he]
    exact disband_inv h hb hP
  · rw [if_neg he]
    refine ⟨s, rfl, h, fun p' P' hP' => ?_⟩
    by_cases e : p' = p
    · subst e
      rw [hP] at hP'
      cases hP'
      simpa using he
    · exact hb p' P' e hP'

theorem removeInvite_inv (h : Inv s) (hP : s.parties p = some P) (q : ι) :
    ∃ s', removeInvite s p q true = some s' ∧ Inv s' := by
  unfold removeInvite
  rw [hP]
  simp only [Option.bind_eq_bind, Option.bind_some]
  by_cases hq : q ∈ P.inviteList
  · rw [if_neg (not_not.2 hq)]
    apply disband_if_empty (erase_invite h.toConsistent hP q) ((h.busyBut p).put rfl)
    exact Function.update_self ..
  · rw [if_pos hq]
    exact ⟨s, rfl, h⟩

/-- The state with other invitations of one player. -/
def State.withInvitations (s : State ι) (q : ι) (l : List ℕ) : State ι :=
  { s with invitePartyList := Function.update s.invitePartyList q l }

/-- A party without invitees is disbanded without touching any invitation. -/
theorem disband_withInvitations (hP : s.parties p = some P) (hi : P.inviteList = []) (q : ι)
    (l : List ℕ) :
    disband (s.withInvitations q l) p = (disband s p).map fun s' => s'.withInvitations q l := by
  rw [disband_eq hP, disband_eq (s := s.withInvitations q l) hP, hi]
  simp [withInvitations]

/-- One turn of `clearPartyInvitations`: the player's list still holds the
invitation, but the rest of it is what counts. -/
theorem removeInvite_false_inv {rest : List ℕ} (h : Inv (s.withInvitations q (p :: rest))) :
    ∃ s', removeInvite s p q false = some s' ∧ Inv (s'.withInvitations q rest) := by
  have hmem : p ∈ (s.withInvitations q (p :: rest)).invitePartyList q := by simp [withInvitations]
  obtain ⟨P, hP, hq⟩ := (h.invite_iff q p).1 hmem
  change s.parties p = some P at hP
  have hnd := h.invitations_nodup q
  simp only [withInvitations, Function.update_self] at hnd
  have hrest : (p :: rest).filter (· ≠ p) = rest := by
    rw [List.filter_cons_of_neg (by simp), List.filter_eq_self]
    intro a ha
    have hne : a ≠ p := fun e => (List.nodup_cons.1 hnd).1 (e ▸ ha)
    simpa using hne
  -- the same removal, carried out on both sides
  have hboth : ((s.withInvitations q (p :: rest)).put p
        (some { P with inviteList := P.inviteList.erase q })).removePartyInvitation q p =
      (s.put p (some { P with inviteList := P.inviteList.erase q })).withInvitations q rest := by
    simp only [removePartyInvitation, put, withInvitations, Function.update_self, hrest,
      Function.update_idem]
  have hc := erase_invite h.toConsistent hP q
  rw [hboth] at hc
  obtain ⟨s', he, hi⟩ := disband_if_empty hc ((h.busyBut p).put rfl) (Function.update_self ..)
  unfold removeInvite
  rw [hP]
  simp only [Option.bind_eq_bind, Option.bind_some, if_neg (not_not.2 hq)]
  by_cases hem : ({ P with inviteList := P.inviteList.erase q } : Party ι).empty
  · rw [if_pos hem] at he
    have hnil : P.inviteList.erase q = [] := by
      simpa using (Bool.and_eq_true_iff.1 hem).2
    rw [disband_withInvitations (P := { P with inviteList := P.inviteList.erase q })
      (Function.update_self ..) hnil] at he
    obtain ⟨s'', h1, h2⟩ := Option.map_eq_some_iff.1 he
    refine ⟨s'', ?_, h2 ▸ hi⟩
    simp only [Bool.false_eq_true, if_false]
    rw [if_pos hem]
    exact h1
  · rw [if_neg hem] at he
    cases he
    refine ⟨_, ?_, hi⟩
    simp only [Bool.false_eq_true, if_false]
    rw [if_neg hem]
    rfl

theorem clearPartyInvitations_loop (q : ι) : ∀ (l : List ℕ) (s : State ι),
    Inv (s.withInvitations q l) →
    ∃ s', l.foldlM (fun s p => removeInvite s p q false) s = some s' ∧ Inv (s'.withInvitations q [])
  | [], s, h => ⟨s, rfl, h⟩
  | p :: rest, s, h => by
    obtain ⟨s₁, h1, h2⟩ := removeInvite_false_inv h
    obtain ⟨s', h3, h4⟩ := clearPartyInvitations_loop q rest s₁ h2
    refine ⟨s', ?_, h4⟩
    rw [List.foldlM_cons, h1]
    exact h3

theorem clearPartyInvitations_inv (h : Inv s) (q : ι) :
    ∃ s', clearPartyInvitations s q = some s' ∧ Inv s' := by
  have hself : s.withInvitations q (s.invitePartyList q) = s := by
    rw [withInvitations, Function.update_eq_self]
  obtain ⟨s', h1, h2⟩ := clearPartyInvitations_loop q (s.invitePartyList q) s (by rw [hself]; exact h)
  refine ⟨s'.withInvitations q [], ?_, h2⟩
  unfold clearPartyInvitations
  rw [h1]
  rfl

/-- A member taken out of the list, on both sides. -/
theorem erase_member (h : Consistent s) (hP : s.parties p = some P) (hq : q ∈ P.memberList) :
    Consistent ((s.put p (some { P with memberList := P.memberList.erase q })).setParty q none) := by
  have hnd := h.players_nodup p P hP
  have hnl : (P.memberList).Nodup := (List.nodup_cons.1 hnd).2
  have hql : q ≠ P.leader := fun e => (List.nodup_cons.1 hnd).1 (e ▸ hq)
  apply h.update p (some { P with memberList := P.memberList.erase q }) rfl
  · intro P' hP'
    cases hP'
    refine ⟨?_, h.invites_nodup p P hP⟩
    exact List.Nodup.sublist (List.Sublist.cons_cons _ List.erase_sublist) hnd
  · intro q' p'
    have hself := h.party_iff_players hP q'
    by_cases hq' : q' = q
    · subst hq'
      by_cases e : p' = p
      · simp [setParty, put, e, Party.players, hql, hnl.mem_erase_iff]
      · have hp := (h.party_iff_players hP q').2 (List.mem_cons_of_mem _ hq)
        simp [setParty, put, e, hp, Ne.symm e]
    · by_cases e : p' = p
      · subst e
        simpa [setParty, put, hq', Party.players, hnl.mem_erase_iff] using hself
      · simp [setParty, put, e, hq']
  · intro q' p'
    by_cases e : p' = p
    · subst e
      rw [if_pos rfl]
      simp only [Option.some.injEq, exists_eq_left']
      exact h.invite_iff_mem hP q'
    · rw [if_neg e]
      exact Iff.rfl
  · exact h.invitations_nodup
  · exact ⟨Nat.le_refl _, h.lt hP⟩

/-- A leader whose party pointer is cleared first is disbanded just the same. -/
theorem disband_setParty (hP : s.parties p = some P) (hq : q ∈ P.players) :
    disband (s.setParty q none) p = disband s p := by
  rw [disband_eq hP, disband_eq (s := s.setParty q none) hP]
  simp only [setParty, Option.some.injEq, State.mk.injEq, and_true, true_and]
  funext q'
  by_cases hq' : q' = q
  · subst hq'
    simp [hq]
  · simp [hq']

/-- What becomes of the leadership: the leader is the last one who counts, or
the player is an ordinary member by now. -/
theorem resign_cases (h : Inv s) (hP : s.parties p = some P) (hq : q ∈ P.players) :
    (resign s p P q = some (s, true) ∧ P.leader = q) ∨
    ∃ s' P', resign s p P q = some (s', false) ∧ Inv s' ∧ s'.parties p = some P' ∧
      q ∈ P'.memberList := by
  unfold resign
  by_cases hl : P.leader = q
  swap
  · rw [if_neg hl]
    exact Or.inr ⟨s, P, rfl, h, hP, (List.mem_cons.1 hq).resolve_left fun e => hl e.symm⟩
  rw [if_pos hl]
  have hnd := h.players_nodup p P hP
  cases hm : P.memberList with
  | nil => exact Or.inl ⟨rfl, hl⟩
  | cons front rest =>
    dsimp only
    by_cases hlast : rest = [] ∧ P.inviteList = []
    · rw [if_pos hlast]
      exact Or.inl ⟨rfl, hl⟩
    rw [if_neg hlast]
    obtain ⟨s', he, hi⟩ := passPartyLeadership_inv h hP front
    rw [he]
    have hfront : s.party front = some p := (h.party_iff_players hP front).2 (by simp [Party.players, hm])
    have hne : P.leader ≠ front := fun e =>
      (List.nodup_cons.1 hnd).1 (by rw [e, hm]; exact List.mem_cons_self ..)
    have hs' : s' = s.put p (some { P with leader := front, memberList := P.leader :: rest }) := by
      unfold passPartyLeadership at he
      rw [hP] at he
      simp only [Option.bind_eq_bind, Option.bind_some, hne, hfront, ne_eq, not_true_eq_false,
        or_self, if_false, hm, List.erase_cons_head] at he
      exact (Option.some.inj he).symm
    refine Or.inr ⟨s', { P with leader := front, memberList := P.leader :: rest }, rfl, hi, ?_, ?_⟩
    · rw [hs']
      exact Function.update_self ..
    · rw [hl]
      exact List.mem_cons_self ..

theorem leaveParty_inv (h : Inv s) (hq : s.party q = some p) :
    ∃ s', leaveParty s p q = some s' ∧ Inv s' := by
  obtain ⟨P, hP, hmem⟩ := (h.party_iff q p).1 hq
  unfold leaveParty
  rw [hP]
  simp only [Option.bind_eq_bind, Option.bind_some]
  rw [if_neg (fun hc => hc.1 hq)]
  rcases resign_cases h hP hmem with ⟨he, hl⟩ | ⟨s₁, P₁, he, hi, hP₁, hm⟩
  · rw [he]
    have hnot : q ∉ P.memberList := hl ▸ (List.nodup_cons.1 (h.players_nodup p P hP)).1
    have hput : s.put p (some P) = s := by
      rw [put, ← hP, Function.update_eq_self]
    simp only [Option.bind_some, hP, List.erase_of_not_mem hnot, hput, Bool.true_or, if_true]
    rw [disband_setParty hP hmem]
    exact disband_inv h.toConsistent (h.busyBut p) hP
  · rw [he]
    simp only [Option.bind_some, hP₁, Bool.false_or]
    apply disband_if_empty (erase_member hi.toConsistent hP₁ hm) ((hi.busyBut p).put rfl)
    exact Function.update_self ..

/-- A new party with its leader alone. -/
theorem newParty_consistent (h : Consistent s) (hq : s.party q = none) :
    Consistent (newParty s q) := by
  have hno : s.parties s.nextParty = none := h.fresh _ (Nat.le_refl _)
  apply h.update s.nextParty (some ⟨q, [], []⟩) rfl
  · intro P' hP'
    cases hP'
    exact ⟨List.nodup_singleton q, List.nodup_nil⟩
  · intro q' p'
    have hself : s.party q' ≠ some s.nextParty := fun hc => by
      obtain ⟨P', hP', -⟩ := (h.party_iff q' _).1 hc
      rw [hno] at hP'
      cases hP'
    by_cases hq' : q' = q
    · subst hq'
      by_cases e : p' = s.nextParty
      · simp [newParty, setParty, put, e, Party.players]
      · simp [newParty, setParty, put, e, hq, Ne.symm e]
    · by_cases e : p' = s.nextParty
      · subst e
        simpa [newParty, setParty, put, hq', Party.players] using hself
      · simp [newParty, setParty, put, e, hq']
  · intro q' p'
    by_cases e : p' = s.nextParty
    · subst e
      rw [if_pos rfl]
      refine iff_of_false (fun hc => ?_) (by simp)
      obtain ⟨P', hP', -⟩ := (h.invite_iff q' _).1 hc
      rw [hno] at hP'
      cases hP'
    · rw [if_neg e]
      exact Iff.rfl
  · exact h.invitations_nodup
  · exact ⟨Nat.le_succ _, Nat.lt_succ_self _⟩

end Methods

/-! ### The requests -/

section Requests

variable {s : State ι}

theorem isInviting_some (h : Inv s) (inviter player : ι) :
    ∃ b, s.isInviting inviter player = some b := by
  unfold isInviting
  cases hp : s.party inviter with
  | none => exact ⟨_, rfl⟩
  | some p =>
    obtain ⟨P, hP, -⟩ := (h.party_iff inviter p).1 hp
    simp only [hP, Option.bind_eq_bind, Option.bind_some]
    exact ⟨_, rfl⟩

theorem playerInviteToParty_inv (h : Inv s) (player invited : ι) :
    ∃ s', playerInviteToParty s player invited = some s' ∧ Inv s' := by
  obtain ⟨b, hb⟩ := isInviting_some h invited player
  unfold playerInviteToParty
  rw [hb]
  simp only [Option.bind_eq_bind, Option.bind_some]
  by_cases h1 : b = true
  · rw [if_pos h1]
    exact ⟨s, rfl, h⟩
  rw [if_neg h1]
  by_cases h2 : (s.party invited).isSome
  · rw [if_pos h2]
    exact ⟨s, rfl, h⟩
  rw [if_neg h2]
  cases hp : s.party player with
  | none =>
    have hbusy : BusyBut (newParty s player) s.nextParty := (h.busyBut _).put rfl
    exact invitePlayer_inv (newParty_consistent h.toConsistent hp) hbusy (Function.update_self ..) invited
  | some p =>
    obtain ⟨P, hP, -⟩ := (h.party_iff player p).1 hp
    simp only [hP, Option.bind_some]
    by_cases h3 : P.leader ≠ player
    · rw [if_pos h3]
      exact ⟨s, rfl, h⟩
    · rw [if_neg h3]
      exact invitePlayer_inv h.toConsistent (h.busyBut p) hP invited

theorem playerJoinParty_inv (h : Inv s) (player leader : ι) :
    ∃ s', playerJoinParty s player leader = some s' ∧ Inv s' := by
  obtain ⟨b, hb⟩ := isInviting_some h leader player
  unfold playerJoinParty
  rw [hb]
  simp only [Option.bind_eq_bind, Option.bind_some]
  by_cases h1 : (!b) = true
  · rw [if_pos h1]
    exact ⟨s, rfl, h⟩
  rw [if_neg h1]
  cases hp : s.party leader with
  | none => exact ⟨s, rfl, h⟩
  | some p =>
    obtain ⟨P, hP, -⟩ := (h.party_iff leader p).1 hp
    simp only [hP, Option.bind_some]
    by_cases h2 : P.leader ≠ leader
    · rw [if_pos h2]
      exact ⟨s, rfl, h⟩
    rw [if_neg h2]
    by_cases h3 : (s.party player).isSome
    · rw [if_pos h3]
      exact ⟨s, rfl, h⟩
    · rw [if_neg h3]
      exact joinParty_inv h hP player (Option.not_isSome_iff_eq_none.1 h3)

theorem playerRevokePartyInvitation_inv (h : Inv s) (player invited : ι) :
    ∃ s', playerRevokePartyInvitation s player invited = some s' ∧ Inv s' := by
  obtain ⟨b, hb⟩ := isInviting_some h player invited
  unfold playerRevokePartyInvitation
  cases hp : s.party player with
  | none => exact ⟨s, rfl, h⟩
  | some p =>
    obtain ⟨P, hP, -⟩ := (h.party_iff player p).1 hp
    simp only [hP, hb, Option.bind_eq_bind, Option.bind_some]
    by_cases h1 : P.leader ≠ player
    · rw [if_pos h1]
      exact ⟨s, rfl, h⟩
    rw [if_neg h1]
    by_cases h2 : (!b) = true
    · rw [if_pos h2]
      exact ⟨s, rfl, h⟩
    · rw [if_neg h2]
      exact removeInvite_inv h hP invited

theorem playerPassPartyLeadership_inv (h : Inv s) (player newLeader : ι) :
    ∃ s', playerPassPartyLeadership s player newLeader = some s' ∧ Inv s' := by
  unfold playerPassPartyLeadership
  cases hp : s.party player with
  | none => exact ⟨s, rfl, h⟩
  | some p =>
    obtain ⟨P, hP, -⟩ := (h.party_iff player p).1 hp
    simp only [hP, Option.bind_eq_bind, Option.bind_some]
    by_cases h1 : P.leader ≠ player
    · rw [if_pos h1]
      exact ⟨s, rfl, h⟩
    rw [if_neg h1]
    by_cases h2 : (!s.isPartner player newLeader) = true
    · rw [if_pos h2]
      exact ⟨s, rfl, h⟩
    · rw [if_neg h2]
      exact passPartyLeadership_inv h hP newLeader

theorem playerLeaveParty_inv (h : Inv s) (player : ι) (inFight : Bool) :
    ∃ s', playerLeaveParty s player inFight = some s' ∧ Inv s' := by
  unfold playerLeaveParty
  cases hp : s.party player with
  | none => exact ⟨s, rfl, h⟩
  | some p =>
    cases inFight with
    | true => exact ⟨s, rfl, h⟩
    | false => exact leaveParty_inv h hp

theorem logout_inv (h : Inv s) (player : ι) : ∃ s', logout s player = some s' ∧ Inv s' := by
  obtain ⟨s₁, h1, hi⟩ := clearPartyInvitations_inv h player
  unfold logout
  rw [h1]
  cases hp : s₁.party player with
  | none =>
    refine ⟨{ s₁ with online := Function.update s₁.online player false }, ?_, ?_⟩
    · simp [hp]
    · exact ⟨⟨hi.players_nodup, hi.invites_nodup, hi.party_iff, hi.invitations_nodup, hi.invite_iff,
        hi.fresh⟩, hi.busy⟩
  | some p =>
    obtain ⟨s₂, h2, hi2⟩ := leaveParty_inv hi hp
    refine ⟨{ s₂ with online := Function.update s₂.online player false }, ?_, ?_⟩
    · simp [hp, h2]
    · exact ⟨⟨hi2.players_nodup, hi2.invites_nodup, hi2.party_iff, hi2.invitations_nodup,
        hi2.invite_iff, hi2.fresh⟩, hi2.busy⟩

theorem step_inv (h : Inv s) (a : Action ι) : ∃ s', step s a = some s' ∧ Inv s' := by
  cases a with
  | inviteToParty player invited =>
    simp only [step]
    split_ifs
    · exact playerInviteToParty_inv h player invited
    · exact ⟨s, rfl, h⟩
  | joinParty player leader =>
    simp only [step]
    split_ifs
    · exact playerJoinParty_inv h player leader
    · exact ⟨s, rfl, h⟩
  | revokePartyInvitation player invited =>
    simp only [step]
    split_ifs
    · exact playerRevokePartyInvitation_inv h player invited
    · exact ⟨s, rfl, h⟩
  | passPartyLeadership player newLeader =>
    simp only [step]
    split_ifs
    · exact playerPassPartyLeadership_inv h player newLeader
    · exact ⟨s, rfl, h⟩
  | leaveParty player inFight =>
    simp only [step]
    split_ifs
    · exact playerLeaveParty_inv h player inFight
    · exact ⟨s, rfl, h⟩
  | logout player =>
    simp only [step]
    split_ifs
    · exact logout_inv h player
    · exact ⟨s, rfl, h⟩

omit [DecidableEq ι] in
theorem initial_inv (online : ι → Bool) : Inv (initial online) where
  players_nodup _ _ h := by cases h
  invites_nodup _ _ h := by cases h
  party_iff q p := by simp [initial]
  invitations_nodup _ := List.nodup_nil
  invite_iff q p := by simp [initial]
  fresh _ _ := rfl
  busy _ _ h := by cases h

/-- Requests in any order come to an end, each on parties that are still there,
and keep the invariant. -/
theorem run_inv : ∀ (actions : List (Action ι)) {s : State ι}, Inv s →
    ∃ s', actions.foldlM step s = some s' ∧ Inv s'
  | [], s, h => ⟨s, rfl, h⟩
  | a :: actions, s, h => by
    obtain ⟨s₁, h1, hi⟩ := step_inv h a
    obtain ⟨s', h2, hi'⟩ := run_inv actions hi
    refine ⟨s', ?_, hi'⟩
    rw [List.foldlM_cons, h1]
    exact h2

end Requests

/-! ### Reachable states -/

/-- What a live party and the players say about each other. -/
structure Party.Agrees (s : State ι) (p : ℕ) (P : Party ι) : Prop where
  leader_notMem : P.leader ∉ P.memberList
  members_nodup : P.memberList.Nodup
  party_iff : ∀ q, s.party q = some p ↔ q = P.leader ∨ q ∈ P.memberList
  invite_iff : ∀ q, q ∈ P.inviteList ↔ p ∈ s.invitePartyList q
  invites_nodup : P.inviteList.Nodup
  nonempty : P.memberList ≠ [] ∨ P.inviteList ≠ []

omit [DecidableEq ι] in
theorem Inv.agrees {s : State ι} (h : Inv s) {p : ℕ} {P : Party ι} (hP : s.parties p = some P) :
    P.Agrees s p where
  leader_notMem := (List.nodup_cons.1 (h.players_nodup p P hP)).1
  members_nodup := (List.nodup_cons.1 (h.players_nodup p P hP)).2
  party_iff q := by
    rw [h.party_iff_players hP, Party.players, List.mem_cons]
  invite_iff q := (h.invite_iff_mem hP q).symm
  invites_nodup := h.invites_nodup p P hP
  nonempty := Party.empty_eq_false.1 (h.busy p P hP)

/-- From no parties, requests in any order end in a state where every live
party and the players agree, and no player refers to a deleted party. -/
theorem membership (online : ι → Bool) (actions : List (Action ι)) :
    ∃ s, actions.foldlM step (initial online) = some s ∧
      (∀ p P, s.parties p = some P → P.Agrees s p) ∧
      (∀ q, (s.invitePartyList q).Nodup) ∧
      (∀ q p, s.party q = some p → (s.parties p).isSome) ∧
      (∀ q p, p ∈ s.invitePartyList q → (s.parties p).isSome) := by
  obtain ⟨s, h, hi⟩ := run_inv actions (initial_inv online)
  refine ⟨s, h, fun p P hP => hi.agrees hP, hi.invitations_nodup, fun q p hp => ?_, fun q p hp => ?_⟩
  · obtain ⟨P, hP, -⟩ := (hi.party_iff q p).1 hp
    rw [hP]
    rfl
  · obtain ⟨P, hP, -⟩ := (hi.invite_iff q p).1 hp
    rw [hP]
    rfl

end Parties
end ForgottenServer
