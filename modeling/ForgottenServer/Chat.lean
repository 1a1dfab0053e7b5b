/-
# The channels of parties and guilds

A party and a guild have a channel each, which records its users. A channel is
found through the party or the guild that the player has now. `leaveParty`
closes the channel before it clears the player's party; `disband` clears it
first, so its closing finds no channel, and `setGuild` closes nothing. Who is
recorded is a member of the party or the guild, as long as nobody is left
behind in one of these two ways (`Heeded`).

Key definitions: `State`, `removeUserFromChannel`, `disband`, `leaveParty`,
`talkToChannel`, `Confidential`, `Heeded`.
Key theorems: `disband_eq`, `leaveParty_eq`, `step_inv`,
`confidential_of_heeded`.
-/
import Mathlib.Tactic
import ForgottenServer.Party
import ForgottenServer.Guild

namespace ForgottenServer
namespace Chat

open Parties (Party)

inductive ChannelId
  | guild | party
  deriving DecidableEq

/-- The players' parties and guilds, and the users of `partyChannels` and
`guildChannels`, by the party and by the id of the guild. -/
structure State (ι : Type) where
  party : Parties.State ι
  guild : Guilds.State ι
  partyChannels : ℕ → Option (Finset ι)
  guildChannels : ℕ → Option (Finset ι)

variable {ι : Type} [DecidableEq ι]

/-! ### The chat -/

omit [DecidableEq ι] in
/-- `Chat::getChannel` -/
def getChannel (s : State ι) (player : ι) : ChannelId → Option (Finset ι)
  | .guild => (s.guild.guildId player).bind s.guildChannels
  | .party => (s.party.party player).bind s.partyChannels

omit [DecidableEq ι] in
/-- The users of a player's channel are exchanged. -/
def setUsers (s : State ι) (player : ι) (channelId : ChannelId) (users : Finset ι) : State ι :=
  match channelId with
  | .guild =>
    match s.guild.guildId player with
    | none => s
    | some id => { s with guildChannels := Function.update s.guildChannels id (some users) }
  | .party =>
    match s.party.party player with
    | none => s
    | some p => { s with partyChannels := Function.update s.partyChannels p (some users) }

omit [DecidableEq ι] in
/-- `Chat::createChannel` -/
def createChannel (s : State ι) (player : ι) (channelId : ChannelId) : State ι :=
  match getChannel s player channelId with
  | some _ => s
  | none => setUsers s player channelId ∅

/-- `Chat::addUserToChannel` -/
def addUserToChannel (s : State ι) (player : ι) (channelId : ChannelId) : State ι :=
  match getChannel s player channelId with
  | none => s
  | some users => setUsers s player channelId (insert player users)

/-- `Chat::removeUserFromChannel`. Nobody owns these channels, so they are not
deleted. -/
def removeUserFromChannel (s : State ι) (player : ι) (channelId : ChannelId) : State ι :=
  match getChannel s player channelId with
  | none => s
  | some users => setUsers s player channelId (users.erase player)

/-- `Chat::removeUserFromAllChannels` -/
def removeUserFromAllChannels (s : State ι) (player : ι) : State ι :=
  { s with
    partyChannels := fun p => (s.partyChannels p).map (·.erase player)
    guildChannels := fun id => (s.guildChannels id).map (·.erase player) }

/-- The players that `Chat::talkToChannel` sends the text to. -/
def talkToChannel (s : State ι) (player : ι) (channelId : ChannelId) : Finset ι :=
  match getChannel s player channelId with
  | none => ∅
  | some users => if player ∈ users then users else ∅

/-- What `Player::sendClosePrivate` does about the channel of a party or a guild. -/
def sendClosePrivate (s : State ι) (player : ι) (channelId : ChannelId) : State ι :=
  removeUserFromChannel s player channelId

/-! ### Parties with their channel -/

omit [DecidableEq ι] in
def State.withParty (s : State ι) (t : Parties.State ι) : State ι := { s with party := t }

/-- `Party::disband` -/
def disband (s : State ι) (p : ℕ) : Option (State ι) := do
  let P ← s.party.parties p
  let s := sendClosePrivate (s.withParty (s.party.setParty P.leader none)) P.leader .party
  let s := P.inviteList.foldl (fun s invitee => s.withParty (s.party.removePartyInvitation invitee p)) s
  let s := P.memberList.foldl
    (fun s member => sendClosePrivate (s.withParty (s.party.setParty member none)) member .party) s
  return s.withParty (s.party.put p none)

/-- `Party::leaveParty` -/
def leaveParty (s : State ι) (p : ℕ) (player : ι) : Option (State ι) := do
  let P ← s.party.parties p
  if s.party.party player ≠ some p ∧ P.leader ≠ player then return s
  let (t, missingLeader) ← Parties.resign s.party p P player
  let P ← t.parties p
  let P := { P with memberList := P.memberList.erase player }
  let s := sendClosePrivate (s.withParty (t.put p (some P))) player .party
  let s := s.withParty (s.party.setParty player none)
  if missingLeader || P.empty then disband s p else return s

/-- `Party::removeInvite` -/
def removeInvite (s : State ι) (p : ℕ) (player : ι) (removeFromPlayer : Bool) : Option (State ι) := do
  let P ← s.party.parties p
  if player ∉ P.inviteList then return s
  let P := { P with inviteList := P.inviteList.erase player }
  let s := s.withParty (s.party.put p (some P))
  let s := if removeFromPlayer then s.withParty (s.party.removePartyInvitation player p) else s
  if P.empty then disband s p else return s

/-- `Player::clearPartyInvitations` -/
def clearPartyInvitations (s : State ι) (player : ι) : Option (State ι) := do
  let s ← (s.party.invitePartyList player).foldlM (fun s p => removeInvite s p player false) s
  return s.withParty
    { s.party with invitePartyList := Function.update s.party.invitePartyList player [] }

/-- `Game::playerRevokePartyInvitation` -/
def playerRevokePartyInvitation (s : State ι) (player invited : ι) : Option (State ι) := do
  match s.party.party player with
  | none => return s
  | some p =>
    let P ← s.party.parties p
    if P.leader ≠ player then return s
    if !(← s.party.isInviting player invited) then return s
    removeInvite s p invited true

/-- `Game::playerLeaveParty` -/
def playerLeaveParty (s : State ι) (player : ι) (inFight : Bool) : Option (State ι) :=
  match s.party.party player with
  | none => some s
  | some p => if inFight then some s else leaveParty s p player

/-- `Player::onRemoveCreature`: the party is left, then the channels, then the
guild. -/
def logout (s : State ι) (player : ι) : Option (State ι) := do
  let s ← clearPartyInvitations s player
  let s ← match s.party.party player with
    | none => some s
    | some p => leaveParty s p player
  let s := removeUserFromAllChannels s player
  let g ← Guilds.logout s.guild player
  return { s with
    guild := g
    party := { s.party with online := Function.update s.party.online player false } }

/-- `connect` is a connection to a player who is in the game already. -/
inductive Action (ι : Type)
  | requestChannels (player : ι)
  | openChannel (player : ι) (channelId : ChannelId)
  | closeChannel (player : ι) (channelId : ChannelId)
  | connect (player : ι)
  | inviteToParty (player invited : ι)
  | joinParty (player leader : ι)
  | revokePartyInvitation (player invited : ι)
  | passPartyLeadership (player newLeader : ι)
  | leaveParty (player : ι) (inFight : Bool)
  | setGuild (player : ι) (guild : Option ℕ)
  | login (player : ι) (row : Option Guilds.Membership)
  | logout (player : ι)

/-- One request. Those that close no channel are the ones of the party alone. -/
def step (s : State ι) : Action ι → Option (State ι)
  | .requestChannels player =>
    if s.party.online player then some (createChannel (createChannel s player .guild) player .party) else some s
  | .openChannel player channelId =>
    if s.party.online player then some (addUserToChannel s player channelId) else some s
  | .closeChannel player channelId =>
    if s.party.online player then some (removeUserFromChannel s player channelId) else some s
  | .connect player => if s.party.online player then some (removeUserFromAllChannels s player) else some s
  | .inviteToParty player invited => (Parties.step s.party (.inviteToParty player invited)).map s.withParty
  | .joinParty player leader => (Parties.step s.party (.joinParty player leader)).map s.withParty
  | .revokePartyInvitation player invited =>
    if s.party.online player && s.party.online invited then playerRevokePartyInvitation s player invited
    else some s
  | .passPartyLeadership player newLeader =>
    (Parties.step s.party (.passPartyLeadership player newLeader)).map s.withParty
  | .leaveParty player inFight =>
    if s.party.online player then playerLeaveParty s player inFight else some s
  | .setGuild player guild => (Guilds.step s.guild (.setGuild player guild)).map fun g => { s with guild := g }
  | .login player row =>
    (Guilds.step s.guild (.login player row)).map fun g =>
      { s with guild := g, party := { s.party with online := Function.update s.party.online player true } }
  | .logout player => if s.party.online player then logout s player else some s

omit [DecidableEq ι] in
def initial : State ι := ⟨Parties.initial fun _ => false, Guilds.initial, fun _ => none, fun _ => none⟩

/-! ### What should hold -/

/-- Who is recorded in a channel belongs to it. -/
structure Confidential (s : State ι) : Prop where
  party : ∀ p users, s.partyChannels p = some users → ∀ u ∈ users, s.party.party u = some p
  guild : ∀ id users, s.guildChannels id = some users → ∀ u ∈ users, s.guild.guildId u = some id

/-- Nobody of a party has its channel open, but for the one who goes. -/
def Silent (s : State ι) (p : ℕ) (P : Party ι) (gone : ι → Prop) : Prop :=
  ∀ users, s.partyChannels p = some users → ∀ u ∈ P.players, ¬ gone u → u ∉ users

/-- Without the player there are no invitees, and at most one player is left:
the party is disbanded. -/
def Deserted (P : Party ι) (player : ι) : Prop :=
  (∀ i ∈ P.inviteList, i = player) ∧ (P.players.erase player).length ≤ 1

/-- A party whose end is near has nobody left in its channel, and a player who
loses his guild has closed its channel. -/
def Heeded (s : State ι) : Action ι → Prop
  | .revokePartyInvitation player invited =>
    ∀ p P, s.party.party player = some p → s.party.parties p = some P → P.memberList = [] →
      (∀ i ∈ P.inviteList, i = invited) → Silent s p P fun _ => False
  | .leaveParty player inFight => inFight = false →
    ∀ p P, s.party.party player = some p → s.party.parties p = some P → Deserted P player →
      Silent s p P (· = player)
  | .logout player =>
    ∀ p P, s.party.parties p = some P → player ∈ P.players ∨ player ∈ P.inviteList → Deserted P player →
      Silent s p P (· = player)
  | .setGuild player guild => guild ≠ s.guild.guild player →
    ∀ id users, s.guild.guildId player = some id → s.guildChannels id = some users → player ∉ users
  | _ => True

/-! ### Parties are left as they were without the channels -/

section

variable {s : State ι} {p : ℕ} {player : ι}

omit [DecidableEq ι] in
@[simp] theorem party_withParty (t : Parties.State ι) : (s.withParty t).party = t := rfl

omit [DecidableEq ι] in
@[simp] theorem withParty_withParty (t t' : Parties.State ι) : (s.withParty t).withParty t' = s.withParty t' :=
  rfl

omit [DecidableEq ι] in
@[simp] theorem withParty_self (s : State ι) : s.withParty s.party = s := rfl

/-- The closing finds no channel when the party has been cleared. -/
theorem sendClosePrivate_of_none (h : s.party.party player = none) : sendClosePrivate s player .party = s := by
  unfold sendClosePrivate removeUserFromChannel getChannel
  rw [h]
  rfl

omit [DecidableEq ι] in
theorem foldl_withParty (f : Parties.State ι → ι → Parties.State ι) (l : List ι) (t : Parties.State ι) :
    l.foldl (fun s i => s.withParty (f s.party i)) (s.withParty t) = s.withParty (l.foldl f t) := by
  induction l generalizing t with
  | nil => rfl
  | cons i l ih => exact ih (f t i)

/-- **`disband` closes no channel.** -/
theorem disband_eq (s : State ι) (p : ℕ) : disband s p = (Parties.disband s.party p).map s.withParty := by
  have hclose : ∀ (t : Parties.State ι) (x : ι), sendClosePrivate (s.withParty (t.setParty x none)) x .party =
      s.withParty (t.setParty x none) := fun t x =>
    sendClosePrivate_of_none (Function.update_self ..)
  have hfold : ∀ (l : List ι) (t : Parties.State ι), l.foldl
      (fun s member => sendClosePrivate (s.withParty (s.party.setParty member none)) member .party)
      (s.withParty t) = s.withParty (l.foldl (fun t member => t.setParty member none) t) := by
    intro l
    induction l with
    | nil => exact fun _ => rfl
    | cons x l ih =>
      intro t
      rw [List.foldl_cons, List.foldl_cons, party_withParty, withParty_withParty, hclose, ih]
  unfold disband Parties.disband
  cases s.party.parties p with
  | none => rfl
  | some P =>
    simp only [Option.bind_eq_bind, Option.bind_some]
    rw [hclose, foldl_withParty (fun t invitee => t.removePartyInvitation invitee p), hfold]
    rfl

theorem removeInvite_eq (s : State ι) (p : ℕ) (player : ι) (b : Bool) :
    removeInvite s p player b = (Parties.removeInvite s.party p player b).map s.withParty := by
  unfold removeInvite Parties.removeInvite
  cases s.party.parties p with
  | none => rfl
  | some P =>
    simp only [Option.bind_eq_bind, Option.bind_some]
    by_cases hi : player ∉ P.inviteList
    · rw [if_pos hi, if_pos hi]
      rfl
    · rw [if_neg hi, if_neg hi]
      generalize ({ P with inviteList := P.inviteList.erase player } : Party ι) = P'
      cases b with
      | false =>
        simp only [Bool.false_eq_true, if_false]
        split
        · exact disband_eq _ p
        · rfl
      | true =>
        simp only [if_true]
        split
        · exact disband_eq _ p
        · rfl

theorem clearPartyInvitations_eq (s : State ι) (player : ι) :
    clearPartyInvitations s player = (Parties.clearPartyInvitations s.party player).map s.withParty := by
  have hloop : ∀ (l : List ℕ) (t : Parties.State ι),
      l.foldlM (fun s p => removeInvite s p player false) (s.withParty t) =
        (l.foldlM (fun t p => Parties.removeInvite t p player false) t).map s.withParty := by
    intro l
    induction l with
    | nil => exact fun _ => rfl
    | cons p l ih =>
      intro t
      rw [List.foldlM_cons, List.foldlM_cons, removeInvite_eq, party_withParty]
      cases Parties.removeInvite t p player false with
      | none => rfl
      | some t' => exact ih t'
  have hs := hloop (s.party.invitePartyList player) s.party
  rw [withParty_self] at hs
  unfold clearPartyInvitations Parties.clearPartyInvitations
  rw [hs]
  cases (s.party.invitePartyList player).foldlM (fun t p => Parties.removeInvite t p player false) s.party with
  | none => rfl
  | some t => rfl

theorem playerRevokePartyInvitation_eq (s : State ι) (player invited : ι) :
    playerRevokePartyInvitation s player invited =
      (Parties.playerRevokePartyInvitation s.party player invited).map s.withParty := by
  unfold playerRevokePartyInvitation Parties.playerRevokePartyInvitation
  cases s.party.party player with
  | none => rfl
  | some p =>
    dsimp only
    cases s.party.parties p with
    | none => rfl
    | some P =>
      simp only [Option.bind_eq_bind, Option.bind_some]
      by_cases hl : P.leader ≠ player
      · rw [if_pos hl, if_pos hl]
        rfl
      · rw [if_neg hl, if_neg hl]
        cases s.party.isInviting player invited with
        | none => rfl
        | some b =>
          cases b with
          | false => rfl
          | true => exact removeInvite_eq s p invited true

/-- A player's channel is found by his party. -/
theorem removeUserFromChannel_withParty {t : Parties.State ι} (h : t.party player = s.party.party player) :
    removeUserFromChannel (s.withParty t) player .party = (removeUserFromChannel s player .party).withParty t := by
  have hget : getChannel (s.withParty t) player .party = getChannel s player .party := by
    unfold getChannel
    rw [party_withParty, h]
    rfl
  unfold removeUserFromChannel
  rw [hget]
  cases getChannel s player .party with
  | none => rfl
  | some users =>
    dsimp only
    unfold setUsers
    dsimp only
    rw [party_withParty, h]
    cases s.party.party player with
    | none => rfl
    | some p => rfl

/-- The leadership is passed without a change of any player. -/
theorem players_passPartyLeadership {t t' : Parties.State ι} {x : ι}
    (h : Parties.passPartyLeadership t p x = some t') :
    t'.party = t.party ∧ t'.online = t.online ∧ t'.invitePartyList = t.invitePartyList := by
  unfold Parties.passPartyLeadership at h
  obtain ⟨P, -, h⟩ := Option.bind_eq_some_iff.1 h
  split at h
  · obtain rfl := Option.some.inj h
    exact ⟨rfl, rfl, rfl⟩
  · obtain rfl := Option.some.inj h
    exact ⟨rfl, rfl, rfl⟩


theorem players_resign {t t' : Parties.State ι} {P : Party ι} {b : Bool}
    (h : Parties.resign t p P player = some (t', b)) :
    t'.party = t.party ∧ t'.online = t.online ∧ t'.invitePartyList = t.invitePartyList := by
  unfold Parties.resign at h
  split at h
  · split at h
    · obtain ⟨rfl, -⟩ := Prod.mk.inj (Option.some.inj h)
      exact ⟨rfl, rfl, rfl⟩
    · split at h
      · obtain ⟨rfl, -⟩ := Prod.mk.inj (Option.some.inj h)
        exact ⟨rfl, rfl, rfl⟩
      · obtain ⟨t₁, ht₁, he⟩ := Option.map_eq_some_iff.1 h
        obtain ⟨rfl, -⟩ := Prod.mk.inj he
        exact players_passPartyLeadership ht₁
  · obtain ⟨rfl, -⟩ := Prod.mk.inj (Option.some.inj h)
    exact ⟨rfl, rfl, rfl⟩

/-- **`leaveParty` closes the channel of the player**, and no other. -/
theorem leaveParty_eq (h : s.party.party player = some p) : leaveParty s p player =
    (Parties.leaveParty s.party p player).map (removeUserFromChannel s player .party).withParty := by
  have hnot : ∀ leader, ¬ (s.party.party player ≠ some p ∧ leader ≠ player) := fun _ hc => hc.1 h
  unfold leaveParty Parties.leaveParty
  cases s.party.parties p with
  | none => rfl
  | some P =>
    simp only [Option.bind_eq_bind, Option.bind_some]
    rw [if_neg (hnot _), if_neg (hnot _)]
    cases hr : Parties.resign s.party p P player with
    | none => rfl
    | some r =>
      obtain ⟨t, missingLeader⟩ := r
      have hparty := (players_resign hr).1
      simp only [Option.bind_some]
      cases t.parties p with
      | none => rfl
      | some P' =>
        simp only [Option.bind_some]
        generalize ({ P' with memberList := P'.memberList.erase player } : Party ι) = P''
        have hclose : sendClosePrivate (s.withParty (t.put p (some P''))) player .party =
            (removeUserFromChannel s player .party).withParty (t.put p (some P'')) :=
          removeUserFromChannel_withParty (congrFun hparty player)
        rw [hclose]
        split
        · exact disband_eq _ p
        · rfl

end

/-! ### Who loses his party -/

/-- The players who have a party keep it, but for those who are hit. -/
structure Spares (t t' : Parties.State ι) (Hit : ι → Prop) : Prop where
  online : t'.online = t.online
  party : ∀ u p, t.party u = some p → ¬ Hit u → t'.party u = some p

section

variable {t t' t'' : Parties.State ι} {Hit Hit' : ι → Prop} {p : ℕ} {P : Party ι} {player : ι}

omit [DecidableEq ι] in
theorem Spares.refl (t : Parties.State ι) (Hit : ι → Prop) : Spares t t Hit := ⟨rfl, fun _ _ h _ => h⟩

omit [DecidableEq ι] in
theorem Spares.of_eq (ho : t'.online = t.online) (hp : t'.party = t.party) : Spares t t' Hit :=
  ⟨ho, fun u _ h _ => (congrFun hp u).trans h⟩

omit [DecidableEq ι] in
theorem Spares.mono (h : Spares t t' Hit) (hH : ∀ u, Hit u → Hit' u) : Spares t t' Hit' :=
  ⟨h.online, fun u p hp hu => h.party u p hp fun hc => hu (hH u hc)⟩

omit [DecidableEq ι] in
theorem Spares.trans (h : Spares t t' Hit) (h' : Spares t' t'' Hit) : Spares t t'' Hit :=
  ⟨h'.online.trans h.online, fun u p hp hu => h'.party u p (h.party u p hp hu) hu⟩

/-- A disbanded party has nobody. -/
theorem disband_spares (hP : t.parties p = some P) (he : Parties.disband t p = some t') :
    Spares t t' (· ∈ P.players) := by
  rw [Parties.disband_eq hP] at he
  obtain rfl := Option.some.inj he
  exact ⟨rfl, fun u _ hp hu => (if_neg hu).trans hp⟩

/-- The parties that are there have the players they had, and lost one invitee at
most. -/
def Trimmed (player : ι) (t t' : Parties.State ι) : Prop :=
  ∀ p P', t'.parties p = some P' → ∃ P, t.parties p = some P ∧ P'.leader = P.leader ∧
    P'.memberList = P.memberList ∧ (∀ i ∈ P'.inviteList, i ∈ P.inviteList) ∧
    ∀ i ∈ P.inviteList, i = player ∨ i ∈ P'.inviteList

omit [DecidableEq ι] in
theorem Trimmed.refl (player : ι) (t : Parties.State ι) : Trimmed player t t :=
  fun _ P h => ⟨P, h, rfl, rfl, fun _ hi => hi, fun _ hi => .inr hi⟩

omit [DecidableEq ι] in
theorem Trimmed.trans (h : Trimmed player t t') (h' : Trimmed player t' t'') : Trimmed player t t'' := by
  intro p P'' hP''
  obtain ⟨P', hP', hl', hm', hsub', hi'⟩ := h' p P'' hP''
  obtain ⟨P, hP, hl, hm, hsub, hi⟩ := h p P' hP'
  refine ⟨P, hP, hl'.trans hl, hm'.trans hm, fun i hmem => hsub i (hsub' i hmem), fun i hmem => ?_⟩
  obtain he | hmem' := hi i hmem
  · exact .inl he
  · exact hi' i hmem'

omit [DecidableEq ι] in
/-- One party changes. -/
theorem trimmed_of_update {o : Option (Party ι)} (hs : t'.parties = Function.update t.parties p o)
    (ho : ∀ P' ∈ o, ∃ P, t.parties p = some P ∧ P'.leader = P.leader ∧ P'.memberList = P.memberList ∧
      (∀ i ∈ P'.inviteList, i ∈ P.inviteList) ∧ ∀ i ∈ P.inviteList, i = player ∨ i ∈ P'.inviteList) :
    Trimmed player t t' := by
  intro x Q hQ
  rw [hs] at hQ
  by_cases hx : x = p
  · subst hx
    rw [Function.update_self] at hQ
    exact ho Q hQ
  · rw [Function.update_of_ne hx] at hQ
    exact Trimmed.refl player t x Q hQ

/-- The players of a party that the removal of the invitee disbands. -/
def Abandoned (t : Parties.State ι) (p : ℕ) (player u : ι) : Prop :=
  ∃ P, t.parties p = some P ∧ player ∈ P.inviteList ∧ P.memberList = [] ∧
    (∀ i ∈ P.inviteList, i = player) ∧ u ∈ P.players

omit [DecidableEq ι] in
theorem Abandoned.of_trimmed {u : ι} (h : Trimmed player t t') (hu : Abandoned t' p player u) :
    Abandoned t p player u := by
  obtain ⟨P', hP', hmem, hnil, hall, hu⟩ := hu
  obtain ⟨P, hP, hl, hm, hsub, hi⟩ := h p P' hP'
  refine ⟨P, hP, hsub player hmem, hm.symm.trans hnil, fun i hi' => ?_, ?_⟩
  · obtain he | hmem' := hi i hi'
    · exact he
    · exact hall i hmem'
  · unfold Parties.Party.players at hu ⊢
    rwa [hl, hm] at hu

/-- A party without the invitee is empty just when he was all it had. -/
theorem empty_erase : ({ P with inviteList := P.inviteList.erase player } : Party ι).empty = true →
    P.memberList = [] ∧ ∀ i ∈ P.inviteList, i = player := by
  intro h
  obtain ⟨hm, hi⟩ := Bool.and_eq_true_iff.1 h
  refine ⟨List.isEmpty_iff.1 hm, fun i hmem => ?_⟩
  obtain hnil | hone := List.erase_eq_nil_iff.1 (List.isEmpty_iff.1 hi)
  · rw [hnil] at hmem
    nomatch hmem
  · rw [hone] at hmem
    exact List.mem_singleton.1 hmem

/-- **What `removeInvite` does to the players' parties.** -/
theorem removeInvite_spares {b : Bool} (he : Parties.removeInvite t p player b = some t') :
    Spares t t' (Abandoned t p player) ∧ Trimmed player t t' := by
  unfold Parties.removeInvite at he
  cases hP : t.parties p with
  | none =>
    rw [hP] at he
    nomatch he
  | some P =>
    rw [hP] at he
    simp only [Option.bind_eq_bind, Option.bind_some] at he
    by_cases hi : player ∉ P.inviteList
    · rw [if_pos hi] at he
      obtain rfl := Option.some.inj he
      exact ⟨.refl t _, .refl player t⟩
    rw [if_neg hi] at he
    have htrim : ∀ t₁ : Parties.State ι, t₁.parties = Function.update t.parties p
        (some { P with inviteList := P.inviteList.erase player }) → Trimmed player t t₁ := by
      refine fun t₁ h₁ => trimmed_of_update h₁ fun P' hP' => ?_
      obtain rfl := Option.some.inj hP'
      refine ⟨P, hP, rfl, rfl, fun i hi => List.mem_of_mem_erase hi, fun i hi => ?_⟩
      by_cases hip : i = player
      · exact .inl hip
      · exact .inr ((List.mem_erase_of_ne hip).2 hi)
    have hend : ∀ t₁ : Parties.State ι, t₁.online = t.online → t₁.party = t.party →
        t₁.parties = Function.update t.parties p
          (some { P with inviteList := P.inviteList.erase player }) →
        (if ({ P with inviteList := P.inviteList.erase player } : Party ι).empty then Parties.disband t₁ p
          else some t₁) = some t' →
        Spares t t' (Abandoned t p player) ∧ Trimmed player t t' := by
      intro t₁ ho hp hs he
      have hsame : Spares t t₁ (Abandoned t p player) := .of_eq ho hp
      by_cases hem : ({ P with inviteList := P.inviteList.erase player } : Party ι).empty = true
      · rw [if_pos hem] at he
        obtain ⟨hnil, hall⟩ := empty_erase hem
        have hP₁ : t₁.parties p = some { P with inviteList := P.inviteList.erase player } := by
          rw [hs, Function.update_self]
        refine ⟨hsame.trans ((disband_spares hP₁ he).mono fun u hu =>
          ⟨P, hP, not_not.1 hi, hnil, hall, hu⟩), ?_⟩
        rw [Parties.disband_eq hP₁] at he
        obtain rfl := Option.some.inj he
        exact (htrim t₁ hs).trans (trimmed_of_update (o := none) rfl nofun)
      · rw [if_neg hem] at he
        obtain rfl := Option.some.inj he
        exact ⟨hsame, htrim t₁ hs⟩
    cases b with
    | false =>
      simp only [Bool.false_eq_true, if_false] at he
      exact hend (t.put p (some { P with inviteList := P.inviteList.erase player })) rfl rfl rfl he
    | true =>
      simp only [if_true] at he
      exact hend ((t.put p (some { P with inviteList := P.inviteList.erase player })).removePartyInvitation
        player p) rfl rfl rfl he

/-- **What `clearPartyInvitations` does to the players' parties.** -/
theorem clearPartyInvitations_spares (he : Parties.clearPartyInvitations t player = some t') :
    Spares t t' (fun u => ∃ p, Abandoned t p player u) ∧ Trimmed player t t' := by
  have hloop : ∀ (l : List ℕ) (t₁ : Parties.State ι), Spares t t₁ (fun u => ∃ p, Abandoned t p player u) → Trimmed player t t₁ →
      ∀ t₂, l.foldlM (fun t p => Parties.removeInvite t p player false) t₁ = some t₂ →
        Spares t t₂ (fun u => ∃ p, Abandoned t p player u) ∧ Trimmed player t t₂ := by
    intro l
    induction l with
    | nil =>
      intro t₁ hs ht t₂ he
      obtain rfl := Option.some.inj he
      exact ⟨hs, ht⟩
    | cons p l ih =>
      intro t₁ hs ht t₂ he
      rw [List.foldlM_cons] at he
      obtain ⟨t₃, h₃, he⟩ := Option.bind_eq_some_iff.1 he
      obtain ⟨hs₃, ht₃⟩ := removeInvite_spares h₃
      exact ih t₃ (hs.trans (hs₃.mono fun u hu => ⟨p, hu.of_trimmed ht⟩)) (ht.trans ht₃) t₂ he
  unfold Parties.clearPartyInvitations at he
  obtain ⟨t₂, h₂, he⟩ := Option.bind_eq_some_iff.1 he
  obtain ⟨hs, ht⟩ := hloop _ t (.refl t _) (.refl player t) t₂ h₂
  obtain rfl := Option.some.inj he
  exact ⟨hs.trans (.of_eq rfl rfl), ht.trans (Trimmed.refl player t₂)⟩

/-- The leader goes, and the party is left without one. -/
theorem resign_true (h : Parties.resign t p P player = some (t', true)) :
    P.leader = player ∧ (P.memberList = [] ∨ (∃ front, P.memberList = [front]) ∧ P.inviteList = []) := by
  unfold Parties.resign at h
  by_cases hl : P.leader = player
  · rw [if_pos hl] at h
    refine ⟨hl, ?_⟩
    cases hm : P.memberList with
    | nil => exact .inl rfl
    | cons front rest =>
      rw [hm] at h
      dsimp only at h
      by_cases hlast : rest = [] ∧ P.inviteList = []
      · rw [hlast.1]
        exact .inr ⟨⟨front, rfl⟩, hlast.2⟩
      · rw [if_neg hlast] at h
        obtain ⟨t₁, -, he⟩ := Option.map_eq_some_iff.1 h
        nomatch (Prod.mk.inj he).2
  · rw [if_neg hl] at h
    nomatch (Prod.mk.inj (Option.some.inj h)).2

/-- **What `leaveParty` does to the players' parties.** -/
theorem leaveParty_spares (h : Parties.Inv t) (hP : t.parties p = some P) (hq : player ∈ P.players)
    (he : Parties.leaveParty t p player = some t') :
    Spares t t' fun u => u = player ∨ Deserted P player ∧ u ∈ P.players := by
  have hparty : t.party player = some p := (h.party_iff_players hP player).2 hq
  unfold Parties.leaveParty at he
  rw [hP] at he
  simp only [Option.bind_eq_bind, Option.bind_some] at he
  rw [if_neg fun hc => hc.1 hparty] at he
  obtain ⟨⟨t₁, missingLeader⟩, hr, he⟩ := Option.bind_eq_some_iff.1 he
  obtain ⟨P₁, hP₁, he⟩ := Option.bind_eq_some_iff.1 he
  dsimp only at hP₁ he
  obtain ⟨hp₁, ho₁, hi₁⟩ := players_resign hr
  set Q : Party ι := { P₁ with memberList := P₁.memberList.erase player } with hQ
  set t₂ := (t₁.put p (some Q)).setParty player none with ht₂
  have hP₂ : t₂.parties p = some Q := Function.update_self ..
  have hspares : Spares t t₂ fun u => u = player ∨ Deserted P player ∧ u ∈ P.players := by
    refine ⟨ho₁, fun u x hu hn => ?_⟩
    have hne : u ≠ player := fun e => hn (.inl e)
    exact (Function.update_of_ne hne _ _).trans ((congrFun hp₁ u).trans hu)
  by_cases hend : (missingLeader || Q.empty) = true
  swap
  · rw [if_neg hend] at he
    obtain rfl := Option.some.inj he
    exact hspares
  rw [if_pos hend] at he
  refine hspares.trans ((disband_spares hP₂ he).mono fun u hu => ?_)
  have hu : u = P₁.leader ∨ u ∈ P₁.memberList.erase player := List.mem_cons.1 hu
  by_cases hup : u = player
  · exact .inl hup
  refine .inr ?_
  cases missingLeader with
  | true =>
    obtain ⟨hl, hm⟩ := resign_true hr
    obtain ⟨he', -⟩ | ⟨_, _, he', -⟩ := Parties.resign_cases h hP hq
    swap
    · nomatch (Prod.mk.inj (Option.some.inj (hr.symm.trans he'))).2
    obtain ⟨rfl, -⟩ := Prod.mk.inj (Option.some.inj (hr.symm.trans he'))
    obtain rfl := Option.some.inj (hP₁.symm.trans hP)
    have hmem : u ∈ P₁.memberList := by
      obtain hu | hu := hu
      · exact absurd (hu.trans hl) hup
      · exact List.mem_of_mem_erase hu
    obtain hnil | ⟨⟨front, hone⟩, hnoinv⟩ := hm
    · rw [hnil] at hmem
      nomatch hmem
    · refine ⟨⟨fun i hi => ?_, ?_⟩, List.mem_cons_of_mem _ hmem⟩
      · rw [hnoinv] at hi
        nomatch hi
      · unfold Parties.Party.players
        rw [hl, List.erase_cons_head, hone]
        exact le_rfl
  | false =>
    obtain ⟨he', -⟩ | ⟨t₃, P₃, he', hinv, hP₃, hm₃⟩ := Parties.resign_cases h hP hq
    · nomatch (Prod.mk.inj (Option.some.inj (hr.symm.trans he'))).2
    obtain ⟨rfl, -⟩ := Prod.mk.inj (Option.some.inj (hr.symm.trans he'))
    obtain rfl := Option.some.inj (hP₁.symm.trans hP₃)
    have hmem : ∀ x, x ∈ P₁.players ↔ x ∈ P.players := fun x => by
      rw [← hinv.party_iff_players hP₁, ← h.party_iff_players hP, hp₁]
    obtain ⟨hm, hnoinv⟩ := Bool.and_eq_true_iff.1 hend
    have hm : P₁.memberList.erase player = [] := List.isEmpty_iff.1 hm
    have hnoinv : P₁.inviteList = [] := List.isEmpty_iff.1 hnoinv
    have hperm : P.players.Perm P₁.players :=
      (List.perm_ext_iff_of_nodup (h.players_nodup p P hP) (hinv.players_nodup p P₁ hP₁)).2
        fun x => (hmem x).symm
    refine ⟨⟨fun i hi => ?_, ?_⟩, (hmem u).1 ?_⟩
    · rw [← h.invite_iff_mem hP, ← hi₁, hinv.invite_iff_mem hP₁, hnoinv] at hi
      nomatch hi
    · have hone : P₁.memberList.length ≤ 1 := by
        have hlen := List.length_erase_of_mem hm₃
        rw [hm, List.length_nil] at hlen
        omega
      rw [List.length_erase_of_mem hq, hperm.length_eq]
      exact hone
    · obtain hu | hu := hu
      · exact hu ▸ List.mem_cons_self ..
      · exact List.mem_cons_of_mem _ (List.mem_of_mem_erase hu)

theorem invitePlayer_spares {x : ι} (he : Parties.invitePlayer t p x = some t') :
    Spares t t' fun _ => False := by
  unfold Parties.invitePlayer at he
  obtain ⟨P, -, he⟩ := Option.bind_eq_some_iff.1 he
  split at he
  · obtain rfl := Option.some.inj he
    exact .refl t _
  · obtain rfl := Option.some.inj he
    unfold Parties.State.addPartyInvitation
    split
    · exact .of_eq rfl rfl
    · exact .of_eq rfl rfl

/-- Who invites has no party, or leads the one he has. -/
theorem playerInviteToParty_spares {x : ι} (he : Parties.playerInviteToParty t player x = some t') :
    Spares t t' fun _ => False := by
  unfold Parties.playerInviteToParty at he
  obtain ⟨b, -, he⟩ := Option.bind_eq_some_iff.1 he
  split at he
  · obtain rfl := Option.some.inj he
    exact .refl t _
  split at he
  · obtain rfl := Option.some.inj he
    exact .refl t _
  cases hp : t.party player with
  | none =>
    rw [hp] at he
    dsimp only at he
    have hnew : Spares t (Parties.newParty t player) fun _ => False := by
      refine ⟨rfl, fun u q hu _ => ?_⟩
      have hne : u ≠ player := by
        rintro rfl
        nomatch hp.symm.trans hu
      exact (Function.update_of_ne hne _ _).trans hu
    exact hnew.trans (invitePlayer_spares he)
  | some p =>
    rw [hp] at he
    obtain ⟨P, -, he⟩ := Option.bind_eq_some_iff.1 he
    split at he
    · obtain rfl := Option.some.inj he
      exact .refl t _
    · exact invitePlayer_spares he

/-- Who joins has no party before. -/
theorem playerJoinParty_spares {x : ι} (he : Parties.playerJoinParty t player x = some t') :
    Spares t t' fun _ => False := by
  unfold Parties.playerJoinParty at he
  obtain ⟨b, -, he⟩ := Option.bind_eq_some_iff.1 he
  split at he
  · obtain rfl := Option.some.inj he
    exact .refl t _
  cases hp : t.party x with
  | none =>
    rw [hp] at he
    obtain rfl := Option.some.inj he
    exact .refl t _
  | some p =>
    rw [hp] at he
    obtain ⟨P, -, he⟩ := Option.bind_eq_some_iff.1 he
    split at he
    · obtain rfl := Option.some.inj he
      exact .refl t _
    split at he
    · obtain rfl := Option.some.inj he
      exact .refl t _
    case isFalse hnone =>
      unfold Parties.joinParty at he
      obtain ⟨P', -, he⟩ := Option.bind_eq_some_iff.1 he
      split at he
      · obtain rfl := Option.some.inj he
        exact .refl t _
      · obtain rfl := Option.some.inj he
        refine ⟨rfl, fun u q hu _ => ?_⟩
        have hne : u ≠ player := by
          rintro rfl
          exact hnone (Option.isSome_of_eq_some hu)
        exact (Function.update_of_ne hne _ _).trans hu

theorem playerPassPartyLeadership_spares {x : ι}
    (he : Parties.playerPassPartyLeadership t player x = some t') : Spares t t' fun _ => False := by
  unfold Parties.playerPassPartyLeadership at he
  split at he
  · obtain rfl := Option.some.inj he
    exact .refl t _
  · obtain ⟨P, -, he⟩ := Option.bind_eq_some_iff.1 he
    split at he
    · obtain rfl := Option.some.inj he
      exact .refl t _
    split at he
    · obtain rfl := Option.some.inj he
      exact .refl t _
    · obtain ⟨hp, ho, -⟩ := players_passPartyLeadership he
      exact .of_eq ho hp

theorem playerRevokePartyInvitation_spares {x : ι}
    (he : Parties.playerRevokePartyInvitation t player x = some t') :
    Spares t t' fun u => ∃ p, t.party player = some p ∧ Abandoned t p x u := by
  unfold Parties.playerRevokePartyInvitation at he
  cases hp : t.party player with
  | none =>
    rw [hp] at he
    obtain rfl := Option.some.inj he
    exact .refl t _
  | some p =>
    rw [hp] at he
    dsimp only at he
    obtain ⟨P, hP, he⟩ := Option.bind_eq_some_iff.1 he
    split at he
    · obtain rfl := Option.some.inj he
      exact .refl t _
    obtain ⟨b, -, he⟩ := Option.bind_eq_some_iff.1 he
    split at he
    · obtain rfl := Option.some.inj he
      exact .refl t _
    · exact (removeInvite_spares he).1.mono fun u hu => ⟨p, rfl, hu⟩

end

/-! ### Who is recorded -/

section

variable {s s' : State ι} {player u : ι} {c c' : ChannelId} {k : ℕ}

omit [DecidableEq ι] in
/-- What a channel is found by. -/
def key (s : State ι) (u : ι) : ChannelId → Option ℕ
  | .guild => s.guild.guildId u
  | .party => s.party.party u

omit [DecidableEq ι] in
def channels (s : State ι) : ChannelId → ℕ → Option (Finset ι)
  | .guild => s.guildChannels
  | .party => s.partyChannels

omit [DecidableEq ι] in
def Recorded (s : State ι) (c : ChannelId) (k : ℕ) (u : ι) : Prop :=
  ∃ users, channels s c k = some users ∧ u ∈ users

omit [DecidableEq ι] in
theorem confidential_iff : Confidential s ↔ ∀ c k u, Recorded s c k u → key s u c = some k := by
  constructor
  · rintro h (_ | _) k u ⟨users, hk, hu⟩
    · exact h.guild k users hk u hu
    · exact h.party k users hk u hu
  · exact fun h => ⟨fun p users hp u hu => h .party p u ⟨users, hp, hu⟩,
      fun id users hid u hu => h .guild id u ⟨users, hid, hu⟩⟩

omit [DecidableEq ι] in
theorem getChannel_eq (s : State ι) (player : ι) (c : ChannelId) :
    getChannel s player c = (key s player c).bind (channels s c) := by
  cases c with
  | guild => rfl
  | party => rfl

omit [DecidableEq ι] in
@[simp] theorem party_setUsers (users : Finset ι) : (setUsers s player c users).party = s.party := by
  unfold setUsers
  cases c with
  | guild =>
    dsimp only
    cases s.guild.guildId player with
    | none => rfl
    | some id => rfl
  | party =>
    dsimp only
    cases s.party.party player with
    | none => rfl
    | some p => rfl

omit [DecidableEq ι] in
@[simp] theorem guild_setUsers (users : Finset ι) : (setUsers s player c users).guild = s.guild := by
  unfold setUsers
  cases c with
  | guild =>
    dsimp only
    cases s.guild.guildId player with
    | none => rfl
    | some id => rfl
  | party =>
    dsimp only
    cases s.party.party player with
    | none => rfl
    | some p => rfl

omit [DecidableEq ι] in
/-- The player's channel has the new users, the others have theirs. -/
theorem channels_setUsers (users : Finset ι) (c' : ChannelId) (k : ℕ) :
    channels (setUsers s player c users) c' k =
      if c' = c ∧ key s player c = some k then some users else channels s c' k := by
  cases c with
  | guild =>
    unfold setUsers key
    cases s.guild.guildId player with
    | none => exact (if_neg fun h => nomatch h.2).symm
    | some id =>
      cases c' with
      | guild =>
        by_cases hk : k = id
        · simp [channels, hk]
        · simp [channels, hk, Ne.symm hk]
      | party => rfl
  | party =>
    unfold setUsers key
    cases s.party.party player with
    | none => exact (if_neg fun h => nomatch h.2).symm
    | some p =>
      cases c' with
      | guild => rfl
      | party =>
        by_cases hk : k = p
        · simp [channels, hk]
        · simp [channels, hk, Ne.symm hk]

omit [DecidableEq ι] in
@[simp] theorem party_createChannel : (createChannel s player c).party = s.party := by
  unfold createChannel
  split
  · rfl
  · exact party_setUsers ∅

omit [DecidableEq ι] in
@[simp] theorem guild_createChannel : (createChannel s player c).guild = s.guild := by
  unfold createChannel
  split
  · rfl
  · exact guild_setUsers ∅

@[simp] theorem party_addUserToChannel : (addUserToChannel s player c).party = s.party := by
  unfold addUserToChannel
  split
  · rfl
  · exact party_setUsers _

@[simp] theorem guild_addUserToChannel : (addUserToChannel s player c).guild = s.guild := by
  unfold addUserToChannel
  split
  · rfl
  · exact guild_setUsers _

@[simp] theorem party_removeUserFromChannel : (removeUserFromChannel s player c).party = s.party := by
  unfold removeUserFromChannel
  split
  · rfl
  · exact party_setUsers _

@[simp] theorem guild_removeUserFromChannel : (removeUserFromChannel s player c).guild = s.guild := by
  unfold removeUserFromChannel
  split
  · rfl
  · exact guild_setUsers _

omit [DecidableEq ι] in
theorem recorded_setUsers {users : Finset ι} (h : Recorded (setUsers s player c users) c' k u) :
    (c' = c ∧ key s player c = some k ∧ u ∈ users) ∨
      (¬ (c' = c ∧ key s player c = some k) ∧ Recorded s c' k u) := by
  obtain ⟨l, hl, hu⟩ := h
  rw [channels_setUsers] at hl
  by_cases hk : c' = c ∧ key s player c = some k
  · rw [if_pos hk] at hl
    obtain rfl := Option.some.inj hl
    exact .inl ⟨hk.1, hk.2, hu⟩
  · rw [if_neg hk] at hl
    exact .inr ⟨hk, l, hl, hu⟩

omit [DecidableEq ι] in
/-- The users of a channel that a player finds are recorded in it. -/
theorem recorded_of_getChannel {users : Finset ι} (h : getChannel s player c = some users) (hu : u ∈ users)
    (hk : key s player c = some k) : Recorded s c k u := by
  rw [getChannel_eq, hk] at h
  exact ⟨users, h, hu⟩

omit [DecidableEq ι] in
/-- A new channel has no users. -/
theorem recorded_createChannel (h : Recorded (createChannel s player c) c' k u) : Recorded s c' k u := by
  unfold createChannel at h
  cases hg : getChannel s player c with
  | some users =>
    rw [hg] at h
    exact h
  | none =>
    rw [hg] at h
    obtain ⟨-, -, hu⟩ | ⟨-, h⟩ := recorded_setUsers h
    · exact absurd hu (Finset.notMem_empty u)
    · exact h

theorem recorded_addUserToChannel (h : Recorded (addUserToChannel s player c) c' k u) :
    Recorded s c' k u ∨ (u = player ∧ key s player c' = some k) := by
  unfold addUserToChannel at h
  cases hg : getChannel s player c with
  | none =>
    rw [hg] at h
    exact .inl h
  | some users =>
    rw [hg] at h
    obtain ⟨rfl, hk, hu⟩ | ⟨-, h⟩ := recorded_setUsers h
    · obtain rfl | hu := Finset.mem_insert.1 hu
      · exact .inr ⟨rfl, hk⟩
      · exact .inl (recorded_of_getChannel hg hu hk)
    · exact .inl h

/-- **`removeUserFromChannel` reaches the channel that the player has now.** -/
theorem recorded_removeUserFromChannel (h : Recorded (removeUserFromChannel s player c) c' k u) :
    Recorded s c' k u ∧ ¬ (c' = c ∧ key s player c = some k ∧ u = player) := by
  unfold removeUserFromChannel at h
  cases hg : getChannel s player c with
  | none =>
    rw [hg] at h
    refine ⟨h, ?_⟩
    rintro ⟨rfl, hk, -⟩
    obtain ⟨users, hl, -⟩ := h
    rw [getChannel_eq, hk] at hg
    nomatch hl.symm.trans hg
  | some users =>
    rw [hg] at h
    obtain ⟨rfl, hk, hu⟩ | ⟨hn, h⟩ := recorded_setUsers h
    · exact ⟨recorded_of_getChannel hg (Finset.mem_of_mem_erase hu) hk,
        fun hc => Finset.ne_of_mem_erase hu hc.2.2⟩
    · exact ⟨h, fun hc => hn ⟨hc.1, hc.2.1⟩⟩

theorem recorded_removeUserFromAllChannels (h : Recorded (removeUserFromAllChannels s player) c k u) :
    Recorded s c k u ∧ u ≠ player := by
  obtain ⟨l, hl, hu⟩ := h
  have hmap : (channels s c k).map (·.erase player) = some l := by
    cases c with
    | guild => exact hl
    | party => exact hl
  obtain ⟨users, hk, rfl⟩ := Option.map_eq_some_iff.1 hmap
  exact ⟨⟨users, hk, Finset.mem_of_mem_erase hu⟩, Finset.ne_of_mem_erase hu⟩

/-! ### The invariant -/

/-- Who is recorded is online and belongs to the channel. -/
structure Inv (s : State ι) : Prop where
  party : Parties.Inv s.party
  known : Guilds.Known s.guild
  present : Guilds.Present s.guild
  online_eq : s.guild.online = s.party.online
  recorded : ∀ c k u, Recorded s c k u → s.party.online u = true ∧ key s u c = some k

omit [DecidableEq ι] in
theorem key_congr (hp : s'.party.party u = s.party.party u) (hg : s'.guild.guildId u = s.guild.guildId u)
    (c : ChannelId) : key s' u c = key s u c := by
  cases c with
  | guild => exact hg
  | party => exact hp

/-- What changes the channels alone. -/
theorem Inv.of_channels (h : Inv s) (hp : s'.party = s.party) (hg : s'.guild = s.guild)
    (hr : ∀ c k u, Recorded s' c k u → s.party.online u = true ∧ key s u c = some k) : Inv s' where
  party := hp ▸ h.party
  known := hg ▸ h.known
  present := hg ▸ h.present
  online_eq := by rw [hp, hg, h.online_eq]
  recorded c k u hu := by
    rw [hp, key_congr (s := s) (by rw [hp]) (by rw [hg]) c]
    exact hr c k u hu

omit [DecidableEq ι] in
theorem recorded_withParty {t : Parties.State ι} (h : Recorded (s.withParty t) c k u) : Recorded s c k u := by
  obtain ⟨users, hl, hu⟩ := h
  cases c with
  | guild => exact ⟨users, hl, hu⟩
  | party => exact ⟨users, hl, hu⟩

/-- The parties change, and nobody who is recorded is hit. -/
theorem Inv.withParty (h : Inv s) {t : Parties.State ι} (ht : Parties.Inv t) {Hit : ι → Prop}
    (hs : Spares s.party t Hit) (hn : ∀ p u, Recorded s .party p u → ¬ Hit u) : Inv (s.withParty t) where
  party := ht
  known := h.known
  present := h.present
  online_eq := h.online_eq.trans hs.online.symm
  recorded c k u hu := by
    have hr := recorded_withParty hu
    obtain ⟨ho, hk⟩ := h.recorded c k u hr
    refine ⟨(congrFun hs.online u).trans ho, ?_⟩
    cases c with
    | guild => exact hk
    | party => exact hs.party u k hk (hn k u hr)

/-! ### The steps -/

/-- A player leaves a party that is not disbanded behind anybody's back. -/
theorem playerLeaveParty_inv (h : Inv s) {inFight : Bool} (hh : Heeded s (.leaveParty player inFight)) :
    ∃ s', playerLeaveParty s player inFight = some s' ∧ Inv s' := by
  unfold playerLeaveParty
  cases hp : s.party.party player with
  | none => exact ⟨s, rfl, h⟩
  | some p =>
    cases inFight with
    | true => exact ⟨s, rfl, h⟩
    | false =>
      obtain ⟨P, hP, hq⟩ := (h.party.party_iff player p).1 hp
      obtain ⟨t, he, ht⟩ := Parties.leaveParty_inv h.party hp
      have hspares := leaveParty_spares h.party hP hq he
      refine ⟨(removeUserFromChannel s player .party).withParty t, ?_, ?_⟩
      · dsimp only
        rw [if_neg Bool.false_ne_true, leaveParty_eq hp, he]
        rfl
      have hremoved : Inv (removeUserFromChannel s player .party) :=
        h.of_channels party_removeUserFromChannel guild_removeUserFromChannel fun c k u hu =>
          h.recorded c k u (recorded_removeUserFromChannel hu).1
      refine hremoved.withParty ht (party_removeUserFromChannel (s := s) ▸ hspares) fun q u hu => ?_
      obtain ⟨hr, hn⟩ := recorded_removeUserFromChannel hu
      obtain ⟨-, hk⟩ := h.recorded .party q u hr
      rintro (rfl | ⟨hd, hup⟩)
      · exact hn ⟨rfl, hk, rfl⟩
      · have hqp : s.party.party u = some p := (h.party.party_iff u p).2 ⟨P, hP, hup⟩
        obtain rfl := Option.some.inj (hk.symm.trans hqp)
        obtain ⟨users, hl, hmem⟩ := hr
        by_cases hne : u = player
        · exact hn ⟨rfl, hne ▸ hk, hne⟩
        · exact hh rfl q P hp hP hd users hl u hup hne hmem

theorem playerRevokePartyInvitation_inv (h : Inv s) {x : ι} (hh : Heeded s (.revokePartyInvitation player x)) :
    ∃ s', playerRevokePartyInvitation s player x = some s' ∧ Inv s' := by
  obtain ⟨t, he, ht⟩ := Parties.playerRevokePartyInvitation_inv h.party player x
  refine ⟨s.withParty t, ?_, h.withParty ht (playerRevokePartyInvitation_spares he) fun q u hr => ?_⟩
  · rw [playerRevokePartyInvitation_eq, he]
    rfl
  rintro ⟨p, hp, P, hP, -, hnil, hall, hu⟩
  obtain ⟨-, hk⟩ := h.recorded .party q u hr
  obtain rfl := Option.some.inj (hk.symm.trans ((h.party.party_iff u p).2 ⟨P, hP, hu⟩))
  obtain ⟨users, hl, hmem⟩ := hr
  exact hh q P hp hP hnil hall users hl u hu not_false hmem

theorem setGuild_inv (h : Inv s) {guild : Option ℕ} (hh : Heeded s (.setGuild player guild)) :
    ∃ g, Guilds.step s.guild (.setGuild player guild) = some g ∧ Inv { s with guild := g } := by
  obtain ⟨g, he, hk, hp, hid, hother⟩ := Guilds.step_present h.present h.known (.setGuild player guild)
  have hcases : g.online = s.guild.online ∧ (guild = s.guild.guild player → g = s.guild) := by
    rw [Guilds.step] at he
    split_ifs at he with hc
    · obtain ⟨g', he', -, ho, -, hg⟩ := Guilds.setGuild_cases h.known (h.present.live hc.1) hc.2
      obtain rfl := Option.some.inj (he.symm.trans he')
      refine ⟨ho, fun hsame => ?_⟩
      obtain ⟨-, rfl⟩ | ⟨hne, -⟩ | ⟨hne, -⟩ := hg
      · rfl
      · exact absurd hsame hne
      · exact absurd hsame hne
    · obtain rfl := Option.some.inj he
      exact ⟨rfl, fun _ => rfl⟩
  refine ⟨g, he, h.party, hk, hp, hcases.1.trans h.online_eq, fun c k u hu => ?_⟩
  obtain ⟨users, hl, hmem⟩ := hu
  cases c with
  | party => exact h.recorded .party k u ⟨users, hl, hmem⟩
  | guild =>
    obtain ⟨ho, hkey⟩ := h.recorded .guild k u ⟨users, hl, hmem⟩
    refine ⟨ho, ?_⟩
    have hon : s.guild.online u = true := h.online_eq ▸ ho
    by_cases hu : u = player
    · subst hu
      by_cases hsame : guild = s.guild.guild u
      · have hg : g.guildId u = s.guild.guildId u := by rw [hcases.2 hsame]
        exact hg.trans hkey
      · exact absurd hmem (hh hsame k users hkey hl)
    · obtain ⟨ho', hg'⟩ := hother u hu
      exact (Guilds.guildId_eq h.present hp hid hon (ho'.trans hon) hg').trans hkey

theorem login_inv (h : Inv s) (player : ι) (row : Option Guilds.Membership) :
    ∃ g, Guilds.step s.guild (.login player row) = some g ∧
      Inv { s with
        guild := g, party := { s.party with online := Function.update s.party.online player true } } := by
  obtain ⟨g, he, hk, hp, hid, hother⟩ := Guilds.step_present h.present h.known (.login player row)
  have hparty : Parties.Inv { s.party with online := Function.update s.party.online player true } :=
    ⟨⟨h.party.players_nodup, h.party.invites_nodup, h.party.party_iff, h.party.invitations_nodup,
      h.party.invite_iff, h.party.fresh⟩, h.party.busy⟩
  have hcases : g.online = Function.update s.guild.online player true ∧
      (s.guild.online player = true → g = s.guild) := by
    rw [Guilds.step] at he
    split_ifs at he with ho
    · obtain rfl := Option.some.inj he
      exact ⟨(Function.update_eq_self_iff.2 ho.symm).symm, fun _ => rfl⟩
    · obtain ⟨g', he', -, ho', -⟩ := Guilds.login_cases (q := player) h.known row
      obtain rfl := Option.some.inj (he.symm.trans he')
      exact ⟨ho', fun hc => absurd hc ho⟩
  refine ⟨g, he, hparty, hk, hp, ?_, fun c k u hu => ?_⟩
  · rw [hcases.1, h.online_eq]
  obtain ⟨users, hl, hmem⟩ := hu
  have hr : Recorded s c k u := by
    cases c with
    | guild => exact ⟨users, hl, hmem⟩
    | party => exact ⟨users, hl, hmem⟩
  obtain ⟨ho, hkey⟩ := h.recorded c k u hr
  have hon : s.guild.online u = true := h.online_eq ▸ ho
  have hg : g.guildId u = s.guild.guildId u := by
    by_cases hu : u = player
    · subst hu
      rw [hcases.2 hon]
    · obtain ⟨ho', hg'⟩ := hother u hu
      exact Guilds.guildId_eq h.present hp hid hon (ho'.trans hon) hg'
  refine ⟨?_, ?_⟩
  · by_cases hu : u = player
    · subst hu
      exact Function.update_self ..
    · exact (Function.update_of_ne hu _ _).trans ho
  · cases c with
    | party => exact hkey
    | guild => exact hg.trans hkey

/-- Who is left behind when a player logs out, or is the player. -/
def Forsaken (t : Parties.State ι) (player u : ι) : Prop :=
  u = player ∨ ∃ p P, t.parties p = some P ∧ (player ∈ P.players ∨ player ∈ P.inviteList) ∧
    Deserted P player ∧ u ∈ P.players

theorem Abandoned.forsaken {t : Parties.State ι} {p : ℕ} (h : Abandoned t p player u) :
    Forsaken t player u := by
  obtain ⟨P, hP, hmem, hnil, hall, hu⟩ := h
  refine .inr ⟨p, P, hP, .inr hmem, ⟨hall, List.length_erase_le.trans ?_⟩, hu⟩
  unfold Parties.Party.players
  rw [hnil]
  exact le_rfl

/-- The party that a player leaves once he has lost his invitations. -/
theorem forsaken_of_trimmed {t t' : Parties.State ι} {p : ℕ} {P' : Party ι} (h : Trimmed player t t')
    (hP' : t'.parties p = some P') (hq : player ∈ P'.players) (hd : Deserted P' player) (hu : u ∈ P'.players) :
    Forsaken t player u := by
  obtain ⟨P, hP, hl, hm, -, hi⟩ := h p P' hP'
  have hplayers : P'.players = P.players := by
    unfold Parties.Party.players
    rw [hl, hm]
  rw [hplayers] at hq hu
  refine .inr ⟨p, P, hP, .inl hq, ⟨fun i hmem => ?_, hplayers ▸ hd.2⟩, hu⟩
  obtain he | hmem' := hi i hmem
  · exact he
  · exact hd.1 i hmem'

/-- The parties' part of a logout. -/
theorem logout_party (h : Inv s) (player : ι) :
    ∃ s₁ s₂, clearPartyInvitations s player = some s₁ ∧
      (match s₁.party.party player with
        | none => some s₁
        | some p => leaveParty s₁ p player) = some s₂ ∧
      s₂.guild = s.guild ∧ Parties.Inv s₂.party ∧ Spares s.party s₂.party (Forsaken s.party player) ∧
      ∀ c k u, Recorded s₂ c k u → Recorded s c k u := by
  obtain ⟨t₁, he₁, ht₁⟩ := Parties.clearPartyInvitations_inv h.party player
  obtain ⟨hspares, htrim⟩ := clearPartyInvitations_spares he₁
  have hspares : Spares s.party t₁ (Forsaken s.party player) := hspares.mono fun u ⟨_, hu⟩ => hu.forsaken
  have hclear : clearPartyInvitations s player = some (s.withParty t₁) := by
    rw [clearPartyInvitations_eq, he₁]
    rfl
  cases hp : t₁.party player with
  | none =>
    refine ⟨s.withParty t₁, s.withParty t₁, hclear, ?_, rfl, ht₁, hspares, fun c k u => recorded_withParty⟩
    rw [party_withParty, hp]
  | some p =>
    obtain ⟨P, hP, hq⟩ := (ht₁.party_iff player p).1 hp
    obtain ⟨t₂, he₂, ht₂⟩ := Parties.leaveParty_inv ht₁ hp
    refine ⟨s.withParty t₁, (removeUserFromChannel (s.withParty t₁) player .party).withParty t₂, hclear, ?_, ?_,
      ht₂, hspares.trans ((leaveParty_spares ht₁ hP hq he₂).mono ?_), fun c k u hr => ?_⟩
    · rw [party_withParty, hp]
      dsimp only
      rw [leaveParty_eq hp, party_withParty, he₂]
      rfl
    · exact guild_removeUserFromChannel (s := s.withParty t₁)
    · rintro u (rfl | ⟨hd, hu⟩)
      · exact .inl rfl
      · exact forsaken_of_trimmed htrim hP hq hd hu
    · exact recorded_withParty (recorded_removeUserFromChannel (recorded_withParty hr)).1

theorem logout_inv (h : Inv s) (ho : s.party.online player = true) (hh : Heeded s (.logout player)) :
    ∃ s', logout s player = some s' ∧ Inv s' := by
  obtain ⟨s₁, s₂, h₁, h₂, hg₂, ht, hspares, hr₂⟩ := logout_party h player
  have hon : s.guild.online player = true := h.online_eq ▸ ho
  obtain ⟨g, he, hk, hgo, hgg, hkept, -⟩ := Guilds.logout_cases h.known (h.present.live hon)
  obtain ⟨g', he', -, hp, hid, hother⟩ := Guilds.step_present h.present h.known (.logout player)
  rw [Guilds.step, if_pos hon, he] at he'
  obtain rfl := Option.some.inj he'
  refine ⟨{ removeUserFromAllChannels s₂ player with
    guild := g
    party := { s₂.party with online := Function.update s₂.party.online player false } }, ?_, ?_⟩
  · have hlog : Guilds.logout (removeUserFromAllChannels s₂ player).guild player = some g :=
      (congrArg (Guilds.logout · player) hg₂).trans he
    unfold logout
    simp only [Option.bind_eq_bind]
    rw [h₁, Option.bind_some]
    cases hp₁ : s₁.party.party player with
    | none =>
      rw [hp₁] at h₂
      obtain rfl := Option.some.inj h₂
      dsimp only
      rw [Option.bind_some, hlog]
      rfl
    | some p =>
      rw [hp₁] at h₂
      dsimp only at h₂ ⊢
      rw [h₂, Option.bind_some, hlog]
      rfl
  refine ⟨⟨⟨ht.players_nodup, ht.invites_nodup, ht.party_iff, ht.invitations_nodup, ht.invite_iff,
    ht.fresh⟩, ht.busy⟩, hk, hp, ?_, fun c k u hu => ?_⟩
  · rw [hgo, h.online_eq, ← hspares.online]
  have hrec : Recorded (removeUserFromAllChannels s₂ player) c k u := by
    obtain ⟨users, hl, hmem⟩ := hu
    cases c with
    | guild => exact ⟨users, hl, hmem⟩
    | party => exact ⟨users, hl, hmem⟩
  obtain ⟨hrec, hne⟩ := recorded_removeUserFromAllChannels hrec
  have hr := hr₂ c k u hrec
  obtain ⟨hou, hkey⟩ := h.recorded c k u hr
  refine ⟨(Function.update_of_ne hne _ _).trans ((congrFun hspares.online u).trans hou), ?_⟩
  cases c with
  | party =>
    refine hspares.party u k hkey ?_
    rintro (rfl | ⟨p, P, hP, hq, hd, hup⟩)
    · exact hne rfl
    · obtain rfl := Option.some.inj (hkey.symm.trans ((h.party.party_iff u p).2 ⟨P, hP, hup⟩))
      obtain ⟨users, hl, hmem⟩ := hr
      exact hh k P hP hq hd users hl u hup hne hmem
  | guild =>
    have honu : s.guild.online u = true := h.online_eq ▸ hou
    obtain ⟨ho', hg'⟩ := hother u hne
    exact (Guilds.guildId_eq h.present hp hid honu (ho'.trans honu) hg').trans hkey

/-- A request of the party alone, that takes nobody's party. -/
theorem party_step_inv (h : Inv s) {a : Parties.Action ι}
    (hs : ∀ t, Parties.step s.party a = some t → Spares s.party t fun _ => False) :
    ∃ s', (Parties.step s.party a).map s.withParty = some s' ∧ Inv s' := by
  obtain ⟨t, he, ht⟩ := Parties.step_inv h.party a
  refine ⟨s.withParty t, ?_, h.withParty ht (hs t he) fun _ _ _ => not_false⟩
  rw [he]
  rfl

/-- **A step that is heeded has a result, and keeps who is recorded in his party
and guild.** -/
theorem step_inv (h : Inv s) {a : Action ι} (hh : Heeded s a) : ∃ s', step s a = some s' ∧ Inv s' := by
  cases a with
  | requestChannels player =>
    rw [step]
    split_ifs
    · refine ⟨_, rfl, h.of_channels ?_ ?_ fun c k u hu => ?_⟩
      · rw [party_createChannel, party_createChannel]
      · rw [guild_createChannel, guild_createChannel]
      · exact h.recorded c k u (recorded_createChannel (recorded_createChannel hu))
    · exact ⟨s, rfl, h⟩
  | openChannel player channelId =>
    rw [step]
    split_ifs with ho
    · refine ⟨_, rfl, h.of_channels party_addUserToChannel guild_addUserToChannel fun c k u hu => ?_⟩
      obtain hr | ⟨rfl, hk⟩ := recorded_addUserToChannel hu
      · exact h.recorded c k u hr
      · exact ⟨ho, hk⟩
    · exact ⟨s, rfl, h⟩
  | closeChannel player channelId =>
    rw [step]
    split_ifs
    · exact ⟨_, rfl, h.of_channels party_removeUserFromChannel guild_removeUserFromChannel
        fun c k u hu => h.recorded c k u (recorded_removeUserFromChannel hu).1⟩
    · exact ⟨s, rfl, h⟩
  | connect player =>
    rw [step]
    split_ifs
    · exact ⟨_, rfl, h.of_channels rfl rfl fun c k u hu =>
        h.recorded c k u (recorded_removeUserFromAllChannels hu).1⟩
    · exact ⟨s, rfl, h⟩
  | inviteToParty player invited =>
    refine party_step_inv h fun t he => ?_
    rw [Parties.step] at he
    split_ifs at he
    · exact playerInviteToParty_spares he
    · exact Option.some.inj he ▸ .refl _ _
  | joinParty player leader =>
    refine party_step_inv h fun t he => ?_
    rw [Parties.step] at he
    split_ifs at he
    · exact playerJoinParty_spares he
    · exact Option.some.inj he ▸ .refl _ _
  | revokePartyInvitation player invited =>
    rw [step]
    split_ifs
    · exact playerRevokePartyInvitation_inv h hh
    · exact ⟨s, rfl, h⟩
  | passPartyLeadership player newLeader =>
    refine party_step_inv h fun t he => ?_
    rw [Parties.step] at he
    split_ifs at he
    · exact playerPassPartyLeadership_spares he
    · exact Option.some.inj he ▸ .refl _ _
  | leaveParty player inFight =>
    rw [step]
    split_ifs
    · exact playerLeaveParty_inv h hh
    · exact ⟨s, rfl, h⟩
  | setGuild player guild =>
    obtain ⟨g, he, hi⟩ := setGuild_inv h hh
    refine ⟨_, ?_, hi⟩
    rw [step, he]
    rfl
  | login player row =>
    obtain ⟨g, he, hi⟩ := login_inv h player row
    refine ⟨_, ?_, hi⟩
    rw [step, he]
    rfl
  | logout player =>
    rw [step]
    split_ifs with ho
    · exact logout_inv h ho hh
    · exact ⟨s, rfl, h⟩

/-! ### Runs -/

/-- A run goes on while its steps have results. -/
def next (s : Option (State ι)) (a : Action ι) : Option (State ι) := s.bind (step · a)

/-- A text reaches players of the speaker's party or guild alone. -/
structure Discreet (s : State ι) : Prop where
  party : ∀ player, ∀ u ∈ talkToChannel s player .party, ∃ p,
    s.party.party player = some p ∧ s.party.party u = some p
  guild : ∀ player, ∀ u ∈ talkToChannel s player .guild, ∃ id,
    s.guild.guildId player = some id ∧ s.guild.guildId u = some id

theorem Confidential.discreet (h : Confidential s) : Discreet s := by
  have hkey : ∀ player c, ∀ u ∈ talkToChannel s player c, ∃ k, key s player c = some k ∧ key s u c = some k := by
    intro player c u hu
    unfold talkToChannel at hu
    cases hg : getChannel s player c with
    | none =>
      rw [hg] at hu
      exact absurd hu (Finset.notMem_empty u)
    | some users =>
      rw [hg] at hu
      dsimp only at hu
      split at hu
      · cases hk : key s player c with
        | none =>
          rw [getChannel_eq, hk] at hg
          nomatch hg
        | some k => exact ⟨k, rfl, confidential_iff.1 h c k u (recorded_of_getChannel hg hu hk)⟩
      · exact absurd hu (Finset.notMem_empty u)
  exact ⟨fun player => hkey player .party, fun player => hkey player .guild⟩

theorem Inv.confidential (h : Inv s) : Confidential s :=
  confidential_iff.2 fun c k u hr => (h.recorded c k u hr).2

theorem initial_inv : Inv (initial : State ι) where
  party := Parties.initial_inv _
  known := Guilds.initial_known
  present := Guilds.initial_present
  online_eq := rfl
  recorded c k u hr := by
    obtain ⟨users, hl, -⟩ := hr
    cases c with
    | guild => nomatch hl
    | party => nomatch hl

/-- **Who is recorded in a channel belongs to it, and a text reaches nobody
else, in every state of a run whose steps are heeded.** -/
theorem confidential_of_heeded (actions : List (Action ι))
    (h : Run.Along next (fun s a => ∀ s', s = some s' → Heeded s' a) (some initial) actions) :
    Run.Along next (fun s a => ∃ s', next s a = some s' ∧ Confidential s' ∧ Discreet s') (some initial)
      actions := by
  refine Run.along_of_inv (I := fun s => ∃ s' : State ι, s = some s' ∧ Inv s') ?_ ?_ actions
    ⟨initial, rfl, initial_inv⟩ h
  · rintro _ a ⟨s, rfl, hi⟩ hh
    exact step_inv hi (hh s rfl)
  · rintro _ a ⟨s, rfl, hi⟩ hh
    obtain ⟨s', he, hi'⟩ := step_inv hi (hh s rfl)
    exact ⟨s', he, hi'.confidential, hi'.confidential.discreet⟩

end

/-- Two players in a party, and both have its channel open. -/
def party : List (Action ℕ) :=
  [.login 0 none, .login 1 none, .inviteToParty 0 1, .joinParty 1 0, .requestChannels 0,
    .openChannel 0 .party, .openChannel 1 .party]

/-- The leader closes the channel before the other one leaves. -/
theorem confidential_of_heeded_party :
    Run.Along next (fun s a => ∃ s', next s a = some s' ∧ Confidential s' ∧ Discreet s') (some initial)
      (party ++ [.closeChannel 0 .party, .leaveParty 1 false]) := by
  refine confidential_of_heeded _ ?_
  refine ⟨fun _ _ => trivial, fun _ _ => trivial, fun _ _ => trivial, fun _ _ => trivial, fun _ _ => trivial,
    fun _ _ => trivial, fun _ _ => trivial, fun _ _ => trivial, fun s hs => ?_, trivial⟩
  have hchannel : ∀ s' ∈ Run.run next (some initial) (party ++ [.closeChannel 0 .party]),
      s'.party.party 1 = some 0 ∧ s'.partyChannels 0 = some {1} := by
    intro s' h
    obtain rfl := Option.some.inj h
    exact ⟨rfl, rfl⟩
  obtain ⟨hp, hc⟩ := hchannel s hs
  intro _ p P hp' _ _ users hl u _ hne hmem
  obtain rfl := Option.some.inj (hp.symm.trans hp')
  obtain rfl := Option.some.inj (hc.symm.trans hl)
  exact hne (Finset.mem_singleton.1 hmem)

/-- The leader stays recorded in the channel of a party that is disbanded. -/
theorem disbanded_but_recorded :
    ¬ Run.Along next (fun s a => ∃ s', next s a = some s' ∧ Confidential s' ∧ Discreet s') (some initial)
      (party ++ [.leaveParty (1 : ℕ) false]) := by
  rintro ⟨-, -, -, -, -, -, -, ⟨s', hs, hc, -⟩, -⟩
  have hleft : ∀ s ∈ Run.run next (some initial) (party ++ [.leaveParty 1 false]),
      s.party.party 0 = none ∧ s.partyChannels 0 = some {0} := by
    intro s h
    obtain rfl := Option.some.inj h
    exact ⟨rfl, rfl⟩
  obtain ⟨hp, hl⟩ := hleft s' hs
  nomatch hp.symm.trans (hc.party 0 {0} hl 0 (Finset.mem_singleton_self 0))

end Chat
end ForgottenServer
