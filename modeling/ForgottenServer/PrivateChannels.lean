/-
# Private channels

A player with a premium account may open a channel of his own and invite others to it.
The channel knows its users by player and its guests by GUID, and holds pointers to
both. It goes when its owner leaves it; who is excluded, logs out or comes back with
another client is taken out. The channels of parties and guilds are in `Chat`.

Where clones are not allowed, the users of a private channel are in the game in every
run, and are its owner and guests (`channel_for_guests`). As long as no other channel has
got an id from the range of the private ones, a player then hears what is said in a private
channel if and only if his client shows its window (`heard_iff_shown`).

Key definitions: `PrivateChatChannel`, `State`, `removeUserFromAllChannels`, `step`,
`Sound`, `Shown`.
Key theorems: `sound_step`, `channel_for_guests`, `shown_step`, `heard_iff_shown`.
-/
import Mathlib.Data.Finset.Basic
import Mathlib.Tactic
import ForgottenServer.Lib.Run

namespace ForgottenServer
namespace PrivateChannels

/-- The users by player, the guests by GUID, with a pointer to the player. -/
structure PrivateChatChannel (ι : Type) where
  owner : ℕ
  users : Finset ι
  invites : ℕ → Option ι

/-- The players in the game and those of them with a client, the users of the normal
channels, the private channels, and the channels whose windows a client shows: those it
has been told to open and neither told to close nor asked to. -/
structure State (ι : Type) where
  players : Finset ι
  clients : Finset ι
  normalChannels : ℕ → Option (Finset ι)
  privateChannels : ℕ → Option (PrivateChatChannel ι)
  windows : ι → Finset ℕ

variable {ι : Type} [DecidableEq ι]

/-! ### A channel -/

namespace PrivateChatChannel

omit [DecidableEq ι] in
/-- `PrivateChatChannel::isInvited` -/
def isInvited (channel : PrivateChatChannel ι) (guid : ℕ) : Bool :=
  guid = channel.owner || (channel.invites guid).isSome

omit [DecidableEq ι] in
/-- `PrivateChatChannel::removeInvite` -/
def removeInvite (channel : PrivateChatChannel ι) (guid : ℕ) : PrivateChatChannel ι :=
  { channel with invites := Function.update channel.invites guid none }

/-- `ChatChannel::addUser`, of a player who is none yet. -/
def addUser (channel : PrivateChatChannel ι) (player : ι) : PrivateChatChannel ι :=
  { channel with users := insert player channel.users }

/-- `ChatChannel::removeUser` -/
def removeUser (channel : PrivateChatChannel ι) (player : ι) : PrivateChatChannel ι :=
  { channel with users := channel.users.erase player }

omit [DecidableEq ι] in
/-- `PrivateChatChannel::invitePlayer`; an invitation that exists stays. -/
def invitePlayer (channel : PrivateChatChannel ι) (guid : ℕ) (player : ι) : PrivateChatChannel ι :=
  match channel.invites guid with
  | some _ => channel
  | none => { channel with invites := Function.update channel.invites guid (some player) }

end PrivateChatChannel

/-! ### The chat -/

/-- The ids of private channels. -/
def slots : List ℕ := List.range' 100 9900

def CHANNEL_PRIVATE : ℕ := 0xFFFF

/-- The window of a channel is opened, where there is a client. -/
def openWindow (s : State ι) (player : ι) (id : ℕ) : State ι :=
  if player ∈ s.clients then
    { s with windows := Function.update s.windows player (insert id (s.windows player)) }
  else s

/-- `sendClosePrivate` to each of the players. -/
def closeWindows (s : State ι) (players : Finset ι) (id : ℕ) : State ι :=
  { s with windows := fun p => if p ∈ players then (s.windows p).erase id else s.windows p }

omit [DecidableEq ι] in
def setPrivate (s : State ι) (id : ℕ) (channel : Option (PrivateChatChannel ι)) : State ι :=
  { s with privateChannels := Function.update s.privateChannels id channel }

omit [DecidableEq ι] in
def setNormal (s : State ι) (id : ℕ) (users : Finset ι) : State ι :=
  { s with normalChannels := Function.update s.normalChannels id (some users) }

section Guid

variable (guid : ι → ℕ)

omit [DecidableEq ι] in
/-- `Chat::getPrivateChannel` -/
def getPrivateChannel (s : State ι) (player : ι) : Option (ℕ × PrivateChatChannel ι) :=
  slots.findSome? fun id =>
    match s.privateChannels id with
    | some channel => if channel.owner = guid player then some (id, channel) else none
    | none => none

omit [DecidableEq ι] in
/-- `Chat::getChannel`, for the ids of neither guild nor party. `canJoin` is what the
script of a normal channel answers. -/
def getChannel (s : State ι) (player : ι) (id : ℕ) (canJoin : Bool) : Option (Finset ι ⊕ PrivateChatChannel ι) :=
  match s.normalChannels id with
  | some users => if canJoin then some (.inl users) else none
  | none =>
    match s.privateChannels id with
    | some channel => if channel.isInvited (guid player) then some (.inr channel) else none
    | none => none

/-- `Chat::createChannel` for `CHANNEL_PRIVATE`, and the joining of the owner in
`Game::playerCreatePrivateChannel` -/
def playerCreatePrivateChannel (s : State ι) (player : ι) (isPremium canJoin : Bool) : State ι :=
  if !isPremium then s
  else if (getChannel guid s player CHANNEL_PRIVATE canJoin).isSome then s
  else if (getPrivateChannel guid s player).isSome then s
  else
    match slots.find? fun id => (s.privateChannels id).isNone with
    | some id => openWindow (setPrivate s id (some ⟨guid player, {player}, fun _ => none⟩)) player id
    | none => s

/-- `Game::playerOpenChannel`; `onJoin` is what the script of a normal channel answers. -/
def playerOpenChannel (s : State ι) (player : ι) (id : ℕ) (canJoin onJoin : Bool) : State ι :=
  match getChannel guid s player id canJoin with
  | some (.inl users) =>
    if player ∈ users || !onJoin then s else openWindow (setNormal s id (insert player users)) player id
  | some (.inr channel) =>
    if player ∈ channel.users then s else openWindow (setPrivate s id (some (channel.addUser player))) player id
  | none => s

/-- `Chat::deleteChannel` -/
def deleteChannel (s : State ι) (id : ℕ) : State ι :=
  match s.privateChannels id with
  | some channel => setPrivate (closeWindows s channel.users id) id none
  | none => s

/-- `Chat::removeUserFromChannel`. The owner of a normal channel is `0`. -/
def removeUserFromChannel (s : State ι) (player : ι) (id : ℕ) (canJoin : Bool) : State ι :=
  match getChannel guid s player id canJoin with
  | some (.inl users) =>
    if player ∈ users then
      let s := setNormal s id (users.erase player)
      if 0 = guid player then deleteChannel s id else s
    else s
  | some (.inr channel) =>
    if player ∈ channel.users then
      let s := setPrivate s id (some (channel.removeUser player))
      if channel.owner = guid player then deleteChannel s id else s
    else s
  | none => s

/-- `Chat::talkToChannel`: who hears it. `onSpeak` is what the script of a normal channel
answers. -/
def talkToChannel (s : State ι) (player : ι) (id : ℕ) (canJoin onSpeak : Bool) : Finset ι :=
  match getChannel guid s player id canJoin with
  | some (.inl users) => if onSpeak && player ∈ users then users else ∅
  | some (.inr channel) => if player ∈ channel.users then channel.users else ∅
  | none => ∅

/-- `Game::playerCloseChannel`. The client has closed the window. -/
def playerCloseChannel (s : State ι) (player : ι) (id : ℕ) (canJoin : Bool) : State ι :=
  removeUserFromChannel guid (closeWindows s {player} id) player id canJoin

/-- `Game::playerChannelInvite` -/
def playerChannelInvite (s : State ι) (player invited : ι) : State ι :=
  match getPrivateChannel guid s player with
  | some (id, channel) =>
    if player = invited then s else setPrivate s id (some (channel.invitePlayer (guid invited) invited))
  | none => s

/-- `Game::playerChannelExclude`, with `PrivateChatChannel::excludePlayer` -/
def playerChannelExclude (s : State ι) (player excluded : ι) : State ι :=
  match getPrivateChannel guid s player with
  | some (id, channel) =>
    if player = excluded then s
    else
      match channel.invites (guid excluded) with
      | some _ =>
        closeWindows (setPrivate s id (some ((channel.removeInvite (guid excluded)).removeUser excluded)))
          {excluded} id
      | none => s
  | none => s

/-- `Chat::removeUserFromAllChannels`. A channel of the player's own is closed for those
who are left in it. -/
def removeUserFromAllChannels (s : State ι) (player : ι) : State ι :=
  { s with
    normalChannels := fun id => (s.normalChannels id).map (·.erase player)
    privateChannels := fun id => (s.privateChannels id).bind fun channel =>
      if channel.owner = guid player then none
      else some ((channel.removeInvite (guid player)).removeUser player)
    windows := fun p => (s.windows p).filter fun id => !(s.privateChannels id).any fun channel =>
      channel.owner = guid player && p ∈ channel.users.erase player }

/-- `Chat::load`: a channel that is loaded again has no users. -/
def load (s : State ι) (ids : Finset ℕ) : State ι :=
  { s with normalChannels := fun id => if id ∈ ids then some ∅ else none }

/-- What happens next. `release` and `connect` are those of `ProtocolGame`: the client is
gone, and a player in the game has another one. -/
inductive Act (ι : Type)
  | login (player : ι)
  | logout (player : ι)
  | release (player : ι)
  | connect (player : ι)
  | load (ids : Finset ℕ)
  | create (player : ι) (isPremium canJoin : Bool)
  | join (player : ι) (id : ℕ) (canJoin onJoin : Bool)
  | leave (player : ι) (id : ℕ) (canJoin : Bool)
  | invite (player invited : ι)
  | exclude (player excluded : ι)

/-- One action of players that are in the game. A character that is in the game logs in
again, as another player, where `ALLOW_CLONES` is set. -/
def step (allowClones : Bool) (s : State ι) : Act ι → State ι
  | .login player =>
    if player ∉ s.players ∧ (allowClones = true ∨ ∀ q ∈ s.players, guid q ≠ guid player) then
      { s with
        players := insert player s.players
        clients := insert player s.clients
        windows := Function.update s.windows player ∅ }
    else s
  | .logout player =>
    if player ∈ s.players then
      let s := removeUserFromAllChannels guid s player
      { s with
        players := s.players.erase player
        clients := s.clients.erase player
        windows := Function.update s.windows player ∅ }
    else s
  | .release player =>
    { s with clients := s.clients.erase player, windows := Function.update s.windows player ∅ }
  | .connect player =>
    if player ∈ s.players ∧ player ∉ s.clients then
      let s := removeUserFromAllChannels guid s player
      { s with clients := insert player s.clients, windows := Function.update s.windows player ∅ }
    else s
  | .load ids => load s ids
  | .create player isPremium canJoin =>
    if player ∈ s.players then playerCreatePrivateChannel guid s player isPremium canJoin else s
  | .join player id canJoin onJoin =>
    if player ∈ s.players then playerOpenChannel guid s player id canJoin onJoin else s
  | .leave player id canJoin => if player ∈ s.players then playerCloseChannel guid s player id canJoin else s
  | .invite player invited =>
    if player ∈ s.players ∧ invited ∈ s.players then playerChannelInvite guid s player invited else s
  | .exclude player excluded =>
    if player ∈ s.players ∧ excluded ∈ s.players then playerChannelExclude guid s player excluded else s

omit [DecidableEq ι] in
def init : State ι := ⟨∅, ∅, fun _ => none, fun _ => none, fun _ => ∅⟩

/-! ### Who is in a channel -/

/-- The users are among the players, and are the owner and guests; a guest is a player
and stands under his GUID; the owner is in his channel. -/
structure Decent (players : Finset ι) (channel : PrivateChatChannel ι) : Prop where
  users : channel.users ⊆ players
  guests : ∀ g p, channel.invites g = some p → p ∈ players ∧ guid p = g
  entitled : ∀ p ∈ channel.users, guid p = channel.owner ∨ channel.invites (guid p) = some p
  owner : ∃ p ∈ channel.users, guid p = channel.owner

/-- No two of the players have one GUID. -/
def Distinct (players : Finset ι) : Prop := ∀ p ∈ players, ∀ q ∈ players, guid p = guid q → p = q

structure Sound (s : State ι) : Prop where
  distinct : Distinct guid s.players
  normal : ∀ id users, s.normalChannels id = some users → users ⊆ s.players
  slot : ∀ id channel, s.privateChannels id = some channel → id ∈ slots
  decent : ∀ id channel, s.privateChannels id = some channel → Decent guid s.players channel
  unique : ∀ id id' channel channel', s.privateChannels id = some channel → s.privateChannels id' = some channel' →
    channel.owner = channel'.owner → id = id'

variable {guid} {s t : State ι} {players : Finset ι} {channel : PrivateChatChannel ι} {player : ι} {id : ℕ}

omit [DecidableEq ι] in
theorem Decent.mono {players' : Finset ι} (h : Decent guid players channel) (hsub : players ⊆ players') :
    Decent guid players' channel :=
  ⟨h.users.trans hsub, fun g p hp => ⟨hsub (h.guests g p hp).1, (h.guests g p hp).2⟩, h.entitled, h.owner⟩

/-- Who is no owner is taken out. -/
theorem Decent.drop (h : Decent guid players channel) (hd : Distinct guid players) (hp : player ∈ players)
    (hne : channel.owner ≠ guid player) :
    Decent guid (players.erase player) ((channel.removeInvite (guid player)).removeUser player) := by
  have hother : ∀ q ∈ players, q ≠ player → guid q ≠ guid player := fun q hq hqne he => hqne (hd q hq player hp he)
  refine ⟨?_, fun g q hq => ?_, fun q hq => ?_, ?_⟩
  · exact Finset.erase_subset_erase player h.users
  · simp only [PrivateChatChannel.removeUser, PrivateChatChannel.removeInvite] at hq
    by_cases hg : g = guid player
    · simp [hg] at hq
    · rw [Function.update_of_ne hg] at hq
      obtain ⟨hmem, hguid⟩ := h.guests g q hq
      refine ⟨Finset.mem_erase.2 ⟨?_, hmem⟩, hguid⟩
      intro hqp
      exact hg (by rw [← hguid, hqp])
  · obtain ⟨hqne, hmem⟩ := Finset.mem_erase.1 hq
    simp only [PrivateChatChannel.removeUser, PrivateChatChannel.removeInvite]
    rw [Function.update_of_ne (hother q (h.users hmem) hqne)]
    exact h.entitled q hmem
  · obtain ⟨o, hmem, ho⟩ := h.owner
    refine ⟨o, Finset.mem_erase.2 ⟨?_, hmem⟩, ho⟩
    intro hop
    exact hne (by rw [← hop, ho])

theorem Decent.removeUser (h : Decent guid players channel) (hne : channel.owner ≠ guid player) :
    Decent guid players (channel.removeUser player) := by
  refine ⟨(Finset.erase_subset _ _).trans h.users, h.guests, fun q hq => ?_, ?_⟩
  · exact h.entitled q (Finset.mem_of_mem_erase hq)
  · obtain ⟨o, hmem, ho⟩ := h.owner
    refine ⟨o, Finset.mem_erase.2 ⟨?_, hmem⟩, ho⟩
    intro hop
    exact hne (by rw [← hop, ho])

theorem Decent.addUser (h : Decent guid players channel) (hp : player ∈ players)
    (hd : Distinct guid players) (hinvited : channel.isInvited (guid player) = true) :
    Decent guid players (channel.addUser player) := by
  refine ⟨Finset.insert_subset hp h.users, h.guests, fun q hq => ?_, ?_⟩
  · rcases Finset.mem_insert.1 hq with rfl | hmem
    · simp only [PrivateChatChannel.isInvited, Bool.or_eq_true, decide_eq_true_eq, Option.isSome_iff_exists] at hinvited
      rcases hinvited with ho | ⟨g, hg⟩
      · exact .inl ho
      · obtain ⟨hmem, hguid⟩ := h.guests _ g hg
        exact .inr (hg.trans (congrArg some (hd g hmem q hp hguid)))
    · exact h.entitled q hmem
  · obtain ⟨o, hmem, ho⟩ := h.owner
    exact ⟨o, Finset.mem_insert_of_mem hmem, ho⟩

omit [DecidableEq ι] in
theorem Decent.invitePlayer (h : Decent guid players channel) (hp : player ∈ players) :
    Decent guid players (channel.invitePlayer (guid player) player) := by
  unfold PrivateChatChannel.invitePlayer
  split
  · exact h
  · next hnone =>
    refine ⟨h.users, fun g q hq => ?_, fun q hq => ?_, h.owner⟩
    · dsimp only at hq
      by_cases hg : g = guid player
      · rw [hg, Function.update_self] at hq
        rw [← Option.some_inj.1 hq]
        exact ⟨hp, hg.symm⟩
      · rw [Function.update_of_ne hg] at hq
        exact h.guests g q hq
    · rcases h.entitled q hq with ho | hi
      · exact .inl ho
      · refine .inr ?_
        dsimp only
        rw [Function.update_of_ne]
        · exact hi
        · intro he
          simp [← he, hi] at hnone

/-! ### What the operations keep -/

omit [DecidableEq ι] in
theorem Sound.of_players (h : Sound guid s) (hsub : s.players ⊆ t.players) (hd : Distinct guid t.players)
    (hn : t.normalChannels = s.normalChannels) (hc : t.privateChannels = s.privateChannels) : Sound guid t := by
  refine ⟨hd, fun id users hu => ?_, fun id channel hu => ?_, fun id channel hu => ?_, ?_⟩
  · exact (h.normal id users (hn ▸ hu)).trans hsub
  · exact h.slot id channel (hc ▸ hu)
  · exact (h.decent id channel (hc ▸ hu)).mono hsub
  · rw [hc]
    exact h.unique

omit [DecidableEq ι] in
theorem Sound.congr (h : Sound guid s) (hp : t.players = s.players) (hn : t.normalChannels = s.normalChannels)
    (hc : t.privateChannels = s.privateChannels) : Sound guid t :=
  h.of_players hp.ge (hp ▸ h.distinct) hn hc

omit [DecidableEq ι] in
/-- A channel is set up or changed. -/
theorem Sound.setPrivate (h : Sound guid s) (hslot : id ∈ slots) (hchannel : Decent guid s.players channel)
    (hown : ∀ id' channel', s.privateChannels id' = some channel' → channel'.owner = channel.owner → id' = id) :
    Sound guid (setPrivate s id (some channel)) := by
  have hcases : ∀ {id' channel'}, (PrivateChannels.setPrivate s id (some channel)).privateChannels id' = some channel' →
      (id' = id ∧ channel' = channel) ∨ (id' ≠ id ∧ s.privateChannels id' = some channel') := by
    intro id' channel' hc
    simp only [PrivateChannels.setPrivate] at hc
    by_cases he : id' = id
    · rw [he, Function.update_self] at hc
      exact .inl ⟨he, (Option.some_inj.1 hc).symm⟩
    · rw [Function.update_of_ne he] at hc
      exact .inr ⟨he, hc⟩
  refine ⟨h.distinct, h.normal, fun id' c hc => ?_, fun id' c hc => ?_, fun a b c d hc hd ho => ?_⟩
  · rcases hcases hc with ⟨rfl, -⟩ | ⟨-, hold⟩
    · exact hslot
    · exact h.slot id' c hold
  · rcases hcases hc with ⟨-, rfl⟩ | ⟨-, hold⟩
    · exact hchannel
    · exact h.decent id' c hold
  · rcases hcases hc with ⟨rfl, rfl⟩ | ⟨-, hold⟩
    · rcases hcases hd with ⟨rfl, -⟩ | ⟨-, hold'⟩
      · rfl
      · exact (hown b d hold' ho.symm).symm
    · rcases hcases hd with ⟨rfl, rfl⟩ | ⟨-, hold'⟩
      · exact hown a c hold ho
      · exact h.unique a b c d hold hold' ho

omit [DecidableEq ι] in
/-- A channel is changed, and keeps its owner. -/
theorem Sound.change {channel' : PrivateChatChannel ι} (h : Sound guid s) (hc : s.privateChannels id = some channel)
    (hchannel : Decent guid s.players channel') (ho : channel'.owner = channel.owner) :
    Sound guid (PrivateChannels.setPrivate s id (some channel')) :=
  h.setPrivate (h.slot id channel hc) hchannel fun id' _ hc' ho' => h.unique id' id _ _ hc' hc (ho'.trans ho)

omit [DecidableEq ι] in
theorem Sound.setNormal (h : Sound guid s) {users : Finset ι} (hu : users ⊆ s.players) :
    Sound guid (setNormal s id users) := by
  refine ⟨h.distinct, fun id' users' hc => ?_, h.slot, h.decent, h.unique⟩
  simp only [PrivateChannels.setNormal] at hc
  by_cases he : id' = id
  · rw [he, Function.update_self] at hc
    exact Option.some_inj.1 hc ▸ hu
  · rw [Function.update_of_ne he] at hc
    exact h.normal id' users' hc

omit [DecidableEq ι] in
/-- Channels go. -/
theorem Sound.fewer (h : Sound guid s) (hp : t.players = s.players) (hn : t.normalChannels = s.normalChannels)
    (hc : ∀ id channel, t.privateChannels id = some channel → s.privateChannels id = some channel) : Sound guid t := by
  refine ⟨hp ▸ h.distinct, fun id users hu => ?_, fun id c hu => ?_, fun id c hu => ?_, fun a b c d hu hu' => ?_⟩
  · rw [hp]
    exact h.normal id users (hn ▸ hu)
  · exact h.slot id c (hc id c hu)
  · rw [hp]
    exact h.decent id c (hc id c hu)
  · exact h.unique a b c d (hc a c hu) (hc b d hu')

theorem deleteChannel_privateChannels (s : State ι) (id : ℕ) :
    (deleteChannel s id).privateChannels = Function.update s.privateChannels id none := by
  unfold deleteChannel
  split
  · rfl
  · next hnone => rw [← hnone, Function.update_eq_self]

theorem deleteChannel_rest (s : State ι) (id : ℕ) : (deleteChannel s id).players = s.players ∧
    (deleteChannel s id).normalChannels = s.normalChannels ∧ (deleteChannel s id).clients = s.clients := by
  unfold deleteChannel
  split <;> exact ⟨rfl, rfl, rfl⟩

theorem openWindow_rest (s : State ι) (player : ι) (id : ℕ) : (openWindow s player id).players = s.players ∧
    (openWindow s player id).normalChannels = s.normalChannels ∧
    (openWindow s player id).privateChannels = s.privateChannels ∧
    (openWindow s player id).clients = s.clients := by
  unfold openWindow
  split <;> exact ⟨rfl, rfl, rfl, rfl⟩

theorem Sound.openWindow (h : Sound guid s) (player : ι) (id : ℕ) : Sound guid (openWindow s player id) := by
  obtain ⟨hp, hn, hc, -⟩ := openWindow_rest s player id
  exact h.congr hp hn hc

omit [DecidableEq ι] in
theorem update_none_of_some {f : ℕ → Option (PrivateChatChannel ι)} {id' : ℕ} (x : Option (PrivateChatChannel ι))
    (h : Function.update (Function.update f id x) id none id' = some channel) : f id' = some channel := by
  by_cases he : id' = id
  · simp [he] at h
  · rwa [Function.update_of_ne he, Function.update_of_ne he] at h

omit [DecidableEq ι] in
theorem getPrivateChannel_some {found : ℕ × PrivateChatChannel ι} (h : getPrivateChannel guid s player = some found) :
    s.privateChannels found.1 = some found.2 ∧ found.2.owner = guid player := by
  obtain ⟨id, -, hid⟩ := List.exists_of_findSome?_eq_some h
  split at hid
  · next c hc =>
    split at hid
    · next ho =>
      rw [← Option.some_inj.1 hid]
      exact ⟨hc, ho⟩
    · simp at hid
  · simp at hid

omit [DecidableEq ι] in
theorem getPrivateChannel_none (h : Sound guid s) (hnone : getPrivateChannel guid s player = none)
    (hc : s.privateChannels id = some channel) : channel.owner ≠ guid player := by
  intro ho
  have hid := List.findSome?_eq_none_iff.1 hnone id (h.slot id channel hc)
  simp [hc, ho] at hid

omit [DecidableEq ι] in
theorem getChannel_inl {users : Finset ι} {canJoin : Bool}
    (h : getChannel guid s player id canJoin = some (.inl users)) : s.normalChannels id = some users := by
  unfold getChannel at h
  split at h
  · split at h
    · simp_all
    · simp at h
  · split at h
    · split at h
      · simp at h
      · simp at h
    · simp at h

omit [DecidableEq ι] in
theorem getChannel_inr {canJoin : Bool} (h : getChannel guid s player id canJoin = some (.inr channel)) :
    s.normalChannels id = none ∧ s.privateChannels id = some channel ∧ channel.isInvited (guid player) = true := by
  unfold getChannel at h
  split at h
  · split at h
    · simp at h
    · simp at h
  · next hnormal =>
    split at h
    · split at h
      · simp_all
      · simp at h
    · simp at h

theorem Sound.playerCreatePrivateChannel (h : Sound guid s) (hp : player ∈ s.players) (isPremium canJoin : Bool) :
    Sound guid (playerCreatePrivateChannel guid s player isPremium canJoin) := by
  unfold PrivateChannels.playerCreatePrivateChannel
  split
  · exact h
  · split
    · exact h
    · split
      · exact h
      · next hnone =>
        have hfree : getPrivateChannel guid s player = none := by simpa using hnone
        split
        · next id hfind =>
          apply Sound.openWindow
          refine h.setPrivate (List.mem_of_find?_eq_some hfind) ?_ fun id' c hc ho => ?_
          · refine ⟨by simpa using hp, by simp, by simp, ⟨player, by simp, rfl⟩⟩
          · exact absurd ho (getPrivateChannel_none h hfree hc)
        · exact h

theorem Sound.playerOpenChannel (h : Sound guid s) (hp : player ∈ s.players) (id : ℕ) (canJoin onJoin : Bool) :
    Sound guid (playerOpenChannel guid s player id canJoin onJoin) := by
  unfold PrivateChannels.playerOpenChannel
  split
  · next users hget =>
    split
    · exact h
    · apply Sound.openWindow
      exact h.setNormal (Finset.insert_subset hp (h.normal id users (getChannel_inl hget)))
  · next channel hget =>
    obtain ⟨-, hc, hinvited⟩ := getChannel_inr hget
    split
    · exact h
    · apply Sound.openWindow
      exact h.change hc ((h.decent id channel hc).addUser hp h.distinct hinvited) rfl
  · exact h

theorem Sound.deleteChannel (h : Sound guid s) (id : ℕ) : Sound guid (deleteChannel s id) := by
  obtain ⟨hp, hn, -⟩ := deleteChannel_rest s id
  refine h.fewer hp hn fun id' c hc => ?_
  rw [deleteChannel_privateChannels] at hc
  by_cases he : id' = id
  · simp [he] at hc
  · rwa [Function.update_of_ne he] at hc

theorem Sound.removeUserFromChannel (h : Sound guid s) (player : ι) (id : ℕ) (canJoin : Bool) :
    Sound guid (removeUserFromChannel guid s player id canJoin) := by
  unfold PrivateChannels.removeUserFromChannel
  split
  · next users hget =>
    have hset : Sound guid (PrivateChannels.setNormal s id (users.erase player)) :=
      h.setNormal ((Finset.erase_subset player users).trans (h.normal id users (getChannel_inl hget)))
    split
    · dsimp only
      split
      · exact hset.deleteChannel id
      · exact hset
    · exact h
  · next channel hget =>
    obtain ⟨-, hc, -⟩ := getChannel_inr hget
    split
    · dsimp only
      split
      · -- the channel goes with its owner
        obtain ⟨hp, hn, -⟩ := deleteChannel_rest (PrivateChannels.setPrivate s id (some (channel.removeUser player))) id
        refine h.fewer hp hn fun id' c hc' => ?_
        rw [deleteChannel_privateChannels] at hc'
        exact update_none_of_some _ hc'
      · next hne => exact h.change hc ((h.decent id channel hc).removeUser hne) rfl
    · exact h
  · exact h

theorem Sound.playerChannelInvite (h : Sound guid s) {invited : ι} (hi : invited ∈ s.players) :
    Sound guid (playerChannelInvite guid s player invited) := by
  unfold PrivateChannels.playerChannelInvite
  split
  · next id channel hget =>
    obtain ⟨hc, -⟩ := getPrivateChannel_some hget
    split
    · exact h
    · refine h.change hc ((h.decent id channel hc).invitePlayer hi) ?_
      unfold PrivateChatChannel.invitePlayer
      split <;> rfl
  · exact h

theorem Sound.playerChannelExclude (h : Sound guid s) (hp : player ∈ s.players) {excluded : ι}
    (he : excluded ∈ s.players) : Sound guid (playerChannelExclude guid s player excluded) := by
  unfold PrivateChannels.playerChannelExclude
  split
  · next id channel hget =>
    obtain ⟨hc, ho⟩ := getPrivateChannel_some hget
    split
    · exact h
    · next hne =>
      split
      · have hdrop := (h.decent id channel hc).drop h.distinct he
          fun hg => hne (h.distinct player hp excluded he (ho.symm.trans hg))
        have hset := h.change hc (hdrop.mono (Finset.erase_subset _ _)) rfl
        exact hset.congr rfl rfl rfl
      · exact h
  · exact h

/-- Without the player, who is in no channel any more. -/
theorem Sound.removeUserFromAllChannels (h : Sound guid s) (hp : player ∈ s.players) :
    Sound guid { removeUserFromAllChannels guid s player with players := s.players.erase player } := by
  have hcases : ∀ {id channel},
      (PrivateChannels.removeUserFromAllChannels guid s player).privateChannels id = some channel →
        ∃ old, s.privateChannels id = some old ∧ old.owner ≠ guid player ∧
          channel = (old.removeInvite (guid player)).removeUser player := by
    intro id channel hc
    obtain ⟨old, hold, hif⟩ := Option.bind_eq_some_iff.1 hc
    split at hif
    · simp at hif
    · next hne => exact ⟨old, hold, hne, (Option.some_inj.1 hif).symm⟩
  refine ⟨fun p hp q hq => ?_, fun id users hu => ?_, fun id c hc => ?_, fun id c hc => ?_, fun a b c d hc hd ho => ?_⟩
  · exact h.distinct p (Finset.mem_of_mem_erase hp) q (Finset.mem_of_mem_erase hq)
  · obtain ⟨old, hold, rfl⟩ := Option.map_eq_some_iff.1 hu
    exact Finset.erase_subset_erase player (h.normal id old hold)
  · obtain ⟨old, hold, -⟩ := hcases hc
    exact h.slot id old hold
  · obtain ⟨old, hold, hne, rfl⟩ := hcases hc
    exact (h.decent id old hold).drop h.distinct hp hne
  · obtain ⟨old, hold, -, rfl⟩ := hcases hc
    obtain ⟨old', hold', -, rfl⟩ := hcases hd
    exact h.unique a b old old' hold hold' ho

theorem sound_step (h : Sound guid s) (a : Act ι) : Sound guid (step guid false s a) := by
  cases a with
  | login player =>
    simp only [step]
    split
    · next hnew =>
      have hfree : ∀ q ∈ s.players, guid q ≠ guid player := by simpa using hnew.2
      refine h.of_players (Finset.subset_insert _ _) (fun p hp q hq he => ?_) rfl rfl
      rcases Finset.mem_insert.1 hp with hpn | hpo
      · rcases Finset.mem_insert.1 hq with hqn | hqo
        · rw [hpn, hqn]
        · exact absurd (hpn ▸ he.symm) (hfree q hqo)
      · rcases Finset.mem_insert.1 hq with hqn | hqo
        · exact absurd (hqn ▸ he) (hfree p hpo)
        · exact h.distinct p hpo q hqo he
    · exact h
  | logout player =>
    simp only [step]
    split
    · next hp => exact (h.removeUserFromAllChannels hp).congr rfl rfl rfl
    · exact h
  | release player => exact h.congr rfl rfl rfl
  | connect player =>
    simp only [step]
    split
    · next hp =>
      exact (h.removeUserFromAllChannels hp.1).of_players (Finset.erase_subset _ _) h.distinct rfl rfl
    · exact h
  | load ids =>
    refine ⟨h.distinct, fun id users hu => ?_, h.slot, h.decent, h.unique⟩
    simp only [step, load] at hu
    split at hu
    · rw [← Option.some_inj.1 hu]
      exact Finset.empty_subset _
    · simp at hu
  | create player isPremium canJoin =>
    simp only [step]
    split
    · next hp => exact h.playerCreatePrivateChannel hp isPremium canJoin
    · exact h
  | join player id canJoin onJoin =>
    simp only [step]
    split
    · next hp => exact h.playerOpenChannel hp id canJoin onJoin
    · exact h
  | leave player id canJoin =>
    simp only [step]
    split
    · have hclosed : Sound guid (closeWindows s {player} id) := h.congr rfl rfl rfl
      exact hclosed.removeUserFromChannel player id canJoin
    · exact h
  | invite player invited =>
    simp only [step]
    split
    · next hp => exact h.playerChannelInvite hp.2
    · exact h
  | exclude player excluded =>
    simp only [step]
    split
    · next hp => exact h.playerChannelExclude hp.1 hp.2
    · exact h

omit [DecidableEq ι] in
theorem sound_init (guid : ι → ℕ) : Sound guid init :=
  ⟨by simp [Distinct, init], by simp [init], by simp [init], by simp [init], by simp [init]⟩

theorem sound_run (guid : ι → ℕ) (as : List (Act ι)) : Sound guid (Run.run (step guid false) init as) :=
  Run.run_of_step (I := Sound guid) (fun _ a h => sound_step h a) as (sound_init guid)

/-- **A private channel is its owner's and his guests'.** In every run without clones the
users of a private channel are in the game and are its owner or invited, one of them is
the owner, an invitation leads to a player in the game with its GUID, the id is one of the
private ones, and nobody owns two channels. -/
theorem channel_for_guests (guid : ι → ℕ) (as : List (Act ι)) :
    let s := Run.run (step guid false) init as
    (∀ id channel, s.privateChannels id = some channel → Decent guid s.players channel ∧ id ∈ slots) ∧
      ∀ id id' channel channel', s.privateChannels id = some channel → s.privateChannels id' = some channel' →
        channel.owner = channel'.owner → id = id' := by
  intro s
  have h : Sound guid s := sound_run guid as
  exact ⟨fun id channel hc => ⟨h.decent id channel hc, h.slot id channel hc⟩, h.unique⟩

/-- A guest's clone logs in and out, and the guest stays without an invitation. -/
example : let guid : ℕ → ℕ := fun p => min p 2
    let s := Run.run (step guid true) init
      [.login 1, .create 1 true true, .login 2, .invite 1 2, .join 2 100 true true, .login 3, .logout 3]
    (s.privateChannels 100).any fun channel => 2 ∈ channel.users && !channel.isInvited (guid 2) := by
  decide +kernel

/-! ### What the clients show -/

omit [DecidableEq ι] in
/-- The player is a user of the private channel. -/
def State.Uses (s : State ι) (p : ι) (id : ℕ) : Prop :=
  ∃ channel, s.privateChannels id = some channel ∧ p ∈ channel.users

/-- No normal channel has the id of a private one, and a client shows the windows of the
private channels that its player uses. -/
structure Shown (guid : ι → ℕ) (s : State ι) : Prop extends Sound guid s where
  clients : s.clients ⊆ s.players
  apart : ∀ id ∈ slots, s.normalChannels id = none
  shown : ∀ p ∈ s.clients, ∀ id ∈ slots, id ∈ s.windows p ↔ s.Uses p id

omit [DecidableEq ι] in
/-- The normal channels that are loaded have other ids. -/
def Act.apart : Act ι → Prop
  | .load ids => ∀ id ∈ ids, id ∉ slots
  | _ => True

theorem mem_openWindow {q : ι} {id' : ℕ} : id' ∈ (openWindow s player id).windows q ↔
    id' ∈ s.windows q ∨ (q = player ∧ id' = id ∧ player ∈ s.clients) := by
  unfold openWindow
  split
  · next hp =>
    by_cases hq : q = player
    · simp [hq, hp, or_comm]
    · simp [hq]
  · next hp => simp [hp]

theorem mem_closeWindows {q : ι} {id' : ℕ} : id' ∈ (closeWindows s players id).windows q ↔
    id' ∈ s.windows q ∧ ¬ (q ∈ players ∧ id' = id) := by
  simp only [closeWindows]
  split
  · next hq => simp [hq, and_comm]
  · next hq => simp [hq]

omit [DecidableEq ι] in
theorem uses_of_some (hc : s.privateChannels id = some channel) {q : ι} : s.Uses q id ↔ q ∈ channel.users := by
  simp [State.Uses, hc]

omit [DecidableEq ι] in
/-- A user of a private channel finds it. -/
theorem Shown.getChannel_eq (h : Shown guid s) (hid : id ∈ slots) (hc : s.privateChannels id = some channel)
    (hu : player ∈ channel.users) (canJoin : Bool) : getChannel guid s player id canJoin = some (.inr channel) := by
  have hinvited : channel.isInvited (guid player) = true := by
    unfold PrivateChatChannel.isInvited
    rcases (h.decent id channel hc).entitled player hu with ho | hi
    · simp [ho]
    · simp [hi]
  simp [getChannel, h.apart id hid, hc, hinvited]

omit [DecidableEq ι] in
/-- One channel changes, and with it the windows of that channel. -/
theorem Shown.update (h : Shown guid s) (hsound : Sound guid t) (hp : t.players = s.players)
    (hclients : t.clients = s.clients) (hn : ∀ id ∈ slots, t.normalChannels id = none)
    {x : Option (PrivateChatChannel ι)} (hc : t.privateChannels = Function.update s.privateChannels id x)
    (hother : ∀ q id', id' ≠ id → (id' ∈ t.windows q ↔ id' ∈ s.windows q))
    (hhere : ∀ q ∈ s.clients, id ∈ slots → (id ∈ t.windows q ↔ ∃ channel, x = some channel ∧ q ∈ channel.users)) :
    Shown guid t := by
  refine { hsound with clients := ?_, apart := hn, shown := fun q hq id' hid' => ?_ }
  · rw [hclients, hp]
    exact h.clients
  · rw [hclients] at hq
    unfold State.Uses
    rw [hc]
    by_cases he : id' = id
    · subst he
      rw [Function.update_self]
      exact hhere q hq hid'
    · rw [Function.update_of_ne he, hother q id' he]
      exact h.shown q hq id' hid'

omit [DecidableEq ι] in
/-- Neither the private channels change nor the windows of those ids. -/
theorem Shown.of_windows (h : Shown guid s) (hsound : Sound guid t) (hp : t.players = s.players)
    (hclients : t.clients = s.clients) (hn : ∀ id ∈ slots, t.normalChannels id = none)
    (hc : t.privateChannels = s.privateChannels)
    (hwindows : ∀ q ∈ s.clients, ∀ id ∈ slots, id ∈ t.windows q ↔ id ∈ s.windows q) : Shown guid t := by
  refine { hsound with clients := ?_, apart := hn, shown := fun q hq id' hid' => ?_ }
  · rw [hclients, hp]
    exact h.clients
  · rw [hclients] at hq
    unfold State.Uses
    rw [hc, hwindows q hq id' hid']
    exact h.shown q hq id' hid'

omit [DecidableEq ι] in
theorem Shown.normal_of_update (h : Shown guid s) (hout : id ∉ slots) (users : Option (Finset ι)) :
    ∀ id' ∈ slots, Function.update s.normalChannels id users id' = none := by
  intro id' hid'
  have hne : id' ≠ id := fun he => hout (he ▸ hid')
  rw [Function.update_of_ne hne]
  exact h.apart id' hid'

omit [DecidableEq ι] in
/-- What a player finds as a normal channel has no private id. -/
theorem Shown.not_slot {users : Finset ι} (h : Shown guid s) (hn : s.normalChannels id = some users) : id ∉ slots := by
  intro hid
  simp [h.apart id hid] at hn

omit [DecidableEq ι] in
theorem Shown.private_none (h : Shown guid s) (hout : id ∉ slots) : s.privateChannels id = none := by
  by_contra hne
  obtain ⟨channel, hc⟩ := Option.ne_none_iff_exists'.1 hne
  exact hout (h.slot id channel hc)

theorem mem_deleteChannel (hc : s.privateChannels id = some channel) {q : ι} {id' : ℕ} :
    id' ∈ (deleteChannel s id).windows q ↔ id' ∈ s.windows q ∧ ¬ (q ∈ channel.users ∧ id' = id) := by
  unfold deleteChannel
  rw [hc]
  exact mem_closeWindows

theorem deleteChannel_of_none (hc : s.privateChannels id = none) : deleteChannel s id = s := by
  unfold deleteChannel
  rw [hc]

theorem Shown.create (h : Shown guid s) (hp : player ∈ s.players) (isPremium canJoin : Bool) :
    Shown guid (playerCreatePrivateChannel guid s player isPremium canJoin) := by
  have hsound := h.playerCreatePrivateChannel hp isPremium canJoin
  unfold PrivateChannels.playerCreatePrivateChannel at hsound ⊢
  split_ifs at hsound ⊢
  · exact h
  · exact h
  · exact h
  · split at hsound
    · next id hfind =>
      obtain ⟨hplayers, hnormal, hprivate, hclients⟩ := openWindow_rest
        (setPrivate s id (some ⟨guid player, {player}, fun _ => none⟩)) player id
      have hnone : s.privateChannels id = none := by simpa using List.find?_some hfind
      refine h.update hsound hplayers hclients (hnormal ▸ h.apart) hprivate (fun q id' hne => ?_) fun q hq hid => ?_
      · rw [mem_openWindow]
        simp [hne, setPrivate]
      · have hold : id ∉ s.windows q := by
          intro hw
          simpa [State.Uses, hnone] using (h.shown q hq id hid).1 hw
        have hwin : id ∉ (setPrivate s id (some ⟨guid player, {player}, fun _ => none⟩)).windows q := hold
        rw [mem_openWindow]
        simp only [hwin, false_or, true_and, Option.some_inj, exists_eq_left', Finset.mem_singleton]
        exact and_iff_left_of_imp fun hqp => hqp ▸ hq
    · exact h

theorem Shown.join (h : Shown guid s) (hp : player ∈ s.players) (id : ℕ) (canJoin onJoin : Bool) :
    Shown guid (playerOpenChannel guid s player id canJoin onJoin) := by
  have hsound := h.playerOpenChannel hp id canJoin onJoin
  unfold PrivateChannels.playerOpenChannel at hsound ⊢
  split at hsound
  · next users hget =>
    have hout := h.not_slot (getChannel_inl hget)
    split_ifs at hsound ⊢
    · exact h
    · obtain ⟨hplayers, hn, hprivate, hclients⟩ := openWindow_rest (setNormal s id (insert player users)) player id
      refine h.of_windows hsound hplayers hclients (hn ▸ h.normal_of_update hout _) hprivate fun q _ id' hid' => ?_
      have hne : id' ≠ id := fun he => hout (he ▸ hid')
      rw [mem_openWindow]
      simp [hne, setNormal]
  · next channel hget =>
    obtain ⟨-, hc, -⟩ := getChannel_inr hget
    split_ifs at hsound ⊢
    · exact h
    · obtain ⟨hplayers, hn, hprivate, hclients⟩ := openWindow_rest (setPrivate s id (some (channel.addUser player)))
        player id
      refine h.update hsound hplayers hclients (hn ▸ h.apart) hprivate (fun q id' hne => ?_) fun q hq hid => ?_
      · rw [mem_openWindow]
        simp [hne, setPrivate]
      · have hold : id ∈ (setPrivate s id (some (channel.addUser player))).windows q ↔ q ∈ channel.users :=
          (h.shown q hq id hid).trans (uses_of_some hc)
        rw [mem_openWindow, hold]
        simp only [true_and, Option.some_inj, exists_eq_left', PrivateChatChannel.addUser, Finset.mem_insert]
        rw [or_comm]
        exact or_congr_left (and_iff_left_of_imp fun hqp => hqp ▸ hq)
  · exact h

/-- The window of a player is closed who does not use the channel. -/
theorem Shown.closeWindow (h : Shown guid s) (hnot : id ∈ slots → ¬ s.Uses player id) :
    Shown guid (closeWindows s {player} id) := by
  refine h.of_windows (h.toSound.congr rfl rfl rfl) rfl rfl h.apart rfl fun q hq id' hid' => ?_
  rw [mem_closeWindows, and_iff_left_of_imp]
  intro hw hand
  rw [Finset.mem_singleton] at hand
  obtain ⟨rfl, rfl⟩ := hand
  exact hnot hid' ((h.shown q hq id' hid').1 hw)

theorem Shown.leave (h : Shown guid s) (id : ℕ) (canJoin : Bool) :
    Shown guid (playerCloseChannel guid s player id canJoin) := by
  have hclosed : Sound guid (closeWindows s {player} id) := h.toSound.congr rfl rfl rfl
  have hsound := hclosed.removeUserFromChannel player id canJoin
  have hget' : getChannel guid (closeWindows s {player} id) player id canJoin =
      getChannel guid s player id canJoin := rfl
  unfold playerCloseChannel PrivateChannels.removeUserFromChannel at *
  rw [hget'] at hsound ⊢
  split at hsound
  · next users hget =>
    have hout := h.not_slot (getChannel_inl hget)
    have hnone : (setNormal (closeWindows s {player} id) id (users.erase player)).privateChannels id = none :=
      h.private_none hout
    have hshut : Shown guid (closeWindows s {player} id) := h.closeWindow fun hid => absurd hid hout
    have hset : Shown guid (setNormal (closeWindows s {player} id) id (users.erase player)) := by
      refine hshut.of_windows ?_ rfl rfl (h.normal_of_update hout _) rfl fun _ _ _ _ => Iff.rfl
      exact hclosed.setNormal ((Finset.erase_subset player users).trans (h.normal id users (getChannel_inl hget)))
    split_ifs
    · rw [deleteChannel_of_none hnone]
      exact hset
    · exact hset
    · exact hshut
  · next channel hget =>
    obtain ⟨-, hc, -⟩ := getChannel_inr hget
    have hold : ∀ q ∈ s.clients, id ∈ slots → (id ∈ s.windows q ↔ q ∈ channel.users) :=
      fun q hq hid => (h.shown q hq id hid).trans (uses_of_some hc)
    have hwindow : ∀ q id' x, id' ∈ (setPrivate (closeWindows s {player} id) id x).windows q ↔
        id' ∈ s.windows q ∧ ¬ (q = player ∧ id' = id) := by
      intro q id' x
      rw [← Finset.mem_singleton]
      exact mem_closeWindows
    split_ifs at hsound ⊢ with hmem howner
    · -- the owner's window is closed, and those of the others in the channel
      have hset : (setPrivate (closeWindows s {player} id) id (some (channel.removeUser player))).privateChannels id =
          some (channel.removeUser player) := Function.update_self _ _ _
      obtain ⟨hplayers, hn, hclients⟩ := deleteChannel_rest
        (setPrivate (closeWindows s {player} id) id (some (channel.removeUser player))) id
      have hprivate : (deleteChannel (setPrivate (closeWindows s {player} id) id
          (some (channel.removeUser player))) id).privateChannels = Function.update s.privateChannels id none := by
        rw [deleteChannel_privateChannels]
        exact Function.update_idem _ _ _
      refine h.update hsound hplayers hclients (hn ▸ h.apart) hprivate (fun q id' hne => ?_) fun q hq hid => ?_
      · rw [mem_deleteChannel hset, hwindow]
        simp [hne]
      · rw [mem_deleteChannel hset, hwindow, hold q hq hid]
        simp only [PrivateChatChannel.removeUser, Finset.mem_erase]
        by_cases hqp : q = player
        · simp [hqp]
        · simp [hqp]
    · refine h.update hsound rfl rfl h.apart rfl (fun q id' hne => ?_) fun q hq hid => ?_
      · rw [hwindow]
        simp [hne]
      · rw [hwindow, hold q hq hid]
        simp [PrivateChatChannel.removeUser, and_comm]
    · exact h.closeWindow fun _ huses => hmem ((uses_of_some hc).1 huses)
  · next hget =>
    refine h.closeWindow fun hid huses => ?_
    obtain ⟨c, hc, hu⟩ := huses
    rw [h.getChannel_eq hid hc hu canJoin] at hget
    simp at hget

theorem Shown.invite (h : Shown guid s) {invited : ι} (hi : invited ∈ s.players) :
    Shown guid (playerChannelInvite guid s player invited) := by
  have hsound : Sound guid (playerChannelInvite guid s player invited) := h.playerChannelInvite hi
  unfold PrivateChannels.playerChannelInvite at hsound ⊢
  split at hsound
  · next id channel hget =>
    obtain ⟨hc, -⟩ := getPrivateChannel_some hget
    split_ifs at hsound ⊢
    · exact h
    · refine h.update hsound rfl rfl h.apart rfl (fun _ _ _ => Iff.rfl) fun q hq hid => ?_
      have hold := (h.shown q hq id hid).trans (uses_of_some hc)
      have husers : (channel.invitePlayer (guid invited) invited).users = channel.users := by
        unfold PrivateChatChannel.invitePlayer
        split <;> rfl
      simp only [Option.some_inj, exists_eq_left', husers]
      exact hold
  · exact h

theorem Shown.exclude (h : Shown guid s) (hp : player ∈ s.players) {excluded : ι} (he : excluded ∈ s.players) :
    Shown guid (playerChannelExclude guid s player excluded) := by
  have hsound := h.playerChannelExclude hp he
  unfold PrivateChannels.playerChannelExclude at hsound ⊢
  split at hsound
  · next id channel hget =>
    obtain ⟨hc, -⟩ := getPrivateChannel_some hget
    split_ifs at hsound ⊢
    · exact h
    · split at hsound
      · have hprivate : (setPrivate s id (some ((channel.removeInvite (guid excluded)).removeUser
            excluded))).privateChannels = Function.update s.privateChannels id _ := rfl
        refine h.update hsound rfl rfl h.apart hprivate (fun q id' hne => ?_) fun q hq hid => ?_
        · rw [mem_closeWindows]
          simp [hne, setPrivate]
        · have hold := (h.shown q hq id hid).trans (uses_of_some hc)
          rw [mem_closeWindows]
          simp only [setPrivate, hold, Option.some_inj, exists_eq_left', PrivateChatChannel.removeUser,
            PrivateChatChannel.removeInvite, Finset.mem_erase, Finset.mem_singleton, and_true]
          exact and_comm
      · exact h
  · exact h

/-- The player is in no channel, and others are in those that are not his. -/
theorem removeUserFromAllChannels_uses {q : ι} : (removeUserFromAllChannels guid s player).Uses q id ↔
    q ≠ player ∧ ∃ channel, s.privateChannels id = some channel ∧ channel.owner ≠ guid player ∧ q ∈ channel.users := by
  unfold State.Uses removeUserFromAllChannels
  cases hc : s.privateChannels id with
  | none => simp [hc]
  | some channel =>
    by_cases ho : channel.owner = guid player
    · simp [hc, ho]
    · simp [hc, ho, PrivateChatChannel.removeUser, PrivateChatChannel.removeInvite]

theorem removeUserFromAllChannels_windows (h : Shown guid s) {q : ι} (hq : q ∈ s.clients) (hne : q ≠ player)
    (hid : id ∈ slots) : id ∈ (removeUserFromAllChannels guid s player).windows q ↔
      (removeUserFromAllChannels guid s player).Uses q id := by
  have hold := h.shown q hq id hid
  rw [removeUserFromAllChannels_uses]
  simp only [removeUserFromAllChannels, Finset.mem_filter, hold, State.Uses]
  cases hc : s.privateChannels id with
  | none => simp
  | some channel =>
    by_cases ho : channel.owner = guid player
    · simp [ho, hne]
    · simp [ho, hne]

theorem shown_step (h : Shown guid s) {a : Act ι} (ha : a.apart) : Shown guid (step guid false s a) := by
  have hsound := sound_step h.toSound a
  cases a with
  | login player =>
    simp only [step, Bool.false_eq_true, false_or] at hsound ⊢
    split_ifs at hsound ⊢ with hnew
    · refine { hsound with clients := Finset.insert_subset_insert player h.clients, apart := h.apart, shown := ?_ }
      intro q hq id hid
      dsimp only
      by_cases hne : q = player
      · -- who was not in the game uses no channel
        have hnot : ¬ s.Uses q id := by
          intro ⟨channel, hc, hu⟩
          exact hnew.1 (hne ▸ (h.decent id channel hc).users hu)
        rw [hne, Function.update_self]
        exact iff_of_false (Finset.notMem_empty id) (hne ▸ hnot)
      · rw [Function.update_of_ne hne]
        exact h.shown q ((Finset.mem_insert.1 hq).resolve_left hne) id hid
    · exact h
  | logout player =>
    simp only [step] at hsound ⊢
    split_ifs at hsound ⊢ with hp
    · refine { hsound with clients := Finset.erase_subset_erase player h.clients, apart := ?_, shown := ?_ }
      · intro id hid
        simp [removeUserFromAllChannels, h.apart id hid]
      · intro q hq id hid
        obtain ⟨hne, hq⟩ := Finset.mem_erase.1 hq
        dsimp only
        rw [Function.update_of_ne hne]
        exact removeUserFromAllChannels_windows h hq hne hid
    · exact h
  | release player =>
    refine { hsound with clients := (Finset.erase_subset _ _).trans h.clients, apart := h.apart, shown := ?_ }
    intro q hq id hid
    obtain ⟨hne, hq⟩ := Finset.mem_erase.1 hq
    simp only [step]
    rw [Function.update_of_ne hne]
    exact h.shown q hq id hid
  | connect player =>
    simp only [step] at hsound ⊢
    split_ifs at hsound ⊢ with hp
    · refine { hsound with clients := Finset.insert_subset hp.1 h.clients, apart := ?_, shown := ?_ }
      · intro id hid
        simp [removeUserFromAllChannels, h.apart id hid]
      · intro q hq id hid
        dsimp only
        by_cases hne : q = player
        · have hnot : ¬ (removeUserFromAllChannels guid s player).Uses q id := fun huses =>
            (removeUserFromAllChannels_uses.1 huses).1 hne
          rw [hne, Function.update_self]
          exact iff_of_false (Finset.notMem_empty id) (hne ▸ hnot)
        · rw [Function.update_of_ne hne]
          have hq : q ∈ s.clients := (Finset.mem_insert.1 hq).resolve_left hne
          exact removeUserFromAllChannels_windows h hq hne hid
    · exact h
  | load ids =>
    refine { hsound with clients := h.clients, apart := fun id hid => ?_, shown := h.shown }
    have hout : id ∉ ids := fun hmem => ha id hmem hid
    simp [step, load, hout]
  | create player isPremium canJoin =>
    simp only [step]
    split
    · next hp => exact h.create hp isPremium canJoin
    · exact h
  | join player id canJoin onJoin =>
    simp only [step]
    split
    · next hp => exact h.join hp id canJoin onJoin
    · exact h
  | leave player id canJoin =>
    simp only [step]
    split
    · exact h.leave id canJoin
    · exact h
  | invite player invited =>
    simp only [step]
    split
    · next hp => exact h.invite hp.2
    · exact h
  | exclude player excluded =>
    simp only [step]
    split
    · next hp => exact h.exclude hp.1 hp.2
    · exact h

theorem talkToChannel_eq (h : Shown guid s) (hid : id ∈ slots) {q : ι} {canJoin onSpeak : Bool} :
    q ∈ talkToChannel guid s player id canJoin onSpeak ↔ s.Uses player id ∧ s.Uses q id := by
  unfold talkToChannel
  split
  · next users hget => exact absurd hid (h.not_slot (getChannel_inl hget))
  · next channel hget =>
    obtain ⟨-, hc, -⟩ := getChannel_inr hget
    rw [uses_of_some hc, uses_of_some hc]
    split
    · next hu => simp [hu]
    · next hu => simp [hu]
  · next hget =>
    have hnot : ¬ s.Uses player id := by
      intro ⟨channel, hc, hu⟩
      simp [h.getChannel_eq hid hc hu canJoin] at hget
    simp [hnot]

/-- **Who shows the window of a private channel hears it.** Without clones, and as long as
no normal channel has been given the id of a private one: of two players with clients the
second hears what the first says in a private channel if and only if the clients of both
show its window. -/
theorem heard_iff_shown (guid : ι → ℕ) (as : List (Act ι)) (has : ∀ a ∈ as, a.apart) :
    let s := Run.run (step guid false) init as
    ∀ player ∈ s.clients, ∀ q ∈ s.clients, ∀ id ∈ slots, ∀ canJoin onSpeak,
      q ∈ talkToChannel guid s player id canJoin onSpeak ↔ id ∈ s.windows player ∧ id ∈ s.windows q := by
  intro s player hplayer q hq id hid canJoin onSpeak
  have hinit : Shown guid (init : State ι) :=
    { sound_init guid with clients := Finset.Subset.refl _, apart := fun _ _ => rfl, shown := by simp [init] }
  have h : Shown guid s :=
    Run.run_of_mem (Q := Act.apart) (I := Shown guid) (fun _ _ h ha => shown_step h ha) as hinit has
  rw [talkToChannel_eq h hid, h.shown player hplayer id hid, h.shown q hq id hid]

end Guid

/-- Two players log in; one opens a channel, invites the other, who joins, and excludes
him again. -/
def quarrel : List (Act ℕ) :=
  [.login 1, .login 2, .create 1 true true, .invite 1 2, .join 2 100 true true, .exclude 1 2]

theorem heard_iff_shown_quarrel : 2 ∉ talkToChannel id (Run.run (step id false) init quarrel) 1 100 true true := by
  have has : ∀ a ∈ quarrel, a.apart := by simp [quarrel, Act.apart]
  rw [heard_iff_shown id quarrel has 1 (by decide +kernel) 2 (by decide +kernel) 100 (by decide +kernel)]
  decide +kernel

end PrivateChannels
end ForgottenServer
