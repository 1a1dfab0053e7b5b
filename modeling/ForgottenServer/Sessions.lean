/-
# Logging in and taking over

A connection logs in to a character once. If the character is not in the game, or clones
are allowed, a player is made for it; otherwise the connection that controls the player is closed, and a second
later the new one takes its place (`ProtocolGame::connect`), unless somebody controls the
player still. A connection that has been closed is released by the dispatcher, which
takes the player from it. Its `Connection` lives on until the network is done with it.

In every run protocols and players point at each other, and as long as no clones are
allowed a character is in the game once (`controls_iff`). A protocol keeps a player behind its release exactly if it took him
over while its connection was still there (`no_ghost_iff`). The mark of a player who is being
taken over stays until a takeover succeeds, also where none is to come
(`connecting_awaited`).

Key definitions: `State`, `login`, `connect`, `release`, `step`, `Paired`, `Named`, `Haunts`.
Key theorems: `paired_step`, `controls_iff`, `no_ghost_iff`, `connecting_awaited`.
-/
import Mathlib.Data.Finset.Basic
import Mathlib.Tactic
import ForgottenServer.Lib.Run

namespace ForgottenServer
namespace Sessions

/-! ### The model -/

/-- Players and protocols are numbers, and names are in lower case. Of a player: his name,
whether he is in the game, his client and `isConnecting`. Of a `ProtocolGame`: its player,
the player of its `eventConnect`, and whether it has logged in and been released; of its
connection: whether it is closed, and whether it is gone. -/
structure State where
  nextPlayer : ℕ := 0
  name : ℕ → String := fun _ => ""
  players : Finset ℕ := ∅
  mappedPlayerNames : String → Option ℕ := fun _ => none
  client : ℕ → Option ℕ := fun _ => none
  isConnecting : ℕ → Bool := fun _ => false
  player : ℕ → Option ℕ := fun _ => none
  eventConnect : ℕ → Option ℕ := fun _ => none
  loggedIn : ℕ → Bool := fun _ => false
  released : ℕ → Bool := fun _ => false
  closed : ℕ → Bool := fun _ => false
  expired : ℕ → Bool := fun _ => false

/-- `Game::getPlayerByName` -/
def getPlayerByName (s : State) (name : String) : Option ℕ :=
  if name = "" then none else s.mappedPlayerNames name

/-- `Game::addPlayer` -/
def addPlayer (s : State) (u : ℕ) : State :=
  { s with
    players := insert u s.players
    mappedPlayerNames := Function.update s.mappedPlayerNames (s.name u) (some u) }

/-- `Game::removePlayer`, where the player is in the game. The name goes from the map,
whoever it led to. -/
def removePlayer (s : State) (u : ℕ) : State :=
  if u ∈ s.players then
    { s with
      players := s.players.erase u
      mappedPlayerNames := Function.update s.mappedPlayerNames (s.name u) none }
  else s

/-- `Connection::close`, as far as the protocol learns of it. -/
def disconnect (s : State) (p : ℕ) : State := { s with closed := Function.update s.closed p true }

/-- The protocol takes the player. -/
def attach (s : State) (p u : ℕ) : State :=
  { s with
    player := Function.update s.player p (some u)
    client := Function.update s.client u (some p) }

/-- `ProtocolGame::connect` -/
def connect (s : State) (p u : ℕ) : State :=
  let s := { s with eventConnect := Function.update s.eventConnect p none }
  if u ∉ s.players ∨ (s.client u).isSome then disconnect s p
  else if s.expired p then s
  else
    { attach s p u with isConnecting := Function.update s.isConnecting u false }

/-- The part of `ProtocolGame::login` that makes a player. `admitted` is whether the
character may enter, is loaded and finds a place. -/
def enter (s : State) (p : ℕ) (name : String) (admitted : Bool) : State :=
  let u := s.nextPlayer
  let s := attach { s with nextPlayer := u + 1, name := Function.update s.name u name } p u
  if admitted then addPlayer s u else disconnect s p

/-- `ProtocolGame::login`. `replaceKick` and `allowClones` are what the settings
`REPLACE_KICK_ON_LOGIN` and `ALLOW_CLONES` are then. -/
def login (s : State) (p : ℕ) (name : String) (admitted replaceKick allowClones : Bool) : State :=
  let s := { s with loggedIn := Function.update s.loggedIn p true }
  match getPlayerByName s name with
  | none => enter s p name admitted
  | some u =>
    if allowClones then enter s p name admitted
    else if (s.eventConnect p).isSome || !replaceKick then disconnect s p
    else
      match s.client u with
      | some q =>
        { disconnect s q with
          isConnecting := Function.update s.isConnecting u true
          eventConnect := Function.update s.eventConnect p (some u) }
      | none => connect s p u

/-- `ProtocolGame::release` -/
def release (s : State) (p : ℕ) : State :=
  let s := { s with released := Function.update s.released p true }
  match s.player p with
  | some u =>
    if s.client u = some p then
      { s with client := Function.update s.client u none, player := Function.update s.player p none }
    else s
  | none => s

/-- `ProtocolGame::logout`. A player in the game may be kept in it. -/
def logout (s : State) (p : ℕ) (allowed : Bool) : State :=
  match s.player p with
  | some u => if u ∈ s.players ∧ !allowed then s else removePlayer (disconnect s p) u
  | none => s

/-- What happens next. `close` is the network's, `expire` the end of a `Connection`, and
`remove` takes a player from the game in another way than `logout`. -/
inductive Act
  | login (p : ℕ) (name : String) (admitted replaceKick allowClones : Bool)
  | connect (p : ℕ)
  | release (p : ℕ)
  | logout (p : ℕ) (allowed : Bool)
  | close (p : ℕ)
  | expire (p : ℕ)
  | remove (u : ℕ)

/-- A protocol logs in once, before it is released, and is released once, when its
connection has been closed. -/
def step (s : State) : Act → State
  | .login p name admitted replaceKick allowClones =>
    if s.loggedIn p ∨ s.released p then s else login s p name admitted replaceKick allowClones
  | .connect p =>
    match s.eventConnect p with
    | some u => connect s p u
    | none => s
  | .release p => if s.closed p ∧ !s.released p then release s p else s
  | .logout p allowed => logout s p allowed
  | .close p => disconnect s p
  | .expire p => if s.closed p then { s with expired := Function.update s.expired p true } else s
  | .remove u => removePlayer s u

def init : State := {}

variable {s s' : State} {p q u v : ℕ}

/-! ### Who controls whom -/

/-- Protocols and players point at each other; a protocol that waits to take over has no
player, nor has one that has not logged in. -/
structure Paired (s : State) : Prop where
  forth : ∀ p u, s.player p = some u → s.client u = some p
  back : ∀ u p, s.client u = some p → s.player p = some u
  new : ∀ u, s.nextPlayer ≤ u → s.client u = none ∧ u ∉ s.players
  waits : ∀ p u, s.eventConnect p = some u → s.player p = none
  out : ∀ p, s.loggedIn p = false → s.player p = none ∧ s.eventConnect p = none

theorem Paired.congr (h : Paired s) (hplayer : s'.player = s.player) (hclient : s'.client = s.client)
    (hnext : s'.nextPlayer = s.nextPlayer) (hevent : s'.eventConnect = s.eventConnect)
    (hin : s'.loggedIn = s.loggedIn) (hsub : s'.players ⊆ s.players) : Paired s' := by
  refine ⟨?_, ?_, fun u hu => ?_, ?_, ?_⟩
  · rw [hplayer, hclient]
    exact h.forth
  · rw [hplayer, hclient]
    exact h.back
  · rw [hclient]
    obtain ⟨hnone, hout⟩ := h.new u (hnext ▸ hu)
    exact ⟨hnone, fun hmem => hout (hsub hmem)⟩
  · rw [hevent, hplayer]
    exact h.waits
  · rw [hin, hevent, hplayer]
    exact h.out

theorem Paired.disconnect (h : Paired s) (p : ℕ) : Paired (disconnect s p) :=
  h.congr rfl rfl rfl rfl rfl (Finset.Subset.refl _)

/-- A protocol that is not connecting takes a player without a client. -/
theorem Paired.attach (h : Paired s) (hu : u < s.nextPlayer) (hclient : s.client u = none) (hplayer : s.player p = none)
    (hevent : s.eventConnect p = none) (hin : s.loggedIn p = true) : Paired (attach s p u) := by
  refine ⟨fun q v hq => ?_, fun v q hv => ?_, fun v hv => ?_, fun q v hq => ?_, fun q hq => ?_⟩
  · simp only [Sessions.attach] at hq ⊢
    by_cases hqp : q = p
    · rw [hqp, Function.update_self, Option.some_inj] at hq
      rw [← hq, hqp, Function.update_self]
    · rw [Function.update_of_ne hqp] at hq
      have hold := h.forth q v hq
      rw [Function.update_of_ne]
      · exact hold
      · intro hvu
        simp [hvu, hclient] at hold
  · simp only [Sessions.attach] at hv ⊢
    by_cases hvu : v = u
    · rw [hvu, Function.update_self, Option.some_inj] at hv
      rw [← hv, hvu, Function.update_self]
    · rw [Function.update_of_ne hvu] at hv
      have hold := h.back v q hv
      rw [Function.update_of_ne]
      · exact hold
      · intro hqp
        simp [hqp, hplayer] at hold
  · have hne : v ≠ u := by
      have hle : s.nextPlayer ≤ v := hv
      omega
    simp only [Sessions.attach]
    rw [Function.update_of_ne hne]
    exact h.new v hv
  · have hne : q ≠ p := by
      intro he
      have hq : s.eventConnect q = some v := hq
      simp [he, hevent] at hq
    simp only [Sessions.attach]
    rw [Function.update_of_ne hne]
    exact h.waits q v hq
  · have hne : q ≠ p := by
      intro he
      have hq : s.loggedIn q = false := hq
      simp [he, hin] at hq
    simp only [Sessions.attach]
    rw [Function.update_of_ne hne]
    exact h.out q hq

theorem lt_of_mem (h : Paired s) (hu : u ∈ s.players) : u < s.nextPlayer := by
  by_contra hle
  exact (h.new u (Nat.le_of_not_lt hle)).2 hu

/-- The event of a protocol is over. -/
theorem Paired.clearEvent (h : Paired s) (p : ℕ) :
    Paired { s with eventConnect := Function.update s.eventConnect p none } := by
  refine ⟨h.forth, h.back, h.new, fun q v hq => ?_, fun q hq => ?_⟩
  · by_cases hqp : q = p
    · simp [hqp] at hq
    · dsimp only at hq
      rw [Function.update_of_ne hqp] at hq
      exact h.waits q v hq
  · refine ⟨(h.out q hq).1, ?_⟩
    by_cases hqp : q = p
    · simp [hqp]
    · dsimp only
      rw [Function.update_of_ne hqp]
      exact (h.out q hq).2

theorem Paired.connect (h : Paired s) (hplayer : s.player p = none) (hin : s.loggedIn p = true) (u : ℕ) :
    Paired (connect s p u) := by
  have hclear := h.clearEvent p
  unfold Sessions.connect
  dsimp only
  split_ifs with hbusy hexpired
  · exact hclear.disconnect p
  · exact hclear
  · rw [not_or, not_not, Bool.not_eq_true, Option.isSome_eq_false_iff, Option.isNone_iff_eq_none] at hbusy
    have hattach := hclear.attach (lt_of_mem hclear hbusy.1) hbusy.2 hplayer (Function.update_self _ _ _) hin
    exact hattach.congr rfl rfl rfl rfl rfl (Finset.Subset.refl _)

theorem Paired.removePlayer (h : Paired s) (u : ℕ) : Paired (removePlayer s u) := by
  unfold Sessions.removePlayer
  split_ifs
  · exact h.congr rfl rfl rfl rfl rfl (Finset.erase_subset _ _)
  · exact h

/-- A player is made for the character, and may enter the game. -/
theorem Paired.enter (h : Paired s) (hplayer : s.player p = none) (hevent : s.eventConnect p = none)
    (hin : s.loggedIn p = true) (name : String) (admitted : Bool) : Paired (enter s p name admitted) := by
  have hnew : Paired { s with nextPlayer := s.nextPlayer + 1, name := Function.update s.name s.nextPlayer name } :=
    ⟨h.forth, h.back, fun u hu => h.new u (Nat.le_of_succ_le hu), h.waits, h.out⟩
  have hattach := hnew.attach (Nat.lt_succ_self _) (h.new _ le_rfl).1 hplayer hevent hin
  simp only [Sessions.enter]
  split_ifs
  · refine ⟨hattach.forth, hattach.back, fun u hu => ?_, hattach.waits, hattach.out⟩
    obtain ⟨hc, hout⟩ := hattach.new u hu
    refine ⟨hc, fun hmem => ?_⟩
    rcases Finset.mem_insert.1 hmem with rfl | hmem
    · exact Nat.lt_irrefl _ hu
    · exact hout hmem
  · exact hattach.disconnect p

/-- A protocol logs in. -/
theorem Paired.logged (h : Paired s) (p : ℕ) :
    Paired { s with loggedIn := Function.update s.loggedIn p true } := by
  refine ⟨h.forth, h.back, h.new, h.waits, fun q hq => ?_⟩
  by_cases hqp : q = p
  · simp [hqp] at hq
  · dsimp only at hq
    rw [Function.update_of_ne hqp] at hq
    exact h.out q hq

theorem Paired.login (h : Paired s) (hin : s.loggedIn p = false) (name : String)
    (admitted replaceKick allowClones : Bool) : Paired (login s p name admitted replaceKick allowClones) := by
  obtain ⟨hplayer, hevent⟩ := h.out p hin
  have hlogged := h.logged p
  have hself : Function.update s.loggedIn p true p = true := Function.update_self _ _ _
  unfold Sessions.login
  dsimp only
  split
  · exact hlogged.enter hplayer hevent hself name admitted
  · next u hfound =>
    split_ifs
    · exact hlogged.enter hplayer hevent hself name admitted
    · exact hlogged.disconnect p
    · split
      · next q hclient =>
        refine ⟨h.forth, h.back, h.new, fun r v hr => ?_, fun r hr => ?_⟩
        · by_cases hrp : r = p
          · exact hrp ▸ hplayer
          · dsimp only at hr
            rw [Function.update_of_ne hrp] at hr
            exact h.waits r v hr
        · have hrp : r ≠ p := by
            intro he
            simp [Sessions.disconnect, he] at hr
          simp only [Sessions.disconnect] at hr ⊢
          rw [Function.update_of_ne hrp] at hr ⊢
          exact h.out r hr
      · exact hlogged.connect hplayer hself u

theorem Paired.release (h : Paired s) (p : ℕ) : Paired (release s p) := by
  have hsame : Paired { s with released := Function.update s.released p true } :=
    h.congr rfl rfl rfl rfl rfl (Finset.Subset.refl _)
  unfold Sessions.release
  dsimp only
  split
  · next u hplayer =>
    split_ifs with hclient
    · refine ⟨fun q v hq => ?_, fun v q hv => ?_, fun v hv => ?_, fun q v hq => ?_, fun q hq => ?_⟩
      · dsimp only at hq ⊢
        by_cases hqp : q = p
        · simp [hqp] at hq
        · rw [Function.update_of_ne hqp] at hq
          have hold := h.forth q v hq
          rw [Function.update_of_ne]
          · exact hold
          · intro hvu
            rw [hvu, hclient, Option.some_inj] at hold
            exact hqp hold.symm
      · dsimp only at hv ⊢
        by_cases hvu : v = u
        · simp [hvu] at hv
        · rw [Function.update_of_ne hvu] at hv
          have hold := h.back v q hv
          rw [Function.update_of_ne]
          · exact hold
          · intro hqp
            rw [hqp, hplayer, Option.some_inj] at hold
            exact hvu hold.symm
      · refine ⟨?_, (h.new v hv).2⟩
        by_cases hvu : v = u
        · simp [hvu]
        · dsimp only
          rw [Function.update_of_ne hvu]
          exact (h.new v hv).1
      · by_cases hqp : q = p
        · simp [hqp]
        · dsimp only
          rw [Function.update_of_ne hqp]
          exact h.waits q v hq
      · refine ⟨?_, (h.out q hq).2⟩
        by_cases hqp : q = p
        · simp [hqp]
        · dsimp only
          rw [Function.update_of_ne hqp]
          exact (h.out q hq).1
    · exact hsame
  · exact hsame

theorem Paired.logout (h : Paired s) (p : ℕ) (allowed : Bool) : Paired (logout s p allowed) := by
  unfold Sessions.logout
  split
  · split_ifs
    · exact h
    · exact (h.disconnect p).removePlayer _
  · exact h

theorem paired_step (h : Paired s) (a : Act) : Paired (step s a) := by
  cases a with
  | login p name admitted replaceKick allowClones =>
    simp only [step]
    split_ifs with hdone
    · exact h
    · have hin : s.loggedIn p = false := by
        rw [not_or, Bool.not_eq_true] at hdone
        exact hdone.1
      exact h.login hin name admitted replaceKick allowClones
  | connect p =>
    simp only [step]
    split
    · next u hevent =>
      have hin : s.loggedIn p = true := by
        by_contra hne
        simp [(h.out p (by simpa using hne)).2] at hevent
      exact h.connect (h.waits p u hevent) hin u
    · exact h
  | release p =>
    simp only [step]
    split_ifs
    · exact h.release p
    · exact h
  | logout p allowed => exact h.logout p allowed
  | close p => exact h.disconnect p
  | expire p =>
    simp only [step]
    split_ifs
    · exact h.congr rfl rfl rfl rfl rfl (Finset.Subset.refl _)
    · exact h
  | remove u => exact h.removePlayer u

theorem paired_init : Paired init := by
  constructor <;> simp [init]

theorem paired_run (as : List Act) : Paired (Run.run step init as) :=
  Run.run_of_step (I := Paired) (fun _ a h => paired_step h a) as paired_init

/-- The map of the names leads to everybody in the game. -/
def Named (s : State) : Prop := ∀ u ∈ s.players, s.name u ≠ "" → s.mappedPlayerNames (s.name u) = some u

theorem Named.removePlayer (h : Named s) (u : ℕ) : Named (removePlayer s u) := by
  unfold Sessions.removePlayer
  split_ifs with hu
  · intro v hv hname
    obtain ⟨hne, hv⟩ := Finset.mem_erase.1 hv
    have hmapped := h v hv hname
    dsimp only at hname ⊢
    rw [Function.update_of_ne]
    · exact hmapped
    · intro he
      rw [he, h u hu (he ▸ hname)] at hmapped
      exact hne (Option.some_inj.1 hmapped).symm
  · exact h

theorem connect_names (s : State) (p u : ℕ) : (connect s p u).players = s.players ∧
    (connect s p u).name = s.name ∧ (connect s p u).mappedPlayerNames = s.mappedPlayerNames := by
  unfold connect
  dsimp only
  split_ifs <;> exact ⟨rfl, rfl, rfl⟩

theorem Named.connect (h : Named s) (p u : ℕ) : Named (connect s p u) := by
  obtain ⟨hplayers, hname, hmapped⟩ := connect_names s p u
  unfold Named
  rw [hplayers, hname, hmapped]
  exact h

/-- Who enters has a name that nobody in the game has. -/
theorem Named.enter (h : Named s) (hpaired : Paired s) {name : String} (hfree : getPlayerByName s name = none)
    (admitted : Bool) : Named (enter s p name admitted) := by
  have hold : ∀ v ∈ s.players, Function.update s.name s.nextPlayer name v = s.name v :=
    fun v hv => Function.update_of_ne (lt_of_mem hpaired hv).ne _ _
  have hself : Function.update s.name s.nextPlayer name s.nextPlayer = name := Function.update_self _ _ _
  simp only [Sessions.enter]
  split_ifs
  · intro v hv hname
    simp only [addPlayer, attach, hself] at hv hname ⊢
    rcases Finset.mem_insert.1 hv with rfl | hv
    · rw [hself, Function.update_self]
    · rw [hold v hv] at hname ⊢
      rw [Function.update_of_ne]
      · exact h v hv hname
      · intro he
        have hmapped := h v hv hname
        simp [getPlayerByName, ← he, hname, hmapped] at hfree
  · intro v hv hname
    have hv : v ∈ s.players := hv
    simp only [disconnect, attach] at hname ⊢
    rw [hold v hv] at hname ⊢
    exact h v hv hname

theorem Named.login (h : Named s) (hpaired : Paired s) (p : ℕ) (name : String) (admitted replaceKick : Bool) :
    Named (login s p name admitted replaceKick false) := by
  have hsame : Named { s with loggedIn := Function.update s.loggedIn p true } := h
  unfold Sessions.login
  simp only [Bool.false_eq_true, if_false]
  split
  · next hfree => exact hsame.enter (hpaired.logged p) hfree admitted
  · split_ifs
    · exact h
    · split
      · exact h
      · exact hsame.connect p _

/-- A login without clones, if it is one. -/
def Act.single : Act → Prop
  | .login _ _ _ _ allowClones => allowClones = false
  | _ => True

theorem named_step (hpaired : Paired s) (h : Named s) {a : Act} (ha : a.single) : Named (step s a) := by
  cases a with
  | login p name admitted replaceKick allowClones =>
    obtain rfl : allowClones = false := ha
    simp only [step]
    split_ifs
    · exact h
    · exact h.login hpaired p name admitted replaceKick
  | connect p =>
    simp only [step]
    split
    · exact h.connect p _
    · exact h
  | release p =>
    simp only [step, release]
    split_ifs
    · split
      · split_ifs
        · exact h
        · exact h
      · exact h
    · exact h
  | logout p allowed =>
    simp only [step, logout]
    split
    · split_ifs
      · exact h
      · have hclosed : Named (disconnect s p) := h
        exact hclosed.removePlayer _
    · exact h
  | close p => exact h
  | expire p =>
    simp only [step]
    split_ifs
    · exact h
    · exact h
  | remove u => exact h.removePlayer u

/-- **One connection controls a player.** In every run, with any number of connections
that log in to the same characters, a protocol has a player exactly if it is that player's
client: no player is controlled by two connections, and none has a client that has left
him. As long as clones are not allowed, a name is in the game once. -/
theorem controls_iff (as : List Act) :
    let s := Run.run step init as
    (∀ p u, s.player p = some u ↔ s.client u = some p) ∧
      ((∀ a ∈ as, a.single) →
        ∀ u ∈ s.players, ∀ v ∈ s.players, s.name u = s.name v → s.name u ≠ "" → u = v) := by
  intro s
  have h : Paired s := paired_run as
  refine ⟨fun p u => ⟨h.forth p u, h.back u p⟩, fun hsingle u hu v hv he hname => ?_⟩
  have hnamed := Run.run_of_mem (Q := Act.single) (I := fun s => Paired s ∧ Named s)
    (fun _ a h ha => ⟨paired_step h.1 a, named_step h.1 h.2 ha⟩) as
    ⟨paired_init, by simp [Named, init]⟩ hsingle
  have hmapped := hnamed.2 u hu hname
  have hmapped' := hnamed.2 v hv (he ▸ hname)
  have huv : some u = some v := hmapped.symm.trans (he ▸ hmapped')
  exact Option.some_inj.1 huv

/-! ### Who is left behind -/

/-- A protocol that has been released has no player. -/
def Rested (s : State) : Prop := ∀ p, s.released p = true → s.player p = none

/-- A protocol that has been released takes over a player, as its connection is still
there. -/
def Haunts (s : State) (a : Act) : Prop :=
  ∃ p u, a = .connect p ∧ s.eventConnect p = some u ∧ s.released p = true ∧ s.expired p = false ∧
    u ∈ s.players ∧ s.client u = none

theorem rested_congr (hreleased : s'.released = s.released)
    (hplayer : ∀ p, s.released p = true → s'.player p = s.player p) : Rested s' ↔ Rested s := by
  unfold Rested
  rw [hreleased]
  exact forall_congr' fun p => imp_congr_right fun hp => by rw [hplayer p hp]

theorem attach_player (hq : q ≠ p) : (attach s p u).player q = s.player q := Function.update_of_ne hq _ _

/-- A takeover leaves the other protocols alone, and the event of its own is over. -/
theorem connect_cases (s : State) (p u : ℕ) : (connect s p u).released = s.released ∧
    (∀ q, q ≠ p → (connect s p u).player q = s.player q) ∧
    ((connect s p u).player p = s.player p ∨
      (connect s p u).player p = some u ∧ u ∈ s.players ∧ s.client u = none ∧ s.expired p = false) := by
  unfold connect
  dsimp only
  split_ifs with hbusy hexpired
  · exact ⟨rfl, fun _ _ => rfl, .inl rfl⟩
  · exact ⟨rfl, fun _ _ => rfl, .inl rfl⟩
  · rw [not_or, not_not, Bool.not_eq_true, Option.isSome_eq_false_iff, Option.isNone_iff_eq_none] at hbusy
    refine ⟨rfl, fun q hq => attach_player hq, .inr ⟨?_, hbusy.1, hbusy.2, by simpa using hexpired⟩⟩
    simp [attach]

theorem enter_rest (s : State) (p : ℕ) (name : String) (admitted : Bool) :
    (enter s p name admitted).released = s.released ∧
      ∀ q, q ≠ p → (enter s p name admitted).player q = s.player q := by
  simp only [enter]
  split_ifs
  · exact ⟨rfl, fun q hq => attach_player hq⟩
  · exact ⟨rfl, fun q hq => attach_player hq⟩

theorem login_rest (s : State) (p : ℕ) (name : String) (admitted replaceKick allowClones : Bool) :
    (login s p name admitted replaceKick allowClones).released = s.released ∧
      ∀ q, q ≠ p → (login s p name admitted replaceKick allowClones).player q = s.player q := by
  have henter := enter_rest { s with loggedIn := Function.update s.loggedIn p true } p name admitted
  unfold login
  dsimp only
  split
  · exact henter
  · next u _ =>
    split_ifs
    · exact henter
    · exact ⟨rfl, fun _ _ => rfl⟩
    · split
      · exact ⟨rfl, fun _ _ => rfl⟩
      · have hcases := connect_cases { s with loggedIn := Function.update s.loggedIn p true } p u
        exact ⟨hcases.1, hcases.2.1⟩

theorem removePlayer_rest (s : State) (u : ℕ) : (removePlayer s u).released = s.released ∧
    (removePlayer s u).player = s.player := by
  unfold removePlayer
  split_ifs
  · exact ⟨rfl, rfl⟩
  · exact ⟨rfl, rfl⟩

theorem release_player (h : Paired s) (p : ℕ) : (release s p).released = Function.update s.released p true ∧
    (release s p).player = Function.update s.player p none := by
  unfold release
  dsimp only
  split
  · next u hplayer => simp [h.forth p u hplayer]
  · next hplayer => exact ⟨rfl, by rw [← hplayer, Function.update_eq_self]⟩

theorem rested_step_iff (h : Paired s) (a : Act) : Rested (step s a) ↔ Rested s ∧ ¬ Haunts s a := by
  cases a with
  | login p name admitted replaceKick allowClones =>
    have hnot : ¬ Haunts s (.login p name admitted replaceKick allowClones) := by simp [Haunts]
    rw [and_iff_left hnot]
    simp only [step]
    split_ifs with hdone
    · exact Iff.rfl
    · obtain ⟨hreleased, hother⟩ := login_rest s p name admitted replaceKick allowClones
      refine rested_congr hreleased fun q hq => hother q fun hqp => hdone ?_
      exact .inr (hqp ▸ hq)
  | connect p =>
    simp only [step]
    split
    · next u hevent =>
      obtain ⟨hreleased, hother, hsame | ⟨hself, hin, hclient, hexpired⟩⟩ := connect_cases s p u
      · have hall : ∀ q, (connect s p u).player q = s.player q := fun q => by
          by_cases hqp : q = p
          · rw [hqp, hsame]
          · exact hother q hqp
        have hplayer := h.waits p u hevent
        have hnot : ¬ Haunts s (.connect p) := by
          intro hhaunts
          obtain ⟨p', u', ha, hevent', -, hexpired, hin, hclient⟩ := hhaunts
          obtain rfl : p = p' := Act.connect.inj ha
          obtain rfl : u = u' := Option.some_inj.1 (hevent.symm.trans hevent')
          rw [hplayer] at hsame
          simp [connect, attach, hin, hclient, hexpired] at hsame
        rw [and_iff_left hnot]
        exact rested_congr hreleased fun q _ => hall q
      · by_cases hrel : s.released p = true
        · have hhaunts : Haunts s (.connect p) := ⟨p, u, rfl, hevent, hrel, hexpired, hin, hclient⟩
          refine iff_of_false (fun hrest => ?_) fun hand => hand.2 hhaunts
          have hnone := hrest p (hreleased ▸ hrel)
          simp [hself] at hnone
        · have hnot : ¬ Haunts s (.connect p) := by
            intro hhaunts
            obtain ⟨p', u', ha, -, hrel', -⟩ := hhaunts
            obtain rfl : p = p' := Act.connect.inj ha
            exact hrel hrel'
          rw [and_iff_left hnot]
          exact rested_congr hreleased fun q hq => hother q fun hqp => hrel (hqp ▸ hq)
    · next hevent =>
      refine (and_iff_left ?_).symm
      intro hhaunts
      obtain ⟨p', u', ha, hevent', -⟩ := hhaunts
      obtain rfl : p = p' := Act.connect.inj ha
      simp [hevent] at hevent'
  | release p =>
    rw [and_iff_left (by simp [Haunts])]
    simp only [step]
    split_ifs with hcond
    · obtain ⟨hreleased, hplayer⟩ := release_player h p
      unfold Rested
      rw [hreleased, hplayer]
      have hopen : s.released p = false := by simpa using hcond.2
      refine ⟨fun hrest q hq => ?_, fun hrest q hq => ?_⟩
      · have hqp : q ≠ p := fun he => by simp [he, hopen] at hq
        have hnone := hrest q (by rwa [Function.update_of_ne hqp])
        rwa [Function.update_of_ne hqp] at hnone
      · by_cases hqp : q = p
        · simp [hqp]
        · rw [Function.update_of_ne hqp] at hq ⊢
          exact hrest q hq
    · exact Iff.rfl
  | logout p allowed =>
    rw [and_iff_left (by simp [Haunts])]
    simp only [step, logout]
    split
    · split_ifs
      · exact Iff.rfl
      · obtain ⟨hreleased, hplayer⟩ := removePlayer_rest (disconnect s p) _
        exact rested_congr hreleased fun q _ => congrFun hplayer q
    · exact Iff.rfl
  | close p => exact (and_iff_left (by simp [Haunts])).symm
  | remove u =>
    rw [and_iff_left (by simp [Haunts])]
    obtain ⟨hreleased, hplayer⟩ := removePlayer_rest s u
    exact rested_congr hreleased fun q _ => congrFun hplayer q
  | expire p =>
    rw [and_iff_left (by simp [Haunts])]
    simp only [step]
    split_ifs
    · exact Iff.rfl
    · exact Iff.rfl

theorem rested_run_iff : ∀ (as : List Act) {s : State}, Paired s →
    (Rested (Run.run step s as) ↔ Rested s ∧ Run.Along step (fun s a => ¬ Haunts s a) s as)
  | [], _, _ => (and_iff_left trivial).symm
  | a :: as, s, h => by
    have ih := rested_run_iff as (paired_step h a)
    calc Rested (Run.run step s (a :: as))
        ↔ Rested (step s a) ∧ Run.Along step (fun s a => ¬ Haunts s a) (step s a) as := ih
      _ ↔ (Rested s ∧ ¬ Haunts s a) ∧ Run.Along step (fun s a => ¬ Haunts s a) (step s a) as := by
        rw [rested_step_iff h a]
      _ ↔ Rested s ∧ Run.Along step (fun s a => ¬ Haunts s a) s (a :: as) := and_assoc

/-- **Who is released lets go.** At the end of a run no released protocol has a player
exactly if in no step of it a released protocol took over a player while its connection
was still there. -/
theorem no_ghost_iff (as : List Act) :
    (∀ p, (Run.run step init as).released p = true → (Run.run step init as).player p = none) ↔
      Run.Along step (fun s a => ¬ Haunts s a) init as := by
  have hinit : Rested init := by simp [Rested, init]
  have hiff := rested_run_iff as paired_init
  rwa [and_iff_right hinit] at hiff

/-! ### Who is being taken over -/

/-- Who is marked is going to be taken over. -/
def Awaited (s : State) : Prop := ∀ u, s.isConnecting u = true → ∃ p, s.eventConnect p = some u

/-- The takeover succeeds. -/
def Succeeds (s : State) (a : Act) : Prop :=
  ∀ p u, a = .connect p → s.eventConnect p = some u →
    u ∈ s.players ∧ s.client u = none ∧ s.expired p = false

theorem Awaited.congr (h : Awaited s) (hmark : ∀ u, s'.isConnecting u = true → s.isConnecting u = true)
    (hevent : s'.eventConnect = s.eventConnect) : Awaited s' := by
  intro u hu
  obtain ⟨p, hp⟩ := h u (hmark u hu)
  exact ⟨p, hevent ▸ hp⟩

/-- A takeover without an event. -/
theorem Awaited.connect (h : Awaited s) (hevent : s.eventConnect p = none) (u : ℕ) : Awaited (connect s p u) := by
  have hsame : Function.update s.eventConnect p none = s.eventConnect := by
    rw [← hevent, Function.update_eq_self]
  unfold Sessions.connect
  dsimp only
  split_ifs
  · exact h.congr (fun _ hv => hv) hsame
  · exact h.congr (fun _ hv => hv) hsame
  · refine h.congr (fun v hv => ?_) hsame
    by_cases hvu : v = u
    · simp [hvu] at hv
    · dsimp only at hv
      rwa [Function.update_of_ne hvu] at hv

theorem Awaited.enter (h : Awaited s) (p : ℕ) (name : String) (admitted : Bool) :
    Awaited (enter s p name admitted) := by
  simp only [Sessions.enter]
  split_ifs
  · exact h
  · exact h

theorem Awaited.removePlayer (h : Awaited s) (u : ℕ) : Awaited (removePlayer s u) := by
  unfold Sessions.removePlayer
  split_ifs
  · exact h
  · exact h

theorem Awaited.login (h : Awaited s) (hpaired : Paired s) (hin : s.loggedIn p = false) (name : String)
    (admitted replaceKick allowClones : Bool) : Awaited (login s p name admitted replaceKick allowClones) := by
  have hevent := (hpaired.out p hin).2
  have hsame : Awaited { s with loggedIn := Function.update s.loggedIn p true } := h
  unfold Sessions.login
  dsimp only
  split
  · exact hsame.enter p name admitted
  · next u _ =>
    split_ifs
    · exact hsame.enter p name admitted
    · exact h
    · split
      · intro v hv
        dsimp only at hv ⊢
        by_cases hvu : v = u
        · exact ⟨p, by rw [Function.update_self, hvu]⟩
        · rw [Function.update_of_ne hvu] at hv
          obtain ⟨q, hq⟩ := h v hv
          have hqp : q ≠ p := fun he => by simp [he, hevent] at hq
          exact ⟨q, by rwa [Function.update_of_ne hqp]⟩
      · exact hsame.connect hevent u

theorem awaited_step (hpaired : Paired s) (h : Awaited s) {a : Act} (ha : Succeeds s a) : Awaited (step s a) := by
  cases a with
  | login p name admitted replaceKick allowClones =>
    simp only [step]
    split_ifs with hdone
    · exact h
    · have hin : s.loggedIn p = false := by
        rw [not_or, Bool.not_eq_true] at hdone
        exact hdone.1
      exact h.login hpaired hin name admitted replaceKick allowClones
  | connect p =>
    simp only [step]
    split
    · next u hevent =>
      obtain ⟨hin, hclient, hexpired⟩ := ha p u rfl hevent
      have hconnect : connect s p u = { attach { s with eventConnect := Function.update s.eventConnect p none } p u with
          isConnecting := Function.update s.isConnecting u false } := by
        simp [connect, hin, hclient, hexpired, attach]
      rw [hconnect]
      intro v hv
      dsimp only at hv
      have hvu : v ≠ u := fun he => by simp [he] at hv
      rw [Function.update_of_ne hvu] at hv
      obtain ⟨q, hq⟩ := h v hv
      have hqp : q ≠ p := by
        intro he
        rw [he, hevent, Option.some_inj] at hq
        exact hvu hq.symm
      exact ⟨q, by simpa [attach, hqp] using hq⟩
    · exact h
  | release p =>
    simp only [step]
    split_ifs
    · unfold release
      dsimp only
      split
      · split_ifs
        · exact h
        · exact h
      · exact h
    · exact h
  | logout p allowed =>
    simp only [step, logout]
    split
    · split_ifs
      · exact h
      · have hclosed : Awaited (disconnect s p) := h
        exact hclosed.removePlayer _
    · exact h
  | close p => exact h
  | remove u => exact h.removePlayer u
  | expire p =>
    simp only [step]
    split_ifs
    · exact h
    · exact h

/-- **A takeover is under way for whoever is marked.** If every takeover that comes up
succeeds, a player who is connecting, and so cannot be logged out for his silence, has a
connection that is going to take him over. -/
theorem connecting_awaited (as : List Act) (has : Run.Along step Succeeds init as) (u : ℕ)
    (hu : (Run.run step init as).isConnecting u = true) : ∃ p, (Run.run step init as).eventConnect p = some u := by
  have hinit : Paired init ∧ Awaited init := ⟨paired_init, by simp [Awaited, init]⟩
  have h := Run.run_inv (P := Succeeds) (I := fun s => Paired s ∧ Awaited s)
    (fun _ a h ha => ⟨paired_step h.1 a, awaited_step h.1 h.2 ha⟩) as hinit has
  exact h.2 u hu

/-- A second connection takes a character over, and a third one is to. -/
def twice : List Act :=
  [.login 0 "a" true true false, .login 1 "a" true true false, .release 0, .connect 1,
    .login 2 "a" true true false]

theorem connecting_awaited_twice : ∃ p, (Run.run step init twice).eventConnect p = some 0 := by
  have htaken : ∀ u, (Run.run step init (twice.take 3)).eventConnect 1 = some u → 0 = u :=
    fun u hu => Option.some_inj.1 ((by decide : some 0 = _).trans hu)
  have hsucceeds : Run.Along step Succeeds init twice := by
    refine ⟨by simp [Succeeds], by simp [Succeeds], by simp [Succeeds], ?_, by simp [Succeeds], trivial⟩
    intro p u hp hu
    obtain rfl : 1 = p := Act.connect.inj hp
    obtain rfl : 0 = u := htaken u hu
    decide
  exact connecting_awaited twice hsucceeds 0 (by decide)

/-- It is gone before it has taken over, and nobody is to clear the mark. -/
example : (Run.run step init (twice ++ [.close 2, .expire 2, .release 1, .connect 2])).isConnecting 0 = true ∧
    (Run.run step init (twice ++ [.close 2, .expire 2, .release 1, .connect 2])).eventConnect 2 = none := by
  decide

end Sessions
end ForgottenServer
