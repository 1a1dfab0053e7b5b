/-
# Who is in a house

A house has an owner and two lists, and whoever is in none of them is not let in:
`HouseTile::queryAdd` refuses him and `HouseTile::queryDestination` sends him to the
entry. A change of a list, or of an owner that there was, kicks those who are inside and
no longer invited. A bed takes a player in without a question, a login follows the stairs only
once, and a player who leaves his guild stays where he is: these three ways lead a
player who is not invited into a house, and there is no other (`guests_invited_iff`).

Where the stairs and the teleports of a tile lead is the ground, which may change in a
run. Other reasons for which a tile refuses a player are an argument of a step, as are
the names in the database. Creatures other than players, items and doors are left out.

Key definitions: `State`, `getHouseAccessLevel`, `internalMoveCreature`, `kickPlayer`,
`setAccessList`, `setOwner`, `Sane`, `Guarded`, `Intrudes`.
Key theorems: `guarded_step_iff`, `guests_invited_iff`, `swept_run`, `vacated_run`.
-/
import ForgottenServer.AccessList
import ForgottenServer.Lib.Run

namespace ForgottenServer
namespace HouseGuests

open AccessList (Visitor isInList parseList)

variable {ι η τ : Type}

/-! ### The model -/

/-- `AccessHouseLevel_t`. -/
inductive AccessHouseLevel
  | notInvited
  | guest
  | subowner
  | owner
  deriving DecidableEq, Repr

def AccessHouseLevel.toNat : AccessHouseLevel → ℕ
  | .notInvited => 0
  | .guest => 1
  | .subowner => 2
  | .owner => 3

/-- The houses on the map, with their `HouseTile`s and the tile at their entry, the
tile at the temple of a player, and `Tile::nullptr_tile`. -/
structure Houses (ι η τ : Type) where
  getHouse : τ → Option η
  houseTiles : η → List τ
  mem_houseTiles : ∀ h t, t ∈ houseTiles h ↔ getHouse t = some h
  entry : η → Option τ
  temple : ι → Option τ
  nullptr_tile : τ

/-- Where the stairs of a tile lead, `Tile::queryDestination`, and where a creature that
was put on it comes to rest, after the teleports. -/
structure Ground (τ : Type) where
  queryDestination : τ → τ
  rests : τ → τ

/-- The houses and the players. Those in the game are `players`, each on his tile. -/
structure State (ι η τ : Type) where
  ground : Ground τ
  visitor : ι → Visitor
  canEditHouses : ι → Bool
  isLoaded : η → Bool
  owner : η → UInt32
  subOwnerList : η → AccessList
  guestList : η → AccessList
  players : List ι
  tile : ι → τ

/-- `House::getHouseAccessLevel`; the server itself is no player. -/
def getHouseAccessLevel (s : State ι η τ) (h : η) : Option ι → AccessHouseLevel
  | none => .owner
  | some p =>
    if s.canEditHouses p then .owner
    else if (s.visitor p).guid = s.owner h then .owner
    else if isInList (s.subOwnerList h) (s.visitor p) then .subowner
    else if isInList (s.guestList h) (s.visitor p) then .guest
    else .notInvited

/-- `House::isInvited`. -/
def isInvited (s : State ι η τ) (h : η) (p : ι) : Bool := getHouseAccessLevel s h (some p) ≠ .notInvited

/-- What `HouseTile::queryAdd` adds to that of `Tile`. -/
def queryAdd (W : Houses ι η τ) (s : State ι η τ) (t : τ) (p : ι) : Bool :=
  match W.getHouse t with
  | some h => isInvited s h p
  | none => true

/-- `HouseTile::queryDestination`, and that of `Tile`. -/
def queryDestination (W : Houses ι η τ) (s : State ι η τ) (t : τ) (p : ι) : τ :=
  match W.getHouse t with
  | some h =>
    if isInvited s h p then s.ground.queryDestination t
    else (W.entry h).getD ((W.temple p).getD W.nullptr_tile)
  | none => s.ground.queryDestination t

section Moves

variable [DecidableEq ι] [DecidableEq η] [DecidableEq τ]

/-- `Map::moveCreature`, with the teleports that follow. -/
def moveCreature (s : State ι η τ) (p : ι) (t : τ) : State ι η τ :=
  { s with tile := Function.update s.tile p (s.ground.rests t) }

/-- `Game::internalTeleport`. -/
def internalTeleport (W : Houses ι η τ) (s : State ι η τ) (p : ι) (t : Option τ) : State ι η τ :=
  match t with
  | none => s
  | some t => if t ≠ s.tile p ∧ p ∈ s.players ∧ queryAdd W s t p then moveCreature s p t else s

/-- The loop of `Game::internalMoveCreature`, from a tile; it ends where a teleport took the
creature away. -/
def leadOn (W : Houses ι η τ) (p : ι) : ℕ → State ι η τ → τ → State ι η τ
  | 0, s, _ => s
  | n + 1, s, t =>
    let subCylinder := queryDestination W s t p
    if subCylinder = t then s
    else
      let s := moveCreature s p subCylinder
      if s.tile p ≠ subCylinder then s else leadOn W p n s subCylinder

def MAP_MAX_LAYERS : ℕ := 16

/-- `Game::internalMoveCreature`; `passes` is what `Tile::queryAdd` says. -/
def internalMoveCreature (W : Houses ι η τ) (s : State ι η τ) (p : ι) (t : τ) (passes : Bool) : State ι η τ :=
  if queryAdd W s t p ∧ passes then
    let s := moveCreature s p t
    if s.tile p ≠ t then s else leadOn W p MAP_MAX_LAYERS s t
  else s

/-- `House::kickPlayer`. -/
def kickPlayer (W : Houses ι η τ) (s : State ι η τ) (h : η) (player : Option ι) (target : ι) : State ι η τ :=
  if W.getHouse (s.tile target) ≠ some h then s
  else if (getHouseAccessLevel s h player).toNat < (getHouseAccessLevel s h (some target)).toNat ∨
      s.canEditHouses target then s
  else internalTeleport W s target (W.entry h)

/-- The players on a tile. -/
def State.getCreatures (s : State ι η τ) (t : τ) : List ι := s.players.filter fun p => s.tile p = t

/-- The loop that kicks players from the tiles of a house: those whom `kicked` says. -/
def kickAll (W : Houses ι η τ) (h : η) (kicked : State ι η τ → ι → Bool) (s : State ι η τ) :
    State ι η τ :=
  (W.houseTiles h).foldl (fun s t => (s.getCreatures t).foldl
    (fun s p => if kicked s p then kickPlayer W s h none p else s) s) s

def GUEST_LIST : ℕ := 0x100

def SUBOWNER_LIST : ℕ := 0x101

/-- `House::setAccessList`; the other lists are those of doors. -/
def setAccessList (W : Houses ι η τ) (s : State ι η τ) (h : η) (listId : ℕ) (names : Names)
    (textlist : Bytes) : State ι η τ :=
  if listId = GUEST_LIST then
    kickAll W h (fun s p => !isInvited s h p)
      { s with guestList := Function.update s.guestList h (parseList names textlist) }
  else if listId = SUBOWNER_LIST then
    kickAll W h (fun s p => !isInvited s h p)
      { s with subOwnerList := Function.update s.subOwnerList h (parseList names textlist) }
  else s

/-- `House::setOwner`; `named` is whether the database has a name for the new owner. -/
def setOwner (W : Houses ι η τ) (s : State ι η τ) (h : η) (guid : UInt32) (named : Bool)
    (names : Names) : State ι η τ :=
  if s.isLoaded h ∧ s.owner h = guid then s
  else
    let s := { s with isLoaded := Function.update s.isLoaded h true }
    let s :=
      if s.owner h ≠ 0 then
        let s := kickAll W h (fun _ _ => true) s
        let s := { s with owner := Function.update s.owner h 0 }
        let s := setAccessList W s h SUBOWNER_LIST names []
        setAccessList W s h GUEST_LIST names []
      else s
    if guid ≠ 0 ∧ named then { s with owner := Function.update s.owner h guid } else s

/-- `Map::placeCreature` at the tile that it found. -/
def placeCreature (W : Houses ι η τ) (s : State ι η τ) (p : ι) (t : τ) : State ι η τ :=
  moveCreature { s with players := p :: s.players } p (queryDestination W s t p)

/-- The guild and the group of a player. -/
def setVisitor (s : State ι η τ) (p : ι) (guild : Option UInt32) (canEditHouses : Bool) : State ι η τ :=
  { s with
    visitor := Function.update s.visitor p { s.visitor p with guild }
    canEditHouses := Function.update s.canEditHouses p canEditHouses }

/-- What may happen: a `sleep` moves a player to the tile of a bed, `rebuild` changes
stairs and teleports. -/
inductive Act (ι η τ : Type)
  | login (p : ι) (t : τ)
  | logout (p : ι)
  | walk (p : ι) (t : τ) (passes : Bool)
  | teleport (p : ι) (t : Option τ)
  | sleep (p : ι) (t : τ)
  | kick (h : η) (player target : ι)
  | setOwner (h : η) (guid : UInt32) (named : Bool) (names : Names)
  | setAccessList (h : η) (listId : ℕ) (names : Names) (textlist : Bytes)
  | setVisitor (p : ι) (guild : Option UInt32) (canEditHouses : Bool)
  | rebuild (ground : Ground τ)

/-- One step of a run. -/
def step (W : Houses ι η τ) (s : State ι η τ) : Act ι η τ → State ι η τ
  | .login p t => if p ∈ s.players then s else placeCreature W s p t
  | .logout p => { s with players := s.players.filter (· ≠ p) }
  | .walk p t passes => if p ∈ s.players then internalMoveCreature W s p t passes else s
  | .teleport p t => internalTeleport W s p t
  | .sleep p t => if p ∈ s.players then moveCreature s p t else s
  | .kick h player target => kickPlayer W s h (some player) target
  | .setOwner h guid named names => setOwner W s h guid named names
  | .setAccessList h listId names textlist => setAccessList W s h listId names textlist
  | .setVisitor p guild canEditHouses => setVisitor s p guild canEditHouses
  | .rebuild ground => { s with ground }

end Moves

/-! ### What one move does -/

/-- The entry of a house is a tile outside the houses, without stairs and teleports; no
teleport leads into a house; and stairs do not go on for `MAP_MAX_LAYERS` tiles. -/
structure Sane (W : Houses ι η τ) (G : Ground τ) : Prop where
  entry : ∀ h, ∃ e, W.entry h = some e ∧ W.getHouse e = none ∧ G.queryDestination e = e ∧ G.rests e = e
  rests : ∀ t, G.rests t ≠ t → W.getHouse (G.rests t) = none
  short : ∀ t, ∃ n < MAP_MAX_LAYERS, G.queryDestination^[n + 1] t = G.queryDestination^[n] t

section Moves

variable {W : Houses ι η τ} {s s' : State ι η τ} {h : η} {p : ι} {t : τ}

theorem queryAdd_of_none (ht : W.getHouse t = none) : queryAdd W s t p = true := by
  simp [queryAdd, ht]

theorem queryAdd_eq_true : queryAdd W s t p = true ↔ ∀ h, W.getHouse t = some h → isInvited s h p = true := by
  cases ht : W.getHouse t with
  | none => simp [queryAdd, ht]
  | some h => simp [queryAdd, ht]

theorem queryDestination_of_queryAdd (hp : queryAdd W s t p = true) :
    queryDestination W s t p = s.ground.queryDestination t := by
  cases ht : W.getHouse t with
  | none => simp [queryDestination, ht]
  | some h => simp [queryDestination, ht, queryAdd_eq_true.1 hp h ht]

/-- Who is not invited is sent to the entry of the house. -/
theorem queryDestination_of_not_queryAdd (hs : Sane W s.ground) (hp : ¬ queryAdd W s t p = true) :
    W.getHouse (queryDestination W s t p) = none ∧
      s.ground.queryDestination (queryDestination W s t p) = queryDestination W s t p ∧
      s.ground.rests (queryDestination W s t p) = queryDestination W s t p := by
  cases ht : W.getHouse t with
  | none => exact absurd (queryAdd_of_none ht) hp
  | some h =>
    obtain ⟨e, he, hfacts⟩ := hs.entry h
    have hinvited : isInvited s h p = false := by
      simpa [queryAdd, ht] using hp
    have hdest : queryDestination W s t p = e := by
      simp [queryDestination, ht, hinvited, he]
    rwa [hdest]

/-- A tile that sends nobody on is one that he may be on. -/
theorem queryAdd_of_queryDestination (hs : Sane W s.ground) (ht : queryDestination W s t p = t) :
    queryAdd W s t p = true := by
  by_contra hp
  have hnone := (queryDestination_of_not_queryAdd hs hp).1
  rw [ht] at hnone
  exact hp (queryAdd_of_none hnone)

/-- Teleports lead from a tile that a player may be on to another. -/
theorem queryAdd_rests (hs : Sane W s.ground) (hp : queryAdd W s t p = true) :
    queryAdd W s (s.ground.rests t) p = true := by
  by_cases ht : s.ground.rests t = t
  · rwa [ht]
  · exact queryAdd_of_none (hs.rests t ht)

theorem getHouse_rests_iff (hs : Sane W s.ground) :
    W.getHouse (s.ground.rests t) = some h ↔ W.getHouse t = some h ∧ s.ground.rests t = t := by
  by_cases ht : s.ground.rests t = t
  · rw [ht, and_iff_left rfl]
  · rw [hs.rests t ht]
    exact iff_of_false (Option.some_ne_none h).symm fun hin => ht hin.2

/-- What the loop may do with the tiles: whoever is moved is in no house. -/
def Emptied (W : Houses ι η τ) (tile tile' : ι → τ) : Prop := ∀ p, tile' p = tile p ∨ W.getHouse (tile' p) = none

theorem Emptied.trans {tile tile' tile'' : ι → τ} (h : Emptied W tile tile') (h' : Emptied W tile' tile'') :
    Emptied W tile tile'' := by
  intro p
  rcases h' p with heq | hnone
  · rw [heq]
    exact h p
  · exact .inr hnone

/-- Who is not in a house comes into none. -/
theorem Emptied.getHouse_ne {tile tile' : ι → τ} (h' : Emptied W tile tile') (hp : W.getHouse (tile p) ≠ some h) :
    W.getHouse (tile' p) ≠ some h := by
  rcases h' p with heq | hnone
  · rwa [heq]
  · simp [hnone]

/-- Whoever is in the house is invited. -/
def Guarded (W : Houses ι η τ) (s : State ι η τ) (h : η) : Prop :=
  ∀ p ∈ s.players, W.getHouse (s.tile p) = some h → isInvited s h p = true

theorem isInvited_of_canEditHouses (hp : s.canEditHouses p = true) : isInvited s h p = true := by
  simp [isInvited, getHouseAccessLevel, hp]

/-- A house is as it was if everybody who was invited still is, and nobody has come in. -/
theorem Guarded.congr (hg : Guarded W s h) (hplayers : s'.players = s.players) (htile : Emptied W s.tile s'.tile)
    (hinvited : ∀ p ∈ s.players, isInvited s h p = true → isInvited s' h p = true) : Guarded W s' h := by
  intro p hp hin
  rw [hplayers] at hp
  refine hinvited p hp (hg p hp ?_)
  by_contra hout
  exact htile.getHouse_ne hout hin

/-- The lists and the owner of a house are as they were, and so are the players and who may edit
houses; nobody has come into a house. -/
structure Same (W : Houses ι η τ) (s s' : State ι η τ) (h : η) : Prop where
  ground : s'.ground = s.ground
  players : s'.players = s.players
  visitor : s'.visitor = s.visitor
  canEditHouses : s'.canEditHouses = s.canEditHouses
  owner : s'.owner h = s.owner h
  subOwnerList : s'.subOwnerList h = s.subOwnerList h
  guestList : s'.guestList h = s.guestList h
  emptied : Emptied W s.tile s'.tile

theorem Same.refl : Same W s s h := ⟨rfl, rfl, rfl, rfl, rfl, rfl, rfl, fun _ => .inl rfl⟩

theorem Same.trans {s'' : State ι η τ} (h₁ : Same W s s' h) (h₂ : Same W s' s'' h) : Same W s s'' h where
  ground := h₂.ground.trans h₁.ground
  players := h₂.players.trans h₁.players
  visitor := h₂.visitor.trans h₁.visitor
  canEditHouses := h₂.canEditHouses.trans h₁.canEditHouses
  owner := h₂.owner.trans h₁.owner
  subOwnerList := h₂.subOwnerList.trans h₁.subOwnerList
  guestList := h₂.guestList.trans h₁.guestList
  emptied := h₁.emptied.trans h₂.emptied

theorem Same.isInvited_eq (hs : Same W s s' h) (p : ι) : isInvited s' h p = isInvited s h p := by
  have hlevel : getHouseAccessLevel s' h (some p) = getHouseAccessLevel s h (some p) := by
    simp only [getHouseAccessLevel, hs.visitor, hs.canEditHouses, hs.owner, hs.subOwnerList, hs.guestList]
  rw [isInvited, isInvited, hlevel]

theorem Same.guarded (hs : Same W s s' h) (hg : Guarded W s h) : Guarded W s' h :=
  hg.congr hs.players hs.emptied fun p _ hp => (hs.isInvited_eq p).trans hp

/-- The lists of the house name nobody. -/
structure Bare (s : State ι η τ) (h : η) : Prop where
  subOwnerList : ∀ v, isInList (s.subOwnerList h) v = false
  guestList : ∀ v, isInList (s.guestList h) v = false

theorem Bare.congr (hb : Bare s h) (hsub : s'.subOwnerList h = s.subOwnerList h)
    (hguest : s'.guestList h = s.guestList h) : Bare s' h := ⟨hsub ▸ hb.subOwnerList, hguest ▸ hb.guestList⟩

theorem Bare.isInvited_iff (hb : Bare s h) :
    isInvited s h p = true ↔ s.canEditHouses p = true ∨ (s.visitor p).guid = s.owner h := by
  simp only [isInvited, getHouseAccessLevel, hb.subOwnerList, hb.guestList]
  split_ifs <;> simp [*]

/-- What `setOwner` does to a house that nobody owns. -/
def appoint [DecidableEq η] (s : State ι η τ) (h : η) (guid : UInt32) (named : Bool) : State ι η τ :=
  if guid ≠ 0 ∧ named then { s with owner := Function.update s.owner h guid } else s

/-- A new owner of a house of nobody takes no one's place. -/
theorem isInvited_appoint [DecidableEq η] (hguid : (s.visitor p).guid ≠ 0) (howner : s.owner h = 0) (guid : UInt32)
    (named : Bool) (hp : isInvited s h p = true) : isInvited (appoint s h guid named) h p = true := by
  unfold appoint
  split_ifs
  · have hne : (s.visitor p).guid ≠ s.owner h := howner ▸ hguid
    simp only [isInvited, getHouseAccessLevel, if_neg hne] at hp ⊢
    split_ifs at hp ⊢ <;> simp_all
  · exact hp

variable [DecidableEq ι]

/-- What a call does that moves one player: he stays, or is on a tile that he may be on. -/
def MovesOne (W : Houses ι η τ) (s : State ι η τ) (p : ι) (s' : State ι η τ) : Prop :=
  ∃ u, s' = { s with tile := Function.update s.tile p u } ∧ (u = s.tile p ∨ queryAdd W s u p = true)

theorem MovesOne.refl : MovesOne W s p s := ⟨s.tile p, by rw [Function.update_eq_self], .inl rfl⟩

theorem moveCreature_movesOne (hs : Sane W s.ground) (ht : queryAdd W s t p = true) :
    MovesOne W s p (moveCreature s p t) := ⟨s.ground.rests t, rfl, .inr (queryAdd_rests hs ht)⟩

/-- A house is kept when a player is put on a tile, unless it is one of its tiles. -/
theorem Guarded.update (hg : Guarded W s h)
    (ht : p ∈ s.players → W.getHouse t = some h → isInvited s h p = true) :
    Guarded W { s with tile := Function.update s.tile p t } h := by
  intro q hq hin
  dsimp only at hq hin
  by_cases hqp : q = p
  · rw [hqp] at hq hin ⊢
    rw [Function.update_self] at hin
    exact ht hq hin
  · rw [Function.update_of_ne hqp] at hin
    exact hg q hq hin

/-- A move of a player keeps the house as it is. -/
theorem Guarded.movesOne (hg : Guarded W s h) (hmoves : MovesOne W s p s') : Guarded W s' h := by
  obtain ⟨u, rfl, hu⟩ := hmoves
  refine hg.update fun hp hin => ?_
  rcases hu with rfl | hadd
  · exact hg p hp hin
  · exact queryAdd_eq_true.1 hadd h hin

/-- A player who is put on a tile leaves the house guarded just if it is no tile of the house, or he is
invited. -/
theorem guarded_moveCreature_iff (hs : Sane W s.ground) (hg : Guarded W s h) (hp : p ∈ s.players) :
    Guarded W (moveCreature s p t) h ↔
      ¬ (W.getHouse t = some h ∧ s.ground.rests t = t ∧ isInvited s h p = false) := by
  rw [← and_assoc, ← getHouse_rests_iff hs]
  constructor
  · intro hg' ⟨hin, hnot⟩
    have hyes := hg' p hp ((congrArg W.getHouse (Function.update_self _ _ _)).trans hin)
    exact Bool.false_ne_true (hnot.symm.trans hyes)
  · intro hnot
    refine hg.update fun _ hin => ?_
    by_contra hno
    exact hnot ⟨hin, Bool.not_eq_true _ ▸ hno⟩

/-- So does one who comes into the game, from the tile that is found for him. -/
theorem guarded_placeCreature_iff (hs : Sane W s.ground) (hg : Guarded W s h) :
    Guarded W (placeCreature W s p t) h ↔ ¬ (queryAdd W s t p = true ∧
      W.getHouse (s.ground.queryDestination t) = some h ∧
      s.ground.rests (s.ground.queryDestination t) = s.ground.queryDestination t ∧ isInvited s h p = false) := by
  have hplace : Guarded W (placeCreature W s p t) h ↔
      (W.getHouse (s.ground.rests (queryDestination W s t p)) = some h → isInvited s h p = true) := by
    constructor
    · intro hg' hin
      exact hg' p List.mem_cons_self ((congrArg W.getHouse (Function.update_self _ _ _)).trans hin)
    · intro hin q hq hq'
      simp only [placeCreature, moveCreature] at hq hq'
      by_cases hqp : q = p
      · rw [hqp, Function.update_self] at hq'
        rw [hqp]
        exact hin hq'
      · rw [Function.update_of_ne hqp] at hq'
        exact hg q ((List.mem_cons.1 hq).resolve_left hqp) hq'
  rw [hplace, getHouse_rests_iff hs]
  by_cases hadd : queryAdd W s t p = true
  · rw [queryDestination_of_queryAdd hadd, and_iff_right hadd, ← and_assoc, not_and, Bool.not_eq_false]
  · have hnone := (queryDestination_of_not_queryAdd hs hadd).1
    rw [hnone]
    exact iff_of_true (fun hin => absurd hin.1 (Option.some_ne_none h).symm) fun hi => hadd hi.1

variable [DecidableEq τ]

theorem leadOn_of_fixed (n : ℕ) (ht : queryDestination W s t p = t) : leadOn W p n s t = s := by
  cases n with
  | zero => rfl
  | succ n => simp only [leadOn, ht, if_true]

/-- The way of a player who is let in, or sent to the entry, ends on a tile that he may be on:
there are stairs for fewer moves than are made. -/
theorem leadOn_spec : ∀ (n : ℕ) {s : State ι η τ} {t : τ}, Sane W s.ground →
    (queryAdd W s t p = true →
      ∃ k < n, s.ground.queryDestination^[k + 1] t = s.ground.queryDestination^[k] t) →
    (¬ queryAdd W s t p = true → 0 < n) → s.tile p = t →
    ∃ u, leadOn W p n s t = { s with tile := Function.update s.tile p u } ∧ queryAdd W s u p = true
  | 0, s, t, _, hshort, hpos, _ => by
    by_cases hp : queryAdd W s t p = true
    · obtain ⟨k, hk, -⟩ := hshort hp
      exact absurd hk (Nat.not_lt_zero k)
    · exact absurd (hpos hp) (Nat.lt_irrefl 0)
  | n + 1, s, t, hs, hshort, _, htile => by
    by_cases hfixed : queryDestination W s t p = t
    · refine ⟨t, ?_, queryAdd_of_queryDestination hs hfixed⟩
      rw [leadOn_of_fixed (n + 1) hfixed, ← htile, Function.update_eq_self]
    · generalize hd : queryDestination W s t p = d at hfixed
      have htile' : (moveCreature s p d).tile p = s.ground.rests d := Function.update_self _ _ _
      simp only [leadOn, hd, if_neg hfixed, htile']
      by_cases hrests : s.ground.rests d = d
      · rw [if_neg (not_not.2 hrests)]
        have hnext : ∃ u, leadOn W p n (moveCreature s p d) d =
            { moveCreature s p d with tile := Function.update (moveCreature s p d).tile p u } ∧
              queryAdd W (moveCreature s p d) u p = true := by
          by_cases hp : queryAdd W s t p = true
          · rw [queryDestination_of_queryAdd hp] at hd
            obtain ⟨k, hk, hshort⟩ := hshort hp
            cases k with
            | zero => exact absurd (hd.symm.trans hshort) hfixed
            | succ k =>
              rw [Function.iterate_succ_apply _ (k + 1) t, Function.iterate_succ_apply _ k t, hd] at hshort
              have hk' : k < n := Nat.lt_of_succ_lt_succ hk
              exact leadOn_spec n hs (fun _ => ⟨k, hk', hshort⟩) (fun _ => Nat.zero_lt_of_lt hk')
                (htile'.trans hrests)
          · obtain ⟨hnone, hflat, -⟩ := queryDestination_of_not_queryAdd hs hp
            rw [hd] at hnone hflat
            have hadd : queryAdd W (moveCreature s p d) d p = true := queryAdd_of_none hnone
            refine ⟨d, ?_, hadd⟩
            rw [leadOn_of_fixed n ((queryDestination_of_queryAdd hadd).trans hflat)]
            simp only [moveCreature, hrests, Function.update_idem]
        obtain ⟨u, hu, hadd⟩ := hnext
        refine ⟨u, ?_, hadd⟩
        rw [hu]
        simp only [moveCreature, Function.update_idem]
      · rw [if_pos hrests]
        exact ⟨s.ground.rests d, rfl, queryAdd_of_none (hs.rests d hrests)⟩

theorem internalMoveCreature_movesOne (hs : Sane W s.ground) (passes : Bool) :
    MovesOne W s p (internalMoveCreature W s p t passes) := by
  unfold internalMoveCreature
  dsimp only
  split_ifs with hadd hrests
  · exact moveCreature_movesOne hs hadd.1
  · obtain ⟨n, hn, hshort⟩ := hs.short t
    have hlead : ∃ u, leadOn W p MAP_MAX_LAYERS (moveCreature s p t) t =
        { moveCreature s p t with tile := Function.update (moveCreature s p t).tile p u } ∧
          queryAdd W (moveCreature s p t) u p = true := by
      exact leadOn_spec MAP_MAX_LAYERS hs (fun _ => ⟨n, hn, hshort⟩) (fun _ => Nat.zero_lt_of_lt hn)
        (not_not.1 hrests)
    obtain ⟨u, hu, hqueryAdd⟩ := hlead
    refine ⟨u, ?_, .inr hqueryAdd⟩
    rw [hu]
    simp only [moveCreature, Function.update_idem]
  · exact .refl

theorem internalTeleport_movesOne (hs : Sane W s.ground) (t : Option τ) :
    MovesOne W s p (internalTeleport W s p t) := by
  unfold internalTeleport
  cases t with
  | none => exact .refl
  | some t =>
    dsimp only
    split_ifs with h
    · exact moveCreature_movesOne hs h.2.2
    · exact .refl

variable [DecidableEq η]

theorem kickPlayer_movesOne (hs : Sane W s.ground) (player : Option ι) :
    MovesOne W s p (kickPlayer W s h player p) := by
  unfold kickPlayer
  split_ifs
  · exact .refl
  · exact .refl
  · exact internalTeleport_movesOne hs _

/-- The server kicks whoever is in the house, but for those who may edit houses. -/
theorem kickPlayer_none (hs : Sane W s.ground) (hp : p ∈ s.players) (hedit : s.canEditHouses p = false) :
    W.getHouse ((kickPlayer W s h none p).tile p) ≠ some h := by
  intro hin
  unfold kickPlayer at hin
  split_ifs at hin with hhouse hlevel
  · exact hhouse hin
  · rcases hlevel with hlt | htrue
    · refine absurd hlt (Nat.not_lt.2 ?_)
      cases getHouseAccessLevel s h (some p) with
      | notInvited => exact Nat.zero_le 3
      | guest => exact Nat.le_of_ble_eq_true rfl
      | subowner => exact Nat.le_of_ble_eq_true rfl
      | owner => exact Nat.le_refl 3
    · exact Bool.false_ne_true (hedit.symm.trans htrue)
  · obtain ⟨e, he, hnone, -, hrests⟩ := hs.entry h
    have hne : e ≠ s.tile p := by
      intro heq
      rw [heq] at hnone
      exact hhouse (by simp [hnone])
    simp only [he, internalTeleport, if_pos (And.intro hne (And.intro hp (queryAdd_of_none hnone))), moveCreature,
      Function.update_self, hrests, hnone] at hin
    exact Option.some_ne_none h hin.symm

/-! ### Kicks from a house -/

/-- A kick by the server moves one player to the street. -/
theorem kickPlayer_none_emptied (hs : Sane W s.ground) :
    ∃ tile, kickPlayer W s h none p = { s with tile } ∧ Emptied W s.tile tile := by
  obtain ⟨e, he, hnone, -, hrests⟩ := hs.entry h
  unfold kickPlayer internalTeleport
  split_ifs
  · exact ⟨s.tile, rfl, fun q => .inl rfl⟩
  · exact ⟨s.tile, rfl, fun q => .inl rfl⟩
  · simp only [he]
    split_ifs
    · refine ⟨Function.update s.tile p (s.ground.rests e), rfl, fun q => ?_⟩
      by_cases hq : q = p
      · rw [hq, Function.update_self, hrests]
        exact .inr hnone
      · exact .inl (Function.update_of_ne hq _ _)
    · exact ⟨s.tile, rfl, fun q => .inl rfl⟩

section Loop

variable {K : ι → Bool} {kicked : State ι η τ → ι → Bool}

/-- The inner loop: of those in the list nobody is left in the house who is to be kicked. -/
theorem foldl_kickPlayer (hs : Sane W s.ground) (hK : ∀ tile p, kicked { s with tile } p = K p) :
    ∀ (ps : List ι) (x : ι → τ), ∃ x',
      ps.foldl (fun s p => if kicked s p then kickPlayer W s h none p else s) { s with tile := x } =
          { s with tile := x' } ∧ Emptied W x x' ∧
        ∀ p ∈ ps, p ∈ s.players → W.getHouse (x' p) = some h → K p = false ∨ s.canEditHouses p = true
  | [], x => ⟨x, rfl, fun _ => .inl rfl, by simp⟩
  | p :: ps, x => by
    have hfirst : ∃ y, (if kicked { s with tile := x } p then kickPlayer W { s with tile := x } h none p
          else { s with tile := x }) = { s with tile := y } ∧ Emptied W x y ∧
        (p ∈ s.players → W.getHouse (y p) = some h → K p = false ∨ s.canEditHouses p = true) := by
      rw [hK]
      cases hKp : K p with
      | false => exact ⟨x, rfl, fun _ => .inl rfl, fun _ _ => .inl rfl⟩
      | true =>
        have hs' : Sane W { s with tile := x }.ground := hs
        obtain ⟨y, hy, hempty⟩ := kickPlayer_none_emptied (h := h) (p := p) hs'
        refine ⟨y, hy, hempty, fun hp hin => .inr ?_⟩
        by_contra hedit
        have hout := kickPlayer_none (h := h) hs' hp (by simpa using hedit)
        rw [hy] at hout
        exact hout hin
    obtain ⟨y, hy, hempty, hp⟩ := hfirst
    obtain ⟨x', hx', hempty', hps⟩ := foldl_kickPlayer hs hK ps y
    refine ⟨x', ?_, hempty.trans hempty', ?_⟩
    · rw [List.foldl_cons, hy, hx']
    · intro q hq hmem hin
      rcases List.mem_cons.1 hq with rfl | hq
      · refine hp hmem ?_
        by_contra hout
        exact hempty'.getHouse_ne hout hin
      · exact hps q hq hmem hin

/-- The outer loop, over tiles of the house. -/
theorem foldl_kickTiles (hs : Sane W s.ground) (hK : ∀ tile p, kicked { s with tile } p = K p) :
    ∀ (ts : List τ) (x : ι → τ), ∃ x',
      ts.foldl (fun s t => (s.getCreatures t).foldl
          (fun s p => if kicked s p then kickPlayer W s h none p else s) s) { s with tile := x } =
        { s with tile := x' } ∧ Emptied W x x' ∧
        ∀ p ∈ s.players, x p ∈ ts → W.getHouse (x' p) = some h → K p = false ∨ s.canEditHouses p = true
  | [], x => ⟨x, rfl, fun _ => .inl rfl, by simp⟩
  | t :: ts, x => by
    obtain ⟨y, hy, hempty, hfirst⟩ := foldl_kickPlayer (h := h) hs hK (State.getCreatures { s with tile := x } t) x
    obtain ⟨x', hx', hempty', hrest⟩ := foldl_kickTiles hs hK ts y
    refine ⟨x', ?_, hempty.trans hempty', ?_⟩
    · rw [List.foldl_cons, hy, hx']
    · intro p hp hmem hin
      have hy : W.getHouse (y p) = some h := by
        by_contra hout
        exact hempty'.getHouse_ne hout hin
      rcases List.mem_cons.1 hmem with heq | hmem
      · exact hfirst p (by simp [State.getCreatures, hp, heq]) hp hy
      · rcases hempty p with heq | hnone
        · exact hrest p hp (heq ▸ hmem) hin
        · simp [hnone] at hy

/-- **The sweep of a house** leaves nobody in it who is to be kicked, but for those who may edit
houses, and moves nobody into a house. -/
theorem kickAll_spec (kicked : State ι η τ → ι → Bool) (K : ι → Bool) (hs : Sane W s.ground)
    (hK : ∀ tile p, kicked { s with tile } p = K p) :
    ∃ tile, kickAll W h kicked s = { s with tile } ∧ Emptied W s.tile tile ∧
      ∀ p ∈ s.players, W.getHouse (tile p) = some h → K p = false ∨ s.canEditHouses p = true := by
  obtain ⟨tile, htile, hempty, hall⟩ := foldl_kickTiles (h := h) hs hK (W.houseTiles h) s.tile
  refine ⟨tile, htile, hempty, fun p hp hin => hall p hp ?_ hin⟩
  rw [W.mem_houseTiles]
  by_contra hout
  exact hempty.getHouse_ne hout hin

end Loop

/-! ### Changes of a house -/

/-- The sweep for those who are not invited. -/
theorem kickAll_uninvited (hs : Sane W s.ground) (h : η) :
    ∃ tile, kickAll W h (fun s p => !isInvited s h p) s = { s with tile } ∧ Emptied W s.tile tile ∧
      Guarded W { s with tile } h := by
  obtain ⟨tile, htile, hempty, hall⟩ := kickAll_spec (h := h) (fun s p => !isInvited s h p)
    (fun p => !isInvited s h p) hs fun _ _ => rfl
  refine ⟨tile, htile, hempty, fun p hp hin => ?_⟩
  rcases hall p hp hin with hK | hedit
  · exact (Bool.not_eq_false' _).mp hK
  · exact isInvited_of_canEditHouses hedit

/-- After a change of the guests or the subowners everybody in the house is invited. -/
theorem guarded_setAccessList (hs : Sane W s.ground) {listId : ℕ} (hid : listId = GUEST_LIST ∨ listId = SUBOWNER_LIST)
    (names : Names) (textlist : Bytes) : Guarded W (setAccessList W s h listId names textlist) h := by
  have hswept : ∀ {s : State ι η τ}, Sane W s.ground →
      Guarded W (kickAll W h (fun s p => !isInvited s h p) s) h := by
    intro s hs
    obtain ⟨tile, htile, -, hguarded⟩ := kickAll_uninvited hs h
    rw [htile]
    exact hguarded
  unfold setAccessList
  split_ifs with hguest hsubowner
  · exact hswept hs
  · exact hswept hs
  · exact absurd hid (not_or.2 ⟨hguest, hsubowner⟩)

theorem same_kickAll {kicked : State ι η τ → ι → Bool} {K : ι → Bool} (h' : η) (hs : Sane W s.ground)
    (hK : ∀ tile p, kicked { s with tile } p = K p) : Same W s (kickAll W h' kicked s) h := by
  obtain ⟨tile, htile, hempty, -⟩ := kickAll_spec (h := h') kicked K hs hK
  rw [htile]
  exact ⟨rfl, rfl, rfl, rfl, rfl, rfl, rfl, hempty⟩

theorem same_setAccessList {h' : η} (hne : h' ≠ h) (hs : Sane W s.ground) (listId : ℕ) (names : Names)
    (textlist : Bytes) : Same W s (setAccessList W s h' listId names textlist) h := by
  unfold setAccessList
  split_ifs
  · refine Same.trans ?_ (same_kickAll h' (K := fun p => !isInvited
      { s with guestList := Function.update s.guestList h' (parseList names textlist) } h' p) hs fun _ _ => rfl)
    exact ⟨rfl, rfl, rfl, rfl, rfl, rfl, Function.update_of_ne hne.symm _ _, fun _ => .inl rfl⟩
  · refine Same.trans ?_ (same_kickAll h' (K := fun p => !isInvited
      { s with subOwnerList := Function.update s.subOwnerList h' (parseList names textlist) } h' p) hs fun _ _ => rfl)
    exact ⟨rfl, rfl, rfl, rfl, rfl, Function.update_of_ne hne.symm _ _, rfl, fun _ => .inl rfl⟩
  · exact .refl

/-- What `setOwner` does to the house of an owner before it has the new one. -/
def vacate (W : Houses ι η τ) (s : State ι η τ) (h : η) (names : Names) : State ι η τ :=
  let s := kickAll W h (fun _ _ => true) s
  let s := { s with owner := Function.update s.owner h 0 }
  let s := setAccessList W s h SUBOWNER_LIST names []
  setAccessList W s h GUEST_LIST names []

theorem setOwner_eq (guid : UInt32) (named : Bool) (names : Names) : setOwner W s h guid named names =
    if s.isLoaded h ∧ s.owner h = guid then s
    else
      let s := { s with isLoaded := Function.update s.isLoaded h true }
      appoint (if s.owner h ≠ 0 then vacate W s h names else s) h guid named := rfl

theorem same_vacate {h' : η} (hne : h' ≠ h) (hs : Sane W s.ground) (names : Names) :
    Same W s (vacate W s h' names) h := by
  have hkick : Same W s (kickAll W h' (fun _ _ => true) s) h := same_kickAll h' (K := fun _ => true) hs fun _ _ => rfl
  unfold vacate
  dsimp only
  generalize kickAll W h' (fun _ _ => true) s = s₁ at hkick ⊢
  have howner : Same W s { s₁ with owner := Function.update s₁.owner h' 0 } h :=
    hkick.trans ⟨rfl, rfl, rfl, rfl, Function.update_of_ne hne.symm _ _, rfl, rfl, fun _ => .inl rfl⟩
  have hsub := howner.trans (same_setAccessList hne (howner.ground ▸ hs) SUBOWNER_LIST names [])
  exact hsub.trans (same_setAccessList hne (hsub.ground ▸ hs) GUEST_LIST names [])

theorem same_setOwner {h' : η} (hne : h' ≠ h) (hs : Sane W s.ground) (guid : UInt32) (named : Bool) (names : Names) :
    Same W s (setOwner W s h' guid named names) h := by
  have happoint : ∀ s : State ι η τ, Same W s (appoint s h' guid named) h := by
    intro s
    unfold appoint
    split_ifs
    · exact ⟨rfl, rfl, rfl, rfl, Function.update_of_ne hne.symm _ _, rfl, rfl, fun _ => .inl rfl⟩
    · exact .refl
  rw [setOwner_eq]
  split
  · exact .refl
  · have hloaded : Same W s { s with isLoaded := Function.update s.isLoaded h' true } h :=
      ⟨rfl, rfl, rfl, rfl, rfl, rfl, rfl, fun _ => .inl rfl⟩
    refine Same.trans ?_ (happoint _)
    dsimp only
    split_ifs
    · exact hloaded.trans (same_vacate (s := { s with isLoaded := Function.update s.isLoaded h' true }) hne hs names)
    · exact hloaded

theorem setAccessList_subowner (names : Names) (textlist : Bytes) :
    setAccessList W s h SUBOWNER_LIST names textlist = kickAll W h (fun s p => !isInvited s h p)
      { s with subOwnerList := Function.update s.subOwnerList h (parseList names textlist) } := by
  rw [setAccessList, if_neg (show SUBOWNER_LIST ≠ GUEST_LIST by decide), if_pos rfl]

/-- The house from which everybody is kicked: it has no owner and empty lists. -/
theorem vacate_spec (hs : Sane W s.ground) (names : Names) :
    (∃ tile, vacate W s h names =
        { s with
          owner := Function.update s.owner h 0
          subOwnerList := Function.update s.subOwnerList h (parseList names [])
          guestList := Function.update s.guestList h (parseList names [])
          tile } ∧ Emptied W s.tile tile) ∧ Guarded W (vacate W s h names) h := by
  obtain ⟨tile₁, htile₁, hempty₁, -⟩ := kickAll_spec (h := h) (fun _ _ => true) (fun _ => true) hs fun _ _ => rfl
  obtain ⟨tile₂, htile₂, hempty₂, -⟩ := kickAll_uninvited (s := { s with
    tile := tile₁
    owner := Function.update s.owner h 0
    subOwnerList := Function.update s.subOwnerList h (parseList names []) }) hs h
  obtain ⟨tile₃, htile₃, hempty₃, -⟩ := kickAll_uninvited (s := { s with
    tile := tile₂
    owner := Function.update s.owner h 0
    subOwnerList := Function.update s.subOwnerList h (parseList names [])
    guestList := Function.update s.guestList h (parseList names []) }) hs h
  have hvacate : vacate W s h names = setAccessList W { s with
      tile := tile₂
      owner := Function.update s.owner h 0
      subOwnerList := Function.update s.subOwnerList h (parseList names []) } h GUEST_LIST names [] := by
    unfold vacate
    dsimp only
    rw [htile₁, setAccessList_subowner, htile₂]
  constructor
  · refine ⟨tile₃, ?_, (hempty₁.trans hempty₂).trans hempty₃⟩
    rw [hvacate, setAccessList, if_pos rfl, htile₃]
  · rw [hvacate]
    refine guarded_setAccessList ?_ (.inl rfl) names []
    exact hs

/-- A change of the owner sweeps the house, unless nobody owned it. -/
theorem guarded_setOwner (hs : Sane W s.ground) (hguid : ∀ p, (s.visitor p).guid ≠ 0) (guid : UInt32) (named : Bool)
    (names : Names) (hg : Guarded W s h ∨ s.owner h ≠ 0 ∧ s.owner h ≠ guid) :
    Guarded W (setOwner W s h guid named names) h := by
  have happoint : ∀ {s : State ι η τ}, (∀ p, (s.visitor p).guid ≠ 0) → s.owner h = 0 → Guarded W s h →
      Guarded W (appoint s h guid named) h := by
    intro s hguid howner hg
    have hsame : (appoint s h guid named).players = s.players ∧ (appoint s h guid named).tile = s.tile := by
      unfold appoint
      split_ifs
      · exact ⟨rfl, rfl⟩
      · exact ⟨rfl, rfl⟩
    exact hg.congr hsame.1 (fun p => .inl (by rw [hsame.2])) fun p _ hp =>
      isInvited_appoint (hguid p) howner guid named hp
  rw [setOwner_eq]
  split
  · next heq =>
    rcases hg with hg | hne
    · exact hg
    · exact absurd heq.2 hne.2
  · dsimp only
    split_ifs with howner
    · obtain ⟨⟨tile, hvacate, -⟩, hguarded⟩ :=
        vacate_spec (s := { s with isLoaded := Function.update s.isLoaded h true }) (h := h) hs names
      refine happoint ?_ ?_ hguarded
      · rw [hvacate]
        exact hguid
      · rw [hvacate]
        exact Function.update_self _ _ _
    · rcases hg with hg | hne
      · exact happoint hguid (not_not.1 howner) hg
      · exact absurd hne.1 howner

/-! ### Runs -/

/-- An uninvited player is in the house after the step: he lies down in a bed that stands there, comes
into the game on stairs that lead there, or is in it and loses his guild. -/
def Intrudes (W : Houses ι η τ) (h : η) (s : State ι η τ) : Act ι η τ → Prop
  | .sleep p t => p ∈ s.players ∧ W.getHouse t = some h ∧ s.ground.rests t = t ∧ isInvited s h p = false
  | .login p t => p ∉ s.players ∧ queryAdd W s t p = true ∧
    W.getHouse (s.ground.queryDestination t) = some h ∧
    s.ground.rests (s.ground.queryDestination t) = s.ground.queryDestination t ∧ isInvited s h p = false
  | .setVisitor p guild canEditHouses => p ∈ s.players ∧ W.getHouse (s.tile p) = some h ∧
    isInvited (setVisitor s p guild canEditHouses) h p = false
  | _ => False

/-- **What keeps a house guarded.** From a state in which whoever is in the house is invited, a step leads
to another just if nobody intrudes. -/
theorem guarded_step_iff (hs : Sane W s.ground) (hguid : ∀ p, (s.visitor p).guid ≠ 0) (hg : Guarded W s h)
    (a : Act ι η τ) : Guarded W (step W s a) h ↔ ¬ Intrudes W h s a := by
  cases a with
  | login p t =>
    simp only [step]
    split_ifs with hp
    · exact iff_of_true hg fun hi => hi.1 hp
    · rw [guarded_placeCreature_iff hs hg]
      exact not_congr (and_iff_right hp).symm
  | logout p =>
    refine iff_of_true (fun q hq hin => hg q ?_ hin) not_false
    exact List.mem_of_mem_filter hq
  | walk p t passes =>
    refine iff_of_true ?_ not_false
    simp only [step]
    split_ifs
    · exact hg.movesOne (internalMoveCreature_movesOne hs passes)
    · exact hg
  | teleport p t => exact iff_of_true (hg.movesOne (internalTeleport_movesOne hs t)) not_false
  | sleep p t =>
    simp only [step]
    split_ifs with hp
    · rw [guarded_moveCreature_iff hs hg hp]
      exact not_congr (and_iff_right hp).symm
    · exact iff_of_true hg fun hi => hp hi.1
  | kick h' player target =>
    exact iff_of_true (hg.movesOne (kickPlayer_movesOne hs (some player))) not_false
  | setOwner h' guid named names =>
    refine iff_of_true ?_ not_false
    simp only [step]
    by_cases heq : h' = h
    · rw [heq]
      exact guarded_setOwner hs hguid guid named names (.inl hg)
    · exact (same_setOwner heq hs guid named names).guarded hg
  | setAccessList h' listId names textlist =>
    refine iff_of_true ?_ not_false
    simp only [step]
    by_cases heq : h' = h
    · rw [heq]
      by_cases hid : listId = GUEST_LIST ∨ listId = SUBOWNER_LIST
      · exact guarded_setAccessList hs hid names textlist
      · rw [setAccessList, if_neg (not_or.1 hid).1, if_neg (not_or.1 hid).2]
        exact hg
    · exact (same_setAccessList heq hs listId names textlist).guarded hg
  | setVisitor p guild canEditHouses =>
    constructor
    · intro hg' ⟨hp, hin, hnot⟩
      exact Bool.false_ne_true (hnot.symm.trans (hg' p hp hin))
    · intro hnot q hq hin
      by_cases hqp : q = p
      · rw [hqp] at hq hin ⊢
        by_contra hno
        exact hnot ⟨hq, hin, Bool.not_eq_true _ ▸ hno⟩
      · have hlevel : getHouseAccessLevel (setVisitor s p guild canEditHouses) h (some q) =
            getHouseAccessLevel s h (some q) := by
          simp only [getHouseAccessLevel, setVisitor, Function.update_of_ne hqp]
        have hq := hg q hq hin
        rwa [isInvited, ← hlevel] at hq
  | rebuild ground => exact iff_of_true hg not_false

theorem setOwner_rest (hs : Sane W s.ground) (h : η) (guid : UInt32) (named : Bool) (names : Names) :
    (setOwner W s h guid named names).ground = s.ground ∧ (setOwner W s h guid named names).visitor = s.visitor := by
  have happoint : ∀ s : State ι η τ, (appoint s h guid named).ground = s.ground ∧
      (appoint s h guid named).visitor = s.visitor := by
    intro s
    unfold appoint
    split_ifs
    · exact ⟨rfl, rfl⟩
    · exact ⟨rfl, rfl⟩
  obtain ⟨⟨tile, hvacate, -⟩, -⟩ :=
    vacate_spec (s := { s with isLoaded := Function.update s.isLoaded h true }) (h := h) hs names
  rw [setOwner_eq]
  split
  · exact ⟨rfl, rfl⟩
  · rw [(happoint _).1, (happoint _).2, hvacate]
    split_ifs
    · exact ⟨rfl, rfl⟩
    · exact ⟨rfl, rfl⟩

/-- The ground is sane, and no player has the guid 0, which is that of an owner where there is none. -/
structure Sound (W : Houses ι η τ) (s : State ι η τ) : Prop where
  ground : Sane W s.ground
  guid : ∀ p, (s.visitor p).guid ≠ 0

/-- An action that rebuilds the ground rebuilds it sane. -/
def Act.Sound (W : Houses ι η τ) : Act ι η τ → Prop
  | .rebuild ground => Sane W ground
  | _ => True

theorem sound_step {a : Act ι η τ} (hs : Sound W s) (ha : a.Sound W) : Sound W (step W s a) := by
  suffices h : Sane W (step W s a).ground ∧ ∀ p, ((step W s a).visitor p).guid = (s.visitor p).guid from
    ⟨h.1, fun p => h.2 p ▸ hs.guid p⟩
  replace hs := hs.ground
  have hone : ∀ {p : ι} {s' : State ι η τ}, MovesOne W s p s' →
      Sane W s'.ground ∧ ∀ p, (s'.visitor p).guid = (s.visitor p).guid := by
    intro p s' ⟨u, hu, _⟩
    rw [hu]
    exact ⟨hs, fun _ => rfl⟩
  have hlist : ∀ {s : State ι η τ} (h : η), Sane W s.ground →
      Sane W (kickAll W h (fun s p => !isInvited s h p) s).ground ∧
        ∀ p, ((kickAll W h (fun s p => !isInvited s h p) s).visitor p).guid = (s.visitor p).guid := by
    intro s h hs
    obtain ⟨tile, htile, -⟩ := kickAll_uninvited hs h
    rw [htile]
    exact ⟨hs, fun _ => rfl⟩
  cases a with
  | login p t =>
    simp only [step]
    split_ifs
    · exact ⟨hs, fun _ => rfl⟩
    · exact ⟨hs, fun _ => rfl⟩
  | logout p => exact ⟨hs, fun _ => rfl⟩
  | walk p t passes =>
    simp only [step]
    split_ifs
    · exact hone (internalMoveCreature_movesOne hs passes)
    · exact ⟨hs, fun _ => rfl⟩
  | teleport p t => exact hone (internalTeleport_movesOne hs t)
  | sleep p t =>
    simp only [step]
    split_ifs
    · exact ⟨hs, fun _ => rfl⟩
    · exact ⟨hs, fun _ => rfl⟩
  | kick h player target => exact hone (kickPlayer_movesOne hs (some player))
  | setOwner h guid named names =>
    obtain ⟨hground, hvisitor⟩ := setOwner_rest hs h guid named names
    exact ⟨hground ▸ hs, fun p => congrArg (fun v => (v p).guid) hvisitor⟩
  | setAccessList h listId names textlist =>
    simp only [step, setAccessList]
    split_ifs
    · exact hlist h hs
    · exact hlist h hs
    · exact ⟨hs, fun _ => rfl⟩
  | setVisitor p guild canEditHouses =>
    refine ⟨hs, fun q => ?_⟩
    by_cases hqp : q = p
    · simp [step, setVisitor, hqp]
    · simp [step, setVisitor, hqp]
  | rebuild ground => exact ⟨ha, fun _ => rfl⟩

/-- **Who is in a house is invited** after every step of a run just if in no step of it an uninvited
player lies down in a bed of the house, comes into the game on stairs that lead there, or loses his guild in
it. -/
theorem guests_invited_iff : ∀ (as : List (Act ι η τ)) {s : State ι η τ}, Sound W s → (∀ a ∈ as, a.Sound W) →
    Guarded W s h → (Run.Along (step W) (fun s a => Guarded W (step W s a) h) s as ↔
      Run.Along (step W) (fun s a => ¬ Intrudes W h s a) s as)
  | [], _, _, _, _ => Iff.rfl
  | a :: as, s, hs, has, hg => by
    have hstep := guarded_step_iff hs.ground hs.guid hg a
    have hs' := sound_step hs (has a List.mem_cons_self)
    have hrest : ∀ b ∈ as, b.Sound W := fun b hb => has b (List.mem_cons_of_mem a hb)
    constructor
    · intro ⟨hg', hall⟩
      exact ⟨hstep.1 hg', (guests_invited_iff as hs' hrest hg').1 hall⟩
    · intro ⟨hnot, hall⟩
      have hg' := hstep.2 hnot
      exact ⟨hg', (guests_invited_iff as hs' hrest hg').2 hall⟩

/-- A house of one tile, at the end of stairs, with its entry. -/
def cottage : Houses ℕ Unit ℕ where
  getHouse t := if t = 1 then some () else none
  houseTiles _ := [1]
  mem_houseTiles := by simp
  entry _ := some 0
  temple _ := none
  nullptr_tile := 3

/-- Player 0 owns the cottage; nobody is in the game. -/
def evening : State ℕ Unit ℕ where
  ground := ⟨fun t => if t = 2 then 1 else t, id⟩
  visitor p := ⟨[], if p = 0 then 7 else 8, none⟩
  canEditHouses _ := false
  isLoaded _ := true
  owner _ := 7
  subOwnerList _ := parseList ⟨fun _ => none, fun _ => 0, fun _ => 0⟩ []
  guestList _ := parseList ⟨fun _ => none, fun _ => 0, fun _ => 0⟩ []
  players := []
  tile _ := 0

theorem evening_sound : Sound cottage evening where
  ground :=
    { entry := fun _ => ⟨0, rfl, rfl, rfl, rfl⟩
      rests := fun _ ht => absurd rfl ht
      short := by
        intro t
        by_cases ht : t = 2
        · exact ⟨1, by decide, by simp [evening, ht]⟩
        · exact ⟨0, by decide, by simp [evening, ht]⟩ }
  guid := by
    intro p
    simp only [evening]
    split_ifs
    · decide
    · decide

theorem not_guests_invited_stairs : ¬ Run.Along (step cottage)
    (fun s a => Guarded cottage (step cottage s a) ()) evening [.login 0 1, .login 1 2] := by
  rw [guests_invited_iff _ evening_sound (by simp [Act.Sound]) (fun p hp => absurd hp List.not_mem_nil)]
  intro h
  exact h.2.1 ⟨by decide, by decide, by decide, by decide, by decide⟩

/-- The house is swept: its guests or subowners are set, or its owner loses it. -/
inductive Sweeps (s : State ι η τ) (h : η) : Act ι η τ → Prop
  | setAccessList {listId : ℕ} (names : Names) (textlist : Bytes)
      (hid : listId = GUEST_LIST ∨ listId = SUBOWNER_LIST) : Sweeps s h (.setAccessList h listId names textlist)
  | setOwner {guid : UInt32} (named : Bool) (names : Names)
      (howner : s.owner h ≠ 0 ∧ s.owner h ≠ guid) : Sweeps s h (.setOwner h guid named names)

theorem Sweeps.guarded {a : Act ι η τ} (ha : Sweeps s h a) (hs : Sound W s) : Guarded W (step W s a) h := by
  cases ha with
  | setAccessList names textlist hid => exact guarded_setAccessList hs.ground hid names textlist
  | setOwner named names howner => exact guarded_setOwner hs.ground hs.guid _ named names (.inr howner)

theorem sound_run {as : List (Act ι η τ)} (hs : Sound W s) (has : ∀ a ∈ as, a.Sound W) :
    Sound W (Run.run (step W) s as) := Run.run_of_mem (fun _ _ => sound_step) as hs has

theorem guarded_run {as : List (Act ι η τ)} (hs : Sound W s) (has : ∀ a ∈ as, a.Sound W) (hg : Guarded W s h)
    (hnot : Run.Along (step W) (fun s a => ¬ Intrudes W h s a) s as) : Guarded W (Run.run (step W) s as) h := by
  have hkeep : ∀ (s : State ι η τ) (a : Act ι η τ), Sound W s ∧ Guarded W s h → ¬ Intrudes W h s a ∧ a.Sound W →
      Sound W (step W s a) ∧ Guarded W (step W s a) h := by
    intro s a ⟨hs, hg⟩ ⟨hnot, ha⟩
    exact ⟨sound_step hs ha, (guarded_step_iff hs.ground hs.guid hg a).2 hnot⟩
  exact (Run.run_inv hkeep as ⟨hs, hg⟩ (hnot.and has)).2

/-- **A sweep clears the house** of whoever has come in before: after any run and a change of the guests, of
the subowners or of the owner of an owned house, whoever is in the house is invited as long as nobody intrudes
again. -/
theorem swept_run (as bs : List (Act ι η τ)) (a : Act ι η τ) (hs : Sound W s) (has : ∀ b ∈ as ++ a :: bs, b.Sound W)
    (ha : Sweeps (Run.run (step W) s as) h a)
    (hbs : Run.Along (step W) (fun s a => ¬ Intrudes W h s a) (step W (Run.run (step W) s as) a) bs) :
    Guarded W (Run.run (step W) s (as ++ a :: bs)) h := by
  rw [List.forall_mem_append, List.forall_mem_cons] at has
  have hs₁ := sound_run hs has.1
  rw [Run.run_append]
  show Guarded W (Run.run (step W) (step W (Run.run (step W) s as) a) bs) h
  exact guarded_run (sound_step hs₁ has.2.1) has.2.2 (ha.guarded hs₁) hbs

theorem swept_run_stairs : Guarded cottage (Run.run (step cottage) evening
    [.login 1 2, .setAccessList () GUEST_LIST ⟨fun _ => none, fun _ => 0, fun _ => 0⟩ [], .login 0 1]) () := by
  refine swept_run [.login 1 2] [.login 0 1] _ evening_sound (by simp [Act.Sound]) (.setAccessList _ _ (.inl rfl))
    ⟨fun hi => ?_, trivial⟩
  exact Bool.noConfusion (hi.2.2.2.2 : true = false)

/-! ### A house that has changed hands -/

def Act.SetsList (h : η) : Act ι η τ → Prop
  | .setAccessList h' _ _ _ => h' = h
  | _ => False

theorem bare_setOwner (hs : Sane W s.ground) (guid : UInt32) (named : Bool) (names : Names)
    (hb : Bare s h ∨ s.owner h ≠ 0 ∧ s.owner h ≠ guid) : Bare (setOwner W s h guid named names) h := by
  have happoint : ∀ {s : State ι η τ}, Bare s h → Bare (appoint s h guid named) h := by
    intro s hb
    unfold appoint
    split_ifs
    · exact hb.congr rfl rfl
    · exact hb
  rw [setOwner_eq]
  split
  · next heq =>
    rcases hb with hb | hne
    · exact hb
    · exact absurd heq.2 hne.2
  · apply happoint
    dsimp only
    split_ifs with howner
    · obtain ⟨⟨tile, hvacate, -⟩, -⟩ :=
        vacate_spec (s := { s with isLoaded := Function.update s.isLoaded h true }) (h := h) hs names
      rw [hvacate]
      constructor
      · simp [isInList, parseList]
      · simp [isInList, parseList]
    · rcases hb with hb | hne
      · exact hb.congr rfl rfl
      · exact absurd hne.1 howner

/-- Only a change of its lists lets anybody but the owner into the house. -/
theorem bare_step {a : Act ι η τ} (hs : Sound W s) (hb : Bare s h) (ha : ¬ a.SetsList h) : Bare (step W s a) h := by
  have hone : ∀ {p : ι} {s' : State ι η τ}, MovesOne W s p s' → Bare s' h := by
    intro p s' ⟨u, hu, _⟩
    exact hb.congr (by rw [hu]) (by rw [hu])
  replace hs := hs.ground
  cases a with
  | login p t =>
    simp only [step]
    split_ifs
    · exact hb
    · exact hb.congr rfl rfl
  | logout p => exact hb.congr rfl rfl
  | walk p t passes =>
    simp only [step]
    split_ifs
    · exact hone (internalMoveCreature_movesOne hs passes)
    · exact hb
  | teleport p t => exact hone (internalTeleport_movesOne hs t)
  | sleep p t =>
    simp only [step]
    split_ifs
    · exact hb.congr rfl rfl
    · exact hb
  | kick h' player target => exact hone (kickPlayer_movesOne hs (some player))
  | setOwner h' guid named names =>
    by_cases heq : h' = h
    · rw [heq]
      exact bare_setOwner hs guid named names (.inl hb)
    · have hsame := same_setOwner heq hs guid named names
      exact hb.congr hsame.subOwnerList hsame.guestList
  | setAccessList h' listId names textlist =>
    have hsame := same_setAccessList ha hs listId names textlist
    exact hb.congr hsame.subOwnerList hsame.guestList
  | setVisitor p guild canEditHouses => exact hb.congr rfl rfl
  | rebuild ground => exact hb.congr rfl rfl

/-- **A house that changed hands** holds the new owner and nobody else, but for those who may edit houses, until
a list of the house is set or somebody intrudes. -/
theorem vacated_run (as bs : List (Act ι η τ)) (guid : UInt32) (named : Bool) (names : Names) (hs : Sound W s)
    (has : ∀ b ∈ as ++ .setOwner h guid named names :: bs, b.Sound W)
    (howner : (Run.run (step W) s as).owner h ≠ 0 ∧ (Run.run (step W) s as).owner h ≠ guid)
    (hbs : Run.Along (step W) (fun s a => ¬ Intrudes W h s a)
      (step W (Run.run (step W) s as) (.setOwner h guid named names)) bs)
    (hlists : ∀ b ∈ bs, ¬ b.SetsList h) :
    let s' := Run.run (step W) s (as ++ .setOwner h guid named names :: bs)
    ∀ p ∈ s'.players, W.getHouse (s'.tile p) = some h →
      s'.canEditHouses p = true ∨ (s'.visitor p).guid = s'.owner h := by
  have hguarded := swept_run as bs (.setOwner h guid named names) hs has (.setOwner named names howner) hbs
  rw [List.forall_mem_append, List.forall_mem_cons] at has
  have hs₁ := sound_run hs has.1
  have hkeep : ∀ (s : State ι η τ) (a : Act ι η τ), Sound W s ∧ Bare s h → a.Sound W ∧ ¬ a.SetsList h →
      Sound W (step W s a) ∧ Bare (step W s a) h := by
    intro s a ⟨hs, hb⟩ ⟨ha, hlist⟩
    exact ⟨sound_step hs ha, bare_step hs hb hlist⟩
  have hbare := (Run.run_of_mem hkeep bs (s := step W (Run.run (step W) s as) (.setOwner h guid named names))
    ⟨sound_step hs₁ has.2.1, bare_setOwner hs₁.ground guid named names (.inr howner)⟩
    fun b hb => ⟨has.2.2 b hb, hlists b hb⟩).2
  intro s' p hp hin
  have heq : s' = Run.run (step W) (step W (Run.run (step W) s as) (.setOwner h guid named names)) bs :=
    Run.run_append as (.setOwner h guid named names :: bs) s
  rw [← heq] at hbare
  exact hbare.isInvited_iff.1 (hguarded p hp hin)

/-- The cottage is sold while both players are in it; then they come to its door. -/
def handover : List (Act ℕ Unit ℕ) :=
  [.login 0 1, .login 1 2, .setOwner () 8 true ⟨fun _ => none, fun _ => 0, fun _ => 0⟩, .walk 1 1 true, .walk 0 1 true]

theorem vacated_run_handover :
    let s' := Run.run (step cottage) evening handover
    s'.tile 0 = 0 ∧ s'.tile 1 = 1 ∧ ∀ p ∈ s'.players, cottage.getHouse (s'.tile p) = some () →
      s'.canEditHouses p = true ∨ (s'.visitor p).guid = s'.owner () := by
  refine ⟨by decide, by decide, ?_⟩
  exact vacated_run [.login 0 1, .login 1 2] [.walk 1 1 true, .walk 0 1 true] 8 true _ evening_sound
    (by simp [Act.Sound]) (by decide) ⟨not_false, not_false, trivial⟩ (by simp [Act.SetsList])

end Moves

end HouseGuests
end ForgottenServer
