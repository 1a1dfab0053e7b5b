/-
# Creatures and the references to them

A `Creature` counts the references to it and deletes itself when the last one goes.
References are kept by the lists of the game, by the spawns, the connections and
the notifications that are under way, and by other creatures: a master by those of
its summons, a monster by those of its targets and its friends. A master is also
pointed to by its summons, which is not counted. A script that takes a summon from
its master leaves a reference behind that nobody keeps, and nobody lets go.

The calls that take, keep or let go of references come in any order (`Act`); one
that is not possible changes nothing. The spectators of a removal are monsters that
may drop the creature before it.

Key definitions: `State`, `release`, `addCreatureCheck`, `removeCreature`,
`convinceCreature`, `luaCreatureSetMaster`, `checkNext`, `Act`, `step`, `Keeps`.
-/
import Mathlib.Data.Finset.Card
import Mathlib.Tactic
import ForgottenServer.Lib.Run

namespace ForgottenServer
namespace Creatures

/-! ### The model -/

/-- The class of a creature. -/
inductive Kind
  | player | monster | npc
  deriving DecidableEq

/-- The creatures in memory with their members, by address, and the members of
`Game`. No address is used twice. `hasParent` is `getParent() != nullptr`. `listed`
are the `players`, `npcs` and `monsters`, which are the creatures on the map, `held`
the references of spawns, connections and notifications, and `lost` those that
`luaCreatureSetMaster` has taken, which nobody keeps. `turn` counts the calls of
`checkCreatures`, `cursor` is where the one under way is in its list, and `visited`
are the creatures whose turn it was, with the number of the call, newest first. -/
structure State where
  memory : Finset ℕ
  next : ℕ
  kind : ℕ → Kind
  health : ℕ → ℤ
  healthMax : ℕ → ℤ
  referenceCounter : ℕ → ℕ
  hasParent : ℕ → Bool
  isInternalRemoved : ℕ → Bool
  creatureCheck : ℕ → Bool
  inCheckCreaturesVector : ℕ → Bool
  master : ℕ → Option ℕ
  summons : ℕ → List ℕ
  targetList : ℕ → List ℕ
  friendList : ℕ → List ℕ
  listed : List ℕ
  checkCreatureLists : Fin 10 → List ℕ
  toReleaseCreatures : List ℕ
  held : List ℕ
  lost : List ℕ
  turn : ℕ
  cursor : Option ℕ
  visited : List (ℕ × ℕ)

/-- A server without creatures. -/
def init : State where
  memory := ∅
  next := 0
  kind _ := .monster
  health _ := 0
  healthMax _ := 0
  referenceCounter _ := 0
  hasParent _ := false
  isInternalRemoved _ := false
  creatureCheck _ := false
  inCheckCreaturesVector _ := false
  master _ := none
  summons _ := []
  targetList _ := []
  friendList _ := []
  listed := []
  checkCreatureLists _ := []
  toReleaseCreatures := []
  held := []
  lost := []
  turn := 0
  cursor := none
  visited := []

/-- The references that a creature keeps, in the order in which `~Monster` and
`~Creature` let go of them. -/
def State.refs (s : State) (c : ℕ) : List ℕ := s.targetList c ++ s.friendList c ++ s.summons c

/-- `--referenceCounter` -/
def decrement (s : State) (c : ℕ) : State :=
  { s with referenceCounter := Function.update s.referenceCounter c (s.referenceCounter c - 1) }

/-- `++referenceCounter` -/
def increment (s : State) (c : ℕ) : State :=
  { s with referenceCounter := Function.update s.referenceCounter c (s.referenceCounter c + 1) }

/-- The destructors, but for the references that are let go. -/
def destroy (s : State) (c : ℕ) : State :=
  { s with
    memory := s.memory.erase c
    master := fun x => if x ∈ s.summons c then none else s.master x }

/-- `decrementReferenceCounter` for the creatures of the list. The destructors of a
creature that is deleted call it in their turn, before the rest of the list. No
address of the list is outside the memory, see `Sound.release`. -/
def release (s : State) : List ℕ → State
  | [] => s
  | c :: work =>
    if c ∈ s.memory then
      if s.referenceCounter c = 1 then release (destroy (decrement s c) c) (s.refs c ++ work)
      else release (decrement s c) work
    else release s work
termination_by work => (s.memory.card, work.length)
decreasing_by
  · exact Prod.Lex.left _ _ (Finset.card_erase_lt_of_mem (by assumption))
  · exact Prod.Lex.right _ (by simp)
  · exact Prod.Lex.right _ (by simp)

/-- `new Player`, `new Npc` or `Monster::createMonster`. -/
def create (s : State) (kind : Kind) (health : ℤ) : State :=
  { s with
    memory := insert s.next s.memory
    next := s.next + 1
    kind := Function.update s.kind s.next kind
    health := Function.update s.health s.next health
    healthMax := Function.update s.healthMax s.next health
    referenceCounter := Function.update s.referenceCounter s.next 0
    hasParent := Function.update s.hasParent s.next false
    isInternalRemoved := Function.update s.isInternalRemoved s.next false
    creatureCheck := Function.update s.creatureCheck s.next false
    inCheckCreaturesVector := Function.update s.inCheckCreaturesVector s.next false
    master := Function.update s.master s.next none
    summons := Function.update s.summons s.next []
    targetList := Function.update s.targetList s.next []
    friendList := Function.update s.friendList s.next [] }

/-- A creature that is not referred to is deleted by its owner. -/
def discard (s : State) (c : ℕ) : State := release (destroy s c) (s.refs c)

/-- `Game::internalPlaceCreature`, where the map has room. -/
def internalPlaceCreature (s : State) (c : ℕ) : State :=
  if s.hasParent c then s
  else
    { increment s c with
      hasParent := Function.update s.hasParent c true
      listed := s.listed ++ [c] }

/-- `Game::addCreatureCheck`; `i` is drawn at random. -/
def addCreatureCheck (s : State) (c : ℕ) (i : Fin 10) : State :=
  let s := { s with creatureCheck := Function.update s.creatureCheck c true }
  if s.inCheckCreaturesVector c then s
  else
    { increment s c with
      inCheckCreaturesVector := Function.update s.inCheckCreaturesVector c true
      checkCreatureLists := Function.update s.checkCreatureLists i (s.checkCreatureLists i ++ [c]) }

/-- `Game::removeCreatureCheck` -/
def removeCreatureCheck (s : State) (c : ℕ) : State :=
  if s.inCheckCreaturesVector c then { s with creatureCheck := Function.update s.creatureCheck c false } else s

/-- `Game::placeCreature`, where the map has room. -/
def placeCreature (s : State) (c : ℕ) (i : Fin 10) : State :=
  if s.hasParent c then s else addCreatureCheck (internalPlaceCreature s c) c i

/-- `Game::ReleaseCreature` -/
def ReleaseCreature (s : State) (c : ℕ) : State :=
  { s with toReleaseCreatures := s.toReleaseCreatures ++ [c] }

/-- `Game::cleanup` -/
def cleanup (s : State) : State := release { s with toReleaseCreatures := [] } s.toReleaseCreatures

/-- `Creature::addSummon` -/
def addSummon (s : State) (m c : ℕ) : State :=
  { increment s c with
    master := Function.update s.master c (some m)
    summons := Function.update s.summons m (s.summons m ++ [c]) }

/-- `Creature::removeSummon` -/
def removeSummon (s : State) (m c : ℕ) : State :=
  if c ∈ s.summons m then
    release
      { s with
        master := Function.update s.master c none
        summons := Function.update s.summons m ((s.summons m).erase c) } [c]
  else s

/-- `Monster::addTarget` -/
def addTarget (s : State) (o c : ℕ) (pushFront : Bool) : State :=
  if c ∈ s.targetList o then s
  else
    { increment s c with
      targetList := Function.update s.targetList o
        (if pushFront then c :: s.targetList o else s.targetList o ++ [c]) }

/-- `Monster::addFriend` -/
def addFriend (s : State) (o c : ℕ) : State :=
  if c ∈ s.friendList o then s
  else { increment s c with friendList := Function.update s.friendList o (c :: s.friendList o) }

/-- The targets for which `q` holds are erased, and let go. -/
def dropTargets (s : State) (o : ℕ) (q : ℕ → Bool) : State :=
  release { s with targetList := Function.update s.targetList o ((s.targetList o).filter (!q ·)) }
    ((s.targetList o).filter q)

/-- The friends for which `q` holds are erased, and let go. -/
def dropFriends (s : State) (o : ℕ) (q : ℕ → Bool) : State :=
  release { s with friendList := Function.update s.friendList o ((s.friendList o).filter (!q ·)) }
    ((s.friendList o).filter q)

/-- `Monster::removeTarget`; a target is in the list once. -/
def removeTarget (s : State) (o c : ℕ) : State := dropTargets s o (· == c)

/-- `Monster::removeFriend` -/
def removeFriend (s : State) (o c : ℕ) : State := dropFriends s o (· == c)

/-- `Monster::clearTargetList` -/
def clearTargetList (s : State) (o : ℕ) : State := dropTargets s o fun _ => true

/-- `Monster::clearFriendList` -/
def clearFriendList (s : State) (o : ℕ) : State := dropFriends s o fun _ => true

/-- What `Monster::updateTargetList` drops: those that are dead or out of sight. -/
def updateTargetList (s : State) (o : ℕ) (unseen : List ℕ) : State :=
  let q c := decide (s.health c ≤ 0) || unseen.contains c
  dropTargets (dropFriends s o q) o q

/-- `Monster::onFollowCreatureComplete` -/
def onFollowCreatureComplete (s : State) (o c : ℕ) (hasFollowPath : Bool) : State :=
  if c ∈ s.targetList o then
    let l := (s.targetList o).erase c
    if hasFollowPath then { s with targetList := Function.update s.targetList o (c :: l) }
    else if (s.master o).isNone then { s with targetList := Function.update s.targetList o (l ++ [c]) }
    else release { s with targetList := Function.update s.targetList o l } [c]
  else s

/-- `Monster::setIdle`; `i` is for `addCreatureCheck`. -/
def setIdle (s : State) (c : ℕ) (idle : Bool) (i : Fin 10) : State :=
  if s.isInternalRemoved c || s.health c ≤ 0 then s
  else if idle then removeCreatureCheck (clearFriendList (clearTargetList s c) c) c
  else addCreatureCheck s c i

/-- `Creature::changeHealth`, with that of `Monster`. -/
def changeHealth (s : State) (c : ℕ) (healthChange : ℤ) (i : Fin 10) : State :=
  let s := if s.kind c = .monster then setIdle s c false i else s
  { s with
    health := Function.update s.health c
      (if 0 < healthChange then s.health c + min healthChange (s.healthMax c - s.health c)
       else max 0 (s.health c + healthChange)) }

/-- The summons die, and are summons no more; the draws are for `addCreatureCheck`. -/
def destroySummons (s : State) (c : ℕ) (draw : ℕ → Fin 10) : State :=
  let s := (s.summons c).foldl (fun s x => changeHealth s x (-s.health x) (draw x)) s
  release
    { s with
      master := fun x => if x ∈ s.summons c then none else s.master x
      summons := Function.update s.summons c [] } (s.summons c)

/-- `Monster::death` -/
def death (s : State) (c : ℕ) (draw : ℕ → Fin 10) : State :=
  clearFriendList (clearTargetList (destroySummons s c draw) c) c

/-- What becomes of the references in `Monster::convinceCreature`, for the monster
`c` and its new master `m`. -/
def convinceCreature (s : State) (m c : ℕ) (draw : ℕ → Fin 10) : State :=
  match s.master c with
  | none => destroySummons (addSummon s m c) c draw
  | some old =>
    if s.kind old = .player || old = m then s
    else destroySummons (addSummon (removeSummon s old c) m c) c draw

/-- What becomes of the references in `luaCreatureSetMaster` when the new master is
`nil`. -/
def luaCreatureSetMaster (s : State) (c : ℕ) : State :=
  match s.master c with
  | none => s
  | some m =>
    let s := removeSummon s m c
    { increment s c with lost := c :: s.lost }

/-- The part of `Creature::onDeath` behind `death`. -/
def leaveMaster (s : State) (c : ℕ) : State :=
  match s.master c with
  | none => s
  | some m => removeSummon s m c

/-- `Creature::onRemoveCreature` of the creature that is removed. -/
def leavePresentMaster (s : State) (c : ℕ) : State :=
  match s.master c with
  | none => s
  | some m => if s.isInternalRemoved m then s else removeSummon s m c

/-- `onRemoveCreature` of the creature that is removed, with that of `Monster`. -/
def onRemoveCreature (s : State) (c : ℕ) : State :=
  let s := leavePresentMaster s c
  if s.kind c = .monster then setIdle s c true 0 else s

/-- `Game::removeCreature`, but for the summons. -/
def removeOne (s : State) (c : ℕ) : State :=
  let s := onRemoveCreature s c
  let s := { s with
    listed := s.listed.erase c
    isInternalRemoved := Function.update s.isInternalRemoved c true }
  removeCreatureCheck (ReleaseCreature s c) c

/-- The summon that a monster calls, placed if there is room. -/
def summon (s : State) (m : ℕ) (health : ℤ) (room : Bool) (i : Fin 10) : State :=
  let c := s.next
  let s := addSummon (create s .monster health) m c
  if room then placeCreature s c i else removeSummon s m c

/-- The list that is being checked. -/
def State.index (s : State) : Fin 10 := Fin.ofNat 10 s.turn

/-- One turn of the loop of `Game::checkCreatures`, at the cursor. What a creature
does then are actions that follow. -/
def checkNext (s : State) : State :=
  match s.cursor with
  | none => s
  | some k =>
    match (s.checkCreatureLists s.index)[k]? with
    | none => s
    | some c =>
      if s.creatureCheck c then { s with visited := (c, s.turn) :: s.visited, cursor := some (k + 1) }
      else
        ReleaseCreature
          { s with
            inCheckCreaturesVector := Function.update s.inCheckCreaturesVector c false
            checkCreatureLists :=
              Function.update s.checkCreatureLists s.index ((s.checkCreatureLists s.index).eraseIdx k) } c

variable {s s' s'' : State} {c m o x : ℕ} {work : List ℕ}

/-! ### What is left alone -/

/-- Creatures may have been deleted; who is in the game, and what has been checked,
is the same. Creatures that have not been removed may be put to the ends of the
lists of the checks. -/
structure Keeps (s s' : State) : Prop where
  memory : s'.memory ⊆ s.memory
  next : s'.next = s.next
  kind : s'.kind = s.kind
  hasParent : s'.hasParent = s.hasParent
  isInternalRemoved : s'.isInternalRemoved = s.isInternalRemoved
  listed : s'.listed = s.listed
  turn : s'.turn = s.turn
  cursor : s'.cursor = s.cursor
  visited : s'.visited = s.visited
  checks : ∀ i, s.checkCreatureLists i <+: s'.checkCreatureLists i
  unremoved : ∀ c, s.isInternalRemoved c = true → ∀ i, c ∈ s'.checkCreatureLists i → c ∈ s.checkCreatureLists i

/-- The members that `Keeps` is about are the same. -/
theorem Keeps.of_same (hmemory : s'.memory ⊆ s.memory) (hnext : s'.next = s.next) (hkind : s'.kind = s.kind)
    (hparent : s'.hasParent = s.hasParent) (hremoved : s'.isInternalRemoved = s.isInternalRemoved)
    (hlisted : s'.listed = s.listed) (hturn : s'.turn = s.turn) (hcursor : s'.cursor = s.cursor)
    (hvisited : s'.visited = s.visited) (hchecks : s'.checkCreatureLists = s.checkCreatureLists) : Keeps s s' :=
  ⟨hmemory, hnext, hkind, hparent, hremoved, hlisted, hturn, hcursor, hvisited, fun i => by rw [hchecks],
    fun c _ i hc => by rwa [hchecks] at hc⟩

theorem Keeps.refl (s : State) : Keeps s s := .of_same subset_rfl rfl rfl rfl rfl rfl rfl rfl rfl rfl

theorem Keeps.trans (h : Keeps s s') (h' : Keeps s' s'') : Keeps s s'' where
  memory := h'.memory.trans h.memory
  next := h'.next.trans h.next
  kind := h'.kind.trans h.kind
  hasParent := h'.hasParent.trans h.hasParent
  isInternalRemoved := h'.isInternalRemoved.trans h.isInternalRemoved
  listed := h'.listed.trans h.listed
  turn := h'.turn.trans h.turn
  cursor := h'.cursor.trans h.cursor
  visited := h'.visited.trans h.visited
  checks i := (h.checks i).trans (h'.checks i)
  unremoved c hc i hmem := h.unremoved c hc i (h'.unremoved c (by rwa [h.isInternalRemoved]) i hmem)

/-- Letting go changes who is in memory, the counters and the masters. -/
theorem release_eq (s : State) (work : List ℕ) : ∃ memory referenceCounter master,
    release s work = { s with memory, referenceCounter, master } ∧ memory ⊆ s.memory ∧
      ∀ x, s.master x = none → master x = none := by
  fun_induction release s work with
  | case1 s => exact ⟨s.memory, s.referenceCounter, s.master, rfl, subset_rfl, fun _ h => h⟩
  | case2 s c work hc hone ih =>
    obtain ⟨memory, count, master, he, hmem, hnone⟩ := ih
    refine ⟨memory, count, master, he, hmem.trans (Finset.erase_subset c s.memory), fun x hx => hnone x ?_⟩
    simp [destroy, decrement, hx]
  | case3 s c work hc hone ih =>
    obtain ⟨memory, count, master, he, hmem, hnone⟩ := ih
    exact ⟨memory, count, master, he, hmem, hnone⟩
  | case4 s c work hc ih => exact ih

section

variable (s : State) (work : List ℕ)

@[simp] theorem release_health : (release s work).health = s.health := by
  obtain ⟨_, _, _, he, -⟩ := release_eq s work
  rw [he]

@[simp] theorem release_hasParent : (release s work).hasParent = s.hasParent := by
  obtain ⟨_, _, _, he, -⟩ := release_eq s work
  rw [he]

@[simp] theorem release_creatureCheck : (release s work).creatureCheck = s.creatureCheck := by
  obtain ⟨_, _, _, he, -⟩ := release_eq s work
  rw [he]

@[simp] theorem release_inCheckCreaturesVector :
    (release s work).inCheckCreaturesVector = s.inCheckCreaturesVector := by
  obtain ⟨_, _, _, he, -⟩ := release_eq s work
  rw [he]

@[simp] theorem release_checkCreatureLists : (release s work).checkCreatureLists = s.checkCreatureLists := by
  obtain ⟨_, _, _, he, -⟩ := release_eq s work
  rw [he]

theorem release_toReleaseCreatures : (release s work).toReleaseCreatures = s.toReleaseCreatures := by
  obtain ⟨_, _, _, he, -⟩ := release_eq s work
  rw [he]

theorem release_master {x : ℕ} (hx : s.master x = none) : (release s work).master x = none := by
  obtain ⟨_, _, _, he, -, hnone⟩ := release_eq s work
  rw [he]
  exact hnone x hx

theorem release_keeps : Keeps s (release s work) := by
  obtain ⟨memory, count, master, he, hmem, -⟩ := release_eq s work
  rw [he]
  exact .of_same hmem rfl rfl rfl rfl rfl rfl rfl rfl rfl

/-- What is left alone up to `s'` still is when references are let go. -/
theorem Keeps.release {s s' : State} (h : Keeps s s') (work : List ℕ) : Keeps s (release s' work) :=
  h.trans (release_keeps s' work)

theorem dropTargets_keeps (o : ℕ) (q : ℕ → Bool) : Keeps s (dropTargets s o q) := by
  apply Keeps.release
  exact .of_same subset_rfl rfl rfl rfl rfl rfl rfl rfl rfl rfl

theorem dropFriends_keeps (o : ℕ) (q : ℕ → Bool) : Keeps s (dropFriends s o q) := by
  apply Keeps.release
  exact .of_same subset_rfl rfl rfl rfl rfl rfl rfl rfl rfl rfl

theorem removeSummon_keeps (m c : ℕ) : Keeps s (removeSummon s m c) := by
  unfold removeSummon
  split
  · apply Keeps.release
    exact .of_same subset_rfl rfl rfl rfl rfl rfl rfl rfl rfl rfl
  · exact .refl s

theorem addCreatureCheck_keeps {c : ℕ} (hc : s.isInternalRemoved c = false) (i : Fin 10) :
    Keeps s (addCreatureCheck s c i) := by
  simp only [addCreatureCheck]
  split
  · exact .of_same subset_rfl rfl rfl rfl rfl rfl rfl rfl rfl rfl
  · refine ⟨subset_rfl, rfl, rfl, rfl, rfl, rfl, rfl, rfl, rfl, fun j => ?_, fun x hx j hmem => ?_⟩
    · simp only [Function.update_apply]
      split_ifs with hj
      · rw [hj]
        exact List.prefix_append _ _
      · exact List.prefix_rfl
    · simp only [Function.update_apply] at hmem
      split_ifs at hmem with hj
      · rcases List.mem_append.1 hmem with hmem | hmem
        · rwa [hj]
        · rw [List.mem_singleton.1 hmem, hc] at hx
          simp at hx
      · exact hmem

theorem removeCreatureCheck_keeps (c : ℕ) : Keeps s (removeCreatureCheck s c) := by
  unfold removeCreatureCheck
  split
  · exact .of_same subset_rfl rfl rfl rfl rfl rfl rfl rfl rfl rfl
  · exact .refl s

theorem ReleaseCreature_keeps (c : ℕ) : Keeps s (ReleaseCreature s c) :=
  .of_same subset_rfl rfl rfl rfl rfl rfl rfl rfl rfl rfl

theorem setIdle_keeps (c : ℕ) (idle : Bool) (i : Fin 10) : Keeps s (setIdle s c idle i) := by
  unfold setIdle
  split_ifs with hgone
  · exact .refl s
  · exact ((dropTargets_keeps s c _).trans (dropFriends_keeps _ c _)).trans (removeCreatureCheck_keeps _ c)
  · exact addCreatureCheck_keeps s (by simp_all) i

theorem leavePresentMaster_keeps (c : ℕ) : Keeps s (leavePresentMaster s c) := by
  unfold leavePresentMaster
  split
  · exact .refl s
  · split
    · exact .refl s
    · exact removeSummon_keeps s _ c

theorem onRemoveCreature_keeps (c : ℕ) : Keeps s (onRemoveCreature s c) := by
  simp only [onRemoveCreature]
  split
  · exact (leavePresentMaster_keeps s c).trans (setIdle_keeps _ c true 0)
  · exact leavePresentMaster_keeps s c

end

/-- A creature that is removed is marked, and no other. -/
theorem removeOne_isInternalRemoved (s : State) (c : ℕ) :
    (removeOne s c).isInternalRemoved = Function.update s.isInternalRemoved c true := by
  simp only [removeOne, (removeCreatureCheck_keeps _ c).isInternalRemoved, ReleaseCreature,
    (onRemoveCreature_keeps s c).isInternalRemoved]

theorem removeOne_memory (s : State) (c : ℕ) : (removeOne s c).memory ⊆ s.memory :=
  (removeCreatureCheck_keeps _ c).memory.trans (onRemoveCreature_keeps s c).memory

/-- The creatures in memory that have not been removed. -/
def State.present (s : State) : Finset ℕ := s.memory.filter fun c => s.isInternalRemoved c = false

theorem present_removeOne (hc : c ∈ s.memory) (hr : s.isInternalRemoved c = false) :
    (removeOne s c).present.card < s.present.card := by
  apply Finset.card_lt_card
  refine ⟨fun x hx => ?_, fun h => ?_⟩
  · simp only [State.present, Finset.mem_filter, removeOne_isInternalRemoved, Function.update_apply] at hx ⊢
    refine ⟨removeOne_memory s c hx.1, ?_⟩
    by_contra hne
    simp_all
  · have hmem := h (Finset.mem_filter.2 ⟨hc, hr⟩)
    simp [State.present, removeOne_isInternalRemoved] at hmem

/-- `Game::removeCreature` for the creatures of the list. The summons of a creature
are removed after it, and before the rest of the list: their master is removed by
then, so that they stay in its list. -/
def removeCreature (s : State) : List ℕ → State
  | [] => s
  | c :: work =>
    if h : c ∈ s.memory ∧ s.isInternalRemoved c = false then
      have := present_removeOne h.1 h.2
      removeCreature (removeOne s c) ((removeOne s c).summons c ++ work)
    else removeCreature s work
termination_by work => (s.present.card, work.length)

/-! ### Runs -/

/-- What may happen. `discard` is for a creature that was not placed; `hold`,
`letGo` and `letGoLater` are the spawns, the connections and the notifications;
`unseen` are those that a monster does not see. -/
inductive Act
  | create (kind : Kind) (health : ℤ)
  | discard (c : ℕ)
  | internalPlaceCreature (c : ℕ)
  | placeCreature (c : ℕ) (i : Fin 10)
  | removeCreature (c : ℕ)
  | setIdle (c : ℕ) (idle : Bool) (i : Fin 10)
  | changeHealth (c : ℕ) (healthChange : ℤ) (i : Fin 10)
  | addTarget (o c : ℕ) (pushFront : Bool)
  | removeTarget (o c : ℕ)
  | addFriend (o c : ℕ)
  | removeFriend (o c : ℕ)
  | updateTargetList (o : ℕ) (unseen : List ℕ)
  | onFollowCreatureComplete (o c : ℕ) (hasFollowPath : Bool)
  | summon (m : ℕ) (health : ℤ) (room : Bool) (i : Fin 10)
  | convinceCreature (m c : ℕ) (draw : ℕ → Fin 10)
  | luaCreatureSetMaster (c : ℕ)
  | death (c : ℕ) (draw : ℕ → Fin 10)
  | leaveMaster (c : ℕ)
  | hold (c : ℕ)
  | letGo (c : ℕ)
  | letGoLater (c : ℕ)
  | cleanup
  | checkCreatures
  | checkNext
  | checkEnd

/-- When it may: a caller has a creature from memory, and one that moves, thinks or
dies is in the game. One that a script takes from its master is in the game, or was
removed and is still to be released. The loop of `checkCreatures` ends where its list does. -/
def possible (s : State) : Act → Prop
  | .discard c => c ∈ s.memory ∧ s.referenceCounter c = 0
  | .internalPlaceCreature c | .placeCreature c _ | .hold c | .changeHealth c _ _ => c ∈ s.memory
  | .removeCreature c => c ∈ s.memory ∧ s.hasParent c = true
  | .setIdle c _ _ | .death c _ | .leaveMaster c => c ∈ s.listed
  | .addTarget o c _ | .addFriend o c => o ∈ s.memory ∧ c ∈ s.memory
  | .removeTarget o _ | .removeFriend o _ | .onFollowCreatureComplete o _ _ => o ∈ s.memory
  | .updateTargetList o _ => o ∈ s.listed
  | .summon m _ _ _ => m ∈ s.memory
  | .convinceCreature m c _ => m ∈ s.listed ∧ c ∈ s.listed
  | .luaCreatureSetMaster c => c ∈ s.listed ∨ c ∈ s.toReleaseCreatures
  | .letGo c | .letGoLater c => c ∈ s.held
  | .checkCreatures => s.cursor = none
  | .checkEnd => s.cursor = some (s.checkCreatureLists s.index).length
  | _ => True

instance (s : State) : (a : Act) → Decidable (possible s a)
  | .discard _ | .removeCreature _ | .addTarget _ _ _ | .addFriend _ _ | .convinceCreature _ _ _ =>
    inferInstanceAs (Decidable (_ ∧ _))
  | .luaCreatureSetMaster _ => inferInstanceAs (Decidable (_ ∨ _))
  | .internalPlaceCreature _ | .placeCreature _ _ | .hold _ | .changeHealth _ _ _ | .removeTarget _ _
  | .removeFriend _ _ | .onFollowCreatureComplete _ _ _ | .summon _ _ _ _ =>
    inferInstanceAs (Decidable (_ ∈ s.memory))
  | .setIdle _ _ _ | .death _ _ | .leaveMaster _ | .updateTargetList _ _ =>
    inferInstanceAs (Decidable (_ ∈ s.listed))
  | .letGo _ | .letGoLater _ => inferInstanceAs (Decidable (_ ∈ s.held))
  | .checkCreatures | .checkEnd => inferInstanceAs (Decidable (s.cursor = _))
  | .create _ _ | .cleanup | .checkNext => inferInstanceAs (Decidable True)

/-- What it does. -/
def act (s : State) : Act → State
  | .create kind health => create s kind health
  | .discard c => discard s c
  | .internalPlaceCreature c => internalPlaceCreature s c
  | .placeCreature c i => placeCreature s c i
  | .removeCreature c => removeCreature s [c]
  | .setIdle c idle i => setIdle s c idle i
  | .changeHealth c healthChange i => changeHealth s c healthChange i
  | .addTarget o c pushFront => addTarget s o c pushFront
  | .removeTarget o c => removeTarget s o c
  | .addFriend o c => addFriend s o c
  | .removeFriend o c => removeFriend s o c
  | .updateTargetList o unseen => updateTargetList s o unseen
  | .onFollowCreatureComplete o c hasFollowPath => onFollowCreatureComplete s o c hasFollowPath
  | .summon m health room i => summon s m health room i
  | .convinceCreature m c draw => convinceCreature s m c draw
  | .luaCreatureSetMaster c => luaCreatureSetMaster s c
  | .death c draw => death s c draw
  | .leaveMaster c => leaveMaster s c
  | .hold c => { increment s c with held := c :: s.held }
  | .letGo c => release { s with held := s.held.erase c } [c]
  | .letGoLater c => ReleaseCreature { s with held := s.held.erase c } c
  | .cleanup => cleanup s
  | .checkCreatures => { s with cursor := some 0 }
  | .checkNext => checkNext s
  | .checkEnd => { cleanup s with cursor := none, turn := s.turn + 1 }

/-- One step of a run; what is not possible does not happen. -/
def step (s : State) (a : Act) : State := if possible s a then act s a else s

end Creatures
end ForgottenServer
