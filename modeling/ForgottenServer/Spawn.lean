/-
# Spawns

A spawn keeps its monsters by the ids of their spawn points, and those that
wandered out of its zone under the id 0. `checkSpawn` drops the dead, files the
wandered ones, fills points that are empty and due, and is scheduled again when
there are fewer monsters than points. The wandered ones count, although they
fill no point: with enough of them an empty point is forgotten (`Heeded`).

Key definitions: `State`, `cleanup`, `checkLoop`, `checkSpawn`, `Scheduled`,
`vacant`, `filled`, `strays`, `Heeded`.
Key theorems: `cleanup_spec`, `checkLoop_spec`, `checkSpawn_iff`, `served_iff`.
-/
import Mathlib.Tactic
import ForgottenServer.Lib.Run
import ForgottenServer.Lib.SortedMap
import ForgottenServer.Spectators

namespace ForgottenServer
namespace Spawns

open Spectators (Position)

/-! ### The model -/

/-- `spawnBlock_t` -/
structure SpawnBlock where
  pos : Position
  lastSpawn : ℤ
  interval : ℕ
  deriving DecidableEq

/-- The fields of `Spawn`, and for each monster where it is, whether it is
removed and whether it points to the spawn. `Monster*` is a number, in the order
of creation. -/
structure State where
  centerPos : Position
  radius : ℤ
  interval : ℕ
  spawnMap : List (ℕ × SpawnBlock)
  spawnedMap : List (ℕ × ℕ)
  checkSpawnEvent : Bool
  nextMonster : ℕ
  position : ℕ → Position
  isRemoved : ℕ → Bool
  spawn : ℕ → Bool

/-- `Spawns::isInZone` -/
def isInZone (centerPos : Position) (radius : ℤ) (pos : Position) : Bool :=
  radius = -1 ||
    ((centerPos.x.toNat : ℤ) - radius ≤ pos.x.toNat && (pos.x.toNat : ℤ) ≤ centerPos.x.toNat + radius &&
      ((centerPos.y.toNat : ℤ) - radius ≤ pos.y.toNat && (pos.y.toNat : ℤ) ≤ centerPos.y.toNat + radius))

/-- `Spawn::isInSpawnZone` -/
def State.isInSpawnZone (s : State) (pos : Position) : Bool := isInZone s.centerPos s.radius pos

/-- `spawnedMap.insert`: behind the entries of the same id. -/
def insert (id m : ℕ) (l : List (ℕ × ℕ)) : List (ℕ × ℕ) :=
  l.takeWhile (·.1 ≤ id) ++ (id, m) :: l.dropWhile (·.1 ≤ id)

/-- `spawnMap[spawnId].lastSpawn = now` -/
def State.setLastSpawn (s : State) (spawnId : ℕ) (now : ℤ) : State :=
  { s with
    spawnMap := SortedMap.insert spawnId
      { (s.spawnMap.lookup spawnId).getD ⟨⟨0, 0, 0⟩, 0, 0⟩ with lastSpawn := now } s.spawnMap }

/-- `Spawn::spawnMonster`; `place` is where the game puts the monster, if anywhere. -/
def spawnMonster (s : State) (spawnId : ℕ) (place : Option Position) (now : ℤ) : State :=
  match place with
  | none => s
  | some pos =>
    let monster := s.nextMonster
    { s with
      spawnedMap := insert spawnId monster s.spawnedMap
      nextMonster := monster + 1
      position := Function.update s.position monster pos
      isRemoved := Function.update s.isRemoved monster false
      spawn := Function.update s.spawn monster true }.setLastSpawn spawnId now

/-- `Spawn::addMonster` of a known name -/
def addMonster (s : State) (pos : Position) (interval : ℕ) : State :=
  { s with
    interval := min s.interval interval
    spawnMap := SortedMap.insert (s.spawnMap.length + 1) ⟨pos, 0, interval⟩ s.spawnMap }

/-- `Spawn::startup` -/
def startup (s : State) (place : ℕ → Option Position) (time : ℕ → ℤ) : State :=
  s.spawnMap.foldl (fun s block => spawnMonster s block.1 (place block.1) (time block.1)) s

/-- The loop of `Spawn::cleanup`, with the entries before the iterator. What is
filed under 0 goes before it. -/
def cleanupLoop (now : ℤ) : List (ℕ × ℕ) → List (ℕ × ℕ) → State → State
  | before, [], s => { s with spawnedMap := before }
  | before, (spawnId, monster) :: after, s =>
    if s.isRemoved monster then
      cleanupLoop now before after (if spawnId ≠ 0 then s.setLastSpawn spawnId now else s)
    else if !s.isInSpawnZone (s.position monster) && spawnId ≠ 0 then
      cleanupLoop now (insert 0 monster before) after s
    else
      cleanupLoop now (before ++ [(spawnId, monster)]) after s

/-- `Spawn::cleanup` -/
def cleanup (s : State) (now : ℤ) : State := cleanupLoop now [] s.spawnedMap s

/-- What a check finds: the clock, at its cleanup and when it comes to a point,
whether a player is near a position, where the monsters are put, and
`RATE_SPAWN`. -/
structure Check where
  now : ℤ
  time : ℕ → ℤ
  findPlayer : Position → Bool
  place : ℕ → Option Position
  rateSpawn : ℕ

/-- The loop of `Spawn::checkSpawn` over `spawnMap`. A turn changes the block of
its own point alone. -/
def checkLoop (c : Check) : List (ℕ × SpawnBlock) → ℕ → State → State
  | [], _, s => s
  | (spawnId, sb) :: blocks, spawnCount, s =>
    if spawnId ∈ s.spawnedMap.map Prod.fst then checkLoop c blocks spawnCount s
    else if sb.lastSpawn + sb.interval ≤ c.time spawnId then
      if c.findPlayer sb.pos then checkLoop c blocks spawnCount (s.setLastSpawn spawnId (c.time spawnId))
      else
        let s := spawnMonster s spawnId (c.place spawnId) (c.time spawnId)
        if c.rateSpawn ≤ spawnCount + 1 then s else checkLoop c blocks (spawnCount + 1) s
    else checkLoop c blocks spawnCount s

/-- `Spawn::checkSpawn` -/
def checkSpawn (s : State) (c : Check) : State :=
  let s := cleanup { s with checkSpawnEvent := false } c.now
  let s := checkLoop c s.spawnMap 0 s
  if s.spawnedMap.length < s.spawnMap.length then { s with checkSpawnEvent := true } else s

/-- `Spawn::startSpawnCheck` -/
def startSpawnCheck (s : State) : State := { s with checkSpawnEvent := true }

/-- `Spawn::removeMonster` -/
def removeMonster (s : State) (monster : ℕ) : State :=
  { s with spawnedMap := s.spawnedMap.eraseP (·.2 = monster) }

/-- `handled` tells that a script takes the place of `Monster::onRemoveCreature`;
a monster that is convinced leaves its spawn. -/
inductive Action
  | checkSpawn (c : Check)
  | die (monster : ℕ) (handled : Bool)
  | move (monster : ℕ) (pos : Position)
  | convince (monster : ℕ)

/-- A check runs when it is scheduled. -/
def step (s : State) : Action → State
  | .checkSpawn c => if s.checkSpawnEvent then checkSpawn s c else s
  | .die monster handled =>
    if s.isRemoved monster then s
    else
      let s := if s.spawn monster && !handled then startSpawnCheck s else s
      { s with isRemoved := Function.update s.isRemoved monster true }
  | .move monster pos =>
    if s.isRemoved monster then s else { s with position := Function.update s.position monster pos }
  | .convince monster =>
    if s.isRemoved monster || !s.spawn monster then s
    else { removeMonster s monster with spawn := Function.update s.spawn monster false }

/-- `Spawn::Spawn`. No monster is there yet. -/
def new (centerPos : Position) (radius : ℤ) : State :=
  ⟨centerPos, radius, 60000, [], [], false, 0, fun _ => centerPos, fun _ => true, fun _ => false⟩

/-- A spawn with its points, after its startup. -/
def initial (centerPos : Position) (radius : ℤ) (points : List (Position × ℕ)) (place : ℕ → Option Position)
    (time : ℕ → ℤ) : State :=
  startup (points.foldl (fun s p => addMonster s p.1 p.2) (new centerPos radius)) place time

/-! ### What should hold -/

/-- The ids that monsters are filed under. -/
def State.filed (s : State) : List ℕ := s.spawnedMap.map Prod.fst

/-- The ids of the points. -/
def State.ids (s : State) : List ℕ := s.spawnMap.map Prod.fst

/-- A point without a monster has a check to come. -/
def Scheduled (s : State) : Prop := (∃ id ∈ s.ids, id ∉ s.filed) → s.checkSpawnEvent = true

/-- No point has two monsters. -/
def Single (s : State) : Prop := ∀ id, id ≠ 0 → s.filed.count id ≤ 1

/-- A monster that fills its point. -/
def State.fills (s : State) (e : ℕ × ℕ) : Bool :=
  !s.isRemoved e.2 && e.1 ≠ 0 && s.isInSpawnZone (s.position e.2)

/-- The living monsters that fill no point. -/
def strays (s : State) : ℕ := s.spawnedMap.countP fun e => !s.isRemoved e.2 && !s.fills e

/-- The points that no monster fills. -/
def vacant (s : State) : List (ℕ × SpawnBlock) :=
  s.spawnMap.filter fun p => !s.spawnedMap.any fun e => e.1 = p.1 && s.fills e

/-- Since when a point is empty, as a check finds it. -/
def emptySince (s : State) (c : Check) (p : ℕ × SpawnBlock) : ℤ :=
  if s.spawnedMap.any fun e => e.1 = p.1 && s.isRemoved e.2 then c.now else p.2.lastSpawn

/-- The points that a check fills: of the vacant ones that are due and have no
player near, the first few, where the monster can be put. -/
def filled (s : State) (c : Check) : List (ℕ × SpawnBlock) :=
  (((vacant s).filter fun p => emptySince s c p + p.2.interval ≤ c.time p.1 && !c.findPlayer p.2.pos).take
    (max c.rateSpawn 1)).filter fun p => (c.place p.1).isSome

/-- A check that leaves points empty leaves more of them than monsters stray. -/
def Heeded (s : State) : Action → Prop
  | .checkSpawn c => s.checkSpawnEvent = true → (filled s c).length < (vacant s).length →
    strays s + (filled s c).length < (vacant s).length
  | _ => True

/-! ### The two maps -/

section

variable {s : State} {id : ℕ} {now : ℤ}

theorem insert_perm (id m : ℕ) (l : List (ℕ × ℕ)) : (insert id m l).Perm ((id, m) :: l) := by
  unfold insert
  refine List.perm_middle.trans (List.Perm.cons _ ?_)
  rw [List.takeWhile_append_dropWhile]

/-- An assignment to a key of a map keeps the others. -/
theorem insert_eq_map {β : Type} {k : ℕ} {v : β} : ∀ {m : List (ℕ × β)}, SortedMap.Sorted m →
    k ∈ m.map Prod.fst → SortedMap.insert k v m = m.map fun p => if p.1 = k then (k, v) else p
  | p :: m, hm, hk => by
    obtain ⟨hlt, hm⟩ := List.pairwise_cons.1 hm
    rw [SortedMap.insert, List.map_cons]
    by_cases hp : p.1 = k
    · have hrest : (m.map fun p => if p.1 = k then (k, v) else p) = m := by
        refine (List.map_congr_left fun q hq => if_neg ?_).trans (List.map_id m)
        have hq := hlt q hq
        omega
      rw [if_neg (by omega), if_pos hp.symm, if_pos hp, hrest]
    · have hk' : k ∈ m.map Prod.fst := (List.mem_cons.1 hk).resolve_left fun h => hp h.symm
      obtain ⟨q, hq, rfl⟩ := List.mem_map.1 hk'
      have hlt := hlt q hq
      rw [if_neg (by omega), if_neg (Ne.symm hp), if_neg hp, insert_eq_map hm hk']

/-- The blocks of some ids get a new time. -/
def touch (hit : ℕ → Bool) (now : ℤ) (p : ℕ × SpawnBlock) : ℕ × SpawnBlock :=
  if hit p.1 then (p.1, { p.2 with lastSpawn := now }) else p

@[simp] theorem touch_fst (hit : ℕ → Bool) (p : ℕ × SpawnBlock) : (touch hit now p).1 = p.1 := by
  unfold touch
  split
  · rfl
  · rfl

theorem touch_touch (hit hit' : ℕ → Bool) (p : ℕ × SpawnBlock) :
    touch hit now (touch hit' now p) = touch (fun id => hit' id || hit id) now p := by
  unfold touch
  cases h' : hit' p.1 with
  | false => simp [h']
  | true =>
    cases h : hit p.1 with
    | false => simp [h, h']
    | true => simp [h, h']

@[simp] theorem map_touch_fst (hit : ℕ → Bool) (l : List (ℕ × SpawnBlock)) :
    (l.map (touch hit now)).map Prod.fst = l.map Prod.fst := by
  rw [List.map_map]
  exact List.map_congr_left fun p _ => touch_fst hit p

theorem sorted_of_ids {m m' : List (ℕ × SpawnBlock)} (h : SortedMap.Sorted m)
    (he : m'.map Prod.fst = m.map Prod.fst) : SortedMap.Sorted m' := by
  have hs : (m.map Prod.fst).Pairwise (· < ·) := List.pairwise_map.2 h
  rw [← he] at hs
  exact List.pairwise_map.1 hs

@[simp] theorem isRemoved_setLastSpawn : (s.setLastSpawn id now).isRemoved = s.isRemoved := rfl
@[simp] theorem position_setLastSpawn : (s.setLastSpawn id now).position = s.position := rfl
@[simp] theorem isInSpawnZone_setLastSpawn (pos : Position) :
    (s.setLastSpawn id now).isInSpawnZone pos = s.isInSpawnZone pos := rfl
@[simp] theorem filed_setLastSpawn : (s.setLastSpawn id now).filed = s.filed := rfl

/-- **What `setLastSpawn` does**, to a point of the spawn. -/
theorem spawnMap_setLastSpawn (hs : SortedMap.Sorted s.spawnMap) (hid : id ∈ s.ids) :
    (s.setLastSpawn id now).spawnMap = s.spawnMap.map (touch (· = id) now) := by
  refine (insert_eq_map hs hid).trans (List.map_congr_left fun p hp => ?_)
  unfold touch
  by_cases he : p.1 = id
  · subst he
    rw [if_pos rfl, if_pos (decide_eq_true rfl), SortedMap.lookup_eq hs hp]
    rfl
  · rw [if_neg he, if_neg fun h => he (of_decide_eq_true h)]

theorem ids_setLastSpawn (now : ℤ) (hs : SortedMap.Sorted s.spawnMap) (hid : id ∈ s.ids) :
    (s.setLastSpawn id now).ids = s.ids := by
  unfold State.ids
  rw [spawnMap_setLastSpawn hs hid, map_touch_fst]

/-! ### The cleanup -/

/-- What a living monster is filed under after the cleanup. -/
def refile (s : State) (e : ℕ × ℕ) : ℕ × ℕ :=
  if !s.isInSpawnZone (s.position e.2) && e.1 ≠ 0 then (0, e.2) else e

theorem cleanupLoop_spec (now : ℤ) : ∀ (after before : List (ℕ × ℕ)) {s : State}, SortedMap.Sorted s.spawnMap →
    0 ∉ s.ids → (∀ e ∈ after, e.1 ≠ 0 → e.1 ∈ s.ids) →
    (cleanupLoop now before after s).spawnedMap.Perm
        (before ++ (after.filter fun e => !s.isRemoved e.2).map (refile s)) ∧
      (cleanupLoop now before after s).spawnMap =
        s.spawnMap.map (touch (fun id => after.any fun e => e.1 = id && s.isRemoved e.2) now)
  | [], before, s, _, _, _ => by
    refine ⟨?_, ?_⟩
    · rw [List.filter_nil, List.map_nil, List.append_nil]
      exact .refl _
    · exact (List.map_id s.spawnMap).symm
  | (id, m) :: after, before, s, hs, h0, hids => by
    have hids' : ∀ e ∈ after, e.1 ≠ 0 → e.1 ∈ s.ids := fun e he => hids e (List.mem_cons_of_mem _ he)
    unfold cleanupLoop
    by_cases hr : s.isRemoved m = true
    · rw [if_pos hr, List.filter_cons_of_neg (by simp [hr])]
      by_cases hid : id ≠ 0
      · rw [if_pos hid]
        have hmem : id ∈ s.ids := hids (id, m) List.mem_cons_self hid
        have hkeys := ids_setLastSpawn now hs hmem
        obtain ⟨h1, h2⟩ := cleanupLoop_spec now after before (s := s.setLastSpawn id now)
          (sorted_of_ids hs hkeys) (hkeys ▸ h0) (hkeys ▸ hids')
        refine ⟨h1, h2.trans ?_⟩
        rw [spawnMap_setLastSpawn hs hmem, List.map_map]
        refine List.map_congr_left fun p _ => (touch_touch _ _ p).trans ?_
        unfold touch
        simp only [List.any_cons, hr, Bool.and_true, isRemoved_setLastSpawn, eq_comm (a := p.1)]
      · rw [if_neg hid]
        obtain ⟨h1, h2⟩ := cleanupLoop_spec now after before hs h0 hids'
        refine ⟨h1, h2.trans (List.map_congr_left fun p hp => ?_)⟩
        have hp0 : p.1 ≠ id := by
          rintro rfl
          exact h0 (not_not.1 hid ▸ List.mem_map_of_mem hp)
        unfold touch
        simp only [List.any_cons, hr, Bool.and_true, decide_eq_false (Ne.symm hp0), Bool.false_or]
    · rw [if_neg hr, List.filter_cons_of_pos (by simpa using hr), List.map_cons]
      have htouch : s.spawnMap.map (touch (fun id => after.any fun e => e.1 = id && s.isRemoved e.2) now) =
          s.spawnMap.map
            (touch (fun x => ((id, m) :: after).any fun e => e.1 = x && s.isRemoved e.2) now) := by
        simp only [List.any_cons, Bool.not_eq_true _ ▸ hr, Bool.and_false, Bool.false_or]
      by_cases hz : (!s.isInSpawnZone (s.position m) && id ≠ 0) = true
      · rw [if_pos hz]
        obtain ⟨h1, h2⟩ := cleanupLoop_spec now after (insert 0 m before) hs h0 hids'
        refine ⟨h1.trans ?_, h2.trans htouch⟩
        have he : refile s (id, m) = (0, m) := if_pos hz
        rw [he]
        exact ((insert_perm 0 m before).append_right _).trans List.perm_middle.symm
      · rw [if_neg hz]
        obtain ⟨h1, h2⟩ := cleanupLoop_spec now after (before ++ [(id, m)]) hs h0 hids'
        refine ⟨h1.trans ?_, h2.trans htouch⟩
        have he : refile s (id, m) = (id, m) := if_neg hz
        rw [he, List.append_assoc]
        exact .refl _

/-- **What the cleanup does**: the dead are dropped and their points touched, the
wandered ones are filed under 0. -/
theorem cleanup_spec (now : ℤ) (hs : SortedMap.Sorted s.spawnMap) (h0 : 0 ∉ s.ids)
    (hids : ∀ e ∈ s.spawnedMap, e.1 ≠ 0 → e.1 ∈ s.ids) :
    (cleanup s now).spawnedMap.Perm ((s.spawnedMap.filter fun e => !s.isRemoved e.2).map (refile s)) ∧
      (cleanup s now).spawnMap =
        s.spawnMap.map (touch (fun id => s.spawnedMap.any fun e => e.1 = id && s.isRemoved e.2) now) :=
  cleanupLoop_spec now s.spawnedMap [] hs h0 hids

/-! ### The loop over the points -/

/-- A monster that is put somewhere is filed under its point. -/
theorem spawnMonster_spec (now : ℤ) (hs : SortedMap.Sorted s.spawnMap) (hid : id ∈ s.ids)
    (place : Option Position) :
    (spawnMonster s id place now).ids = s.ids ∧
      (spawnMonster s id place now).filed.Perm (if place.isSome then id :: s.filed else s.filed) := by
  cases place with
  | none => exact ⟨rfl, .refl _⟩
  | some pos =>
    refine ⟨?_, ?_⟩
    · exact ids_setLastSpawn now (s := { s with
        spawnedMap := insert id s.nextMonster s.spawnedMap
        nextMonster := s.nextMonster + 1
        position := Function.update s.position s.nextMonster pos
        isRemoved := Function.update s.isRemoved s.nextMonster false
        spawn := Function.update s.spawn s.nextMonster true }) hs hid
    · exact (insert_perm id s.nextMonster s.spawnedMap).map Prod.fst

/-- The points that the loop fills, when it may try `k` more. -/
def chosen (c : Check) (filed : List ℕ) (blocks : List (ℕ × SpawnBlock)) (k : ℕ) : List (ℕ × SpawnBlock) :=
  ((blocks.filter fun p => p.1 ∉ filed && (p.2.lastSpawn + p.2.interval ≤ c.time p.1 && !c.findPlayer p.2.pos)).take
    k).filter fun p => (c.place p.1).isSome

/-- What is filed under other ids does not matter. -/
theorem chosen_congr {c : Check} {l l' : List ℕ} {blocks : List (ℕ × SpawnBlock)}
    (h : ∀ p ∈ blocks, p.1 ∈ l' ↔ p.1 ∈ l) (k : ℕ) : chosen c l' blocks k = chosen c l blocks k := by
  have hfilter : blocks.filter (fun p =>
        p.1 ∉ l' && (p.2.lastSpawn + p.2.interval ≤ c.time p.1 && !c.findPlayer p.2.pos)) =
      blocks.filter fun p =>
        p.1 ∉ l && (p.2.lastSpawn + p.2.interval ≤ c.time p.1 && !c.findPlayer p.2.pos) :=
    List.filter_congr fun p hp => by rw [decide_eq_decide.2 (not_congr (h p hp))]
  unfold chosen
  rw [hfilter]

theorem checkLoop_spec (c : Check) : ∀ (blocks : List (ℕ × SpawnBlock)) (count : ℕ) {s : State},
    SortedMap.Sorted s.spawnMap → (blocks.map Prod.fst).Nodup → (∀ p ∈ blocks, p.1 ∈ s.ids) →
    count < max c.rateSpawn 1 →
    (checkLoop c blocks count s).ids = s.ids ∧
      (checkLoop c blocks count s).filed.Perm
        ((chosen c s.filed blocks (max c.rateSpawn 1 - count)).map Prod.fst ++ s.filed)
  | [], count, s, _, _, _, _ => by
    refine ⟨rfl, ?_⟩
    unfold chosen
    rw [List.filter_nil, List.take_nil]
    exact .refl _
  | (id, sb) :: blocks, count, s, hs, hnd, hids, hc => by
    obtain ⟨hnot, hnd⟩ := List.nodup_cons.1 hnd
    have hid : id ∈ s.ids := hids (id, sb) List.mem_cons_self
    have hids' : ∀ p ∈ blocks, p.1 ∈ s.ids := fun p hp => hids p (List.mem_cons_of_mem _ hp)
    have hother : ∀ p ∈ blocks, p.1 ≠ id := fun p hp he => hnot (List.mem_map.2 ⟨p, hp, he⟩)
    -- a point that is passed over
    have hskip : (id ∉ s.filed && (sb.lastSpawn + sb.interval ≤ c.time id && !c.findPlayer sb.pos)) = false →
        chosen c s.filed ((id, sb) :: blocks) (max c.rateSpawn 1 - count) =
          chosen c s.filed blocks (max c.rateSpawn 1 - count) := by
      intro h
      unfold chosen
      rw [List.filter_cons_of_neg (by rw [h]; exact Bool.false_ne_true)]
    unfold checkLoop
    by_cases hf : id ∈ s.spawnedMap.map Prod.fst
    · rw [if_pos hf, hskip (by rw [decide_eq_false (show ¬ id ∉ s.filed from not_not.2 hf), Bool.false_and])]
      exact checkLoop_spec c blocks count hs hnd hids' hc
    rw [if_neg hf]
    by_cases hd : sb.lastSpawn + sb.interval ≤ c.time id
    swap
    · rw [if_neg hd, hskip (by rw [decide_eq_false hd, Bool.false_and, Bool.and_false])]
      exact checkLoop_spec c blocks count hs hnd hids' hc
    rw [if_pos hd]
    by_cases hp : c.findPlayer sb.pos = true
    · rw [if_pos hp, hskip (by rw [hp, Bool.not_true, Bool.and_false, Bool.and_false])]
      have hkeys := ids_setLastSpawn (c.time id) hs hid
      obtain ⟨h1, h2⟩ := checkLoop_spec c blocks count (s := s.setLastSpawn id (c.time id))
        (sorted_of_ids hs hkeys) hnd (hkeys ▸ hids') hc
      exact ⟨h1.trans hkeys, h2⟩
    rw [if_neg hp]
    -- the point is tried
    obtain ⟨hkeys, hfiled⟩ := spawnMonster_spec (c.time id) hs hid (c.place id)
    have hmem : ∀ p ∈ blocks, p.1 ∈ (spawnMonster s id (c.place id) (c.time id)).filed ↔ p.1 ∈ s.filed := by
      intro p hp
      rw [hfiled.mem_iff]
      split
      · rw [List.mem_cons, or_iff_right (hother p hp)]
      · rfl
    have htry : ∀ k, chosen c s.filed ((id, sb) :: blocks) (k + 1) =
        if (c.place id).isSome then (id, sb) :: chosen c s.filed blocks k else chosen c s.filed blocks k := by
      intro k
      unfold chosen
      rw [List.filter_cons_of_pos, List.take_succ_cons, List.filter_cons]
      rw [decide_eq_true (show id ∉ s.filed from hf), decide_eq_true hd, Bool.eq_false_of_not_eq_true hp]
      rfl
    have hdone : ∀ l, (if (c.place id).isSome then (id, sb) :: l else l).map Prod.fst ++ s.filed =
        if (c.place id).isSome then id :: (l.map Prod.fst ++ s.filed) else l.map Prod.fst ++ s.filed := by
      intro l
      split
      · rfl
      · rfl
    dsimp only
    by_cases hlast : c.rateSpawn ≤ count + 1
    · have hone : max c.rateSpawn 1 - count = 0 + 1 := by omega
      rw [if_pos hlast, hone, htry, hdone]
      refine ⟨hkeys, hfiled.trans ?_⟩
      unfold chosen
      rw [List.take_zero]
      exact .refl _
    · have hone : max c.rateSpawn 1 - count = (max c.rateSpawn 1 - (count + 1)) + 1 := by omega
      rw [if_neg hlast, hone, htry, hdone]
      obtain ⟨h1, h2⟩ := checkLoop_spec c blocks (count + 1)
        (s := spawnMonster s id (c.place id) (c.time id)) (sorted_of_ids hs hkeys) hnd (hkeys ▸ hids') (by omega)
      refine ⟨h1.trans hkeys, h2.trans ?_⟩
      rw [chosen_congr hmem]
      refine (hfiled.append_left _).trans ?_
      split
      · exact List.perm_middle
      · exact .refl _

end

/-! ### The invariant -/

/-- The points have distinct ids, none of them 0, and no two monsters. -/
structure Inv (s : State) : Prop where
  sorted : SortedMap.Sorted s.spawnMap
  ids_ne_zero : 0 ∉ s.ids
  filed_ids : ∀ id ∈ s.filed, id ≠ 0 → id ∈ s.ids
  single : Single s

section

variable {s : State} {c : Check} {id : ℕ}

theorem Inv.ids_nodup (h : Inv s) : s.ids.Nodup := h.sorted.nodup_keys

/-- A list that holds some of the keys, each once, leaves one out when it is shorter. -/
theorem exists_notMem_iff {l keys : List ℕ} (hl : l.Nodup) (hsub : ∀ k ∈ l, k ∈ keys)
    (hk : keys.Nodup) : (∃ k ∈ keys, k ∉ l) ↔ l.length < keys.length := by
  have hperm : l.Subperm keys := List.subperm_of_subset hl hsub
  constructor
  · rintro ⟨k, hmem, hnot⟩
    by_contra hle
    exact hnot ((hperm.perm_of_length_le (by omega)).mem_iff.2 hmem)
  · intro hlt
    by_contra hall
    push Not at hall
    have hle := (List.subperm_of_subset hk hall).length_le
    omega

/-- The ids but 0. -/
def points (l : List ℕ) : List ℕ := l.filter (· ≠ 0)

theorem Inv.points_nodup (h : Inv s) : (points s.filed).Nodup := by
  rw [List.nodup_iff_count_le_one]
  intro id
  by_cases hid : id = 0
  · have hnot : id ∉ points s.filed := fun hm => of_decide_eq_true (List.mem_filter.1 hm).2 hid
    rw [List.count_eq_zero_of_not_mem hnot]
    exact Nat.zero_le 1
  · exact (List.filter_sublist.count_le id).trans (h.single id hid)

/-- **When a point is without a monster.** -/
theorem Inv.empty_iff (h : Inv s) : (∃ id ∈ s.ids, id ∉ s.filed) ↔ (points s.filed).length < s.ids.length := by
  rw [← exists_notMem_iff h.points_nodup (fun k hk => ?_) h.ids_nodup]
  · refine exists_congr fun k => and_congr_right fun hk => not_congr ?_
    have hk0 : k ≠ 0 := fun he => h.ids_ne_zero (he ▸ hk)
    simp [points, hk0]
  · obtain ⟨hmem, hk0⟩ := List.mem_filter.1 hk
    exact h.filed_ids k hmem (of_decide_eq_true hk0)

/-- What the living monsters are filed under after the cleanup. -/
def kept (s : State) : List ℕ := ((s.spawnedMap.filter fun e => !s.isRemoved e.2).map (refile s)).map Prod.fst

/-- Who is filed under a point then fills it. -/
theorem refile_eq_iff {e : ℕ × ℕ} (hid : id ≠ 0) :
    (!s.isRemoved e.2 && (refile s e).1 = id) = (e.1 = id && s.fills e) := by
  unfold refile State.fills
  by_cases hz : s.isInSpawnZone (s.position e.2) = true
  · by_cases he : e.1 = id
    · simp [hz, he, hid]
    · simp [hz, he]
  · by_cases he : e.1 = 0
    · simp [hz, he, Ne.symm hid]
    · simp [hz, he, Ne.symm hid]

theorem mem_kept_iff (hid : id ≠ 0) : id ∈ kept s ↔ s.spawnedMap.any (fun e => e.1 = id && s.fills e) = true := by
  unfold kept
  rw [List.map_map]
  simp only [List.mem_map, List.mem_filter, List.any_eq_true, ← refile_eq_iff hid, Bool.and_eq_true,
    decide_eq_true_eq, Function.comp_apply, and_assoc]

theorem count_kept_le (hid : id ≠ 0) : (kept s).count id ≤ s.filed.count id := by
  unfold kept State.filed List.count
  rw [List.countP_map, List.countP_map, List.countP_map, List.countP_filter]
  refine List.countP_mono_left fun e _ he => ?_
  have hand : (!s.isRemoved e.2 && (refile s e).1 = id) = true := by
    simp only [Function.comp_apply, Bool.and_eq_true, beq_iff_eq] at he
    simpa [and_comm] using he
  rw [refile_eq_iff hid] at hand
  exact beq_iff_eq.2 (of_decide_eq_true (Bool.and_eq_true_iff.1 hand).1)

theorem points_kept : (points (kept s)).length = s.spawnedMap.countP s.fills := by
  unfold points kept
  rw [List.map_map, ← List.countP_eq_length_filter, List.countP_map, List.countP_filter]
  refine List.countP_congr fun e _ => ?_
  unfold refile State.fills
  by_cases hz : s.isInSpawnZone (s.position e.2) = true
  · simp [hz, and_comm]
  · by_cases he : e.1 = 0
    · simp [hz, he]
    · simp [hz, he]

theorem length_kept : (kept s).length = strays s + s.spawnedMap.countP s.fills := by
  unfold kept strays
  rw [List.length_map, List.length_map, ← List.countP_eq_length_filter,
    List.countP_eq_countP_filter_add s.spawnedMap _ s.fills, List.countP_filter, List.countP_filter, Nat.add_comm]
  refine congrArg₂ _ ?_ ?_
  · rfl
  · refine List.countP_congr fun e _ => ?_
    simp only [State.fills, Bool.and_eq_true]
    tauto

theorem State.id_ne_zero {e : ℕ × ℕ} (h : s.fills e = true) : e.1 ≠ 0 :=
  of_decide_eq_true (Bool.and_eq_true_iff.1 (Bool.and_eq_true_iff.1 h).1).2

/-- A point is vacant or filled. -/
theorem Inv.length_vacant (h : Inv s) : (vacant s).length + s.spawnedMap.countP s.fills = s.ids.length := by
  have hcount : (s.spawnMap.filter fun p => s.spawnedMap.any fun e => e.1 = p.1 && s.fills e).length =
      s.spawnedMap.countP s.fills := by
    have hperm : ((s.spawnMap.filter fun p => s.spawnedMap.any fun e => e.1 = p.1 && s.fills e).map
        Prod.fst).Perm ((s.spawnedMap.filter s.fills).map Prod.fst) := by
      rw [List.perm_ext_iff_of_nodup]
      · intro id
        simp only [List.mem_map, List.mem_filter, List.any_eq_true, Bool.and_eq_true, decide_eq_true_eq]
        constructor
        · rintro ⟨p, ⟨-, e, he, hep, hf⟩, rfl⟩
          exact ⟨e, ⟨he, hf⟩, hep⟩
        · rintro ⟨e, ⟨he, hf⟩, rfl⟩
          obtain ⟨p, hp, hpe⟩ := List.mem_map.1 (h.filed_ids e.1 (List.mem_map_of_mem he) (State.id_ne_zero hf))
          exact ⟨p, ⟨hp, e, he, hpe.symm, hf⟩, hpe⟩
      · exact h.ids_nodup.sublist (List.filter_sublist.map _)
      · rw [List.nodup_iff_count_le_one]
        intro id
        by_cases hid : id = 0
        · rw [List.count_eq_zero_of_not_mem]
          · exact Nat.zero_le 1
          · rintro hmem
            obtain ⟨e, he, hez⟩ := List.mem_map.1 hmem
            exact State.id_ne_zero (List.mem_filter.1 he).2 (hez.trans hid)
        · exact ((List.filter_sublist.map Prod.fst).count_le id).trans (h.single id hid)
    rw [List.countP_eq_length_filter]
    simpa using hperm.length_eq
  unfold vacant State.ids
  rw [List.length_map, ← hcount, Nat.add_comm]
  exact (List.length_eq_length_filter_add _).symm

/-! ### A check -/

/-- After the cleanup, the loop fills the points that `filled` tells. -/
theorem map_chosen (h : Inv s) (c : Check) (hfiled : (cleanup s c.now).filed.Perm (kept s))
    (hmap : (cleanup s c.now).spawnMap = s.spawnMap.map
      (touch (fun id => s.spawnedMap.any fun e => e.1 = id && s.isRemoved e.2) c.now)) :
    (chosen c (cleanup s c.now).filed (cleanup s c.now).spawnMap (max c.rateSpawn 1)).map Prod.fst =
      (filled s c).map Prod.fst := by
  have hfilter : (s.spawnMap.filter ((fun p => p.1 ∉ (cleanup s c.now).filed &&
        (p.2.lastSpawn + p.2.interval ≤ c.time p.1 && !c.findPlayer p.2.pos)) ∘
        touch (fun id => s.spawnedMap.any fun e => e.1 = id && s.isRemoved e.2) c.now)) =
      (vacant s).filter fun p => emptySince s c p + p.2.interval ≤ c.time p.1 && !c.findPlayer p.2.pos := by
    unfold vacant
    rw [List.filter_filter]
    refine List.filter_congr fun p hp => ?_
    have hp0 : p.1 ≠ 0 := fun he => h.ids_ne_zero (he ▸ List.mem_map_of_mem hp)
    have hvacant : decide (p.1 ∉ (cleanup s c.now).filed) =
        !s.spawnedMap.any fun e => e.1 = p.1 && s.fills e := by
      have hiff := hfiled.mem_iff.trans (mem_kept_iff hp0)
      rw [Bool.eq_iff_iff, decide_eq_true_eq, hiff, Bool.not_eq_true', Bool.not_eq_true]
    rw [Function.comp_apply, touch_fst, hvacant, Bool.and_comm]
    unfold touch emptySince
    split
    · rfl
    · rfl
  unfold chosen filled
  rw [hmap, List.filter_map, hfilter, ← List.map_take, List.filter_map, map_touch_fst]
  refine congrArg _ (List.filter_congr fun p _ => ?_)
  rw [Function.comp_apply, touch_fst]

theorem filled_sublist (s : State) (c : Check) : (filled s c).Sublist (vacant s) :=
  List.filter_sublist.trans ((List.take_sublist ..).trans List.filter_sublist)

theorem vacant_spec {p : ℕ × SpawnBlock} (h : Inv s) (hp : p ∈ vacant s) :
    p.1 ∈ s.ids ∧ p.1 ≠ 0 ∧ p.1 ∉ kept s := by
  obtain ⟨hmem, hnot⟩ := List.mem_filter.1 hp
  have hid : p.1 ∈ s.ids := List.mem_map_of_mem hmem
  have h0 : p.1 ≠ 0 := fun he => h.ids_ne_zero (he ▸ hid)
  refine ⟨hid, h0, fun hk => ?_⟩
  rw [(mem_kept_iff h0).1 hk] at hnot
  nomatch hnot

theorem checkSpawnEvent_cleanupLoop (now : ℤ) : ∀ (after before : List (ℕ × ℕ)) (s : State),
    (cleanupLoop now before after s).checkSpawnEvent = s.checkSpawnEvent
  | [], _, _ => rfl
  | (id, m) :: after, before, s => by
    unfold cleanupLoop
    split
    · rw [checkSpawnEvent_cleanupLoop now after]
      split
      · rfl
      · rfl
    · split
      · exact checkSpawnEvent_cleanupLoop now after _ s
      · exact checkSpawnEvent_cleanupLoop now after _ s

theorem checkSpawnEvent_spawnMonster (place : Option Position) (now : ℤ) :
    (spawnMonster s id place now).checkSpawnEvent = s.checkSpawnEvent := by
  cases place with
  | none => rfl
  | some pos => rfl

theorem checkSpawnEvent_checkLoop (c : Check) : ∀ (blocks : List (ℕ × SpawnBlock)) (count : ℕ) (s : State),
    (checkLoop c blocks count s).checkSpawnEvent = s.checkSpawnEvent
  | [], _, _ => rfl
  | (id, sb) :: blocks, count, s => by
    unfold checkLoop
    split
    · exact checkSpawnEvent_checkLoop c blocks count s
    split
    · split
      · exact checkSpawnEvent_checkLoop c blocks count _
      · dsimp only
        split
        · exact checkSpawnEvent_spawnMonster _ _
        · exact (checkSpawnEvent_checkLoop c blocks _ _).trans (checkSpawnEvent_spawnMonster _ _)
    · exact checkSpawnEvent_checkLoop c blocks count s

/-- **What a check does**: the points are the same, and the filled ones are filed
with the monsters that are kept. It is scheduled again by the sizes. -/
theorem checkSpawn_spec (h : Inv s) (c : Check) :
    (checkSpawn s c).ids = s.ids ∧ (checkSpawn s c).filed.Perm ((filled s c).map Prod.fst ++ kept s) ∧
      ((checkSpawn s c).checkSpawnEvent = true ↔
        (checkSpawn s c).filed.length < (checkSpawn s c).ids.length) := by
  have h' : Inv { s with checkSpawnEvent := false } := ⟨h.sorted, h.ids_ne_zero, h.filed_ids, h.single⟩
  obtain ⟨hspawned, hmap⟩ := cleanup_spec c.now h'.sorted h'.ids_ne_zero
    fun e he => h'.filed_ids e.1 (List.mem_map_of_mem he)
  have hkept := hspawned.map Prod.fst
  have hchosen := map_chosen h' c hkept hmap
  have hids : (cleanup { s with checkSpawnEvent := false } c.now).ids = s.ids :=
    (congrArg (List.map Prod.fst) hmap).trans (map_touch_fst _ _)
  have hsorted : SortedMap.Sorted (cleanup { s with checkSpawnEvent := false } c.now).spawnMap :=
    sorted_of_ids h.sorted hids
  obtain ⟨h1, h2⟩ := checkLoop_spec c (cleanup { s with checkSpawnEvent := false } c.now).spawnMap 0 hsorted
    hsorted.nodup_keys (fun p hp => List.mem_map_of_mem hp) (by omega)
  rw [Nat.sub_zero, hchosen] at h2
  have hfiled := h2.trans (hkept.append_left _)
  have hevent := (checkSpawnEvent_checkLoop c (cleanup { s with checkSpawnEvent := false } c.now).spawnMap 0
    (cleanup { s with checkSpawnEvent := false } c.now)).trans
      (checkSpawnEvent_cleanupLoop c.now s.spawnedMap [] { s with checkSpawnEvent := false })
  obtain ⟨t, ht⟩ : ∃ t, t = checkLoop c (cleanup { s with checkSpawnEvent := false } c.now).spawnMap 0
    (cleanup { s with checkSpawnEvent := false } c.now) := ⟨_, rfl⟩
  have heq : checkSpawn s c =
      if t.spawnedMap.length < t.spawnMap.length then { t with checkSpawnEvent := true } else t := by
    rw [ht]
    rfl
  rw [← ht] at h1 hfiled hevent
  have hlen : t.spawnedMap.length < t.spawnMap.length ↔ t.filed.length < t.ids.length := by
    unfold State.filed State.ids
    rw [List.length_map, List.length_map]
  rw [heq]
  by_cases hlt : t.spawnedMap.length < t.spawnMap.length
  · rw [if_pos hlt]
    exact ⟨h1.trans hids, hfiled, iff_of_true rfl (hlen.1 hlt)⟩
  · rw [if_neg hlt]
    exact ⟨h1.trans hids, hfiled, iff_of_false (hevent ▸ Bool.false_ne_true) (mt hlen.2 hlt)⟩

/-- A point that the loop fills had no monster. -/
theorem checkSpawn_inv (h : Inv s) (c : Check) : Inv (checkSpawn s c) := by
  obtain ⟨hids, hfiled, -⟩ := checkSpawn_spec h c
  refine ⟨sorted_of_ids h.sorted hids, hids ▸ h.ids_ne_zero, fun id hid h0 => ?_, fun id h0 => ?_⟩
  · rw [hids]
    obtain hmem | hmem := List.mem_append.1 (hfiled.mem_iff.1 hid)
    · obtain ⟨p, hp, rfl⟩ := List.mem_map.1 hmem
      exact (vacant_spec h ((filled_sublist s c).subset hp)).1
    · refine h.filed_ids id (List.count_pos_iff.1 ?_) h0
      exact (List.count_pos_iff.2 hmem).trans_le (count_kept_le h0)
  · rw [hfiled.count_eq, List.count_append]
    by_cases hmem : id ∈ (filled s c).map Prod.fst
    · obtain ⟨p, hp, rfl⟩ := List.mem_map.1 hmem
      have hnot := (vacant_spec h ((filled_sublist s c).subset hp)).2.2
      rw [List.count_eq_zero_of_not_mem hnot]
      have hnd : ((filled s c).map Prod.fst).Nodup :=
        h.ids_nodup.sublist (((filled_sublist s c).trans List.filter_sublist).map Prod.fst)
      exact List.nodup_iff_count_le_one.1 hnd p.1
    · rw [List.count_eq_zero_of_not_mem hmem, Nat.zero_add]
      exact (count_kept_le h0).trans (h.single id h0)

/-- **After a check, a point without a monster has a check to come just when the
strays are fewer than the points left empty.** -/
theorem checkSpawn_iff (h : Inv s) (c : Check) : Scheduled (checkSpawn s c) ↔
    ((filled s c).length < (vacant s).length → strays s + (filled s c).length < (vacant s).length) := by
  obtain ⟨hids, hfiled, hevent⟩ := checkSpawn_spec h c
  have hpoints : (points (checkSpawn s c).filed).length =
      (filled s c).length + s.spawnedMap.countP s.fills := by
    unfold points
    rw [(hfiled.filter _).length_eq, List.filter_append, List.length_append]
    refine congrArg₂ _ ?_ points_kept
    rw [List.filter_eq_self.2, List.length_map]
    intro id hid
    obtain ⟨p, hp, rfl⟩ := List.mem_map.1 hid
    exact decide_eq_true (vacant_spec h ((filled_sublist s c).subset hp)).2.1
  have hsize : (checkSpawn s c).filed.length =
      (filled s c).length + (strays s + s.spawnedMap.countP s.fills) := by
    rw [hfiled.length_eq, List.length_append, List.length_map, length_kept]
  have hvacant := h.length_vacant
  unfold Scheduled
  rw [(checkSpawn_inv h c).empty_iff, hevent, hpoints, hsize, hids]
  constructor
  · intro hs hlt
    have hlt := hs (by omega)
    omega
  · intro hs hlt
    have hlt := hs (by omega)
    omega

/-! ### Runs -/

/-- The points stay, and monsters are struck off at most. -/
theorem Inv.of_sublist {s' : State} (h : Inv s) (hm : s'.spawnMap = s.spawnMap)
    (hs : s'.spawnedMap.Sublist s.spawnedMap) : Inv s' where
  sorted := hm ▸ h.sorted
  ids_ne_zero := by
    unfold State.ids
    rw [hm]
    exact h.ids_ne_zero
  filed_ids id hid h0 := by
    unfold State.ids
    rw [hm]
    exact h.filed_ids id ((hs.map Prod.fst).subset hid) h0
  single id h0 := ((hs.map Prod.fst).count_le id).trans (h.single id h0)

theorem step_inv (h : Inv s) (a : Action) : Inv (step s a) := by
  cases a with
  | checkSpawn c =>
    rw [step]
    split
    · exact checkSpawn_inv h c
    · exact h
  | die monster handled =>
    rw [step]
    split
    · exact h
    · cases s.spawn monster && !handled with
      | true => exact h.of_sublist rfl (.refl _)
      | false => exact h.of_sublist rfl (.refl _)
  | move monster pos =>
    rw [step]
    split
    · exact h
    · exact h.of_sublist rfl (.refl _)
  | convince monster =>
    rw [step]
    split
    · exact h
    · exact h.of_sublist rfl List.eraseP_sublist

theorem spawnMonster_inv (h : Inv s) (hid : id ∈ s.ids) (hnot : id ∉ s.filed) (place : Option Position)
    (now : ℤ) : Inv (spawnMonster s id place now) := by
  obtain ⟨hids, hfiled⟩ := spawnMonster_spec now h.sorted hid place
  refine ⟨sorted_of_ids h.sorted hids, hids ▸ h.ids_ne_zero, fun x hx h0 => ?_, fun x h0 => ?_⟩
  · rw [hids]
    rw [hfiled.mem_iff] at hx
    split at hx
    · obtain rfl | hx := List.mem_cons.1 hx
      · exact hid
      · exact h.filed_ids x hx h0
    · exact h.filed_ids x hx h0
  · rw [hfiled.count_eq]
    split
    · rw [List.count_cons]
      by_cases he : id = x
      · subst he
        simp [List.count_eq_zero_of_not_mem hnot]
      · simpa [he] using h.single x h0
    · exact h.single x h0

/-- The startup fills distinct points. -/
theorem startup_inv (place : ℕ → Option Position) (time : ℕ → ℤ) : ∀ (blocks : List (ℕ × SpawnBlock)) {s : State},
    Inv s → (blocks.map Prod.fst).Nodup → (∀ p ∈ blocks, p.1 ∈ s.ids ∧ p.1 ∉ s.filed) →
    Inv (blocks.foldl (fun s block => spawnMonster s block.1 (place block.1) (time block.1)) s)
  | [], _, h, _, _ => h
  | p :: blocks, s, h, hnd, hblocks => by
    obtain ⟨hp, hnd⟩ := List.nodup_cons.1 hnd
    obtain ⟨hid, hnot⟩ := hblocks p List.mem_cons_self
    obtain ⟨hids, hfiled⟩ := spawnMonster_spec (time p.1) h.sorted hid (place p.1)
    refine startup_inv place time blocks (spawnMonster_inv h hid hnot _ _) hnd fun q hq => ?_
    obtain ⟨hqid, hqnot⟩ := hblocks q (List.mem_cons_of_mem _ hq)
    have hne : q.1 ≠ p.1 := fun he => hp (List.mem_map.2 ⟨q, hq, he⟩)
    refine ⟨hids ▸ hqid, fun hc => ?_⟩
    rw [hfiled.mem_iff] at hc
    split at hc
    · obtain he | hc := List.mem_cons.1 hc
      · exact hne he
      · exact hqnot hc
    · exact hqnot hc

theorem addMonster_inv (h : Inv s) (hs : s.spawnedMap = []) (pos : Position) (interval : ℕ) :
    Inv (addMonster s pos interval) ∧ (addMonster s pos interval).spawnedMap = [] := by
  have hfiled : (addMonster s pos interval).filed = [] := congrArg (List.map Prod.fst) hs
  refine ⟨⟨SortedMap.insert_sorted h.sorted, fun h0 => ?_, fun id hid => ?_, fun id _ => ?_⟩, hs⟩
  · obtain ⟨q, hq, hq0⟩ := List.mem_map.1 h0
    obtain rfl | hq := SortedMap.mem_insert hq
    · nomatch hq0
    · exact h.ids_ne_zero (hq0 ▸ List.mem_map_of_mem hq)
  · rw [hfiled] at hid
    nomatch hid
  · rw [hfiled]
    exact Nat.zero_le 1

theorem initial_inv (centerPos : Position) (radius : ℤ) (points : List (Position × ℕ))
    (place : ℕ → Option Position) (time : ℕ → ℤ) : Inv (initial centerPos radius points place time) := by
  have hadd : ∀ (points : List (Position × ℕ)) (s : State), Inv s → s.spawnedMap = [] →
      Inv (points.foldl (fun s p => addMonster s p.1 p.2) s) ∧
        (points.foldl (fun s p => addMonster s p.1 p.2) s).spawnedMap = [] := by
    intro points
    induction points with
    | nil => exact fun s h hs => ⟨h, hs⟩
    | cons p points ih =>
      intro s h hs
      obtain ⟨h', hs'⟩ := addMonster_inv h hs p.1 p.2
      exact ih _ h' hs'
  have hnew : Inv (new centerPos radius) := ⟨List.Pairwise.nil, List.not_mem_nil, nofun, fun _ _ => Nat.zero_le 1⟩
  obtain ⟨h, hs⟩ := hadd points (new centerPos radius) hnew rfl
  refine startup_inv place time _ h h.ids_nodup fun p hp => ⟨List.mem_map_of_mem hp, ?_⟩
  unfold State.filed
  rw [hs]
  exact List.not_mem_nil

/-- What a step should leave: no point with two monsters and, after a check, none
that is empty and without a check to come. -/
def Served (s : State) (a : Action) : Prop :=
  Single (step s a) ∧ ∀ c, a = .checkSpawn c → s.checkSpawnEvent = true → Scheduled (step s a)

theorem step_served_iff (h : Inv s) (a : Action) : Served s a ↔ Heeded s a := by
  have hsingle := (step_inv h a).single
  cases a with
  | checkSpawn c =>
    refine (and_iff_right hsingle).trans ⟨fun hs hev => ?_, fun hh c' hc hev => ?_⟩
    · have hs := hs c rfl hev
      rw [step, if_pos hev] at hs
      exact (checkSpawn_iff h c).1 hs
    · rw [step, if_pos hev]
      exact (checkSpawn_iff h c).2 (hh hev)
  | die monster handled => exact iff_of_true ⟨hsingle, nofun⟩ trivial
  | move monster pos => exact iff_of_true ⟨hsingle, nofun⟩ trivial
  | convince monster => exact iff_of_true ⟨hsingle, nofun⟩ trivial

/-- **Every point keeps being served along a run just when its checks are
heeded.** From any points, after a startup that puts any of their monsters. -/
theorem served_iff (centerPos : Position) (radius : ℤ) (points : List (Position × ℕ))
    (place : ℕ → Option Position) (time : ℕ → ℤ) (actions : List Action) :
    Run.Along step Served (initial centerPos radius points place time) actions ↔
      Run.Along step Heeded (initial centerPos radius points place time) actions :=
  Run.along_congr (fun _ a h _ => step_inv h a) (fun _ a h => step_served_iff h a) actions
    (initial_inv centerPos radius points place time)

end

/-- Two points. The monster of the first wanders off, the one of the second dies,
and the check that follows fills the first point, the second not being due. -/
def wandered : List Action :=
  [.move 0 ⟨200, 100, 7⟩, .die 1 false,
    .checkSpawn ⟨60000, fun _ => 60000, fun _ => false, fun _ => some ⟨100, 100, 7⟩, 1⟩]

/-- As many monsters as points, and the second point stays empty. -/
theorem second_forgotten :
    ¬ Run.Along step Served (initial ⟨100, 100, 7⟩ 5 [(⟨100, 100, 7⟩, 30000), (⟨101, 100, 7⟩, 30000)]
      (fun _ => some ⟨100, 100, 7⟩) fun _ => 0) wandered := by
  rintro ⟨-, -, ⟨-, h⟩, -⟩
  exact Bool.false_ne_true (h _ rfl rfl ⟨2, by decide, by decide⟩)

end Spawns
end ForgottenServer
