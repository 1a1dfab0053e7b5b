/-
# The search for a path

`Map::getPathMatching` takes the cheapest open node, tests its cell, goes
through the cells around it and closes it. A step of the search is one round of
its outer loop up to the neighbours, one neighbour, or the closing of a node;
in every state the pool is in order (`step_good`). The search ends (`step_lt`):
a step fills the pool up, makes a node cheaper, closes one or goes on with the
next neighbour. The directions of the path come from the parents of the found
node, backwards (`rebuild_spec`).

Key definitions: `canWalkTo`, `step`, `rebuild`, `getPathMatching`.
Key theorems: `expand_spec`, `step_good`, `step_lt`, `rebuild_spec`, `getPathMatching_sound`.
-/
import Mathlib.Tactic
import ForgottenServer.AStarNodes
import ForgottenServer.WalkCache

namespace ForgottenServer
namespace PathSearch

open AStar
open Spectators (Position)
open WalkCache (Cache maxWalkCacheWidth maxWalkCacheHeight moved moved_toNat)

/-! ### Directions -/

inductive Direction
  | north | east | south | west | southWest | southEast | northWest | northEast
  deriving DecidableEq, Repr

/-- `getNextPosition` -/
def getNextPosition (direction : Direction) (pos : Position) : Position :=
  match direction with
  | .north => { pos with y := pos.y - 1 }
  | .south => { pos with y := pos.y + 1 }
  | .west => { pos with x := pos.x - 1 }
  | .east => { pos with x := pos.x + 1 }
  | .southWest => { pos with x := pos.x - 1, y := pos.y + 1 }
  | .northWest => { pos with x := pos.x - 1, y := pos.y - 1 }
  | .northEast => { pos with x := pos.x + 1, y := pos.y - 1 }
  | .southEast => { pos with x := pos.x + 1, y := pos.y + 1 }

/-- The neighbours of a node whose parent lies in a direction. -/
def dirNeighbors : Direction → List (ℤ × ℤ)
  | .north => [(-1, 0), (0, 1), (1, 0), (1, 1), (-1, 1)]
  | .east => [(-1, 0), (0, 1), (0, -1), (-1, -1), (-1, 1)]
  | .south => [(-1, 0), (1, 0), (0, -1), (-1, -1), (1, -1)]
  | .west => [(0, 1), (1, 0), (0, -1), (1, -1), (1, 1)]
  | .southWest => [(1, 0), (0, -1), (-1, -1), (1, -1), (1, 1)]
  | .southEast => [(-1, 0), (0, -1), (-1, -1), (1, -1), (-1, 1)]
  | .northWest => [(0, 1), (1, 0), (1, -1), (1, 1), (-1, 1)]
  | .northEast => [(-1, 0), (0, 1), (-1, -1), (1, 1), (-1, 1)]

def allNeighbors : List (ℤ × ℤ) :=
  [(-1, 0), (0, 1), (1, 0), (0, -1), (-1, -1), (1, -1), (1, 1), (-1, 1)]

/-- The direction from a node to its parent. -/
def parentDirection (allowDiagonal : Bool) (offset_x offset_y : ℤ) : Direction :=
  if offset_y = 0 then
    if offset_x = -1 then .west else .east
  else if !allowDiagonal || offset_x = 0 then
    if offset_y = -1 then .north else .south
  else if offset_y = -1 then
    if offset_x = -1 then .northWest else .northEast
  else if offset_x = -1 then .southWest
  else .southEast

/-- The neighbours that the search goes through from a node. -/
def neighbors (allowDiagonal : Bool) (a : AStarNodes) (n : ℕ) : List (ℤ × ℤ) :=
  match (a.nodes n).parent with
  | some p =>
    let offset_x : ℤ := (a.nodes p).x.toNat - (a.nodes n).x.toNat
    let offset_y : ℤ := (a.nodes p).y.toNat - (a.nodes n).y.toNat
    (dirNeighbors (parentDirection allowDiagonal offset_x offset_y)).take (if allowDiagonal then 5 else 3)
  | none => allNeighbors

/-! ### Walking -/

/-- `Creature::getWalkCache` -/
def getWalkCache (useCacheMap : Bool) (myPos : Position) (localMapCache : Cache) (pos : Position) : ℤ :=
  if !useCacheMap then 2
  else if myPos.z ≠ pos.z then 0
  else if pos = myPos then 1
  else
    let dx : ℤ := pos.x.toNat - myPos.x.toNat
    let dy : ℤ := pos.y.toNat - myPos.y.toNat
    if |dx| ≤ maxWalkCacheWidth ∧ |dy| ≤ maxWalkCacheHeight then
      if localMapCache (maxWalkCacheHeight + dy).toNat (maxWalkCacheWidth + dx).toNat then 1 else 0
    else 2

/-- The map and the creature that looks for a path. The creature stands on a
tile of the map. -/
structure World (τ γ φ : Type*) where
  getTile : Position → Option τ
  position : Position
  tile : τ
  tile_eq : getTile position = some tile
  useCacheMap : Bool
  localMapCache : Cache
  /-- `queryAdd` returns `RETURNVALUE_NOERROR` -/
  queryAdd : τ → Bool
  getTopVisibleCreature : τ → Option γ
  /-- both are monsters, one can push creatures and the other is pushable -/
  pushes : γ → Bool
  getFieldItem : τ → Option φ
  isImmune : φ → Bool
  hasCondition : φ → Bool

variable {τ γ φ : Type*} [DecidableEq τ]

/-- `Map::canWalkTo` -/
def World.canWalkTo (w : World τ γ φ) (pos : Position) : Option τ :=
  let walkCache := getWalkCache w.useCacheMap w.position w.localMapCache pos
  if walkCache = 0 then none
  else if walkCache = 1 then w.getTile pos
  else
    let tile := w.getTile pos
    if some w.tile ≠ tile then
      match tile with
      | none => none
      | some t => if w.queryAdd t then tile else none
    else tile

omit [DecidableEq τ] in
/-- `AStarNodes::getTileWalkCost` -/
def World.getTileWalkCost (w : World τ γ φ) (tile : τ) : ℤ :=
  let cost := match w.getTopVisibleCreature tile with
    | some blockingCreature => if !w.pushes blockingCreature then MAP_NORMALWALKCOST * 3 else 0
    | none => 0
  match w.getFieldItem tile with
  | some field =>
    if !w.isImmune field && !w.hasCondition field then cost + MAP_NORMALWALKCOST * 18 else cost
  | none => cost

/-- `AStarNodes::getMapWalkCost` -/
def getMapWalkCost (node : AStarNode) (neighborPos : Position) : ℤ :=
  if |(node.x.toNat : ℤ) - neighborPos.x.toNat| = |(node.y.toNat : ℤ) - neighborPos.y.toNat| then
    MAP_DIAGONALWALKCOST
  else MAP_NORMALWALKCOST

/-! ### The search -/

structure FindPathParams where
  fullPathSearch : Bool := true
  clearSight : Bool := true
  allowDiagonal : Bool := true
  keepDistance : Bool := false
  maxSearchDist : ℤ := 0
  minTargetDist : ℤ := -1
  maxTargetDist : ℤ := -1

/-- A condition on the positions of the creature and of a cell, with the best
match so far. A call may change the best match. -/
structure PathCondition where
  call : Position → Position → ℤ → Bool × ℤ
  isInRange : Position → Position → Bool

/-- `FrozenPathingConditionCall::isInRange` -/
def isInRange (targetPos : Position) (fpp : FindPathParams) (startPos testPos : Position) : Bool :=
  let x : ℤ := testPos.x.toNat
  let y : ℤ := testPos.y.toNat
  let target_x : ℤ := targetPos.x.toNat
  let target_y : ℤ := targetPos.y.toNat
  if fpp.fullPathSearch then
    if target_x + fpp.maxTargetDist < x then false
    else if x < target_x - fpp.maxTargetDist then false
    else if target_y + fpp.maxTargetDist < y then false
    else if y < target_y - fpp.maxTargetDist then false
    else true
  else
    let dx : ℤ := startPos.x.toNat - target_x
    let dy : ℤ := startPos.y.toNat - target_y
    if target_x + (if 0 ≤ dx then fpp.maxTargetDist else 0) < x then false
    else if x < target_x - (if dx ≤ 0 then fpp.maxTargetDist else 0) then false
    else if target_y + (if 0 ≤ dy then fpp.maxTargetDist else 0) < y then false
    else if y < target_y - (if dy ≤ 0 then fpp.maxTargetDist else 0) then false
    else true

/-- `FrozenPathingConditionCall`, with the sight between two positions. -/
def FrozenPathingConditionCall (isSightClear : Position → Position → Bool → Bool) (targetPos : Position)
    (fpp : FindPathParams) : PathCondition where
  call startPos testPos bestMatchDist :=
    if !isInRange targetPos fpp startPos testPos then (false, bestMatchDist)
    else if fpp.clearSight && !isSightClear testPos targetPos true then (false, bestMatchDist)
    else
      let testDist : ℤ := max |(targetPos.x.toNat : ℤ) - testPos.x.toNat|
        |(targetPos.y.toNat : ℤ) - testPos.y.toNat|
      if fpp.maxTargetDist = 1 then
        if testDist < fpp.minTargetDist ∨ fpp.maxTargetDist < testDist then (false, bestMatchDist)
        else (true, bestMatchDist)
      else if testDist ≤ fpp.maxTargetDist then
        if testDist < fpp.minTargetDist then (false, bestMatchDist)
        else if testDist = fpp.maxTargetDist then (true, 0)
        else if bestMatchDist < testDist then (true, testDist)
        else (false, bestMatchDist)
      else (false, bestMatchDist)
  isInRange := isInRange targetPos fpp

/-- The variables of the search. -/
structure Search where
  nodes : AStarNodes
  bestMatch : ℤ := 0
  found : Option ℕ := none
  endPos : Position := ⟨0, 0, 0⟩

/-- Where the search is: at the head of its loop, at the neighbours of the node
`n` whose cost was `f`, or behind the loop. -/
inductive State
  | head (s : Search)
  | neighbors (s : Search) (n : ℕ) (f : ℤ) (rest : List (ℤ × ℤ))
  | finished (s : Search)

def State.search : State → Search
  | .head s => s
  | .neighbors s _ _ _ => s
  | .finished s => s

section Steps

variable (w : World τ γ φ) (cond : PathCondition) (fpp : FindPathParams)

omit [DecidableEq τ] in
/-- The cell of a node. -/
def cell (a : AStarNodes) (n : ℕ) : Position := ⟨(a.nodes n).x, (a.nodes n).y, w.position.z⟩

omit [DecidableEq τ] in
/-- A round of the loop, up to the neighbours. -/
def visit (s : Search) (n : ℕ) : State :=
  let pos := cell w s.nodes n
  let r := cond.call w.position pos s.bestMatch
  let s := if r.1 then { s with bestMatch := r.2, found := some n, endPos := pos }
    else { s with bestMatch := r.2 }
  if r.1 ∧ s.bestMatch = 0 then .finished s
  else .neighbors s n (s.nodes.nodes n).f (neighbors fpp.allowDiagonal s.nodes n)

/-- A neighbour. The tile of a node is never null: it is the creature's own, or
`canWalkTo` has returned it. -/
def expand (s : Search) (n : ℕ) (f : ℤ) (d : ℤ × ℤ) (rest : List (ℤ × ℤ)) : State :=
  let startPos := w.position
  let pos : Position := ⟨moved (s.nodes.nodes n).x d.1, moved (s.nodes.nodes n).y d.2, w.position.z⟩
  if fpp.maxSearchDist ≠ 0 ∧ (fpp.maxSearchDist < |(startPos.x.toNat : ℤ) - pos.x.toNat| ∨
      fpp.maxSearchDist < |(startPos.y.toNat : ℤ) - pos.y.toNat|) then .neighbors s n f rest
  else if fpp.keepDistance && !cond.isInRange startPos pos then .neighbors s n f rest
  else
    let neighborNode := s.nodes.getNodeByPosition pos.x pos.y
    match if neighborNode.isSome then w.getTile pos else w.canWalkTo pos with
    | none => .neighbors s n f rest
    | some tile =>
      let newf := f + getMapWalkCost (s.nodes.nodes n) pos + w.getTileWalkCost tile
      match neighborNode with
      | some neighborNode =>
        if (s.nodes.nodes neighborNode).f ≤ newf then .neighbors s n f rest
        else
          .neighbors { s with nodes := (s.nodes.improve neighborNode n newf).openNode neighborNode } n f rest
      | none =>
        match s.nodes.createOpenNode n pos.x pos.y newf with
        | some nodes => .neighbors { s with nodes } n f rest
        | none => if s.found.isSome then .neighbors s n f [] else .finished s

def step : State → State
  | .head s =>
    if fpp.maxSearchDist ≠ 0 ∨ s.nodes.closedNodes < 100 then
      match s.nodes.getBestNode with
      | none => .finished s
      | some n => visit w cond fpp s n
    else .finished s
  | .neighbors s n f (d :: rest) => expand w cond fpp s n f d rest
  | .neighbors s n _ [] => .head { s with nodes := s.nodes.closeNode n }
  | .finished s => .finished s

omit [DecidableEq τ] in
def init : State := .head { nodes := .init w.position.x w.position.y }

/-- The direction of a step that is looked at from its end. -/
def stepBack (dx dy : ℤ) : Option Direction :=
  if dx = 1 ∧ dy = 1 then some .northWest
  else if dx = -1 ∧ dy = 1 then some .northEast
  else if dx = 1 ∧ dy = -1 then some .southWest
  else if dx = -1 ∧ dy = -1 then some .southEast
  else if dx = 1 then some .west
  else if dx = -1 then some .east
  else if dy = 1 then some .north
  else if dy = -1 then some .south
  else none

/-- The loop over the parents at the end. Without fuel it has no answer. -/
def rebuild (a : AStarNodes) : ℕ → Option ℕ → ℤ → ℤ → List Direction → Option (List Direction)
  | _, none, _, _, dirList => some dirList
  | 0, some _, _, _, _ => none
  | fuel + 1, some found, prevx, prevy, dirList =>
    let x : ℤ := (a.nodes found).x.toNat
    let y : ℤ := (a.nodes found).y.toNat
    rebuild a fuel (a.nodes found).parent x y ((stepBack (x - prevx) (y - prevy)).toList ++ dirList)

/-- `Map::getPathMatching`, with fuel for its two loops. -/
def getPathMatching (fuel : ℕ) (dirList : List Direction) : Option (Bool × List Direction) :=
  match (step w cond fpp)^[fuel] (init w) with
  | .finished s =>
    match s.found with
    | none => some (false, dirList)
    | some found =>
      (rebuild s.nodes fuel (s.nodes.nodes found).parent s.endPos.x.toNat s.endPos.y.toNat dirList).map
        (true, ·)
  | _ => none

/-- `Creature::getPathTo` -/
def getPathTo (isSightClear : Position → Position → Bool → Bool) (targetPos : Position) (fuel : ℕ)
    (dirList : List Direction) : Option (Bool × List Direction) :=
  getPathMatching w (FrozenPathingConditionCall isSightClear targetPos fpp) fpp fuel dirList

end Steps

/-! ### Small facts -/

section Facts

variable {w : World τ γ φ} {a : AStarNodes}

theorem getTile_of_canWalkTo {pos : Position} {tile : τ} (h : w.canWalkTo pos = some tile) :
    w.getTile pos = some tile := by
  unfold World.canWalkTo at h
  dsimp only at h
  split_ifs at h with h0 h1 ht
  · exact h
  · cases hg : w.getTile pos with
    | none =>
      rw [hg] at h
      nomatch h
    | some t =>
      rw [hg] at h
      dsimp only at h
      split_ifs at h
      exact h
  · exact h

omit [DecidableEq τ] in
theorem getTileWalkCost_bounds (tile : τ) : 0 ≤ w.getTileWalkCost tile ∧ w.getTileWalkCost tile ≤ 210 := by
  unfold World.getTileWalkCost MAP_NORMALWALKCOST
  dsimp only
  have hcreature : ∀ o : Option γ, 0 ≤ (match o with
        | some blockingCreature => if !w.pushes blockingCreature then 10 * 3 else 0
        | none => 0 : ℤ) ∧ (match o with
        | some blockingCreature => if !w.pushes blockingCreature then 10 * 3 else 0
        | none => 0 : ℤ) ≤ 30 := by
    intro o
    cases o with
    | none =>
      dsimp only
      omega
    | some c =>
      dsimp only
      split_ifs <;> decide
  have hc := hcreature (w.getTopVisibleCreature tile)
  split
  · split <;> omega
  · omega

theorem getMapWalkCost_bounds (node : AStarNode) (pos : Position) :
    10 ≤ getMapWalkCost node pos ∧ getMapWalkCost node pos ≤ 25 := by
  unfold getMapWalkCost MAP_NORMALWALKCOST MAP_DIAGONALWALKCOST
  split_ifs <;> omega

/-- A step of at most one in each direction, and of one in some. -/
def IsStep (d : ℤ × ℤ) : Prop :=
  (-1 ≤ d.1 ∧ d.1 ≤ 1) ∧ (-1 ≤ d.2 ∧ d.2 ≤ 1) ∧ ¬ (d.1 = 0 ∧ d.2 = 0)

instance IsStep.decidable (d : ℤ × ℤ) : Decidable (IsStep d) := inferInstanceAs (Decidable (_ ∧ _ ∧ _))

theorem isStep_neighbors (allowDiagonal : Bool) (a : AStarNodes) (n : ℕ) :
    ∀ d ∈ neighbors allowDiagonal a n, IsStep d := by
  have hdir : ∀ direction, ∀ d ∈ dirNeighbors direction, IsStep d := by
    intro direction
    cases direction <;> decide
  unfold neighbors
  cases (a.nodes n).parent with
  | none => exact (by decide : ∀ d ∈ allNeighbors, IsStep d)
  | some p => exact fun d hd => hdir _ d (List.mem_of_mem_take hd)

theorem length_neighbors_lt (allowDiagonal : Bool) (a : AStarNodes) (n : ℕ) :
    (neighbors allowDiagonal a n).length < 9 := by
  have hdir : ∀ direction, (dirNeighbors direction).length < 9 := by
    intro direction
    cases direction <;> decide
  unfold neighbors
  cases (a.nodes n).parent with
  | none => exact (by decide : allNeighbors.length < 9)
  | some p => exact (List.length_take_le' _ _).trans_lt (hdir _)

/-- More than 512 cells from the border. -/
def Inland (pos : Position) : Prop :=
  (512 < pos.x.toNat ∧ pos.x.toNat + 512 < 0xFFFF) ∧ 512 < pos.y.toNat ∧ pos.y.toNat + 512 < 0xFFFF

omit [DecidableEq τ] in
/-- The coordinates around a node do not wrap. -/
theorem adjacent_moved (h : Sound w.position.x w.position.y a) (hw : Inland w.position) {n : ℕ}
    (hn : n < a.curNode) {d : ℤ × ℤ} (hd : IsStep d) :
    Adjacent (a.nodes n).x (a.nodes n).y (moved (a.nodes n).x d.1) (moved (a.nodes n).y d.2) := by
  have hx := moved_toNat (a.nodes n).x d.1
  have hy := moved_toNat (a.nodes n).y d.2
  have hnear := h.near n hn
  have hle := h.cur_le
  unfold MAX_NODES at hle
  unfold Within at hnear
  unfold IsStep at hd
  unfold Inland at hw
  unfold Adjacent
  omega

theorem not_adjacent_self (x y : UInt16) : ¬ Adjacent x y x y := by
  unfold Adjacent
  omega

end Facts

/-! ### What a neighbour does -/

section Steps

variable {w : World τ γ φ} {cond : PathCondition} {fpp : FindPathParams}

/-- What the search does about a neighbour of `n`: nothing, a node gets cheaper,
a node is made on a cell that can be walked to, or the pool is used up. -/
inductive Expanded (w : World τ γ φ) (s : Search) (n : ℕ) (f : ℤ) (x y : UInt16) (rest : List (ℤ × ℤ)) :
    State → Prop
  | skip : Expanded w s n f x y rest (.neighbors s n f rest)
  | improve {k : ℕ} {cost : ℤ} (hk : s.nodes.nodeTable (tableKey x y) = some k)
      (hc : 10 ≤ cost ∧ cost ≤ 235) (hlt : f + cost < (s.nodes.nodes k).f) :
      Expanded w s n f x y rest
        (.neighbors { s with nodes := (s.nodes.improve k n (f + cost)).openNode k } n f rest)
  | create {a : AStarNodes} {cost : ℤ} (hc : 10 ≤ cost ∧ cost ≤ 235)
      (hwalk : (w.canWalkTo ⟨x, y, w.position.z⟩).isSome = true)
      (ha : s.nodes.createOpenNode n x y (f + cost) = some a) :
      Expanded w s n f x y rest (.neighbors { s with nodes := a } n f rest)
  | stop : s.found.isSome = true → Expanded w s n f x y rest (.neighbors s n f [])
  | fail : s.found = none → Expanded w s n f x y rest (.finished s)

theorem expand_spec (s : Search) (n : ℕ) (f : ℤ) (d : ℤ × ℤ) (rest : List (ℤ × ℤ)) :
    Expanded w s n f (moved (s.nodes.nodes n).x d.1) (moved (s.nodes.nodes n).y d.2) rest
      (expand w cond fpp s n f d rest) := by
  unfold expand
  dsimp only
  split
  · exact .skip
  split
  · exact .skip
  generalize moved (s.nodes.nodes n).x d.1 = x
  generalize moved (s.nodes.nodes n).y d.2 = y
  have hcost : ∀ tile pos, 10 ≤ getMapWalkCost (s.nodes.nodes n) pos + w.getTileWalkCost tile ∧
      getMapWalkCost (s.nodes.nodes n) pos + w.getTileWalkCost tile ≤ 235 := by
    intro tile pos
    have h1 := getMapWalkCost_bounds (s.nodes.nodes n) pos
    have h2 := getTileWalkCost_bounds (w := w) tile
    omega
  cases hk : s.nodes.getNodeByPosition x y with
  | some k =>
    rw [Option.isSome_some, if_pos rfl]
    cases w.getTile ⟨x, y, w.position.z⟩ with
    | none => exact .skip
    | some tile =>
      dsimp only
      split_ifs with hle
      · exact .skip
      · rw [add_assoc] at hle ⊢
        exact .improve hk (hcost tile _) (not_le.1 hle)
  | none =>
    rw [Option.isSome_none, if_neg Bool.false_ne_true]
    cases hwalk : w.canWalkTo ⟨x, y, w.position.z⟩ with
    | none => exact .skip
    | some tile =>
      dsimp only
      rw [add_assoc]
      cases ha : s.nodes.createOpenNode n x y
          (f + (getMapWalkCost (s.nodes.nodes n) ⟨x, y, w.position.z⟩ + w.getTileWalkCost tile)) with
      | some a => exact .create (hcost tile _) (hwalk ▸ rfl) ha
      | none =>
        dsimp only
        split_ifs with hfound
        · exact .stop hfound
        · exact .fail (Option.not_isSome_iff_eq_none.1 hfound)

/-! ### What holds in every state -/

/-- The pool is in order, every node but the start is on a cell that can be
walked to, and the found node is on the last cell. -/
structure Inv (w : World τ γ φ) (s : Search) : Prop where
  sound : Sound w.position.x w.position.y s.nodes
  accepted : ∀ k, 0 < k → k < s.nodes.curNode → (w.canWalkTo (cell w s.nodes k)).isSome = true
  found : ∀ k, s.found = some k → k < s.nodes.curNode ∧ s.endPos = cell w s.nodes k

/-- At the neighbours the node is open, and has the cost that was read. -/
def Good (w : World τ γ φ) : State → Prop
  | .head s => Inv w s
  | .neighbors s n f rest => Inv w s ∧ (n < s.nodes.curNode ∧ s.nodes.openNodes n = true) ∧
      (s.nodes.nodes n).f = f ∧ ∀ d ∈ rest, IsStep d
  | .finished s => Inv w s

theorem Good.inv : ∀ {st : State}, Good w st → Inv w st.search
  | .head _, h => h
  | .neighbors _ _ _ _, h => h.1
  | .finished _, h => h

/-- Changes to the pool that keep it in order and move no node. -/
theorem Inv.update {s : Search} (h : Inv w s) {a : AStarNodes}
    (hs : Sound w.position.x w.position.y a) (hc : s.nodes.curNode ≤ a.curNode)
    (hcell : ∀ k, k < s.nodes.curNode → cell w a k = cell w s.nodes k)
    (hnew : ∀ k, s.nodes.curNode ≤ k → k < a.curNode → (w.canWalkTo (cell w a k)).isSome = true) :
    Inv w { s with nodes := a } where
  sound := hs
  accepted k h0 hk := by
    by_cases hold : k < s.nodes.curNode
    · rw [hcell k hold]
      exact h.accepted k h0 hold
    · exact hnew k (Nat.le_of_not_lt hold) hk
  found k hk := by
    obtain ⟨hlt, he⟩ := h.found k hk
    refine ⟨hlt.trans_le hc, ?_⟩
    rw [hcell k hlt]
    exact he

omit [DecidableEq τ] in
theorem cell_improve (a : AStarNodes) (k n : ℕ) (f : ℤ) (j : ℕ) :
    cell w ((a.improve k n f).openNode k) j = cell w a j := by
  unfold cell
  rw [nodes_openNode]
  by_cases hj : j = k
  · subst hj
    have hself : (a.improve j n f).nodes j = { a.nodes j with f, parent := some n } :=
      Function.update_self ..
    rw [hself]
  · have hother : (a.improve k n f).nodes j = a.nodes j := Function.update_of_ne hj _ _
    rw [hother]

/-- **A neighbour keeps the search in order.** -/
theorem Expanded.good {s : Search} {n : ℕ} {f : ℤ} {x y : UInt16} {rest : List (ℤ × ℤ)} {st : State}
    (he : Expanded w s n f x y rest st) (h : Inv w s) (hn : n < s.nodes.curNode)
    (ho : s.nodes.openNodes n = true) (hf : (s.nodes.nodes n).f = f) (hrest : ∀ d ∈ rest, IsStep d)
    (hadj : Adjacent (s.nodes.nodes n).x (s.nodes.nodes n).y x y) : Good w st := by
  cases he with
  | skip => exact ⟨h, ⟨hn, ho⟩, hf, hrest⟩
  | @improve k cost hk hc hlt =>
    obtain ⟨hkc, rfl, rfl⟩ := h.sound.table x y k hk
    have hne : k ≠ n := by
      rintro rfl
      exact not_adjacent_self _ _ hadj
    have hsound := improve_sound h.sound hkc hn hne hadj (by omega : (s.nodes.nodes n).f < f + cost) hlt
    have hcur : ((s.nodes.improve k n (f + cost)).openNode k).curNode = s.nodes.curNode :=
      curNode_openNode k
    refine ⟨h.update (hsound.congr (nodes_openNode k) (nodeTable_openNode k) (curNode_openNode k)) ?_
      (fun j _ => cell_improve _ _ _ _ j) ?_, ⟨?_, ?_⟩, ?_, hrest⟩
    · exact hcur.ge
    · intro j hj hj'
      rw [hcur] at hj'
      exact absurd hj' (Nat.not_lt_of_le hj)
    · exact hn.trans_eq hcur.symm
    · exact (openNodes_openNode k n).trans ((if_neg hne.symm).trans ho)
    · have hother : (s.nodes.improve k n (f + cost)).nodes n = s.nodes.nodes n :=
        Function.update_of_ne hne.symm _ _
      change (((s.nodes.improve k n (f + cost)).openNode k).nodes n).f = f
      rw [nodes_openNode, hother]
      exact hf
  | @create a cost hc hwalk ha =>
    have hsound := createOpenNode_sound h.sound hn hadj (by omega) (by omega) ha
    obtain ⟨-, rfl⟩ := createOpenNode_eq ha
    have hold : ∀ j, j < s.nodes.curNode →
        Function.update s.nodes.nodes s.nodes.curNode ⟨some n, f + cost, x, y⟩ j = s.nodes.nodes j :=
      fun j hj => Function.update_of_ne hj.ne _ _
    refine ⟨h.update hsound (Nat.le_succ _) ?_ ?_, ⟨Nat.lt_succ_of_lt hn, ?_⟩, ?_, hrest⟩
    · intro j hj
      unfold cell
      dsimp only
      rw [hold j hj]
    · intro j hj hj'
      obtain rfl : j = s.nodes.curNode := Nat.le_antisymm (Nat.le_of_lt_succ hj') hj
      unfold cell
      dsimp only
      rw [Function.update_self]
      exact hwalk
    · exact (Function.update_of_ne hn.ne _ _).trans ho
    · change (Function.update s.nodes.nodes s.nodes.curNode _ n).f = f
      rw [hold n hn]
      exact hf
  | stop hfound => exact ⟨h, ⟨hn, ho⟩, hf, nofun⟩
  | fail hfound => exact h

/-- What a round of the loop does up to the neighbours. -/
theorem visit_good {s : Search} (h : Inv w s) {n : ℕ} (hn : s.nodes.getBestNode = some n) :
    Good w (visit w cond fpp s n) := by
  obtain ⟨hlt, ho⟩ := getBestNode_spec hn
  unfold visit
  dsimp only
  cases hr : (cond.call w.position (cell w s.nodes n) s.bestMatch).1 with
  | false =>
    simp only [Bool.false_eq_true, if_false, false_and]
    exact ⟨⟨h.sound, h.accepted, h.found⟩, ⟨hlt, ho⟩, rfl, isStep_neighbors _ _ n⟩
  | true =>
    have hinv : ∀ bestMatch,
        Inv w { s with bestMatch, found := some n, endPos := cell w s.nodes n } := by
      intro bestMatch
      refine ⟨h.sound, h.accepted, fun k hk => ?_⟩
      obtain rfl := Option.some.inj hk
      exact ⟨hlt, rfl⟩
    simp only [if_true, true_and]
    split
    · exact hinv _
    · exact ⟨hinv _, ⟨hlt, ho⟩, rfl, isStep_neighbors _ _ n⟩

/-- **A step keeps the search in order.** -/
theorem step_good (hw : Inland w.position) {st : State} (h : Good w st) : Good w (step w cond fpp st) := by
  cases st with
  | head s =>
    rw [step]
    split_ifs
    · cases hb : s.nodes.getBestNode with
      | none => exact h
      | some n => exact visit_good h hb
    · exact h
  | neighbors s n f rest =>
    obtain ⟨hinv, ⟨hn, ho⟩, hf, hrest⟩ := h
    cases rest with
    | nil => exact hinv.update (hinv.sound.congr rfl rfl rfl) le_rfl (fun _ _ => rfl) fun k hk hk' =>
        absurd hk' (Nat.not_lt_of_le hk)
    | cons d rest =>
      have hadj := adjacent_moved hinv.sound hw hn (hrest d List.mem_cons_self)
      exact (expand_spec s n f d rest).good hinv hn ho hf (fun d' hd' => hrest d' (List.mem_cons_of_mem d hd'))
        hadj
  | finished s => exact h

theorem init_good (w : World τ γ φ) : Good w (init w) where
  sound := init_sound _ _
  accepted k h0 hk := by
    have hk : k < 1 := hk
    omega
  found k hk := nomatch hk

/-- In every state of the search. -/
theorem good_iterate (cond : PathCondition) (fpp : FindPathParams) (hw : Inland w.position) (i : ℕ) :
    Good w ((step w cond fpp)^[i] (init w)) := by
  induction i with
  | zero => exact init_good w
  | succ i ih =>
    rw [Function.iterate_succ_apply']
    exact step_good hw ih

/-! ### The search ends -/

/-- The phase within a round. -/
def phase : State → ℕ
  | .head _ => 9
  | .neighbors _ _ _ rest => rest.length
  | .finished _ => 0

/-- What a step uses up: a place in the pool, cost, an open node, or a
neighbour that is still to come. -/
def left (st : State) : ℕ ×ₗ ℕ ×ₗ ℕ ×ₗ ℕ :=
  toLex (MAX_NODES - st.search.nodes.curNode, toLex (total st.search.nodes,
    toLex (opened st.search.nodes, phase st)))

theorem left_of_phase {st st' : State} (hn : st'.search.nodes = st.search.nodes)
    (hp : phase st' < phase st) : left st' < left st := by
  unfold left
  rw [hn]
  exact Prod.Lex.toLex_lt_toLex.2 (.inr ⟨rfl, Prod.Lex.toLex_lt_toLex.2 (.inr ⟨rfl,
    Prod.Lex.toLex_lt_toLex.2 (.inr ⟨rfl, hp⟩)⟩)⟩)

theorem left_of_opened {st st' : State} (hc : st'.search.nodes.curNode = st.search.nodes.curNode)
    (ht : total st'.search.nodes = total st.search.nodes)
    (ho : opened st'.search.nodes < opened st.search.nodes) : left st' < left st := by
  unfold left
  rw [hc, ht]
  exact Prod.Lex.toLex_lt_toLex.2 (.inr ⟨rfl, Prod.Lex.toLex_lt_toLex.2 (.inr ⟨rfl,
    Prod.Lex.toLex_lt_toLex.2 (.inl ho)⟩)⟩)

theorem left_of_total {st st' : State} (hc : st'.search.nodes.curNode = st.search.nodes.curNode)
    (ht : total st'.search.nodes < total st.search.nodes) : left st' < left st := by
  unfold left
  rw [hc]
  exact Prod.Lex.toLex_lt_toLex.2 (.inr ⟨rfl, Prod.Lex.toLex_lt_toLex.2 (.inl ht)⟩)

theorem left_of_curNode {st st' : State}
    (hc : MAX_NODES - st'.search.nodes.curNode < MAX_NODES - st.search.nodes.curNode) :
    left st' < left st :=
  Prod.Lex.toLex_lt_toLex.2 (.inl hc)

/-- A neighbour uses something up, or the search ends with it. -/
theorem Expanded.lt {s : Search} {n : ℕ} {f : ℤ} {x y : UInt16} {d : ℤ × ℤ} {rest : List (ℤ × ℤ)}
    {st : State} (he : Expanded w s n f x y rest st) (h : Inv w s) (hf : 0 ≤ f) :
    (∃ s', st = .finished s') ∨ left st < left (.neighbors s n f (d :: rest)) := by
  cases he with
  | skip => exact .inr (left_of_phase rfl (Nat.lt_succ_self _))
  | @improve k cost hk hc hlt =>
    obtain ⟨hkc, -, -⟩ := h.sound.table x y k hk
    refine .inr (left_of_total (curNode_openNode k) ?_)
    change total ((s.nodes.improve k n (f + cost)).openNode k) < total s.nodes
    rw [total_openNode]
    exact total_improve hkc (by omega) hlt
  | @create a cost hc hwalk ha =>
    obtain ⟨hroom, rfl⟩ := createOpenNode_eq ha
    apply Or.inr
    apply left_of_curNode
    change MAX_NODES - (s.nodes.curNode + 1) < MAX_NODES - s.nodes.curNode
    omega
  | stop hfound => exact .inr (left_of_phase rfl (Nat.succ_pos _))
  | fail hfound => exact .inl ⟨s, rfl⟩

omit [DecidableEq τ] in
/-- A round of the loop up to the neighbours does not change the pool. -/
theorem visit_lt (s : Search) (n : ℕ) : left (visit w cond fpp s n) < left (.head s) := by
  have hnodes : (visit w cond fpp s n).search.nodes = s.nodes := by
    unfold visit
    dsimp only
    split_ifs <;> rfl
  have hphase : phase (visit w cond fpp s n) < 9 := by
    unfold visit
    dsimp only
    split_ifs
    all_goals first | exact Nat.succ_pos 8 | exact length_neighbors_lt _ _ n
  exact left_of_phase hnodes hphase

/-- **A step uses something up**, or the search ends with it. -/
theorem step_lt (cond : PathCondition) (fpp : FindPathParams) {st : State} (h : Good w st) :
    (∃ s, step w cond fpp st = .finished s) ∨ left (step w cond fpp st) < left st := by
  cases st with
  | head s =>
    rw [step]
    split_ifs
    · cases hb : s.nodes.getBestNode with
      | none => exact .inl ⟨s, rfl⟩
      | some n => exact .inr (visit_lt s n)
    · exact .inl ⟨s, rfl⟩
  | neighbors s n f rest =>
    obtain ⟨hinv, ⟨hn, ho⟩, hf, -⟩ := h
    cases rest with
    | nil => exact .inr (left_of_opened rfl rfl (opened_closeNode hn ho))
    | cons d rest =>
      exact (expand_spec s n f d rest).lt hinv (hf ▸ (hinv.sound.cost n hn).1)
  | finished s => exact .inl ⟨s, rfl⟩

/-- **The search ends.** -/
theorem finishes (cond : PathCondition) (fpp : FindPathParams) (hw : Inland w.position) {st : State}
    (h : Good w st) : ∃ i s, (step w cond fpp)^[i] st = .finished s := by
  induction hm : left st using WellFoundedLT.induction generalizing st with
  | ind m ih =>
    rcases step_lt cond fpp h with ⟨s, hs⟩ | hlt
    · exact ⟨1, s, hs⟩
    · obtain ⟨i, s, hi⟩ := ih _ (hm ▸ hlt) (step_good hw h) rfl
      exact ⟨i + 1, s, hi⟩

/-! ### The found node -/

/-- The condition was true at the position, in one of the first `j` states. -/
def Tested (w : World τ γ φ) (cond : PathCondition) (fpp : FindPathParams) (j : ℕ) (pos : Position) : Prop :=
  ∃ i < j, ∃ s n, (step w cond fpp)^[i] (init w) = .head s ∧
    (fpp.maxSearchDist ≠ 0 ∨ s.nodes.closedNodes < 100) ∧ s.nodes.getBestNode = some n ∧
    cell w s.nodes n = pos ∧ (cond.call w.position pos s.bestMatch).1 = true

omit [DecidableEq τ] in
theorem visit_found (s : Search) (n : ℕ) :
    ((visit w cond fpp s n).search.found = s.found ∧ (visit w cond fpp s n).search.endPos = s.endPos) ∨
      (cell w s.nodes n = (visit w cond fpp s n).search.endPos ∧
        (cond.call w.position (visit w cond fpp s n).search.endPos s.bestMatch).1 = true) := by
  unfold visit
  dsimp only
  cases hr : (cond.call w.position (cell w s.nodes n) s.bestMatch).1 with
  | false =>
    simp only [Bool.false_eq_true, if_false, false_and]
    exact .inl ⟨rfl, rfl⟩
  | true =>
    simp only [if_true, true_and]
    split_ifs <;> exact .inr ⟨rfl, hr⟩

theorem Expanded.search_found {s : Search} {n : ℕ} {f : ℤ} {x y : UInt16}
    {rest : List (ℤ × ℤ)} {st : State} (he : Expanded w s n f x y rest st) :
    st.search.found = s.found ∧ st.search.endPos = s.endPos := by
  cases he <;> exact ⟨rfl, rfl⟩

/-- A step keeps the found node and its position, or a test was passed. -/
theorem step_found (w : World τ γ φ) (cond : PathCondition) (fpp : FindPathParams) (st : State) :
    ((step w cond fpp st).search.found = st.search.found ∧
        (step w cond fpp st).search.endPos = st.search.endPos) ∨
      ∃ s n, st = .head s ∧ (fpp.maxSearchDist ≠ 0 ∨ s.nodes.closedNodes < 100) ∧
        s.nodes.getBestNode = some n ∧ cell w s.nodes n = (step w cond fpp st).search.endPos ∧
        (cond.call w.position (step w cond fpp st).search.endPos s.bestMatch).1 = true := by
  cases st with
  | head s =>
    by_cases hloop : fpp.maxSearchDist ≠ 0 ∨ s.nodes.closedNodes < 100
    · cases hb : s.nodes.getBestNode with
      | none =>
        rw [step, if_pos hloop, hb]
        exact .inl ⟨rfl, rfl⟩
      | some n =>
        rw [step, if_pos hloop, hb]
        exact (visit_found s n).imp id fun hv => ⟨s, n, rfl, hloop, hb, hv⟩
    · rw [step, if_neg hloop]
      exact .inl ⟨rfl, rfl⟩
  | neighbors s n f rest =>
    apply Or.inl
    cases rest with
    | nil => exact ⟨rfl, rfl⟩
    | cons d rest => exact (expand_spec s n f d rest).search_found
  | finished s => exact .inl ⟨rfl, rfl⟩

/-- The found node was tested. -/
theorem found_tested (w : World τ γ φ) (cond : PathCondition) (fpp : FindPathParams) (j : ℕ)
    (h : ((step w cond fpp)^[j] (init w)).search.found ≠ none) :
    Tested w cond fpp j ((step w cond fpp)^[j] (init w)).search.endPos := by
  induction j with
  | zero => exact absurd rfl h
  | succ j ih =>
    rw [Function.iterate_succ_apply'] at h ⊢
    rcases step_found w cond fpp ((step w cond fpp)^[j] (init w)) with ⟨hf, he⟩ | ⟨s, n, hs, htest⟩
    · rw [hf] at h
      rw [he]
      obtain ⟨i, hi, htest⟩ := ih h
      exact ⟨i, Nat.lt_succ_of_lt hi, htest⟩
    · exact ⟨j, Nat.lt_succ_self j, s, n, hs, htest⟩

end Steps

/-! ### The way back -/

/-- One of the eight cells around another. -/
def EightNeighbour (p q : Position) : Prop := Adjacent p.x p.y q.x q.y ∧ p.z = q.z

/-- The cells on the way, with the first. -/
def visited (pos : Position) (dirList : List Direction) : List Position :=
  dirList.scanl (fun pos direction => getNextPosition direction pos) pos

/-- A way from the creature to a cell: every step leads to one of the eight
cells around, and every cell but the first can be walked to. -/
structure Route (w : World τ γ φ) (dirList : List Direction) (pos : Position) : Prop where
  neighbours : (visited w.position dirList).IsChain EightNeighbour
  accepted : ∀ p ∈ visited w.position dirList, p = w.position ∨ (w.canWalkTo p).isSome = true
  last : (visited w.position dirList).getLast? = some pos

section Route

variable {w : World τ γ φ} {dirList : List Direction} {pos : Position}

theorem Route.start (w : World τ γ φ) : Route w [] w.position where
  neighbours := .singleton _
  accepted _ hp := .inl (List.mem_singleton.1 hp)
  last := rfl

theorem Route.snoc (h : Route w dirList pos) {direction : Direction}
    (hn : EightNeighbour pos (getNextPosition direction pos))
    (hw : (w.canWalkTo (getNextPosition direction pos)).isSome = true) :
    Route w (dirList ++ [direction]) (getNextPosition direction pos) := by
  obtain ⟨hchain, haccepted, hlast⟩ := h
  have hpos : dirList.foldl (fun pos direction => getNextPosition direction pos) w.position = pos :=
    Option.some.inj (List.getLast?_scanl.symm.trans hlast)
  have hvisited : visited w.position (dirList ++ [direction]) =
      visited w.position dirList ++ [getNextPosition direction pos] := by
    unfold visited
    rw [List.scanl_append, List.scanl_singleton, hpos]
    rfl
  constructor
  · rw [hvisited, List.isChain_append]
    refine ⟨hchain, .singleton _, fun p hp q hq => ?_⟩
    obtain rfl := Option.some.inj (hlast.symm.trans hp)
    obtain rfl := Option.some.inj hq
    exact hn
  · intro p hp
    rw [hvisited] at hp
    rcases List.mem_append.1 hp with hp | hp
    · exact haccepted p hp
    · obtain rfl := List.mem_singleton.1 hp
      exact .inr hw
  · rw [hvisited]
    exact List.getLast?_concat

theorem sub_one_eq {x y : UInt16} (h : (x.toNat : ℤ) - y.toNat = 1) : x - 1 = y := by
  have hx := x.toNat_lt
  have hy := y.toNat_lt
  apply UInt16.toNat_inj.1
  rw [UInt16.toNat_sub, UInt16.toNat_one]
  omega

theorem add_one_eq {x y : UInt16} (h : (x.toNat : ℤ) - y.toNat = -1) : x + 1 = y := by
  have hx := x.toNat_lt
  have hy := y.toNat_lt
  apply UInt16.toNat_inj.1
  rw [UInt16.toNat_add, UInt16.toNat_one]
  omega

theorem eq_of_sub_eq_zero {x y : UInt16} (h : (x.toNat : ℤ) - y.toNat = 0) : x = y :=
  UInt16.toNat_inj.1 (by omega)

/-- The direction that is found from a cell and the one before it leads there. -/
theorem stepBack_spec {x y x' y' : UInt16} (h : Adjacent x y x' y') (z : UInt8) :
    ∃ direction, stepBack ((x.toNat : ℤ) - x'.toNat) ((y.toNat : ℤ) - y'.toNat) = some direction ∧
      getNextPosition direction ⟨x, y, z⟩ = ⟨x', y', z⟩ := by
  unfold Adjacent at h
  have hx : (x.toNat : ℤ) - x'.toNat = -1 ∨ (x.toNat : ℤ) - x'.toNat = 0 ∨
      (x.toNat : ℤ) - x'.toNat = 1 := by omega
  have hy : (y.toNat : ℤ) - y'.toNat = -1 ∨ (y.toNat : ℤ) - y'.toNat = 0 ∨
      (y.toNat : ℤ) - y'.toNat = 1 := by omega
  rcases hx with hx | hx | hx <;> rcases hy with hy | hy | hy <;> rw [hx, hy]
  · exact ⟨.southEast, rfl, by rw [getNextPosition, add_one_eq hx, add_one_eq hy]⟩
  · exact ⟨.east, rfl, by rw [getNextPosition, add_one_eq hx, eq_of_sub_eq_zero hy]⟩
  · exact ⟨.northEast, rfl, by rw [getNextPosition, add_one_eq hx, sub_one_eq hy]⟩
  · exact ⟨.south, rfl, by rw [getNextPosition, eq_of_sub_eq_zero hx, add_one_eq hy]⟩
  · omega
  · exact ⟨.north, rfl, by rw [getNextPosition, eq_of_sub_eq_zero hx, sub_one_eq hy]⟩
  · exact ⟨.southWest, rfl, by rw [getNextPosition, sub_one_eq hx, add_one_eq hy]⟩
  · exact ⟨.west, rfl, by rw [getNextPosition, sub_one_eq hx, eq_of_sub_eq_zero hy]⟩
  · exact ⟨.northWest, rfl, by rw [getNextPosition, sub_one_eq hx, sub_one_eq hy]⟩

/-- With enough fuel the loop over the parents gives a way to the node. -/
def Rebuilds (w : World τ γ φ) (a : AStarNodes) (k : ℕ) : Prop :=
  ∃ N path, Route w path (cell w a k) ∧ ∀ fuel, N ≤ fuel → ∀ dirList,
    rebuild a fuel (a.nodes k).parent (a.nodes k).x.toNat (a.nodes k).y.toNat dirList =
      some (path ++ dirList)

/-- **The loop over the parents ends at the start.** -/
theorem rebuild_spec {s : Search} (h : Inv w s) {k : ℕ} (hk : k < s.nodes.curNode) :
    Rebuilds w s.nodes k := by
  refine h.sound.cheaper.induction (P := Rebuilds w s.nodes) ?_ ?_ hk
  · -- the start has no parent
    have hcell : cell w s.nodes 0 = w.position := by
      unfold cell
      rw [h.sound.start]
    refine ⟨0, [], hcell ▸ Route.start w, fun fuel _ dirList => ?_⟩
    rw [h.sound.start, rebuild, List.nil_append]
  · intro k p hk h0 hp _ ih
    obtain ⟨N, path, hroute, hrebuild⟩ := ih
    obtain ⟨p', hp', -, -, hadj⟩ := h.sound.parent k (Nat.pos_of_ne_zero h0) hk
    obtain rfl := Option.some.inj (hp'.symm.trans hp)
    obtain ⟨direction, hback, hnext⟩ := stepBack_spec hadj w.position.z
    have hnext : getNextPosition direction (cell w s.nodes p') = cell w s.nodes k := hnext
    have hsnoc := hroute.snoc (hnext ▸ ⟨hadj, rfl⟩) (hnext ▸ h.accepted k (Nat.pos_of_ne_zero h0) hk)
    rw [hnext] at hsnoc
    refine ⟨N + 1, path ++ [direction], hsnoc, fun fuel hfuel dirList => ?_⟩
    obtain ⟨fuel, rfl⟩ : ∃ fuel', fuel = fuel' + 1 := ⟨fuel - 1, by omega⟩
    rw [hp, rebuild, hback, hrebuild fuel (Nat.le_of_succ_le_succ hfuel), List.append_assoc]
    rfl

/-! ### The search -/

/-- **The search for a path ends and is sound.** In every state the parents
come back to no node and lead to the start. With enough fuel there is an
answer. When it is true, the directions in front are a way to a cell where the
condition was true; when it is false, there are none. -/
theorem getPathMatching_sound (w : World τ γ φ) (cond : PathCondition) (fpp : FindPathParams)
    (hw : Inland w.position) :
    (∀ i k, k < ((step w cond fpp)^[i] (init w)).search.nodes.curNode →
      ¬ Relation.TransGen (Ancestry.Parent fun k =>
          (((step w cond fpp)^[i] (init w)).search.nodes.nodes k).parent) k k ∧
        Relation.ReflTransGen (Ancestry.Parent fun k =>
          (((step w cond fpp)^[i] (init w)).search.nodes.nodes k).parent) k 0) ∧
    ∃ N ok path, (∀ fuel, N ≤ fuel → ∀ dirList,
        getPathMatching w cond fpp fuel dirList = some (ok, path ++ dirList)) ∧
      (ok = false → path = []) ∧
      (ok = true → ∃ pos, Route w path pos ∧ Tested w cond fpp N pos) := by
  constructor
  · intro i k hk
    have hcheaper := (good_iterate cond fpp hw i).inv.sound.cheaper
    exact ⟨hcheaper.acyclic hk, hcheaper.leads hk⟩
  · obtain ⟨i, s, hi⟩ := finishes cond fpp hw (init_good w)
    have hfinished : ∀ fuel, i ≤ fuel → (step w cond fpp)^[fuel] (init w) = .finished s := by
      intro fuel hfuel
      obtain ⟨j, rfl⟩ := Nat.exists_eq_add_of_le' hfuel
      rw [Function.iterate_add_apply, hi]
      exact Function.iterate_fixed rfl j
    have hinv : Inv w s := by
      have hgood := good_iterate cond fpp hw i
      rw [hi] at hgood
      exact hgood
    cases hfound : s.found with
    | none =>
      refine ⟨i, false, [], fun fuel hfuel dirList => ?_, fun _ => rfl, nofun⟩
      unfold getPathMatching
      rw [hfinished fuel hfuel]
      dsimp only
      rw [hfound]
      rfl
    | some k =>
      obtain ⟨hk, hend⟩ := hinv.found k hfound
      obtain ⟨N, path, hroute, hrebuild⟩ := rebuild_spec hinv hk
      refine ⟨max i N, true, path, fun fuel hfuel dirList => ?_, nofun, fun _ => ?_⟩
      · unfold getPathMatching
        rw [hfinished fuel ((le_max_left i N).trans hfuel)]
        dsimp only
        rw [hfound, hend]
        dsimp only
        have hpath := hrebuild fuel ((le_max_right i N).trans hfuel) dirList
        unfold cell
        rw [hpath]
        rfl
      · refine ⟨_, hroute, ?_⟩
        have htested := found_tested w cond fpp (max i N)
        rw [hfinished _ (le_max_left i N)] at htested
        rw [← hend]
        exact htested (hfound ▸ Option.some_ne_none k)

/-- Tiles everywhere, with nothing on them. -/
def meadow : World Unit Unit Unit where
  getTile _ := some ()
  position := ⟨1000, 1000, 7⟩
  tile := ()
  tile_eq := rfl
  useCacheMap := false
  localMapCache _ _ := false
  queryAdd _ := true
  getTopVisibleCreature _ := none
  pushes _ := false
  getFieldItem _ := none
  isImmune _ := false
  hasCondition _ := false

def beside : FindPathParams := { minTargetDist := 1, maxTargetDist := 1 }

/-- The way to a target two cells to the west leads to the cell beside it. -/
theorem getPathMatching_meadow :
    getPathTo meadow beside (fun _ _ _ => true) ⟨998, 1000, 7⟩ 12 [] = some (true, [.west]) ∧
      ∃ N ok path, (∀ fuel, N ≤ fuel → ∀ dirList,
          getPathTo meadow beside (fun _ _ _ => true) ⟨998, 1000, 7⟩ fuel dirList =
            some (ok, path ++ dirList)) ∧
        (ok = false → path = []) ∧
        (ok = true → ∃ pos, Route meadow path pos ∧
          Tested meadow (FrozenPathingConditionCall (fun _ _ _ => true) ⟨998, 1000, 7⟩ beside) beside N
            pos) := by
  constructor
  · decide +kernel
  · have hw : Inland meadow.position := ⟨by decide, by decide⟩
    exact (getPathMatching_sound meadow
      (FrozenPathingConditionCall (fun _ _ _ => true) ⟨998, 1000, 7⟩ beside) beside hw).2

end Route

end PathSearch
end ForgottenServer
