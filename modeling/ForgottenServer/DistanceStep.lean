/-
# Keeping the distance

`Monster::getDistanceStep` takes a monster that is nearer to its target than it wants to be a
step away. Where the target stands on a diagonal or rather to one side, eight blocks try the
cells around the monster in an order of their own. They are copies of two: one for the
diagonals (`diagonalStep`) and one for the sides (`straightStep`).

Whatever the cells around allow, the step goes to a cell the monster can walk to and no
nearer to the target, but for the last resort of a fleeing monster, towards it, when none of
the five cells on the other sides is free.

What `canWalkTo` asks of the map and the spawn is arbitrary, and so are the coin and the
order of directions that are drawn.

Key definitions: `diagonalStep`, `straightStep`, `getDistanceStep`, `LastResort`.
Key theorems: `diagonalStep_cases`, `straightStep_cases`, `getDistanceStep_keeps`.
-/
import ForgottenServer.PathSearch
import ForgottenServer.SightLine

namespace ForgottenServer
namespace DistanceStep

open Spectators (Position)
open PathSearch (Direction getNextPosition)

/-! ### The code -/

/-- What a monster sees of the world: the map, its spawn, its walk cache, and the tiles that
take it with `FLAG_PATHFINDING`. -/
structure World where
  map : Sight.Map
  isInSpawnRange : Position → Bool
  getWalkCache : Position → ℤ
  queryAdd : Sight.Tile → Bool

/-- `Monster::canWalkTo` -/
def canWalkTo (w : World) (pos : Position) (dir : Direction) : Bool :=
  let pos := getNextPosition dir pos
  if w.isInSpawnRange pos then
    if w.getWalkCache pos = 0 then false
    else (w.map.getTile pos).any w.queryAdd
  else false

/-- `Monster::getRandomStep`, with the directions as they have been shuffled. -/
def getRandomStep (can : Direction → Bool) (dirList : List Direction) (dir : Direction) :
    Bool × Direction :=
  match dirList.find? can with
  | some d => (true, d)
  | none => (false, dir)

section Blocks

-- the cells that can be walked to, `boolean_random()` and `flee`
variable (can : Direction → Bool) (coin flee : Bool)

/-- The block of a diagonal: away from the target along both axes or one of them, then, in
flight, along the axes on the other side, then there when a corner is free as well. -/
def diagonalStep (first second diagonal back1 back2 side1 corner1 side2 corner2 dir : Direction) :
    Direction :=
  if can first ∧ can second then if coin then first else second
  else if can first then first
  else if can second then second
  else if can diagonal then diagonal
  else if flee ∧ can back1 ∧ can back2 then if coin then back1 else back2
  else if flee ∧ can back1 then back1
  else if flee ∧ can back2 then back2
  else if can side1 ∧ can corner1 then side1
  else if can side2 ∧ can corner2 then side2
  else dir

/-- The target is north-west. -/
def playerNorthWest : Direction → Direction :=
  diagonalStep can coin flee .south .east .southEast .north .west .west .southWest .north .northEast

def playerSouthEast : Direction → Direction :=
  diagonalStep can coin flee .west .north .northWest .south .east .south .southWest .east .northEast

def playerSouthWest : Direction → Direction :=
  diagonalStep can coin flee .north .east .northEast .south .west .west .northWest .south .southEast

def playerNorthEast : Direction → Direction :=
  diagonalStep can coin flee .west .south .southWest .north .east .east .southEast .north .northWest

/-- The block of a side: away from the target, then to the sides, the farther one first, then
to the corners away from it, and in flight at last towards it. -/
def straightStep (away side1 side2 : Direction) (offset : ℤ)
    (corner1 corner2 sideA cornerA sideB cornerB toward dir : Direction) : Direction :=
  if can away then away
  else if can side1 ∧ can side2 ∧ offset = 0 then if coin then side1 else side2
  else if can side1 ∧ offset ≤ 0 then side1
  else if can side2 ∧ 0 ≤ offset then side2
  else if flee ∧ can side1 ∧ can side2 then if coin then side1 else side2
  else if flee ∧ can side1 then side1
  else if flee ∧ can side2 then side2
  else if can corner1 ∨ can corner2 then
    if can corner1 ∧ can corner2 then if coin then corner1 else corner2
    else if can sideA then sideA
    else if can cornerA then cornerA
    else if can sideB then sideB
    else if can cornerB then cornerB
    else dir
  else if flee ∧ can toward then toward
  else dir

/-- The target is north. -/
def playerNorth (offsetx : ℤ) : Direction → Direction :=
  straightStep can coin flee .south .west .east offsetx .southWest .southEast
    .west .southWest .east .southEast .north

def playerSouth (offsetx : ℤ) : Direction → Direction :=
  straightStep can coin flee .north .west .east offsetx .northWest .northEast
    .west .northWest .east .northEast .south

def playerWest (offsety : ℤ) : Direction → Direction :=
  straightStep can coin flee .east .north .south offsety .southEast .northEast
    .south .southEast .north .northEast .west

def playerEast (offsety : ℤ) : Direction → Direction :=
  straightStep can coin flee .west .north .south offsety .northWest .southWest
    .north .northWest .south .southWest .east

/-- The blocks by where the target is. -/
def escape (offsetx offsety : ℤ) (dir : Direction) : Direction :=
  if |offsetx| = |offsety| ∧ 1 ≤ offsetx ∧ 1 ≤ offsety then playerNorthWest can coin flee dir
  else if |offsetx| = |offsety| ∧ offsetx ≤ -1 ∧ offsety ≤ -1 then playerSouthEast can coin flee dir
  else if |offsetx| = |offsety| ∧ 1 ≤ offsetx ∧ offsety ≤ -1 then playerSouthWest can coin flee dir
  else if |offsetx| = |offsety| ∧ offsetx ≤ -1 ∧ 1 ≤ offsety then playerNorthEast can coin flee dir
  else if |offsetx| < |offsety| then
    if offsety < 0 then playerSouth can coin flee offsetx dir else playerNorth can coin flee offsetx dir
  else if offsetx < 0 then playerEast can coin flee offsety dir
  else playerWest can coin flee offsety dir

end Blocks

/-- What `getDistanceStep` returns, with `dir` and `stepDuration` afterwards. -/
structure Outcome where
  result : Bool
  dir : Direction
  stepDuration : ℤ
  deriving DecidableEq

def offsetX (pos pos' : Position) : ℤ := pos.x.toNat - pos'.x.toNat

def offsetY (pos pos' : Position) : ℤ := pos.y.toNat - pos'.y.toNat

/-- `std::max` of the distances in x and y -/
def distance (pos pos' : Position) : ℤ := max |offsetX pos pos'| |offsetY pos pos'|

/-- `Monster::getDistanceStep` -/
def getDistanceStep (w : World) (targetDistance : ℤ) (creaturePos targetPos : Position) (coin : Bool)
    (dirList : List Direction) (stepDuration : ℤ) (dir : Direction) (flee : Bool) : Outcome :=
  let dx := |offsetX creaturePos targetPos|
  let dy := |offsetY creaturePos targetPos|
  let distance := max dx dy
  if !flee ∧ (targetDistance < distance ∨ !Sight.isSightClear w.map creaturePos targetPos true) then
    ⟨false, dir, stepDuration⟩
  else if !flee ∧ distance = targetDistance then ⟨true, dir, stepDuration⟩
  else
    let offsetx := offsetX creaturePos targetPos
    let offsety := offsetY creaturePos targetPos
    let stepDuration :=
      if dx ≤ 1 ∧ dy ≤ 1 then if stepDuration < 2 then stepDuration + 1 else stepDuration
      else if 0 < stepDuration then stepDuration - 1
      else stepDuration
    if offsetx = 0 ∧ offsety = 0 then
      let (result, dir) := getRandomStep (canWalkTo w creaturePos) dirList dir
      ⟨result, dir, stepDuration⟩
    else ⟨true, escape (canWalkTo w creaturePos) coin flee offsetx offsety dir, stepDuration⟩

/-! ### The blocks -/

section Cases

variable {can : Direction → Bool} {coin flee : Bool}

theorem diagonalStep_elim {P : Direction → Prop}
    {first second diagonal back1 back2 side1 corner1 side2 corner2 dir : Direction} (hdir : P dir)
    (hcan : ∀ d ∈ [first, second, diagonal, back1, back2, side1, side2], can d = true → P d) :
    P (diagonalStep can coin flee first second diagonal back1 back2 side1 corner1 side2 corner2 dir) := by
  unfold diagonalStep
  have hboth {a b : Direction} (ha : P a) (hb : P b) : P (if coin then a else b) :=
    iteInduction (fun _ => ha) fun _ => hb
  refine iteInduction (fun h => hboth (hcan _ (by simp) h.1) (hcan _ (by simp) h.2)) fun _ => ?_
  refine iteInduction (fun h => hcan _ (by simp) h) fun _ => ?_
  refine iteInduction (fun h => hcan _ (by simp) h) fun _ => ?_
  refine iteInduction (fun h => hcan _ (by simp) h) fun _ => ?_
  refine iteInduction (fun h => hboth (hcan _ (by simp) h.2.1) (hcan _ (by simp) h.2.2)) fun _ => ?_
  refine iteInduction (fun h => hcan _ (by simp) h.2) fun _ => ?_
  refine iteInduction (fun h => hcan _ (by simp) h.2) fun _ => ?_
  refine iteInduction (fun h => hcan _ (by simp) h.1) fun _ => ?_
  exact iteInduction (fun h => hcan _ (by simp) h.1) fun _ => hdir

/-- The last resort is the only step towards the target. -/
theorem straightStep_elim {P : Direction → Prop} {away side1 side2 : Direction} {offset : ℤ}
    {corner1 corner2 sideA cornerA sideB cornerB toward dir : Direction} (hdir : P dir)
    (hcan : ∀ d ∈ [away, side1, side2, corner1, corner2, sideA, cornerA, sideB, cornerB],
      can d = true → P d)
    (hlast : flee = true → can toward = true →
      (∀ d ∈ [away, side1, side2, corner1, corner2], can d = false) → P toward) :
    P (straightStep can coin flee away side1 side2 offset corner1 corner2 sideA cornerA sideB cornerB
      toward dir) := by
  unfold straightStep
  have hboth {a b : Direction} (ha : P a) (hb : P b) : P (if coin then a else b) :=
    iteInduction (fun _ => ha) fun _ => hb
  refine iteInduction (fun h => hcan _ (by simp) h) fun haway => ?_
  refine iteInduction (fun h => hboth (hcan _ (by simp) h.1) (hcan _ (by simp) h.2.1)) fun _ => ?_
  refine iteInduction (fun h => hcan _ (by simp) h.1) fun _ => ?_
  refine iteInduction (fun h => hcan _ (by simp) h.1) fun _ => ?_
  refine iteInduction (fun h => hboth (hcan _ (by simp) h.2.1) (hcan _ (by simp) h.2.2)) fun _ => ?_
  refine iteInduction (fun h => hcan _ (by simp) h.2) fun hside1 => ?_
  refine iteInduction (fun h => hcan _ (by simp) h.2) fun hside2 => ?_
  refine iteInduction (fun _ => ?_) fun hcorners => ?_
  · refine iteInduction (fun h => hboth (hcan _ (by simp) h.1) (hcan _ (by simp) h.2)) fun _ => ?_
    refine iteInduction (fun h => hcan _ (by simp) h) fun _ => ?_
    refine iteInduction (fun h => hcan _ (by simp) h) fun _ => ?_
    refine iteInduction (fun h => hcan _ (by simp) h) fun _ => ?_
    exact iteInduction (fun h => hcan _ (by simp) h) fun _ => hdir
  · refine iteInduction (fun h => hlast h.1 h.2 fun d hd => ?_) fun _ => hdir
    -- in flight the sides have been tried without a look at the offset
    rw [not_or, Bool.not_eq_true, Bool.not_eq_true] at hcorners
    rw [not_and, Bool.not_eq_true] at hside1 hside2
    simp only [List.mem_cons, List.not_mem_nil, or_false] at hd
    rcases hd with rfl | rfl | rfl | rfl | rfl
    · exact Bool.eq_false_iff.2 haway
    · exact hside1 h.1
    · exact hside2 h.1
    · exact hcorners.1
    · exact hcorners.2

end Cases

/-! ### Distances -/

section Distances

/-- What a step adds to x and y. -/
def deltaX : Direction → ℤ
  | .north | .south => 0
  | .east | .northEast | .southEast => 1
  | .west | .northWest | .southWest => -1

def deltaY : Direction → ℤ
  | .east | .west => 0
  | .south | .southEast | .southWest => 1
  | .north | .northEast | .northWest => -1

/-- A position with all its neighbours. -/
structure Inside (pos : Position) : Prop where
  left : 0 < pos.x.toNat
  right : pos.x.toNat < 65535
  top : 0 < pos.y.toNat
  bottom : pos.y.toNat < 65535

variable {pos target : Position} {d : Direction}

theorem toNat_succ {c : UInt16} (h : c.toNat < 65535) : ((c + 1).toNat : ℤ) = c.toNat + 1 := by
  rw [UInt16.toNat_add]
  show (((c.toNat + 1) % 2 ^ 16 : ℕ) : ℤ) = _
  omega

theorem toNat_pred {c : UInt16} (h : 0 < c.toNat) : ((c - 1).toNat : ℤ) = c.toNat - 1 := by
  have hlt := c.toNat_lt
  rw [UInt16.toNat_sub]
  show (((2 ^ 16 - 1 + c.toNat) % 2 ^ 16 : ℕ) : ℤ) = _
  omega

theorem offsetX_next (h : Inside pos) (d : Direction) (target : Position) :
    offsetX (getNextPosition d pos) target = offsetX pos target + deltaX d := by
  have hs := toNat_succ h.right
  have hp := toNat_pred h.left
  unfold offsetX deltaX getNextPosition
  cases d <;> dsimp only <;> omega

theorem offsetY_next (h : Inside pos) (d : Direction) (target : Position) :
    offsetY (getNextPosition d pos) target = offsetY pos target + deltaY d := by
  have hs := toNat_succ h.bottom
  have hp := toNat_pred h.top
  unfold offsetY deltaY getNextPosition
  cases d <;> dsimp only <;> omega

/-- A step does not go towards the target along x. -/
def KeepsX (offsetx : ℤ) (d : Direction) : Prop :=
  (0 ≤ offsetx ∧ 0 ≤ deltaX d) ∨ (offsetx ≤ 0 ∧ deltaX d ≤ 0)

def KeepsY (offsety : ℤ) (d : Direction) : Prop :=
  (0 ≤ offsety ∧ 0 ≤ deltaY d) ∨ (offsety ≤ 0 ∧ deltaY d ≤ 0)

/-- Not towards the target along the longer axis is no nearer. -/
theorem distance_le_of_keepsX (h : Inside pos) (hk : KeepsX (offsetX pos target) d)
    (hle : |offsetY pos target| ≤ |offsetX pos target|) :
    distance pos target ≤ distance (getNextPosition d pos) target := by
  unfold distance
  rw [offsetX_next h, offsetY_next h, max_eq_left hle]
  apply le_max_of_le_left
  unfold KeepsX at hk
  rw [Int.abs_eq_natAbs, Int.abs_eq_natAbs]
  omega

theorem distance_le_of_keepsY (h : Inside pos) (hk : KeepsY (offsetY pos target) d)
    (hle : |offsetX pos target| ≤ |offsetY pos target|) :
    distance pos target ≤ distance (getNextPosition d pos) target := by
  unfold distance
  rw [offsetX_next h, offsetY_next h, max_eq_right hle]
  apply le_max_of_le_right
  unfold KeepsY at hk
  rw [Int.abs_eq_natAbs, Int.abs_eq_natAbs]
  omega

end Distances

/-! ### The step -/

section Step

/-- The five cells around a monster that are not on this side. -/
def otherSides : Direction → List Direction
  | .north => [.south, .west, .east, .southWest, .southEast]
  | .south => [.north, .west, .east, .northWest, .northEast]
  | .west => [.east, .north, .south, .southEast, .northEast]
  | .east => [.west, .north, .south, .northWest, .southWest]
  | _ => []

/-- A fleeing monster goes straight towards the target: the cells on the other sides have
been tried. -/
def LastResort (can : Direction → Bool) (flee : Bool) (d : Direction) : Prop :=
  flee = true ∧ d ∈ [Direction.north, .south, .west, .east] ∧ ∀ d' ∈ otherSides d, can d' = false

/-- A step from `pos` that is allowed and no nearer to the target, or the last resort. -/
def Keeps (can : Direction → Bool) (flee : Bool) (pos target : Position) (d : Direction) : Prop :=
  can d = true ∧
    (distance pos target ≤ distance (getNextPosition d pos) target ∨ LastResort can flee d)

variable {can : Direction → Bool} {coin flee : Bool} {pos target : Position} {dir : Direction}

/-- The blocks of the diagonals. -/
theorem diagonalStep_keeps {first second diagonal back1 back2 side1 corner1 side2 corner2 : Direction}
    (hpos : Inside pos) (heq : |offsetX pos target| = |offsetY pos target|)
    (hk : ∀ d ∈ [first, second, diagonal, back1, back2, side1, side2],
      KeepsX (offsetX pos target) d ∨ KeepsY (offsetY pos target) d) :
    let d := diagonalStep can coin flee first second diagonal back1 back2 side1 corner1 side2 corner2 dir
    d = dir ∨ Keeps can flee pos target d := by
  refine diagonalStep_elim (P := fun d => d = dir ∨ Keeps can flee pos target d) (.inl rfl)
    fun d hd hcan => .inr ⟨hcan, .inl ?_⟩
  rcases hk d hd with h | h
  · exact distance_le_of_keepsX hpos h heq.ge
  · exact distance_le_of_keepsY hpos h heq.le

/-- The blocks of the sides, along x or y. -/
theorem straightStep_keeps {away side1 side2 : Direction} {offset : ℤ}
    {corner1 corner2 sideA cornerA sideB cornerB toward : Direction} (hpos : Inside pos)
    (hk : (|offsetY pos target| ≤ |offsetX pos target| ∧
        ∀ d ∈ [away, side1, side2, corner1, corner2, sideA, cornerA, sideB, cornerB],
          KeepsX (offsetX pos target) d) ∨
      (|offsetX pos target| ≤ |offsetY pos target| ∧
        ∀ d ∈ [away, side1, side2, corner1, corner2, sideA, cornerA, sideB, cornerB],
          KeepsY (offsetY pos target) d))
    (htoward : toward ∈ [Direction.north, .south, .west, .east])
    (hother : otherSides toward = [away, side1, side2, corner1, corner2]) :
    let d := straightStep can coin flee away side1 side2 offset corner1 corner2 sideA cornerA sideB cornerB
      toward dir
    d = dir ∨ Keeps can flee pos target d := by
  refine straightStep_elim (P := fun d => d = dir ∨ Keeps can flee pos target d) (.inl rfl)
    (fun d hd hcan => .inr ⟨hcan, .inl ?_⟩)
    fun hflee hcan hall => .inr ⟨hcan, .inr ⟨hflee, htoward, hother ▸ hall⟩⟩
  rcases hk with ⟨hle, hk⟩ | ⟨hle, hk⟩
  · exact distance_le_of_keepsX hpos (hk d hd) hle
  · exact distance_le_of_keepsY hpos (hk d hd) hle

/-- All eight blocks. -/
theorem escape_keeps (hpos : Inside pos) :
    let d := escape can coin flee (offsetX pos target) (offsetY pos target) dir
    d = dir ∨ Keeps can flee pos target d := by
  unfold escape
  split_ifs with h1 h2 h3 h4 h5 h6 h6
  · refine diagonalStep_keeps hpos h1.1 fun d hd => ?_
    exact ((by decide : ∀ d ∈ _, 0 ≤ deltaX d ∨ 0 ≤ deltaY d) d hd).imp (fun h => .inl ⟨by omega, h⟩)
      fun h => .inl ⟨by omega, h⟩
  · refine diagonalStep_keeps hpos h2.1 fun d hd => ?_
    exact ((by decide : ∀ d ∈ _, deltaX d ≤ 0 ∨ deltaY d ≤ 0) d hd).imp (fun h => .inr ⟨by omega, h⟩)
      fun h => .inr ⟨by omega, h⟩
  · refine diagonalStep_keeps hpos h3.1 fun d hd => ?_
    exact ((by decide : ∀ d ∈ _, 0 ≤ deltaX d ∨ deltaY d ≤ 0) d hd).imp (fun h => .inl ⟨by omega, h⟩)
      fun h => .inr ⟨by omega, h⟩
  · refine diagonalStep_keeps hpos h4.1 fun d hd => ?_
    exact ((by decide : ∀ d ∈ _, deltaX d ≤ 0 ∨ 0 ≤ deltaY d) d hd).imp (fun h => .inr ⟨by omega, h⟩)
      fun h => .inl ⟨by omega, h⟩
  · refine straightStep_keeps hpos (.inr ⟨h5.le, fun d hd => ?_⟩) (by decide) rfl
    exact .inr ⟨by omega, (by decide : ∀ d ∈ _, deltaY d ≤ 0) d hd⟩
  · refine straightStep_keeps hpos (.inr ⟨h5.le, fun d hd => ?_⟩) (by decide) rfl
    exact .inl ⟨by omega, (by decide : ∀ d ∈ _, 0 ≤ deltaY d) d hd⟩
  · refine straightStep_keeps hpos (.inl ⟨not_lt.1 h5, fun d hd => ?_⟩) (by decide) rfl
    exact .inr ⟨by omega, (by decide : ∀ d ∈ _, deltaX d ≤ 0) d hd⟩
  · refine straightStep_keeps hpos (.inl ⟨not_lt.1 h5, fun d hd => ?_⟩) (by decide) rfl
    exact .inl ⟨by omega, (by decide : ∀ d ∈ _, 0 ≤ deltaX d) d hd⟩

/-- **The distance is kept.** A step that is found is the old direction or one that can be
walked and is no nearer to the target, but for the last resort of a fleeing monster; where
none is found the direction is left as it was, and so it is in `getRandomStep`. -/
theorem getDistanceStep_keeps (w : World) (targetDistance : ℤ) (pos target : Position) (hpos : Inside pos)
    (coin : Bool) (dirList : List Direction) (stepDuration : ℤ) (dir : Direction) (flee : Bool) :
    let out := getDistanceStep w targetDistance pos target coin dirList stepDuration dir flee
    (out.result = true → out.dir = dir ∨ Keeps (canWalkTo w pos) flee pos target out.dir) ∧
      (out.result = false → out.dir = dir) := by
  unfold getDistanceStep
  dsimp only
  by_cases h1 : !flee ∧ (targetDistance < max |offsetX pos target| |offsetY pos target| ∨
      !Sight.isSightClear w.map pos target true)
  · rw [if_pos h1]
    exact ⟨fun _ => .inl rfl, fun _ => rfl⟩
  rw [if_neg h1]
  by_cases h2 : !flee ∧ max |offsetX pos target| |offsetY pos target| = targetDistance
  · rw [if_pos h2]
    exact ⟨fun _ => .inl rfl, fun _ => rfl⟩
  rw [if_neg h2]
  by_cases h3 : offsetX pos target = 0 ∧ offsetY pos target = 0
  · -- the target stands on the same cell
    rw [if_pos h3]
    unfold getRandomStep
    cases hfind : dirList.find? (canWalkTo w pos) with
    | none => exact ⟨fun _ => .inl rfl, fun _ => rfl⟩
    | some d =>
      refine ⟨fun _ => .inr ⟨List.find?_some hfind, .inl ?_⟩, fun h => absurd h.symm Bool.false_ne_true⟩
      have h0 : distance pos target = 0 := by
        unfold distance
        rw [h3.1, h3.2]
        rfl
      rw [h0]
      exact le_max_of_le_left (abs_nonneg _)
  · rw [if_neg h3]
    exact ⟨fun _ => escape_keeps hpos, fun h => absurd h.symm Bool.false_ne_true⟩

/-- Everywhere there is a tile that can be walked on. -/
def openField : World := ⟨⟨fun _ => some {}⟩, fun _ => true, fun _ => 1, fun _ => true⟩

/-- A monster that flees on an open field, two cells west of its target, goes west. -/
theorem getDistanceStep_keeps_openField :
    Keeps (canWalkTo openField ⟨100, 100, 7⟩) true ⟨100, 100, 7⟩ ⟨102, 100, 7⟩ .west :=
  ((getDistanceStep_keeps openField 4 ⟨100, 100, 7⟩ ⟨102, 100, 7⟩
    ⟨by decide, by decide, by decide, by decide⟩ true [] 0 .north true).1 (by decide)).resolve_left (by decide)

end Step

end DistanceStep
end ForgottenServer
