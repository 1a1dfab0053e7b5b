/-
# The line of sight

`Map::checkSightLine` walks from the end on the upper floor to the other one, along a line,
cell by cell, and then down through the floors. No cell of the walk may block projectiles,
and no tile above the lower end may have anything on it. `Map::isSightClear` tries both ways.

The walk is the one of `Lib.Raster`: after `i` moves in x and `j` moves in y the error term
`A * x + B * y + C` is `b * i - a * j` but for its sign (`error_track`), so a round of the
loop is a round there (`step_track`). Integers are exact in the error terms; the
coordinates have 16 bits.

Key definitions: `step`, `sightLoop`, `checkSightLine`, `isSightClear`, `Clear`.
Key theorems: `step_track`, `sightLoop_spec`, `checkSightLine_iff`, `sight_line`.
-/
import Mathlib.Tactic
import ForgottenServer.Spectators
import ForgottenServer.Lib.Raster

namespace ForgottenServer
namespace Sight

open Raster
open Spectators (Position)

/-! ### The map -/

/-- An item with `ItemType::blockProjectile`. -/
structure Item where
  blockProjectile : Bool := false
  deriving DecidableEq, Repr

/-- What a tile holds. -/
structure Tile where
  ground : Option Item := none
  items : List Item := []
  creatures : List ℕ := []
  deriving DecidableEq, Repr

/-- `Tile::hasProperty` of `CONST_PROP_BLOCKPROJECTILE` -/
def Tile.blocksProjectile (tile : Tile) : Bool :=
  tile.ground.any Item.blockProjectile || tile.items.any Item.blockProjectile

/-- `Tile::getThingCount` -/
def Tile.getThingCount (tile : Tile) : ℕ :=
  tile.creatures.length + tile.items.length + if tile.ground.isSome then 1 else 0

/-- The tiles of the map by their positions. -/
structure Map where
  tiles : Position → Option Tile

/-- `MAP_MAX_LAYERS` -/
def maxLayers : UInt8 := 16

/-- `Map::getTile` -/
def Map.getTile (m : Map) (pos : Position) : Option Tile :=
  if maxLayers ≤ pos.z then none else m.tiles pos

/-- `tile && tile->hasProperty(CONST_PROP_BLOCKPROJECTILE)` -/
def Map.blocks (m : Map) (pos : Position) : Bool := (m.getTile pos).any Tile.blocksProjectile

/-- `tile && tile->getThingCount() > 0` -/
def Map.occupied (m : Map) (pos : Position) : Bool :=
  (m.getTile pos).any fun tile => decide (0 < tile.getThingCount)

/-! ### The walk -/

section Walk

variable (start destination : Position)

/-- `mx` and `my` -/
def towards (c d : UInt16) : ℤ := if c < d then 1 else if c = d then 0 else -1

def mx : ℤ := towards start.x destination.x
def my : ℤ := towards start.y destination.y

/-- `A`, `B` and `C` -/
def A : ℤ := destination.y.toNat - start.y.toNat
def B : ℤ := start.x.toNat - destination.x.toNat
def C : ℤ := -(A start destination * destination.x.toNat + B start destination * destination.y.toNat)

/-- The error term of a cell. -/
def error (x y : ℤ) : ℤ := A start destination * x + B start destination * y + C start destination

/-- `+=` on a coordinate -/
def add (c : UInt16) (d : ℤ) : UInt16 := .ofInt (c.toNat + d)

/-- `move_hor`, `move_ver` and `move_cross` -/
def moveHor (pos : Position) : ℤ :=
  |error start destination (pos.x.toNat + mx start destination) pos.y.toNat|

def moveVer (pos : Position) : ℤ :=
  |error start destination pos.x.toNat (pos.y.toNat + my start destination)|

def moveCross (pos : Position) : ℤ :=
  |error start destination (pos.x.toNat + mx start destination) (pos.y.toNat + my start destination)|

/-- The condition of `start.y += my`. -/
def MovesY (pos : Position) : Prop :=
  pos.y ≠ destination.y ∧ (pos.x = destination.x ∨
    moveVer start destination pos < moveHor start destination pos ∨
    moveCross start destination pos < moveHor start destination pos)

/-- The condition of `start.x += mx`, with the y there is by then. -/
def MovesX (pos : Position) (y : UInt16) : Prop :=
  pos.x ≠ destination.x ∧ (y = destination.y ∨
    moveHor start destination pos < moveVer start destination pos ∨
    moveCross start destination pos < moveVer start destination pos)

instance MovesY.decidable (pos : Position) : Decidable (MovesY start destination pos) :=
  inferInstanceAs (Decidable (_ ∧ _))

instance MovesX.decidable (pos : Position) (y : UInt16) : Decidable (MovesX start destination pos y) :=
  inferInstanceAs (Decidable (_ ∧ _))

/-- The body of the first loop, for the line from `start`, at `pos`. -/
def step (pos : Position) : Position :=
  let y := if MovesY start destination pos then add pos.y (my start destination) else pos.y
  let x := if MovesX start destination pos y then add pos.x (mx start destination) else pos.x
  { pos with x, y }

/-- The first loop: out of fuel, `return false`, or where it ends. -/
def sightLoop (m : Map) : ℕ → Position → Option (Option Position)
  | fuel, pos =>
    if pos.x = destination.x ∧ pos.y = destination.y then some (some pos)
    else
      match fuel with
      | 0 => none
      | fuel + 1 =>
        let pos := step start destination pos
        if m.blocks pos then some none else sightLoop m fuel pos

end Walk

/-- The second loop, over this many floors. -/
def floorLoop (m : Map) : ℕ → Position → Bool
  | 0, _ => true
  | floors + 1, pos =>
    if m.occupied pos then false else floorLoop m floors { pos with z := pos.z + 1 }

/-- Rounds enough for every line: `sightLoop_fuel`. -/
def sightFuel : ℕ := 65536

/-- `Map::checkSightLine` -/
def checkSightLine (m : Map) (fromPos toPos : Position) : Bool :=
  if fromPos = toPos then true
  else
    let start := if toPos.z < fromPos.z then toPos else fromPos
    let destination := if toPos.z < fromPos.z then fromPos else toPos
    match sightLoop start destination m sightFuel start with
    | some (some pos) => floorLoop m (destination.z - pos.z).toNat pos
    | _ => false

/-- `Map::isSightClear` -/
def isSightClear (m : Map) (fromPos toPos : Position) (floorCheck : Bool) : Bool :=
  if floorCheck ∧ fromPos.z ≠ toPos.z then false
  else checkSightLine m fromPos toPos || checkSightLine m toPos fromPos

/-! ### The walk on the grid -/

section Track

variable {start destination pos : Position}

/-- `|dx|` and `|dy|` -/
def width (start destination : Position) : ℤ := |(destination.x.toNat : ℤ) - start.x.toNat|
def height (start destination : Position) : ℤ := |(destination.y.toNat : ℤ) - start.y.toNat|

theorem towards_mul (c d : UInt16) :
    towards c d * |(d.toNat : ℤ) - c.toNat| = d.toNat - c.toNat := by
  unfold towards
  split_ifs with h1 h2
  · have := UInt16.lt_iff_toNat_lt.1 h1
    rw [abs_of_pos (by omega), one_mul]
  · subst h2
    rw [sub_self, abs_zero, mul_zero]
  · have hne : c.toNat ≠ d.toNat := fun h => h2 (UInt16.toNat_inj.1 h)
    have hlt : ¬ c.toNat < d.toNat := fun h => h1 (UInt16.lt_iff_toNat_lt.2 h)
    rw [abs_of_neg (by omega)]
    omega

theorem abs_towards {c d : UInt16} (h : c ≠ d) : |towards c d| = 1 := by
  unfold towards
  split_ifs
  · rfl
  · rfl

theorem towards_cases (c d : UInt16) :
    (towards c d = 1 ∧ c.toNat < d.toNat) ∨ (towards c d = 0 ∧ c.toNat = d.toNat) ∨
      (towards c d = -1 ∧ d.toNat < c.toNat) := by
  unfold towards
  split_ifs with h1 h2
  · exact .inl ⟨rfl, UInt16.lt_iff_toNat_lt.1 h1⟩
  · exact .inr (.inl ⟨rfl, congrArg UInt16.toNat h2⟩)
  · have hne := mt UInt16.toNat_inj.1 h2
    have hle := mt UInt16.lt_iff_toNat_lt.2 h1
    exact .inr (.inr ⟨rfl, by omega⟩)

/-- A cell of the walk after these moves. -/
structure Track (start destination pos : Position) (p : ℤ × ℤ) : Prop where
  x : (pos.x.toNat : ℤ) = start.x.toNat + mx start destination * p.1
  y : (pos.y.toNat : ℤ) = start.y.toNat + my start destination * p.2
  z : pos.z = start.z

theorem Track.refl (start destination : Position) : Track start destination start (0, 0) := by
  refine ⟨?_, ?_, rfl⟩
  · rw [mul_zero, add_zero]
  · rw [mul_zero, add_zero]

/-- The error term is how far the cell is off the line of the grid, but for the sign. -/
theorem error_track (start destination : Position) (i j : ℤ) :
    error start destination (start.x.toNat + mx start destination * i)
        (start.y.toNat + my start destination * j) =
      mx start destination * my start destination *
        off (width start destination) (height start destination) (i, j) := by
  have hx := towards_mul start.x destination.x
  have hy := towards_mul start.y destination.y
  unfold error C A B off width height mx my
  have hdx : (destination.x.toNat : ℤ) =
      start.x.toNat + towards start.x destination.x * |(destination.x.toNat : ℤ) - start.x.toNat| := by
    omega
  have hdy : (destination.y.toNat : ℤ) =
      start.y.toNat + towards start.y destination.y * |(destination.y.toNat : ℤ) - start.y.toNat| := by
    omega
  generalize |(destination.x.toNat : ℤ) - start.x.toNat| = a at *
  generalize |(destination.y.toNat : ℤ) - start.y.toNat| = b at *
  rw [hdx, hdy]
  ring

theorem abs_error_track (hx : start.x ≠ destination.x) (hy : start.y ≠ destination.y) (i j : ℤ) :
    |error start destination (start.x.toNat + mx start destination * i)
        (start.y.toNat + my start destination * j)| =
      |off (width start destination) (height start destination) (i, j)| := by
  rw [error_track, abs_mul, abs_mul, mx, my, abs_towards hx, abs_towards hy, one_mul, one_mul]

/-- The line is reached where all moves in x have been made. -/
theorem Track.x_eq_iff {p : ℤ × ℤ} (h : Track start destination pos p)
    (hl : 0 ≤ p.1) (hr : p.1 ≤ width start destination) :
    pos.x = destination.x ↔ p.1 = width start destination := by
  have hx := h.x
  rw [← UInt16.toNat_inj]
  unfold mx at hx
  unfold width at hr ⊢
  rcases towards_cases start.x destination.x with ⟨ht, hlt⟩ | ⟨ht, hlt⟩ | ⟨ht, hlt⟩
  · rw [ht] at hx
    rw [abs_of_pos (by omega)] at hr ⊢
    omega
  · rw [ht] at hx
    rw [show (destination.x.toNat : ℤ) - start.x.toNat = 0 by omega, abs_zero] at hr ⊢
    omega
  · rw [ht] at hx
    rw [abs_of_neg (by omega)] at hr ⊢
    omega

theorem Track.y_eq_iff {p : ℤ × ℤ} (h : Track start destination pos p)
    (hl : 0 ≤ p.2) (hr : p.2 ≤ height start destination) :
    pos.y = destination.y ↔ p.2 = height start destination := by
  have hy := h.y
  rw [← UInt16.toNat_inj]
  unfold my at hy
  unfold height at hr ⊢
  rcases towards_cases start.y destination.y with ⟨ht, hlt⟩ | ⟨ht, hlt⟩ | ⟨ht, hlt⟩
  · rw [ht] at hy
    rw [abs_of_pos (by omega)] at hr ⊢
    omega
  · rw [ht] at hy
    rw [show (destination.y.toNat : ℤ) - start.y.toNat = 0 by omega, abs_zero] at hr ⊢
    omega
  · rw [ht] at hy
    rw [abs_of_neg (by omega)] at hr ⊢
    omega

theorem toNat_add {c : UInt16} {d : ℤ} (h0 : 0 ≤ c.toNat + d) (h1 : c.toNat + d < 65536) :
    ((add c d).toNat : ℤ) = c.toNat + d := by
  show ((UInt16.ofNat ((c.toNat + d) % 2 ^ 16).toNat).toNat : ℤ) = _
  rw [UInt16.toNat_ofNat']
  omega

/-- A move in x keeps track. -/
theorem Track.add_x {i : ℤ} {c : UInt16} (hc : (c.toNat : ℤ) = start.x.toNat + mx start destination * i)
    (hl : 0 ≤ i) (hr : i < width start destination) :
    ((add c (mx start destination)).toNat : ℤ) = start.x.toNat + mx start destination * (i + 1) := by
  have hd := destination.x.toNat_lt
  have hs := start.x.toNat_lt
  unfold mx at *
  unfold width at hr
  rcases towards_cases start.x destination.x with ⟨ht, hlt⟩ | ⟨ht, hlt⟩ | ⟨ht, hlt⟩
  · rw [ht] at hc ⊢
    rw [abs_of_pos (by omega)] at hr
    rw [toNat_add (by omega) (by omega)]
    omega
  · rw [show (destination.x.toNat : ℤ) - start.x.toNat = 0 by omega, abs_zero] at hr
    omega
  · rw [ht] at hc ⊢
    rw [abs_of_neg (by omega)] at hr
    rw [toNat_add (by omega) (by omega)]
    omega

theorem Track.add_y {j : ℤ} {c : UInt16} (hc : (c.toNat : ℤ) = start.y.toNat + my start destination * j)
    (hl : 0 ≤ j) (hr : j < height start destination) :
    ((add c (my start destination)).toNat : ℤ) = start.y.toNat + my start destination * (j + 1) := by
  have hd := destination.y.toNat_lt
  have hs := start.y.toNat_lt
  unfold my at *
  unfold height at hr
  rcases towards_cases start.y destination.y with ⟨ht, hlt⟩ | ⟨ht, hlt⟩ | ⟨ht, hlt⟩
  · rw [ht] at hc ⊢
    rw [abs_of_pos (by omega)] at hr
    rw [toNat_add (by omega) (by omega)]
    omega
  · rw [show (destination.y.toNat : ℤ) - start.y.toNat = 0 by omega, abs_zero] at hr
    omega
  · rw [ht] at hc ⊢
    rw [abs_of_neg (by omega)] at hr
    rw [toNat_add (by omega) (by omega)]
    omega

section Round

variable {i j : ℤ} (h : Track start destination pos (i, j)) (hi : 0 ≤ i)
  (hi' : i ≤ width start destination) (hj : 0 ≤ j) (hj' : j ≤ height start destination)

include h hi hi' hj hj'

/-- The three terms, on a line that is neither straight across nor straight up. -/
theorem Track.moves (hne : i ≠ width start destination) (hne' : j ≠ height start destination) :
    moveHor start destination pos = |off (width start destination) (height start destination) (i + 1, j)| ∧
      moveVer start destination pos = |off (width start destination) (height start destination) (i, j + 1)| ∧
      moveCross start destination pos =
        |off (width start destination) (height start destination) (i + 1, j + 1)| := by
  have hx : start.x ≠ destination.x := by
    intro he
    apply hne
    have : width start destination = 0 := by
      unfold width
      rw [he, sub_self, abs_zero]
    omega
  have hy : start.y ≠ destination.y := by
    intro he
    apply hne'
    have : height start destination = 0 := by
      unfold height
      rw [he, sub_self, abs_zero]
    omega
  have hor : (pos.x.toNat : ℤ) + mx start destination = start.x.toNat + mx start destination * (i + 1) := by
    rw [h.x]
    ring
  have ver : (pos.y.toNat : ℤ) + my start destination = start.y.toNat + my start destination * (j + 1) := by
    rw [h.y]
    ring
  unfold moveHor moveVer moveCross
  rw [hor, ver, h.x, h.y]
  exact ⟨abs_error_track hx hy _ _, abs_error_track hx hy _ _, abs_error_track hx hy _ _⟩

theorem Track.movesY_iff :
    MovesY start destination pos ↔ goesUp (width start destination) (height start destination) (i, j) := by
  unfold MovesY goesUp
  rw [ne_eq, h.y_eq_iff hj hj', h.x_eq_iff hi hi']
  dsimp only
  by_cases hne' : j = height start destination
  · exact ⟨fun h => absurd hne' h.1, fun h => absurd hne' h.1⟩
  by_cases hne : i = width start destination
  · exact ⟨fun _ => ⟨hne', .inl hne⟩, fun _ => ⟨hne', .inl hne⟩⟩
  · obtain ⟨e1, e2, e3⟩ := h.moves hi hi' hj hj' hne hne'
    rw [e1, e2, e3]

theorem Track.movesX_iff {y : UInt16} {k : ℤ} (hy : y = destination.y ↔ k = height start destination)
    (hsame : j = height start destination → k = j) :
    MovesX start destination pos y ↔
      goesRight (width start destination) (height start destination) (i, j) k := by
  unfold MovesX goesRight
  rw [ne_eq, hy, h.x_eq_iff hi hi']
  dsimp only
  by_cases hne : i = width start destination
  · exact ⟨fun h => absurd hne h.1, fun h => absurd hne h.1⟩
  by_cases hne' : j = height start destination
  · have hk := (hsame hne').trans hne'
    exact ⟨fun _ => ⟨hne, .inl hk⟩, fun _ => ⟨hne, .inl hk⟩⟩
  · obtain ⟨e1, e2, e3⟩ := h.moves hi hi' hj hj' hne hne'
    rw [e1, e2, e3]

/-- The new x keeps track. -/
theorem Track.moved_x {y : UInt16} {k : ℤ} (hy : y = destination.y ↔ k = height start destination)
    (hsame : j = height start destination → k = j) :
    ((if MovesX start destination pos y then add pos.x (mx start destination) else pos.x : UInt16).toNat : ℤ) =
      start.x.toNat + mx start destination *
        if goesRight (width start destination) (height start destination) (i, j) k then i + 1 else i := by
  have hiff := h.movesX_iff hi hi' hj hj' hy hsame
  by_cases hr : goesRight (width start destination) (height start destination) (i, j) k
  · rw [if_pos (hiff.2 hr), if_pos hr]
    exact Track.add_x h.x hi (lt_of_le_of_ne hi' hr.1)
  · rw [if_neg (mt hiff.1 hr), if_neg hr]
    exact h.x

end Round

/-- A round of the loop is a round of the walk on the grid. -/
theorem step_track {p : ℤ × ℤ} (h : Track start destination pos p)
    (hp : OnLine (width start destination) (height start destination) p) :
    Track start destination (step start destination pos)
      (next (width start destination) (height start destination) p) := by
  obtain ⟨i, j⟩ := p
  obtain ⟨hi, hi', hj, hj', -⟩ := hp
  dsimp only at hi hi' hj hj'
  have hup := h.movesY_iff hi hi' hj hj'
  unfold step
  dsimp only
  by_cases hu : goesUp (width start destination) (height start destination) (i, j)
  · have hne : j ≠ height start destination := hu.1
    have hy := Track.add_y h.y hj (lt_of_le_of_ne hj' hne)
    have hup' : Track start destination { pos with y := add pos.y (my start destination) } (i, j + 1) :=
      ⟨h.x, hy, h.z⟩
    rw [if_pos (hup.2 hu), next_of_up hu]
    exact ⟨h.moved_x hi hi' hj hj' (hup'.y_eq_iff (by dsimp only; omega) (by dsimp only; omega))
      fun h => absurd h hne, hy, h.z⟩
  · rw [if_neg (mt hup.1 hu), next_of_not_up hu]
    exact ⟨h.moved_x hi hi' hj hj' (h.y_eq_iff hj hj') fun _ => rfl, h.y, h.z⟩

end Track

/-! ### The whole walk -/

section Whole

variable {start destination : Position}

/-- The longer side. -/
def rounds (start destination : Position) : ℕ :=
  max ((destination.x.toNat : ℤ) - start.x.toNat).natAbs ((destination.y.toNat : ℤ) - start.y.toNat).natAbs

/-- The cell after `n` rounds. -/
def walk (start destination : Position) (n : ℕ) : Position := (step start destination)^[n] start

theorem walk_succ (start destination : Position) (n : ℕ) :
    walk start destination (n + 1) = step start destination (walk start destination n) :=
  Function.iterate_succ_apply' _ _ _

theorem width_nonneg (start destination : Position) : 0 ≤ width start destination := abs_nonneg _

theorem height_nonneg (start destination : Position) : 0 ≤ height start destination := abs_nonneg _

theorem rounds_eq (start destination : Position) :
    (rounds start destination : ℤ) = max (width start destination) (height start destination) := by
  unfold rounds width height
  rw [Int.abs_eq_natAbs, Int.abs_eq_natAbs]
  omega

theorem rounds_lt (start destination : Position) : rounds start destination < sightFuel := by
  have h1 := start.x.toNat_lt
  have h2 := start.y.toNat_lt
  have h3 := destination.x.toNat_lt
  have h4 := destination.y.toNat_lt
  unfold rounds sightFuel
  omega

/-- The walk on the grid. -/
def cell (start destination : Position) (n : ℕ) : ℤ × ℤ :=
  (next (width start destination) (height start destination))^[n] (0, 0)

theorem onLine_cell {n : ℕ} (hn : n ≤ rounds start destination) :
    OnLine (width start destination) (height start destination) (cell start destination n) := by
  have := rounds_eq start destination
  exact (iterate_next (width_nonneg _ _) (height_nonneg _ _) n (by omega)).1

theorem walk_track : ∀ {n : ℕ}, n ≤ rounds start destination →
    Track start destination (walk start destination n) (cell start destination n)
  | 0, _ => Track.refl start destination
  | n + 1, hn => by
    rw [walk_succ, cell, Function.iterate_succ_apply']
    exact step_track (walk_track (by omega)) (onLine_cell (by omega))

/-- The loop has not arrived before the last round. -/
theorem not_arrived {n : ℕ} (hn : n < rounds start destination) :
    ¬ ((walk start destination n).x = destination.x ∧ (walk start destination n).y = destination.y) := by
  have hline := onLine_cell hn.le
  have htrack := walk_track hn.le
  rw [htrack.x_eq_iff hline.left hline.right, htrack.y_eq_iff hline.low hline.high]
  rintro ⟨h1, h2⟩
  have := rounds_eq start destination
  exact iterate_next_ne (width_nonneg _ _) (height_nonneg _ _) (by omega) (Prod.ext h1 h2)

/-- The column of the destination. -/
theorem walk_end : walk start destination (rounds start destination) =
    { start with x := destination.x, y := destination.y } := by
  have hline := onLine_cell (le_refl (rounds start destination))
  have htrack := walk_track (le_refl (rounds start destination))
  have hend := iterate_next_end (width_nonneg start destination) (height_nonneg start destination)
    (rounds_eq start destination)
  have hx := (htrack.x_eq_iff hline.left hline.right).2 (congrArg Prod.fst hend)
  have hy := (htrack.y_eq_iff hline.low hline.high).2 (congrArg Prod.snd hend)
  have hz := htrack.z
  calc walk start destination (rounds start destination)
      = ⟨(walk start destination (rounds start destination)).x,
          (walk start destination (rounds start destination)).y,
          (walk start destination (rounds start destination)).z⟩ := rfl
    _ = _ := by rw [hx, hy, hz]

/-- The first loop, from the cell after `n` rounds, with fuel for the rest of them. -/
theorem sightLoop_spec (m : Map) : ∀ (fuel n : ℕ), n ≤ rounds start destination →
    rounds start destination ≤ n + fuel →
    (sightLoop start destination m fuel (walk start destination n) =
        some (some { start with x := destination.x, y := destination.y }) ∧
      ∀ k, n < k → k ≤ rounds start destination → m.blocks (walk start destination k) = false) ∨
    (sightLoop start destination m fuel (walk start destination n) = some none ∧
      ∃ k, n < k ∧ k ≤ rounds start destination ∧ m.blocks (walk start destination k) = true) := by
  intro fuel
  induction fuel with
  | zero =>
    intro n hn hfuel
    obtain rfl : n = rounds start destination := by omega
    refine .inl ⟨?_, fun k h1 h2 => absurd h1 (by omega)⟩
    rw [sightLoop, walk_end, if_pos ⟨rfl, rfl⟩]
  | succ fuel ih =>
    intro n hn hfuel
    rcases hn.eq_or_lt with rfl | hlt
    · refine .inl ⟨?_, fun k h1 h2 => absurd h1 (by omega)⟩
      rw [sightLoop, walk_end, if_pos ⟨rfl, rfl⟩]
    · rw [sightLoop, if_neg (not_arrived hlt)]
      dsimp only
      rw [← walk_succ]
      by_cases hb : m.blocks (walk start destination (n + 1)) = true
      · rw [if_pos hb]
        exact .inr ⟨rfl, n + 1, by omega, by omega, hb⟩
      · rw [if_neg hb]
        rcases ih (n + 1) (by omega) (by omega) with ⟨he, hall⟩ | ⟨he, k, h1, h2, h3⟩
        · refine .inl ⟨he, fun k h1 h2 => ?_⟩
          rcases eq_or_ne k (n + 1) with rfl | hne
          · exact Bool.eq_false_iff.2 hb
          · exact hall k (by omega) h2
        · exact .inr ⟨he, k, by omega, h2, h3⟩

/-- With less fuel a loop that nothing blocks is not over. -/
theorem sightLoop_short (m : Map) (hm : ∀ pos, m.blocks pos = false) : ∀ (fuel n : ℕ),
    n + fuel < rounds start destination →
    sightLoop start destination m fuel (walk start destination n) = none := by
  intro fuel
  induction fuel with
  | zero =>
    intro n hn
    rw [sightLoop, if_neg (not_arrived (by omega))]
  | succ fuel ih =>
    intro n hn
    rw [sightLoop, if_neg (not_arrived (by omega))]
    dsimp only
    rw [← walk_succ, hm, if_neg Bool.false_ne_true]
    exact ih (n + 1) (by omega)

/-- The fuel is enough. -/
theorem sightLoop_fuel (m : Map) (start destination : Position) :
    sightLoop start destination m sightFuel start ≠ none := by
  have h := @sightLoop_spec start destination m sightFuel 0 (Nat.zero_le _)
    (by have := rounds_lt start destination; omega)
  change _ = _ ∧ _ ∨ _ = _ ∧ _ at h
  rcases h with ⟨he, -⟩ | ⟨he, -⟩
  · exact fun hn => nomatch he.symm.trans hn
  · exact fun hn => nomatch he.symm.trans hn

end Whole

/-! ### Lines of sight -/

section Lines

/-- One cell towards `d`. -/
def Approaches (c c' d : UInt16) : Prop := c ≠ d ∧ (c'.toNat : ℤ) = c.toNat + towards c d

/-- The walk from one end to the other: as many rounds as the longer side has cells, each
one cell along the longer side and one along the other or none, towards the end, and no
cell farther from the line than half a cell of the shorter side. -/
structure NearestLine (start destination : Position) : Prop where
  loop : ∀ m : Map, (∀ pos, m.blocks pos = false) → ∀ fuel,
    sightLoop start destination m fuel start =
      if fuel < rounds start destination then none
      else some (some { start with x := destination.x, y := destination.y })
  along_x : height start destination ≤ width start destination → ∀ n < rounds start destination,
    Approaches (walk start destination n).x (walk start destination (n + 1)).x destination.x
  along_y : width start destination ≤ height start destination → ∀ n < rounds start destination,
    Approaches (walk start destination n).y (walk start destination (n + 1)).y destination.y
  side_x : ∀ n < rounds start destination,
    (walk start destination (n + 1)).x = (walk start destination n).x ∨
      Approaches (walk start destination n).x (walk start destination (n + 1)).x destination.x
  side_y : ∀ n < rounds start destination,
    (walk start destination (n + 1)).y = (walk start destination n).y ∨
      Approaches (walk start destination n).y (walk start destination (n + 1)).y destination.y
  floor : ∀ n ≤ rounds start destination, (walk start destination n).z = start.z
  near : ∀ n ≤ rounds start destination,
    2 * |error start destination (walk start destination n).x.toNat (walk start destination n).y.toNat| ≤
      max |A start destination| |B start destination|

variable {start destination pos pos' : Position} {i j i' j' : ℤ}

/-- A cell more in x is one towards the end. -/
theorem Track.approaches_x (h : Track start destination pos (i, j))
    (h' : Track start destination pos' (i + 1, j')) (hi : 0 ≤ i) (hi' : i + 1 ≤ width start destination) :
    Approaches pos.x pos'.x destination.x := by
  have hne : pos.x ≠ destination.x := by
    intro he
    have := (h.x_eq_iff hi (by dsimp only; omega)).1 he
    dsimp only at this
    omega
  have hx := h.x
  have hx' := h'.x
  dsimp only at hx hx'
  unfold mx at hx hx'
  unfold width at hi'
  refine ⟨hne, ?_⟩
  rcases towards_cases start.x destination.x with ⟨ht, hlt⟩ | ⟨ht, hlt⟩ | ⟨ht, hlt⟩ <;>
    rcases towards_cases pos.x destination.x with ⟨hp, hlt'⟩ | ⟨hp, hlt'⟩ | ⟨hp, hlt'⟩ <;>
    rw [ht] at hx hx' <;>
    rw [hp] <;>
    rw [Int.abs_eq_natAbs] at hi' <;>
    omega

theorem Track.approaches_y (h : Track start destination pos (i, j))
    (h' : Track start destination pos' (i', j + 1)) (hj : 0 ≤ j) (hj' : j + 1 ≤ height start destination) :
    Approaches pos.y pos'.y destination.y := by
  have hne : pos.y ≠ destination.y := by
    intro he
    have := (h.y_eq_iff hj (by dsimp only; omega)).1 he
    dsimp only at this
    omega
  have hy := h.y
  have hy' := h'.y
  dsimp only at hy hy'
  unfold my at hy hy'
  unfold height at hj'
  refine ⟨hne, ?_⟩
  rcases towards_cases start.y destination.y with ⟨ht, hlt⟩ | ⟨ht, hlt⟩ | ⟨ht, hlt⟩ <;>
    rcases towards_cases pos.y destination.y with ⟨hp, hlt'⟩ | ⟨hp, hlt'⟩ | ⟨hp, hlt'⟩ <;>
    rw [ht] at hy hy' <;>
    rw [hp] <;>
    rw [Int.abs_eq_natAbs] at hj' <;>
    omega

/-- A round on the grid. -/
theorem cell_round {n : ℕ} (hn : n < rounds start destination) :
    ((cell start destination (n + 1)).1 = (cell start destination n).1 ∨
      (cell start destination (n + 1)).1 = (cell start destination n).1 + 1) ∧
    ((cell start destination (n + 1)).2 = (cell start destination n).2 ∨
      (cell start destination (n + 1)).2 = (cell start destination n).2 + 1) ∧
    (height start destination ≤ width start destination →
      (cell start destination (n + 1)).1 = (cell start destination n).1 + 1) ∧
    (width start destination ≤ height start destination →
      (cell start destination (n + 1)).2 = (cell start destination n).2 + 1) := by
  have hr := rounds_eq start destination
  have hne : cell start destination n ≠ (width start destination, height start destination) :=
    iterate_next_ne (width_nonneg _ _) (height_nonneg _ _) (by omega)
  have hspec := ((onLine_cell hn.le).next_spec hne).2
  rw [show next _ _ _ = cell start destination (n + 1) from
    (Function.iterate_succ_apply' (next _ _) n (0, 0)).symm] at hspec
  exact hspec

theorem walk_approaches_x {n : ℕ} (hn : n < rounds start destination)
    (h : (cell start destination (n + 1)).1 = (cell start destination n).1 + 1) :
    Approaches (walk start destination n).x (walk start destination (n + 1)).x destination.x := by
  have htrack := walk_track hn
  have hline := onLine_cell hn
  generalize cell start destination (n + 1) = c at htrack hline h
  obtain ⟨c1, c2⟩ := c
  dsimp only at h
  subst h
  exact Track.approaches_x (walk_track hn.le) htrack (onLine_cell hn.le).left hline.right

theorem walk_approaches_y {n : ℕ} (hn : n < rounds start destination)
    (h : (cell start destination (n + 1)).2 = (cell start destination n).2 + 1) :
    Approaches (walk start destination n).y (walk start destination (n + 1)).y destination.y := by
  have htrack := walk_track hn
  have hline := onLine_cell hn
  generalize cell start destination (n + 1) = c at htrack hline h
  obtain ⟨c1, c2⟩ := c
  dsimp only at h
  subst h
  exact Track.approaches_y (walk_track hn.le) htrack (onLine_cell hn.le).low hline.high

/-- A coordinate that makes no move stays. -/
theorem walk_x_eq {n : ℕ} (hn : n < rounds start destination)
    (h : (cell start destination (n + 1)).1 = (cell start destination n).1) :
    (walk start destination (n + 1)).x = (walk start destination n).x := by
  have h1 := (walk_track hn).x
  rw [h, ← (walk_track hn.le).x, Nat.cast_inj] at h1
  exact UInt16.toNat_inj.1 h1

theorem walk_y_eq {n : ℕ} (hn : n < rounds start destination)
    (h : (cell start destination (n + 1)).2 = (cell start destination n).2) :
    (walk start destination (n + 1)).y = (walk start destination n).y := by
  have h1 := (walk_track hn).y
  rw [h, ← (walk_track hn.le).y, Nat.cast_inj] at h1
  exact UInt16.toNat_inj.1 h1

/-- The error term of a cell is at most half of the longer side. -/
theorem walk_near {n : ℕ} (hn : n ≤ rounds start destination) :
    2 * |error start destination (walk start destination n).x.toNat (walk start destination n).y.toNat| ≤
      max |A start destination| |B start destination| := by
  have htrack := walk_track hn
  have hnear := (onLine_cell hn).near
  have hB : |B start destination| = width start destination := by
    unfold B width
    exact abs_sub_comm _ _
  have hmul : |mx start destination * my start destination| ≤ 1 := by
    unfold mx my
    rcases towards_cases start.x destination.x with ⟨ht, -⟩ | ⟨ht, -⟩ | ⟨ht, -⟩ <;>
      rcases towards_cases start.y destination.y with ⟨ht', -⟩ | ⟨ht', -⟩ | ⟨ht', -⟩ <;>
      rw [ht, ht'] <;>
      decide
  rw [htrack.x, htrack.y, error_track, abs_mul, hB, max_comm]
  calc 2 * (|mx start destination * my start destination| *
        |off (width start destination) (height start destination) (cell start destination n)|)
      ≤ 2 * (1 * |off (width start destination) (height start destination) (cell start destination n)|) :=
        mul_le_mul_of_nonneg_left (mul_le_mul_of_nonneg_right hmul (abs_nonneg _)) (by decide)
    _ = 2 * |off (width start destination) (height start destination) (cell start destination n)| := by
        rw [one_mul]
    _ ≤ max (width start destination) (height start destination) := hnear

theorem nearestLine (start destination : Position) : NearestLine start destination where
  loop m hm fuel := by
    split_ifs with h
    · exact sightLoop_short m hm fuel 0 (by omega)
    · rcases @sightLoop_spec start destination m fuel 0 (Nat.zero_le _) (by omega) with
        ⟨he, -⟩ | ⟨-, k, -, -, hb⟩
      · exact he
      · rw [hm] at hb
        exact absurd hb Bool.false_ne_true
  along_x hwide n hn := walk_approaches_x hn ((cell_round hn).2.2.1 hwide)
  along_y hhigh n hn := walk_approaches_y hn ((cell_round hn).2.2.2 hhigh)
  side_x n hn := (cell_round hn).1.imp (walk_x_eq hn) (walk_approaches_x hn)
  side_y n hn := (cell_round hn).2.1.imp (walk_y_eq hn) (walk_approaches_y hn)
  floor n hn := (walk_track hn).z
  near n hn := walk_near hn

/-! ### What is seen -/

/-- The walk meets no blocking tile, and there is nothing on the tiles above its end. -/
structure Clear (m : Map) (start destination : Position) : Prop where
  cells : ∀ n, 1 ≤ n → n ≤ rounds start destination → m.blocks (walk start destination n) = false
  floors : ∀ z : UInt8, start.z ≤ z → z < destination.z → m.occupied { destination with z } = false

theorem floorLoop_iff (m : Map) : ∀ (n : ℕ) (pos : Position), pos.z.toNat + n < 256 →
    (floorLoop m n pos = true ↔
      ∀ z : UInt8, pos.z ≤ z → z.toNat < pos.z.toNat + n → m.occupied { pos with z } = false)
  | 0, pos, _ => by
    refine ⟨fun _ z h1 h2 => ?_, fun _ => rfl⟩
    have := UInt8.le_iff_toNat_le.1 h1
    omega
  | n + 1, pos, hn => by
    have hz : (pos.z + 1).toNat = pos.z.toNat + 1 := by
      rw [UInt8.toNat_add]
      show (pos.z.toNat + 1) % 2 ^ 8 = _
      omega
    rw [floorLoop]
    by_cases ho : m.occupied pos = true
    · rw [if_pos ho]
      refine ⟨fun h => absurd h Bool.false_ne_true, fun h => ?_⟩
      have := h pos.z (UInt8.le_refl _) (by omega)
      rw [ho] at this
      exact absurd this.symm Bool.false_ne_true
    · rw [if_neg ho, floorLoop_iff m n _ (by dsimp only; omega)]
      dsimp only
      rw [hz]
      constructor
      · intro h z h1 h2
        rcases (UInt8.le_iff_toNat_le.1 h1).eq_or_lt with he | hlt
        · obtain rfl := UInt8.toNat_inj.1 he
          exact Bool.eq_false_iff.2 ho
        · exact h z (UInt8.le_iff_toNat_le.2 (by omega)) (by omega)
      · intro h z h1 h2
        have := UInt8.le_iff_toNat_le.1 h1
        exact h z (UInt8.le_iff_toNat_le.2 (by omega)) (by omega)

/-- The ends as `checkSightLine` orders them. -/
def upper (fromPos toPos : Position) : Position := if toPos.z < fromPos.z then toPos else fromPos

def lower (fromPos toPos : Position) : Position := if toPos.z < fromPos.z then fromPos else toPos

theorem upper_le_lower (fromPos toPos : Position) :
    (upper fromPos toPos).z.toNat ≤ (lower fromPos toPos).z.toNat := by
  unfold upper lower
  split_ifs with h
  · exact (UInt8.lt_iff_toNat_lt.1 h).le
  · exact not_lt.1 (mt UInt8.lt_iff_toNat_lt.2 h)

theorem clear_self (m : Map) (pos : Position) : Clear m pos pos := by
  refine ⟨fun n h1 h2 => ?_, fun z h1 h2 => absurd h2 (UInt8.not_lt.2 h1)⟩
  have : rounds pos pos = 0 := by
    unfold rounds
    rw [sub_self, sub_self]
    rfl
  omega

theorem checkSightLine_iff (m : Map) (fromPos toPos : Position) :
    checkSightLine m fromPos toPos = true ↔ Clear m (upper fromPos toPos) (lower fromPos toPos) := by
  have hle := upper_le_lower fromPos toPos
  unfold checkSightLine
  by_cases heq : fromPos = toPos
  · subst heq
    rw [if_pos rfl]
    have hu : upper fromPos fromPos = fromPos := ite_self _
    have hl : lower fromPos fromPos = fromPos := ite_self _
    rw [hu, hl]
    exact iff_of_true rfl (clear_self m fromPos)
  rw [if_neg heq]
  change (match sightLoop (upper fromPos toPos) (lower fromPos toPos) m sightFuel (upper fromPos toPos) with
    | some (some pos) => floorLoop m ((lower fromPos toPos).z - pos.z).toNat pos
    | _ => false) = true ↔ _
  generalize upper fromPos toPos = start at *
  generalize lower fromPos toPos = destination at *
  have hlt := destination.z.toNat_lt
  have hspec := @sightLoop_spec start destination m sightFuel 0 (Nat.zero_le _)
    (by have := rounds_lt start destination; omega)
  change sightLoop start destination m sightFuel start = _ ∧ _ ∨
    sightLoop start destination m sightFuel start = _ ∧ _ at hspec
  rcases hspec with ⟨he, hall⟩ | ⟨he, k, h1, h2, hb⟩
  · rw [he]
    dsimp only
    have hsub : (destination.z - start.z).toNat = destination.z.toNat - start.z.toNat :=
      UInt8.toNat_sub_of_le _ _ (UInt8.le_iff_toNat_le.2 hle)
    rw [hsub, floorLoop_iff m _ _ (by dsimp only; omega)]
    dsimp only
    constructor
    · intro h
      refine ⟨fun n hn hn' => hall n hn hn', fun z hz hz' => h z hz ?_⟩
      have := UInt8.lt_iff_toNat_lt.1 hz'
      omega
    · intro h z hz hz'
      exact h.floors z hz (UInt8.lt_iff_toNat_lt.2 (by omega))
  · rw [he]
    refine iff_of_false Bool.false_ne_true fun h => ?_
    rw [h.cells k h1 h2] at hb
    exact absurd hb Bool.false_ne_true

/-- **The line of sight.** Both walks are nearest lines, and the sight is clear if and only
if one of them is, and the floors are the same where that is asked for. -/
theorem sight_line (m : Map) (fromPos toPos : Position) (floorCheck : Bool) :
    NearestLine fromPos toPos ∧ NearestLine toPos fromPos ∧
      (isSightClear m fromPos toPos floorCheck = true ↔
        (floorCheck = true → fromPos.z = toPos.z) ∧
          (Clear m (upper fromPos toPos) (lower fromPos toPos) ∨
            Clear m (upper toPos fromPos) (lower toPos fromPos))) := by
  refine ⟨nearestLine fromPos toPos, nearestLine toPos fromPos, ?_⟩
  unfold isSightClear
  rw [← checkSightLine_iff, ← checkSightLine_iff]
  by_cases h : floorCheck = true ∧ fromPos.z ≠ toPos.z
  · rw [if_pos h]
    exact iff_of_false Bool.false_ne_true fun h' => h.2 (h'.1 h.1)
  · rw [if_neg h, Bool.or_eq_true]
    refine (and_iff_right fun hc => ?_).symm
    by_contra hz
    exact h ⟨hc, hz⟩

/-- From a floor to the one below on an empty map, the walk is clear and the sight is not. -/
theorem isSightClear_floorCheck :
    Clear ⟨fun _ => none⟩ (upper ⟨100, 100, 7⟩ ⟨100, 100, 8⟩) (lower ⟨100, 100, 7⟩ ⟨100, 100, 8⟩) ∧
      isSightClear ⟨fun _ => none⟩ ⟨100, 100, 7⟩ ⟨100, 100, 8⟩ true = false :=
  ⟨(checkSightLine_iff _ _ _).1 (by decide), by decide⟩

end Lines

end Sight
end ForgottenServer
