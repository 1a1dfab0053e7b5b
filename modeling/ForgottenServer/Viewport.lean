/-
# The window of a client

A client shows eighteen by fourteen cells of each floor it sees, shifted by one
cell for each floor between. `canSee` is the server's own test of that window.
The spectators of a cell are found by ranges of their own (`Map::getSpectators`),
and a step of the player is sent as strips of cells at the edges of the window
and, on a change of floor, as whole floors (`sendMoveCreature`).

Key definitions: `canSee`, `sendMapDescription`, `sendMoveCreature`, `covered`.
Key theorems: `visible_notified`, `window_described`.
-/
import Mathlib.Tactic
import ForgottenServer.MapDescription
import ForgottenServer.Spectators

namespace ForgottenServer
namespace ProtocolGame

open NetworkMessage Spectators

/-- `ProtocolGame::canSee`, for a player at `myPos`. -/
def canSee (myPos : Position) (x y z : ℤ) : Bool :=
  let myZ : ℤ := myPos.z.toNat
  if myZ ≤ 7 ∧ z > 7 then false
  else if myZ ≥ 8 ∧ |myZ - z| > 2 then false
  else
    let offsetz := myZ - z
    myPos.x.toNat - 8 + offsetz ≤ x && x ≤ myPos.x.toNat + 9 + offsetz &&
      myPos.y.toNat - 6 + offsetz ≤ y && y ≤ myPos.y.toNat + 7 + offsetz

/-- The floors that a client on floor `myZ` shows. -/
def SeesFloor (myZ z : ℤ) : Prop := (myZ ≤ 7 ∧ z ≤ 7) ∨ (8 ≤ myZ ∧ myZ - 2 ≤ z ∧ z ≤ myZ + 2)

theorem canSee_iff (p : Position) (x y z : ℤ) : canSee p x y z ↔ SeesFloor p.z.toNat z ∧
    (p.x.toNat - 8 + (p.z.toNat - z) ≤ x ∧ x ≤ p.x.toNat + 9 + (p.z.toNat - z)) ∧
    (p.y.toNat - 6 + (p.z.toNat - z) ≤ y ∧ y ≤ p.y.toNat + 7 + (p.z.toNat - z)) := by
  unfold canSee SeesFloor
  dsimp only
  by_cases h1 : (p.z.toNat : ℤ) ≤ 7 ∧ z > 7
  · rw [if_pos h1]
    simp only [Bool.false_eq_true, false_iff]
    omega
  by_cases h2 : (p.z.toNat : ℤ) ≥ 8 ∧ |(p.z.toNat : ℤ) - z| > 2
  · rw [if_neg h1, if_pos h2]
    have h3 : ¬ (p.z.toNat - z ≤ 2 ∧ -2 ≤ p.z.toNat - z) := fun h => by
      have := abs_le.2 ⟨h.2, h.1⟩
      omega
    simp only [Bool.false_eq_true, false_iff]
    omega
  · rw [if_neg h1, if_neg h2]
    have h3 : (p.z.toNat : ℤ) ≥ 8 → p.z.toNat - z ≤ 2 ∧ -2 ≤ p.z.toNat - z := fun h => by
      have := abs_le.1 (not_lt.1 fun hlt => h2 ⟨h, hlt⟩)
      exact ⟨this.2, this.1⟩
    simp only [Bool.and_eq_true, decide_eq_true_eq]
    omega

/-! ### Spectators -/

/-- **Visibility implies notification.** A player whose client shows a cell is
among the spectators of the cell. -/
theorem visible_notified (isPlayer : ℕ → Bool) (s : State) (h : MapOk isPlayer s.map) (player : ℕ)
    (hplayer : isPlayer player) (hhas : s.map.Has player)
    (hfloor : (s.map.position player).z.toNat < 16) (c : Position) (hc : c.z.toNat < 16)
    (hsee : canSee (s.map.position player) c.x.toNat c.y.toNat c.z.toNat) (onlyPlayers : Bool)
    (hcache : s.spectatorCache c = none ∧ s.playersSpectatorCache c = none) :
    player ∈ (getSpectators isPlayer s
      { centerPos := c, multifloor := true, onlyPlayers }).2 := by
  obtain ⟨hz, ⟨hx1, hx2⟩, hy1, hy2⟩ := (canSee_iff _ _ _ _).1 hsee
  unfold SeesFloor at hz
  generalize hcall : ({ centerPos := c, multifloor := true, onlyPlayers } : Spectators.Call) = call
  have hrange : s.map.inRange c call.ranges player := by
    subst hcall
    unfold Map.inRange Call.ranges
    simp only [Bool.and_eq_true, decide_eq_true_eq, if_true]
    refine ⟨⟨⟨⟨⟨?_, ?_⟩, ?_⟩, ?_⟩, ?_⟩, ?_⟩
    · split <;> omega
    · split_ifs <;> omega
    all_goals omega
  have hscan : player ∈ s.map.getSpectatorsInternal ∅ c call.ranges onlyPlayers :=
    mem_getSpectatorsInternal h hhas ∅ hrange fun _ => hplayer
  have hcached : s.cached isPlayer call = none := by
    subst hcall
    unfold State.cached
    rw [hcache.1, hcache.2]
    cases onlyPlayers <;> rfl
  unfold getSpectators
  rw [hcached]
  subst hcall
  rw [if_neg (by dsimp only; omega)]
  cases onlyPlayers <;> exact hscan

/-- A player in the cellar and a cell two floors up. -/
theorem visible_notified_cellar : 0 ∈ (getSpectators (fun _ => true)
    (Spectators.step (fun _ => true) (init fun _ _ => true) (.placeCreature 0 ⟨100, 100, 8⟩))
    { centerPos := ⟨98, 98, 6⟩, multifloor := true, onlyPlayers := true }).2 :=
  visible_notified (fun _ => true) _
    (Spectators.inv_step (a := .placeCreature 0 ⟨100, 100, 8⟩) (Spectators.inv_init _)
      ⟨not_has_init _ 0, rfl⟩ trivial).1
    0 rfl ⟨12, 12, { creature_list := [0], player_list := [0] }, rfl, List.mem_cons_self⟩
    (by decide) ⟨98, 98, 6⟩ (by decide) (by decide) true ⟨rfl, rfl⟩

/-! ### Strips of the map -/

/-- A part of a message: bytes, a position, or cells described with one counter. -/
inductive Part
  | byte (b : UInt8)
  | position (p : Position)
  | map (cells : List Cell)
  deriving DecidableEq, Repr

def Part.cells : Part → List Cell
  | .map cells => cells
  | _ => []

section Sends

variable (newPos oldPos : Position)

/-- `ProtocolGame::sendMapDescription`, for a player at `myPos`. -/
def sendMapDescription (myPos pos : Position) : List Part :=
  [.byte 0x64, .position myPos,
    .map (mapCells (pos.x.toNat - 8) (pos.y.toNat - 6) pos.z.toNat 18 14)]

/-- `ProtocolGame::RemoveTileThing` -/
def RemoveTileThing (pos : Position) (stackpos : ℤ) : List Part :=
  if 10 ≤ uint 4 stackpos then [] else [.byte 0x6C, .position pos, .byte (UInt8.ofInt stackpos)]

/-- `ProtocolGame::MoveUpCreature`, for the player's own creature. -/
def MoveUpCreature : List Part :=
  let x : ℤ := oldPos.x.toNat
  let y : ℤ := oldPos.y.toNat
  let z : ℤ := newPos.z.toNat
  let floors : List Part :=
    if z = 7 then
      [.map (floorCells (x - 8) (y - 6) 5 18 14 3 ++ floorCells (x - 8) (y - 6) 4 18 14 4 ++
        floorCells (x - 8) (y - 6) 3 18 14 5 ++ floorCells (x - 8) (y - 6) 2 18 14 6 ++
        floorCells (x - 8) (y - 6) 1 18 14 7 ++ floorCells (x - 8) (y - 6) 0 18 14 8)]
    else if z > 7 then [.map (floorCells (x - 8) (y - 6) (oldPos.z.toNat - 3) 18 14 3)]
    else []
  [.byte 0xBE] ++ floors ++
    [.byte 0x68, .map (mapCells (x - 8) (y - 5) z 1 14)] ++
    [.byte 0x65, .map (mapCells (x - 8) (y - 6) z 18 1)]

/-- `ProtocolGame::MoveDownCreature`, for the player's own creature. -/
def MoveDownCreature : List Part :=
  let x : ℤ := oldPos.x.toNat
  let y : ℤ := oldPos.y.toNat
  let z : ℤ := newPos.z.toNat
  let floors : List Part :=
    if z = 8 then
      [.map (floorCells (x - 8) (y - 6) z 18 14 (-1) ++ floorCells (x - 8) (y - 6) (z + 1) 18 14 (-2) ++
        floorCells (x - 8) (y - 6) (z + 2) 18 14 (-3))]
    else if z > oldPos.z.toNat ∧ z > 8 ∧ z < 14 then
      [.map (floorCells (x - 8) (y - 6) (z + 2) 18 14 (-3))]
    else []
  [.byte 0xBF] ++ floors ++
    [.byte 0x66, .map (mapCells (x + 9) (y - 7) z 1 14)] ++
    [.byte 0x67, .map (mapCells (x - 8) (y + 7) z 18 1)]

/-- The strips of `ProtocolGame::sendMoveCreature` to the north or the south, for the old x. -/
def northSouth : List Part :=
  let x : ℤ := oldPos.x.toNat
  let y : ℤ := newPos.y.toNat
  let z : ℤ := newPos.z.toNat
  if oldPos.y > newPos.y then [.byte 0x65, .map (mapCells (x - 8) (y - 6) z 18 1)]
  else if oldPos.y < newPos.y then [.byte 0x67, .map (mapCells (x - 8) (y + 7) z 18 1)]
  else []

/-- The strips to the east or the west, with the new y. -/
def eastWest : List Part :=
  let x : ℤ := newPos.x.toNat
  let y : ℤ := newPos.y.toNat
  let z : ℤ := newPos.z.toNat
  if oldPos.x < newPos.x then [.byte 0x66, .map (mapCells (x + 9) (y - 6) z 1 14)]
  else if oldPos.x > newPos.x then [.byte 0x68, .map (mapCells (x - 8) (y - 6) z 1 14)]
  else []

/-- The messages of `ProtocolGame::sendMoveCreature` for the player's own
creature, which is at `myPos`. -/
def sendMoveCreature (myPos : Position) (oldStackPos : ℤ) (teleport : Bool) : List (List Part) :=
  if 10 ≤ oldStackPos then [sendMapDescription myPos newPos]
  else if teleport then [RemoveTileThing oldPos oldStackPos, sendMapDescription myPos newPos]
  else
    [(if oldPos.z = 7 ∧ 8 ≤ newPos.z then RemoveTileThing oldPos oldStackPos
      else [.byte 0x6D, .position oldPos, .byte (UInt8.ofInt oldStackPos), .position newPos]) ++
    (if newPos.z > oldPos.z then MoveDownCreature newPos oldPos
      else if newPos.z < oldPos.z then MoveUpCreature newPos oldPos else []) ++
    northSouth newPos oldPos ++ eastWest newPos oldPos]

end Sends

/-- The cells that messages describe. -/
def covered (msgs : List (List Part)) : List Cell := msgs.flatten.flatMap Part.cells

/-! ### Cells in a box -/

/-- A cell of the box of a floor. -/
@[mk_iff] structure InBox (x y width height offset : ℤ) (c : Cell) : Prop where
  left : x + offset ≤ c.x
  right : c.x < x + offset + width
  top : y + offset ≤ c.y
  bottom : c.y < y + offset + height

theorem mem_floorCells {x y z width height offset : ℤ} {c : Cell} :
    c ∈ floorCells x y z width height offset ↔ c.z = z ∧ InBox x y width height offset c := by
  unfold floorCells
  simp only [List.mem_flatMap, List.mem_map, List.mem_range]
  constructor
  · rintro ⟨nx, hx, ny, hy, rfl⟩
    exact ⟨rfl, by dsimp only; omega, by dsimp only; omega, by dsimp only; omega,
      by dsimp only; omega⟩
  · rintro ⟨rfl, h1, h2, h3, h4⟩
    refine ⟨(c.x - (x + offset)).toNat, by omega, (c.y - (y + offset)).toNat, by omega, ?_⟩
    obtain ⟨cx, cy, cz⟩ := c
    dsimp only at h1 h2 h3 h4 ⊢
    congr 1 <;> omega

theorem mem_floors {z nz : ℤ} : nz ∈ floors z ↔
    (7 < z ∧ z - 2 ≤ nz ∧ nz ≤ z + 2 ∧ nz ≤ 15) ∨ (z ≤ 7 ∧ 0 ≤ nz ∧ nz ≤ 7) := by
  unfold floors
  by_cases h : z > 7
  · rw [if_pos h, List.mem_map]
    constructor
    · rintro ⟨k, hk, rfl⟩
      rw [List.mem_range] at hk
      omega
    · intro hnz
      refine ⟨(nz - (z - 2)).toNat, ?_, by omega⟩
      rw [List.mem_range]
      omega
  · rw [if_neg h]
    simp only [List.mem_cons, List.not_mem_nil, or_false]
    omega

theorem mem_mapCells {x y z width height : ℤ} {c : Cell} : c ∈ mapCells x y z width height ↔
    c.z ∈ floors z ∧ InBox x y width height (z - c.z) c := by
  unfold mapCells
  rw [List.mem_flatMap]
  constructor
  · rintro ⟨nz, hnz, hc⟩
    obtain ⟨rfl, hbox⟩ := mem_floorCells.1 hc
    exact ⟨hnz, hbox⟩
  · rintro ⟨hz, hbox⟩
    exact ⟨c.z, hz, mem_floorCells.2 ⟨rfl, hbox⟩⟩

/-! ### The window is described -/

/-- A cell of the map. -/
structure InRange (c : Cell) : Prop where
  x : 0 ≤ c.x ∧ c.x ≤ 0xFFFF
  y : 0 ≤ c.y ∧ c.y ≤ 0xFFFF
  z : 0 ≤ c.z ∧ c.z ≤ 15

/-- The window of a client as boxes. -/
theorem canSee_iff_box (p : Position) (c : Cell) : canSee p c.x c.y c.z ↔
    SeesFloor p.z.toNat c.z ∧
      InBox (p.x.toNat - 8) (p.y.toNat - 6) 18 14 (p.z.toNat - c.z) c := by
  rw [canSee_iff]
  constructor
  · rintro ⟨hz, ⟨h1, h2⟩, h3, h4⟩
    exact ⟨hz, by omega, by omega, by omega, by omega⟩
  · rintro ⟨hz, h1, h2, h3, h4⟩
    exact ⟨hz, ⟨by omega, by omega⟩, by omega, by omega⟩

/-- A full description covers the window. -/
theorem covered_sendMapDescription (myPos p : Position) (c : Cell) (hc : InRange c) :
    c ∈ covered [sendMapDescription myPos p] ↔ canSee p c.x c.y c.z := by
  have hcells : covered [sendMapDescription myPos p] =
      mapCells (p.x.toNat - 8) (p.y.toNat - 6) p.z.toNat 18 14 := List.append_nil _
  have hz := hc.z
  rw [hcells, mem_mapCells, canSee_iff_box, mem_floors]
  unfold SeesFloor
  constructor
  · rintro ⟨hfloor, hbox⟩
    exact ⟨by omega, hbox⟩
  · rintro ⟨hfloor, hbox⟩
    exact ⟨by omega, hbox⟩

/-- A step of the player, by at most one in each direction. -/
structure Step (oldPos newPos : Position) : Prop where
  x : |(newPos.x.toNat : ℤ) - oldPos.x.toNat| ≤ 1
  y : |(newPos.y.toNat : ℤ) - oldPos.y.toNat| ≤ 1
  z : |(newPos.z.toNat : ℤ) - oldPos.z.toNat| ≤ 1

section Move

variable {oldPos newPos : Position} {c : Cell}

theorem covered_move (myPos : Position) {oldStackPos : ℤ} (h : oldStackPos < 10) :
    covered (sendMoveCreature newPos oldPos myPos oldStackPos false) =
      (if newPos.z > oldPos.z then MoveDownCreature newPos oldPos
        else if newPos.z < oldPos.z then MoveUpCreature newPos oldPos else []).flatMap Part.cells ++
      (northSouth newPos oldPos).flatMap Part.cells ++
      (eastWest newPos oldPos).flatMap Part.cells := by
  have hhead : (if oldPos.z = 7 ∧ 8 ≤ newPos.z then RemoveTileThing oldPos oldStackPos
      else [.byte 0x6D, .position oldPos, .byte (UInt8.ofInt oldStackPos),
        .position newPos]).flatMap Part.cells = [] := by
    unfold RemoveTileThing
    split_ifs <;> rfl
  unfold covered sendMoveCreature
  rw [if_neg (by omega), if_neg Bool.false_ne_true]
  simp only [List.flatten_cons, List.flatten_nil, List.append_nil, List.flatMap_append, hhead,
    List.nil_append]

/-- The strip to the north or the south. -/
theorem mem_northSouth (hz : c.z ∈ floors newPos.z.toNat)
    (h : ((oldPos.y.toNat : ℤ) > newPos.y.toNat ∧
        InBox (oldPos.x.toNat - 8) (newPos.y.toNat - 6) 18 1 (newPos.z.toNat - c.z) c) ∨
      ((oldPos.y.toNat : ℤ) < newPos.y.toNat ∧
        InBox (oldPos.x.toNat - 8) (newPos.y.toNat + 7) 18 1 (newPos.z.toNat - c.z) c)) :
    c ∈ (northSouth newPos oldPos).flatMap Part.cells := by
  unfold northSouth
  simp only [gt_iff_lt, UInt16.lt_iff_toNat_lt]
  rcases h with ⟨hlt, hbox⟩ | ⟨hlt, hbox⟩
  · rw [if_pos (by omega)]
    simpa [Part.cells] using mem_mapCells.2 ⟨hz, hbox⟩
  · rw [if_neg (by omega), if_pos (by omega)]
    simpa [Part.cells] using mem_mapCells.2 ⟨hz, hbox⟩

/-- The strip to the east or the west. -/
theorem mem_eastWest (hz : c.z ∈ floors newPos.z.toNat)
    (h : ((oldPos.x.toNat : ℤ) < newPos.x.toNat ∧
        InBox (newPos.x.toNat + 9) (newPos.y.toNat - 6) 1 14 (newPos.z.toNat - c.z) c) ∨
      ((oldPos.x.toNat : ℤ) > newPos.x.toNat ∧
        InBox (newPos.x.toNat - 8) (newPos.y.toNat - 6) 1 14 (newPos.z.toNat - c.z) c)) :
    c ∈ (eastWest newPos oldPos).flatMap Part.cells := by
  unfold eastWest
  simp only [gt_iff_lt, UInt16.lt_iff_toNat_lt]
  rcases h with ⟨hlt, hbox⟩ | ⟨hlt, hbox⟩
  · rw [if_pos (by omega)]
    simpa [Part.cells] using mem_mapCells.2 ⟨hz, hbox⟩
  · rw [if_neg (by omega), if_pos (by omega)]
    simpa [Part.cells] using mem_mapCells.2 ⟨hz, hbox⟩

/-- The strips to the east and the south on the way down. -/
theorem mem_MoveDown (hz : c.z ∈ floors newPos.z.toNat)
    (h : InBox (oldPos.x.toNat + 9) (oldPos.y.toNat - 7) 1 14 (newPos.z.toNat - c.z) c ∨
      InBox (oldPos.x.toNat - 8) (oldPos.y.toNat + 7) 18 1 (newPos.z.toNat - c.z) c) :
    c ∈ (MoveDownCreature newPos oldPos).flatMap Part.cells := by
  unfold MoveDownCreature
  simp only [List.flatMap_append, List.mem_append, List.flatMap_cons, List.flatMap_nil, Part.cells,
    List.nil_append, List.append_nil, mem_mapCells]
  rcases h with h | h
  · exact .inl (.inr ⟨hz, h⟩)
  · exact .inr ⟨hz, h⟩

/-- The strips to the west and the north on the way up. -/
theorem mem_MoveUp (hz : c.z ∈ floors newPos.z.toNat)
    (h : InBox (oldPos.x.toNat - 8) (oldPos.y.toNat - 5) 1 14 (newPos.z.toNat - c.z) c ∨
      InBox (oldPos.x.toNat - 8) (oldPos.y.toNat - 6) 18 1 (newPos.z.toNat - c.z) c) :
    c ∈ (MoveUpCreature newPos oldPos).flatMap Part.cells := by
  unfold MoveUpCreature
  simp only [List.flatMap_append, List.mem_append, List.flatMap_cons, List.flatMap_nil, Part.cells,
    List.nil_append, List.append_nil, mem_mapCells]
  rcases h with h | h
  · exact .inl (.inr ⟨hz, h⟩)
  · exact .inr ⟨hz, h⟩

/-- The floors that come into view are sent where the window was. -/
theorem mem_new_floor (hstep : |(newPos.z.toNat : ℤ) - oldPos.z.toNat| ≤ 1) (hc : InRange c)
    (hnew : SeesFloor newPos.z.toNat c.z) (hold : ¬ SeesFloor oldPos.z.toNat c.z)
    (hbox : InBox (oldPos.x.toNat - 8) (oldPos.y.toNat - 6) 18 14 (oldPos.z.toNat - c.z) c) :
    c ∈ (if newPos.z > oldPos.z then MoveDownCreature newPos oldPos
      else if newPos.z < oldPos.z then MoveUpCreature newPos oldPos else []).flatMap Part.cells := by
  unfold SeesFloor at hnew hold
  have hrange := hc.z
  have hz := abs_le.1 hstep
  have hfloor : ∀ {off : ℤ}, (oldPos.z.toNat : ℤ) - c.z = off →
      InBox (oldPos.x.toNat - 8) (oldPos.y.toNat - 6) 18 14 off c := by
    rintro off rfl
    exact hbox
  simp only [gt_iff_lt, UInt8.lt_iff_toNat_lt]
  by_cases hdown : oldPos.z.toNat < newPos.z.toNat
  · rw [if_pos hdown]
    unfold MoveDownCreature
    simp only [List.flatMap_append, List.mem_append]
    left; left; right
    by_cases h8 : (newPos.z.toNat : ℤ) = 8
    · rw [if_pos h8]
      simp only [List.flatMap_cons, List.flatMap_nil, Part.cells, List.append_nil, List.mem_append,
        mem_floorCells]
      have hcz : c.z = 8 ∨ c.z = 9 ∨ c.z = 10 := by omega
      rcases hcz with hcz | hcz | hcz
      · exact .inl (.inl ⟨by omega, hfloor (by omega)⟩)
      · exact .inl (.inr ⟨by omega, hfloor (by omega)⟩)
      · exact .inr ⟨by omega, hfloor (by omega)⟩
    · rw [if_neg h8, if_pos (by omega)]
      simp only [List.flatMap_cons, List.flatMap_nil, Part.cells, List.append_nil, mem_floorCells]
      exact ⟨by omega, hfloor (by omega)⟩
  · rw [if_neg hdown, if_pos (by omega)]
    unfold MoveUpCreature
    simp only [List.flatMap_append, List.mem_append]
    left; left; right
    by_cases h7 : (newPos.z.toNat : ℤ) = 7
    · rw [if_pos h7]
      simp only [List.flatMap_cons, List.flatMap_nil, Part.cells, List.append_nil, List.mem_append,
        mem_floorCells]
      have hcz : c.z = 5 ∨ c.z = 4 ∨ c.z = 3 ∨ c.z = 2 ∨ c.z = 1 ∨ c.z = 0 := by omega
      rcases hcz with hcz | hcz | hcz | hcz | hcz | hcz
      · exact .inl (.inl (.inl (.inl (.inl ⟨hcz, hfloor (by omega)⟩))))
      · exact .inl (.inl (.inl (.inl (.inr ⟨hcz, hfloor (by omega)⟩))))
      · exact .inl (.inl (.inl (.inr ⟨hcz, hfloor (by omega)⟩)))
      · exact .inl (.inl (.inr ⟨hcz, hfloor (by omega)⟩))
      · exact .inl (.inr ⟨hcz, hfloor (by omega)⟩)
      · exact .inr ⟨hcz, hfloor (by omega)⟩
    · rw [if_neg h7, if_pos (by omega)]
      simp only [List.flatMap_cons, List.flatMap_nil, Part.cells, List.append_nil, mem_floorCells]
      exact ⟨by omega, hfloor (by omega)⟩

/-- What the strips do not reach was in the window already. -/
theorem mem_strips (hstep : Step oldPos newPos) (hz : c.z ∈ floors newPos.z.toNat)
    (hnew : InBox (newPos.x.toNat - 8) (newPos.y.toNat - 6) 18 14 (newPos.z.toNat - c.z) c)
    (hold : ¬ InBox (oldPos.x.toNat - 8) (oldPos.y.toNat - 6) 18 14 (oldPos.z.toNat - c.z) c) :
    c ∈ (if newPos.z > oldPos.z then MoveDownCreature newPos oldPos
        else if newPos.z < oldPos.z then MoveUpCreature newPos oldPos else []).flatMap Part.cells ++
      (northSouth newPos oldPos).flatMap Part.cells ++
      (eastWest newPos oldPos).flatMap Part.cells := by
  obtain ⟨hx1, hx2⟩ := abs_le.1 hstep.x
  obtain ⟨hy1, hy2⟩ := abs_le.1 hstep.y
  obtain ⟨hz1, hz2⟩ := abs_le.1 hstep.z
  obtain ⟨h1, h2, h3, h4⟩ := hnew
  rw [List.mem_append, List.mem_append]
  by_contra hno
  rw [not_or, not_or] at hno
  obtain ⟨⟨hfloors, hns⟩, hew⟩ := hno
  simp only [gt_iff_lt, UInt8.lt_iff_toNat_lt] at hfloors
  have hns' := mt (mem_northSouth hz) hns
  have hew' := mt (mem_eastWest hz) hew
  rw [inBox_iff] at hold
  rw [inBox_iff, inBox_iff] at hns' hew'
  by_cases hdown : oldPos.z.toNat < newPos.z.toNat
  · rw [if_pos hdown] at hfloors
    have hmove := mt (mem_MoveDown hz) hfloors
    rw [inBox_iff, inBox_iff] at hmove
    omega
  by_cases hup : newPos.z.toNat < oldPos.z.toNat
  · rw [if_neg hdown, if_pos hup] at hfloors
    have hmove := mt (mem_MoveUp hz) hfloors
    rw [inBox_iff, inBox_iff] at hmove
    omega
  · omega

/-- What a step brings into the window is sent. -/
theorem covered_step (myPos : Position) (hstep : Step oldPos newPos) {oldStackPos : ℤ}
    (hstack : oldStackPos < 10) (hc : InRange c) (hnew : canSee newPos c.x c.y c.z)
    (hold : ¬ canSee oldPos c.x c.y c.z) :
    c ∈ covered (sendMoveCreature newPos oldPos myPos oldStackPos false) := by
  rw [canSee_iff_box] at hnew hold
  obtain ⟨hfloor, hbox⟩ := hnew
  rw [covered_move myPos hstack]
  by_cases hwas : InBox (oldPos.x.toNat - 8) (oldPos.y.toNat - 6) 18 14 (oldPos.z.toNat - c.z) c
  · -- the cell lies where the window was: its floor is new
    have hnot : ¬ SeesFloor oldPos.z.toNat c.z := fun h => hold ⟨h, hwas⟩
    exact List.mem_append_left _
      (List.mem_append_left _ (mem_new_floor hstep.z hc hfloor hnot hwas))
  · have hz : c.z ∈ floors newPos.z.toNat := by
      have hrange := hc.z
      unfold SeesFloor at hfloor
      rw [mem_floors]
      omega
    exact mem_strips hstep hz hbox hwas

end Move

/-- The cells described along a walk: all at first, then what each step sends. -/
def described (walk : ℕ → Position) (stackpos : ℕ → ℤ) : ℕ → List Cell
  | 0 => covered [sendMapDescription (walk 0) (walk 0)]
  | n + 1 =>
    covered (sendMoveCreature (walk (n + 1)) (walk n) (walk (n + 1)) (stackpos n) false)

/-- Along a walk every cell in view was described when it came into view, or later. -/
theorem described_walk {walk : ℕ → Position} {stackpos : ℕ → ℤ}
    (hstep : ∀ n, Step (walk n) (walk (n + 1))) (hstack : ∀ n, stackpos n < 10) {c : Cell}
    (hc : InRange c) (n : ℕ) (hsee : canSee (walk n) c.x c.y c.z) :
    ∃ i ≤ n, c ∈ described walk stackpos i ∧
      ∀ j, i ≤ j → j ≤ n → canSee (walk j) c.x c.y c.z := by
  induction n with
  | zero =>
    refine ⟨0, le_refl 0, (covered_sendMapDescription _ _ c hc).2 hsee, fun j _ hj => ?_⟩
    rwa [Nat.le_zero.1 hj]
  | succ n ih =>
    by_cases hbefore : canSee (walk n) c.x c.y c.z
    · obtain ⟨i, hi, hmem, hview⟩ := ih hbefore
      refine ⟨i, by omega, hmem, fun j hij hj => ?_⟩
      rcases Nat.le_succ_iff.1 hj with hj | rfl
      · exact hview j hij hj
      · exact hsee
    · refine ⟨n + 1, le_refl _, covered_step _ (hstep n) (hstack n) hc hsee hbefore, ?_⟩
      intro j hij hj
      rwa [Nat.le_antisymm hj hij]

/-- **The window is described.** A full description covers exactly the window, a
step sends all that comes into the window, and so along every walk each cell in
view has been described since it came into view. -/
theorem window_described :
    (∀ (myPos p : Position) (c : Cell), InRange c →
      (c ∈ covered [sendMapDescription myPos p] ↔ canSee p c.x c.y c.z)) ∧
    (∀ (oldPos newPos myPos : Position) (oldStackPos : ℤ), Step oldPos newPos → oldStackPos < 10 →
      ∀ c : Cell, InRange c → canSee newPos c.x c.y c.z → ¬ canSee oldPos c.x c.y c.z →
        c ∈ covered (sendMoveCreature newPos oldPos myPos oldStackPos false)) ∧
    (∀ (walk : ℕ → Position) (stackpos : ℕ → ℤ), (∀ n, Step (walk n) (walk (n + 1))) →
      (∀ n, stackpos n < 10) → ∀ (n : ℕ) (c : Cell), InRange c → canSee (walk n) c.x c.y c.z →
        ∃ i ≤ n, c ∈ described walk stackpos i ∧
          ∀ j, i ≤ j → j ≤ n → canSee (walk j) c.x c.y c.z) :=
  ⟨covered_sendMapDescription,
    fun _ _ myPos _ hstep hstack _ hc hnew hold => covered_step myPos hstep hstack hc hnew hold,
    fun _ _ hstep hstack n _ hc hsee => described_walk hstep hstack hc n hsee⟩

/-- Up and down a staircase. -/
def staircase (n : ℕ) : Position := if n % 2 = 0 then ⟨100, 100, 7⟩ else ⟨101, 101, 8⟩

theorem step_staircase (n : ℕ) : Step (staircase n) (staircase (n + 1)) := by
  unfold staircase
  rcases Nat.mod_two_eq_zero_or_one n with h | h
  · rw [if_pos h, if_neg (by omega)]
    exact ⟨by decide, by decide, by decide⟩
  · rw [if_neg (by omega), if_pos (by omega)]
    exact ⟨by decide, by decide, by decide⟩

theorem window_described_staircase :
    (∃ i ≤ 1, (⟨101, 101, 10⟩ : Cell) ∈ described staircase (fun _ => 1) i ∧
      ∀ j, i ≤ j → j ≤ 1 → canSee (staircase j) 101 101 10) ∧
    (⟨101, 101, 10⟩ : Cell) ∈
      covered (sendMoveCreature ⟨101, 101, 8⟩ ⟨100, 100, 7⟩ ⟨101, 101, 8⟩ 1 false) :=
  ⟨window_described.2.2 staircase (fun _ => 1) step_staircase (fun _ => by norm_num) 1 _
      ⟨by decide, by decide, by decide⟩ (by decide),
    window_described.2.1 ⟨100, 100, 7⟩ ⟨101, 101, 8⟩ ⟨101, 101, 8⟩ 1
      ⟨by decide, by decide, by decide⟩ (by norm_num) _ ⟨by decide, by decide, by decide⟩
      (by decide) (by decide)⟩

end ProtocolGame
end ForgottenServer
