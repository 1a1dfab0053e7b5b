/-
# The scan for spectators

`Map::getSpectatorsInternal` walks over the leaves of a rectangle of blocks. It
follows the links to the east and to the south, and looks up the next leaf in
the tree where one is missing; on a map in order both lead to the leaf of the
next block (`mem_columns`, `mem_rows`), so the scan visits every leaf of the
rectangle and no other (`mem_scan`). The rectangle is clamped to the map after
its bounds have been narrowed to 32 bits, which is right only when they fit
(`Narrow`, `exact_iff_narrow`).

Key definitions: `getSpectatorsInternal`, `Registered`, `InRange`, `Narrow`.
Key theorems: `mem_scan`, `exact_iff_narrow`, `getSpectatorsInternal_byBlocks`.
-/
import Mathlib.Tactic
import ForgottenServer.Item
import ForgottenServer.QTree

namespace ForgottenServer
namespace SpectatorScan

open QTree
open Spectators (Position SpectatorVec)

/-! ### The scan -/

/-- The ranges of a scan, as the source passes them. -/
structure Ranges where
  minRangeX : Int32
  maxRangeX : Int32
  minRangeY : Int32
  maxRangeY : Int32
  minRangeZ : Int32
  maxRangeZ : Int32

/-- The coordinates that an axis is scanned for: the sums with the ranges and
the corners of the first and the last block. -/
structure Bounds where
  min : ℤ
  max : ℤ
  start : ℕ
  stop : ℕ

/-- `std::min<uint32_t>(0xFFFF, std::max<int32_t>(0, v))`. The argument comes in
64 bits. -/
def clamp (v : ℤ) : ℕ := (min 0xFFFF (max 0 (int32 v))).toNat

/-- The bounds of an axis. -/
def bounds (center : UInt16) (z : UInt8) (minRange maxRange minRangeZ maxRangeZ : Int32) : Bounds :=
  let min := int32 (center.toNat + minRange.toInt)
  let max := int32 (center.toNat + maxRange.toInt)
  let minoffset := int32 (z.toNat - maxRangeZ.toInt)
  let v1 := clamp (min + minoffset)
  let maxoffset := int32 (z.toNat - minRangeZ.toInt)
  let v2 := clamp (max + maxoffset)
  { min, max, start := v1 - v1 % 8, stop := v2 - v2 % 8 }

def Ranges.boundsX (r : Ranges) (centerPos : Position) : Bounds :=
  bounds centerPos.x centerPos.z r.minRangeX r.maxRangeX r.minRangeZ r.maxRangeZ

def Ranges.boundsY (r : Ranges) (centerPos : Position) : Bounds :=
  bounds centerPos.y centerPos.z r.minRangeY r.maxRangeY r.minRangeZ r.maxRangeZ

/-- The rounds of a loop from one corner to the other, in steps of eight. -/
def Bounds.rounds (b : Bounds) : ℕ := (b.stop + 8 - b.start) / 8

/-- The tests of one creature. -/
def sees (centerPos : Position) (r : Ranges) (cpos : Position) : Bool :=
  if (cpos.z.toNat : ℤ) < r.minRangeZ.toInt ∨ r.maxRangeZ.toInt < cpos.z.toNat then false
  else
    let offsetZ : ℤ := centerPos.z.toNat - cpos.z.toNat
    if cpos.y.toNat < (r.boundsY centerPos).min + offsetZ ∨
        (r.boundsY centerPos).max + offsetZ < cpos.y.toNat then false
    else if cpos.x.toNat < (r.boundsX centerPos).min + offsetZ ∨
        (r.boundsX centerPos).max + offsetZ < cpos.x.toNat then false
    else true

section Scan

variable {τ : Type*} (m : Map τ) (position : ℕ → Position)

/-- The creatures of a leaf that pass the tests. -/
def visit (centerPos : Position) (r : Ranges) (onlyPlayers : Bool) (leaf : ℕ) (list : SpectatorVec) :
    SpectatorVec :=
  let node_list := if onlyPlayers then (m.leaves leaf).player_list else (m.leaves leaf).creature_list
  node_list.foldl (fun list creature =>
    if sees centerPos r (position creature) then insert creature list else list) list

/-- The leaf that the scan goes on with: along the link of a leaf, or the one of
the next corner when there is none. -/
def nextLeaf (link : QTreeLeafNode τ → Option ℕ) (leaf : Option ℕ) (x y : ℕ) : Option ℕ :=
  match leaf with
  | some leaf => link (m.leaves leaf)
  | none => getLeafStatic m.root (UInt32.ofNat x) (UInt32.ofNat y)

/-- The inner loop, from `nx` on. -/
def columns (visit : ℕ → SpectatorVec → SpectatorVec) (ny : ℕ) :
    ℕ → ℕ → Option ℕ → SpectatorVec → SpectatorVec
  | 0, _, _, list => list
  | n + 1, nx, leafE, list =>
    columns visit ny n (nx + 8) (nextLeaf m (·.leafE) leafE (nx + 8) ny)
      (leafE.elim list fun leafE => visit leafE list)

/-- The outer loop, from `ny` on. -/
def rows (visit : ℕ → SpectatorVec → SpectatorVec) (startx1 width : ℕ) :
    ℕ → ℕ → Option ℕ → SpectatorVec → SpectatorVec
  | 0, _, _, list => list
  | n + 1, ny, leafS, list =>
    rows visit startx1 width n (ny + 8) (nextLeaf m (·.leafS) leafS startx1 (ny + 8))
      (columns m visit ny width startx1 leafS list)

/-- `Map::getSpectatorsInternal` -/
def getSpectatorsInternal (list : SpectatorVec) (centerPos : Position) (r : Ranges)
    (onlyPlayers : Bool) : SpectatorVec :=
  let bx := r.boundsX centerPos
  let bY := r.boundsY centerPos
  let startLeaf := getLeafStatic m.root (UInt32.ofNat bx.start) (UInt32.ofNat bY.start)
  rows m (visit m position centerPos r onlyPlayers) bx.start bx.rounds bY.rounds bY.start startLeaf list

end Scan

/-! ### The leaves that it visits -/

section Visits

variable {τ : Type*} {m : Map τ} {visit : ℕ → SpectatorVec → SpectatorVec} {found : ℕ → ℕ → Prop}

/-- The leaf of the block of a corner. -/
def leafAt (m : Map τ) (nx ny : ℕ) : Option ℕ := m.getLeaf (UInt32.ofNat nx) (UInt32.ofNat ny)

theorem leafAt_add_left (nx ny : ℕ) :
    leafAt m (nx + 8) ny = m.getLeaf (UInt32.ofNat nx + FLOOR_SIZE) (UInt32.ofNat ny) :=
  congrArg (m.getLeaf · (UInt32.ofNat ny)) (UInt32.ofNat_add nx 8)

theorem leafAt_add_right (nx ny : ℕ) :
    leafAt m nx (ny + 8) = m.getLeaf (UInt32.ofNat nx) (UInt32.ofNat ny + FLOOR_SIZE) :=
  congrArg (m.getLeaf (UInt32.ofNat nx)) (UInt32.ofNat_add ny 8)

/-- A missing leaf is stepped over, a link leads to the next one. -/
theorem nextLeaf_leafE (h : Good m) (nx ny : ℕ) :
    nextLeaf m (·.leafE) (leafAt m nx ny) (nx + 8) ny = leafAt m (nx + 8) ny := by
  cases hl : leafAt m nx ny with
  | none => exact h.getLeafStatic_eq _ _
  | some leaf => exact (h.linked _ _ leaf hl).2.trans (leafAt_add_left nx ny).symm

theorem nextLeaf_leafS (h : Good m) (nx ny : ℕ) :
    nextLeaf m (·.leafS) (leafAt m nx ny) nx (ny + 8) = leafAt m nx (ny + 8) := by
  cases hl : leafAt m nx ny with
  | none => exact h.getLeafStatic_eq _ _
  | some leaf => exact (h.linked _ _ leaf hl).1.trans (leafAt_add_right nx ny).symm

/-- A row of leaves is visited. -/
theorem mem_columns (h : Good m) (hvisit : ∀ leaf list c, c ∈ visit leaf list ↔ c ∈ list ∨ found leaf c)
    (n nx ny : ℕ) (list : SpectatorVec) (c : ℕ) :
    c ∈ columns m visit ny n nx (leafAt m nx ny) list ↔
      c ∈ list ∨ ∃ i < n, ∃ leaf, leafAt m (nx + 8 * i) ny = some leaf ∧ found leaf c := by
  induction n generalizing nx list with
  | zero => simp [columns]
  | succ n ih =>
    have hshift : ∀ i, nx + 8 + 8 * i = nx + 8 * (i + 1) := fun i => by omega
    have hfirst : c ∈ (leafAt m nx ny).elim list (fun leafE => visit leafE list) ↔
        c ∈ list ∨ ∃ leaf, leafAt m nx ny = some leaf ∧ found leaf c := by
      cases leafAt m nx ny with
      | none => simp
      | some leaf => simpa using hvisit leaf list c
    rw [columns, nextLeaf_leafE h, ih, hfirst, Nat.exists_lt_succ_left, or_assoc]
    simp only [hshift]
    rfl

/-- A rectangle of leaves is visited. -/
theorem mem_rows (h : Good m) (hvisit : ∀ leaf list c, c ∈ visit leaf list ↔ c ∈ list ∨ found leaf c)
    (width startx1 n ny : ℕ) (list : SpectatorVec) (c : ℕ) :
    c ∈ rows m visit startx1 width n ny (leafAt m startx1 ny) list ↔
      c ∈ list ∨ ∃ j < n, ∃ i < width, ∃ leaf,
        leafAt m (startx1 + 8 * i) (ny + 8 * j) = some leaf ∧ found leaf c := by
  induction n generalizing ny list with
  | zero => simp [rows]
  | succ n ih =>
    have hshift : ∀ j, ny + 8 + 8 * j = ny + 8 * (j + 1) := fun j => by omega
    rw [rows, nextLeaf_leafS h, ih, mem_columns h hvisit, Nat.exists_lt_succ_left, or_assoc]
    simp only [hshift]
    rfl

end Visits

/-! ### The creatures that it finds -/

section Found

variable {τ : Type*}

/-- The creatures of a leaf are in its block, and its players are the players
among them. -/
structure Registered (m : Map τ) (position : ℕ → Position) (isPlayer : ℕ → Bool) : Prop where
  home : ∀ x y leaf, m.getLeaf x y = some leaf → ∀ c ∈ (m.leaves leaf).creature_list,
    block (position c).x.toUInt32 = block x ∧ block (position c).y.toUInt32 = block y
  players : ∀ x y leaf, m.getLeaf x y = some leaf → ∀ c,
    c ∈ (m.leaves leaf).player_list ↔ c ∈ (m.leaves leaf).creature_list ∧ isPlayer c

/-- The creature is on the leaf of its position. -/
def IsRegistered (m : Map τ) (position : ℕ → Position) (c : ℕ) : Prop :=
  ∃ leaf, m.getLeaf (position c).x.toUInt32 (position c).y.toUInt32 = some leaf ∧
    c ∈ (m.leaves leaf).creature_list

/-- The block of a coordinate is among those of the bounds. -/
def Bounds.Covers (b : Bounds) (v : UInt16) : Prop :=
  b.start / 8 ≤ v.toNat / 8 ∧ v.toNat / 8 ≤ b.stop / 8

/-- Corners of blocks on the map. -/
structure Bounds.Ok (b : Bounds) : Prop where
  start_dvd : b.start % 8 = 0
  stop_dvd : b.stop % 8 = 0
  start_le : b.start ≤ 0xFFFF
  stop_le : b.stop ≤ 0xFFFF

theorem clamp_le_max (v : ℤ) : clamp v ≤ 0xFFFF := by
  unfold clamp
  omega

theorem bounds_ok (center : UInt16) (z : UInt8) (minRange maxRange minRangeZ maxRangeZ : Int32) :
    (bounds center z minRange maxRange minRangeZ maxRangeZ).Ok := by
  unfold bounds
  have h1 := clamp_le_max (int32 (center.toNat + minRange.toInt) + int32 (z.toNat - maxRangeZ.toInt))
  have h2 := clamp_le_max (int32 (center.toNat + maxRange.toInt) + int32 (z.toNat - minRangeZ.toInt))
  constructor <;> dsimp only <;> omega

theorem boundsX_ok (r : Ranges) (centerPos : Position) : (r.boundsX centerPos).Ok :=
  bounds_ok _ _ _ _ _ _

theorem boundsY_ok (r : Ranges) (centerPos : Position) : (r.boundsY centerPos).Ok :=
  bounds_ok _ _ _ _ _ _

theorem block_ofNat {n : ℕ} (hn : n ≤ 0xFFFF) : block (UInt32.ofNat n) = n / 8 := by
  have h : (UInt32.ofNat n).toNat = n := UInt32.toNat_ofNat_of_lt' (by norm_num; omega)
  unfold block
  rw [h]
  omega

/-- The rounds of a loop reach the blocks of the bounds. -/
theorem Bounds.Ok.covers_iff {b : Bounds} (h : b.Ok) (v : UInt16) :
    b.Covers v ↔ ∃ i < b.rounds, block v.toUInt32 = block (UInt32.ofNat (b.start + 8 * i)) := by
  obtain ⟨h1, h2, h3, h4⟩ := h
  unfold Bounds.Covers Bounds.rounds
  rw [block_toUInt32]
  constructor
  · intro ⟨ha, hb⟩
    refine ⟨v.toNat / 8 - b.start / 8, by omega, ?_⟩
    rw [block_ofNat (by omega)]
    omega
  · intro ⟨i, hi, he⟩
    rw [block_ofNat (by omega)] at he
    omega

variable {m : Map τ} {position : ℕ → Position} {isPlayer : ℕ → Bool}

theorem mem_visit (centerPos : Position) (r : Ranges) (onlyPlayers : Bool) (leaf : ℕ)
    (list : SpectatorVec) (c : ℕ) : c ∈ visit m position centerPos r onlyPlayers leaf list ↔ c ∈ list ∨
      c ∈ (if onlyPlayers then (m.leaves leaf).player_list else (m.leaves leaf).creature_list) ∧
      sees centerPos r (position c) = true := by
  unfold visit
  generalize (if onlyPlayers then (m.leaves leaf).player_list else (m.leaves leaf).creature_list) = l
  dsimp only
  induction l generalizing list with
  | nil => simp
  | cons c' l ih =>
    rw [List.foldl_cons, ih, List.mem_cons]
    by_cases hs : sees centerPos r (position c') = true
    · rw [if_pos hs, Finset.mem_insert]
      constructor
      · rintro ((rfl | hc) | ⟨hc, hs'⟩)
        · exact .inr ⟨.inl rfl, hs⟩
        · exact .inl hc
        · exact .inr ⟨.inr hc, hs'⟩
      · rintro (hc | ⟨rfl | hc, hs'⟩)
        · exact .inl (.inr hc)
        · exact .inl (.inl rfl)
        · exact .inr ⟨hc, hs'⟩
    · rw [if_neg hs]
      refine or_congr_right (and_congr_left fun hs' => (or_iff_right ?_).symm)
      rintro rfl
      exact hs hs'

/-- The scan visits the leaves of its rectangle. -/
theorem mem_scan_leaves (h : Good m) (list : SpectatorVec) (centerPos : Position) (r : Ranges)
    (onlyPlayers : Bool) (c : ℕ) :
    c ∈ getSpectatorsInternal m position list centerPos r onlyPlayers ↔ c ∈ list ∨
      ∃ j < (r.boundsY centerPos).rounds, ∃ i < (r.boundsX centerPos).rounds, ∃ leaf,
        leafAt m ((r.boundsX centerPos).start + 8 * i) ((r.boundsY centerPos).start + 8 * j) = some leaf ∧
        c ∈ (if onlyPlayers then (m.leaves leaf).player_list else (m.leaves leaf).creature_list) ∧
        sees centerPos r (position c) = true := by
  unfold getSpectatorsInternal
  dsimp only
  rw [h.getLeafStatic_eq]
  exact mem_rows h (mem_visit centerPos r onlyPlayers) _ _ _ _ list c

/-- **The scan finds the creatures of the blocks of its rectangle that pass the
tests.** -/
theorem mem_scan (h : Good m) (hr : Registered m position isPlayer) (list : SpectatorVec)
    (centerPos : Position) (r : Ranges) (onlyPlayers : Bool) (c : ℕ) :
    c ∈ getSpectatorsInternal m position list centerPos r onlyPlayers ↔ c ∈ list ∨
      IsRegistered m position c ∧ (onlyPlayers = true → isPlayer c = true) ∧
      ((r.boundsX centerPos).Covers (position c).x ∧ (r.boundsY centerPos).Covers (position c).y) ∧
      sees centerPos r (position c) = true := by
  have hlist : ∀ x y leaf, m.getLeaf x y = some leaf →
      (c ∈ (if onlyPlayers then (m.leaves leaf).player_list else (m.leaves leaf).creature_list) ↔
        c ∈ (m.leaves leaf).creature_list ∧ (onlyPlayers = true → isPlayer c = true)) := by
    intro x y leaf hl
    cases onlyPlayers with
    | true =>
      rw [if_pos rfl, hr.players x y leaf hl]
      exact and_congr_right fun _ => ⟨fun hp _ => hp, fun hp => hp rfl⟩
    | false =>
      rw [if_neg Bool.false_ne_true]
      exact (and_iff_left nofun).symm
  refine (mem_scan_leaves h list centerPos r onlyPlayers c).trans (or_congr_right ?_)
  rw [(boundsX_ok r centerPos).covers_iff, (boundsY_ok r centerPos).covers_iff]
  constructor
  · intro ⟨j, hj, i, hi, leaf, hl, hc, hs⟩
    obtain ⟨hc, hp⟩ := (hlist _ _ leaf hl).1 hc
    obtain ⟨hx, hy⟩ := hr.home _ _ leaf hl c hc
    refine ⟨⟨leaf, (h.getLeaf_congr hx hy).trans hl, hc⟩, hp, ⟨⟨i, hi, hx⟩, j, hj, hy⟩, hs⟩
  · intro ⟨⟨leaf, hl, hc⟩, hp, ⟨⟨i, hi, hx⟩, j, hj, hy⟩, hs⟩
    have hl' : leafAt m ((r.boundsX centerPos).start + 8 * i) ((r.boundsY centerPos).start + 8 * j) = some leaf :=
      (h.getLeaf_congr hx hy).symm.trans hl
    exact ⟨j, hj, i, hi, leaf, hl', (hlist _ _ leaf hl).2 ⟨hc, hp⟩, hs⟩

end Found

/-! ### What it should find -/

/-- A coordinate is in the range around the centre, shifted by the difference
of the floors. -/
def InAxis (center : UInt16) (z : UInt8) (minRange maxRange : Int32) (v : UInt16) (vz : UInt8) : Prop :=
  (center.toNat : ℤ) + minRange.toInt + (z.toNat - vz.toNat) ≤ v.toNat ∧
    (v.toNat : ℤ) ≤ center.toNat + maxRange.toInt + (z.toNat - vz.toNat)

/-- A position is in the ranges. -/
def InRange (centerPos : Position) (r : Ranges) (pos : Position) : Prop :=
  (r.minRangeZ.toInt ≤ pos.z.toNat ∧ (pos.z.toNat : ℤ) ≤ r.maxRangeZ.toInt) ∧
    InAxis centerPos.x centerPos.z r.minRangeX r.maxRangeX pos.x pos.z ∧
    InAxis centerPos.y centerPos.z r.minRangeY r.maxRangeY pos.y pos.z

/-- The bounds of an axis fit in 32 bits. -/
def NarrowAxis (center : UInt16) (z : UInt8) (minRange maxRange minRangeZ maxRangeZ : Int32) : Prop :=
  -2 ^ 31 ≤ (center.toNat : ℤ) + minRange.toInt + (z.toNat - maxRangeZ.toInt) ∧
    (center.toNat : ℤ) + maxRange.toInt < 2 ^ 31 ∧
    (center.toNat : ℤ) + maxRange.toInt + (z.toNat - minRangeZ.toInt) < 2 ^ 31

def Narrow (centerPos : Position) (r : Ranges) : Prop :=
  NarrowAxis centerPos.x centerPos.z r.minRangeX r.maxRangeX r.minRangeZ r.maxRangeZ ∧
    NarrowAxis centerPos.y centerPos.z r.minRangeY r.maxRangeY r.minRangeZ r.maxRangeZ

/-- The ranges of a call: both sides of the centre, floors of the map. -/
structure Ranges.Valid (r : Ranges) : Prop where
  minX : r.minRangeX.toInt ≤ 0
  maxX : 0 ≤ r.maxRangeX.toInt
  minY : r.minRangeY.toInt ≤ 0
  maxY : 0 ≤ r.maxRangeY.toInt
  minZ : 0 ≤ r.minRangeZ.toInt ∧ r.minRangeZ.toInt ≤ 15
  maxZ : 0 ≤ r.maxRangeZ.toInt ∧ r.maxRangeZ.toInt ≤ 15

/-- The code's test of an axis. -/
def Bounds.Test (b : Bounds) (z vz : UInt8) (v : UInt16) : Prop :=
  b.min + (z.toNat - vz.toNat) ≤ v.toNat ∧ (v.toNat : ℤ) ≤ b.max + (z.toNat - vz.toNat)

theorem sees_iff (centerPos : Position) (r : Ranges) (cpos : Position) : sees centerPos r cpos = true ↔
    (r.minRangeZ.toInt ≤ cpos.z.toNat ∧ (cpos.z.toNat : ℤ) ≤ r.maxRangeZ.toInt) ∧
    (r.boundsX centerPos).Test centerPos.z cpos.z cpos.x ∧
    (r.boundsY centerPos).Test centerPos.z cpos.z cpos.y := by
  unfold sees Bounds.Test
  dsimp only
  split_ifs with hz hy hx
  · exact iff_of_false id fun ⟨h, _⟩ => by omega
  · exact iff_of_false id fun ⟨_, _, h⟩ => by omega
  · exact iff_of_false id fun ⟨_, h, _⟩ => by omega
  · exact iff_of_true rfl (by omega)

section Axis

variable {center : UInt16} {z : UInt8} {minRange maxRange minRangeZ maxRangeZ : Int32}

theorem int32_of_fits {n : ℤ} (h1 : -2 ^ 31 ≤ n) (h2 : n < 2 ^ 31) : int32 n = n := by
  unfold int32
  omega

theorem int32_neg {n : ℤ} (h1 : 2 ^ 31 ≤ n) (h2 : n < 2 ^ 32) : int32 n < 0 := by
  unfold int32
  omega

/-- The offset of a floor fits in 32 bits. -/
theorem int32_offset (z : UInt8) {floor : Int32} (h : 0 ≤ floor.toInt ∧ floor.toInt ≤ 15) :
    int32 (z.toNat - floor.toInt) = z.toNat - floor.toInt := by
  have hz := z.toNat_lt
  exact int32_of_fits (by omega) (by omega)

/-- An upper sum that wraps is below the right one. -/
theorem int32_le {n : ℤ} (h : 0 ≤ n) : int32 n ≤ n := by
  unfold int32
  omega

/-- What passes the test is in the range. -/
theorem inAxis_of_test (hmin : minRange.toInt ≤ 0) (hmax : 0 ≤ maxRange.toInt) {v : UInt16} {vz : UInt8}
    (h : (bounds center z minRange maxRange minRangeZ maxRangeZ).Test z vz v) :
    InAxis center z minRange maxRange v vz := by
  have hc := center.toNat_lt
  have hm := minRange.le_toInt
  have hmin1 : int32 (center.toNat + minRange.toInt) = center.toNat + minRange.toInt :=
    int32_of_fits (by omega) (by omega)
  have hmax1 : int32 (center.toNat + maxRange.toInt) ≤ center.toNat + maxRange.toInt :=
    int32_le (by omega)
  unfold bounds Bounds.Test at h
  dsimp only at h
  rw [hmin1] at h
  unfold InAxis
  omega

/-- Narrow bounds are those of the numbers. -/
theorem NarrowAxis.bounds_eq (h : NarrowAxis center z minRange maxRange minRangeZ maxRangeZ)
    (hmin : minRange.toInt ≤ 0) (hmax : 0 ≤ maxRange.toInt)
    (hminZ : 0 ≤ minRangeZ.toInt ∧ minRangeZ.toInt ≤ 15)
    (hmaxZ : 0 ≤ maxRangeZ.toInt ∧ maxRangeZ.toInt ≤ 15) :
    bounds center z minRange maxRange minRangeZ maxRangeZ =
      let x1 := Spectators.clamp (center.toNat + minRange.toInt + (z.toNat - maxRangeZ.toInt))
      let x2 := Spectators.clamp (center.toNat + maxRange.toInt + (z.toNat - minRangeZ.toInt))
      { min := center.toNat + minRange.toInt
        max := center.toNat + maxRange.toInt
        start := x1 - x1 % 8
        stop := x2 - x2 % 8 } := by
  obtain ⟨h1, h2, h3⟩ := h
  have hc := center.toNat_lt
  have hzc := z.toNat_lt
  have hm := minRange.le_toInt
  have hmin1 : int32 (center.toNat + minRange.toInt) = center.toNat + minRange.toInt :=
    int32_of_fits (by omega) (by omega)
  have hmax1 : int32 (center.toNat + maxRange.toInt) = center.toNat + maxRange.toInt :=
    int32_of_fits (by omega) (by omega)
  have hmin2 : int32 (center.toNat + minRange.toInt + (z.toNat - maxRangeZ.toInt)) =
      center.toNat + minRange.toInt + (z.toNat - maxRangeZ.toInt) := int32_of_fits (by omega) (by omega)
  have hmax2 : int32 (center.toNat + maxRange.toInt + (z.toNat - minRangeZ.toInt)) =
      center.toNat + maxRange.toInt + (z.toNat - minRangeZ.toInt) := int32_of_fits (by omega) (by omega)
  unfold bounds clamp Spectators.clamp
  dsimp only
  rw [int32_offset z hminZ, int32_offset z hmaxZ, hmin1, hmax1, hmin2, hmax2]

/-- Narrow bounds: what is in the range passes the test and its block is visited. -/
theorem NarrowAxis.covers (h : NarrowAxis center z minRange maxRange minRangeZ maxRangeZ)
    (hmin : minRange.toInt ≤ 0) (hmax : 0 ≤ maxRange.toInt)
    (hminZ : 0 ≤ minRangeZ.toInt ∧ minRangeZ.toInt ≤ 15)
    (hmaxZ : 0 ≤ maxRangeZ.toInt ∧ maxRangeZ.toInt ≤ 15) {v : UInt16} {vz : UInt8}
    (hz : minRangeZ.toInt ≤ vz.toNat ∧ (vz.toNat : ℤ) ≤ maxRangeZ.toInt) :
    (bounds center z minRange maxRange minRangeZ maxRangeZ).Covers v ∧
      (bounds center z minRange maxRange minRangeZ maxRangeZ).Test z vz v ↔
    InAxis center z minRange maxRange v vz := by
  have hv := v.toNat_lt
  rw [h.bounds_eq hmin hmax hminZ hmaxZ]
  unfold Bounds.Covers Bounds.Test InAxis Spectators.clamp
  dsimp only
  omega

/-- Bounds that do not fit: if anything on a floor is in the range, something on
it is that the scan misses. -/
theorem missed_of_not_narrow (h : ¬ NarrowAxis center z minRange maxRange minRangeZ maxRangeZ)
    (hmin : minRange.toInt ≤ 0) (hmax : 0 ≤ maxRange.toInt)
    (hminZ : 0 ≤ minRangeZ.toInt ∧ minRangeZ.toInt ≤ 15)
    (hmaxZ : 0 ≤ maxRangeZ.toInt ∧ maxRangeZ.toInt ≤ 15) {v : UInt16} {vz : UInt8}
    (hz : minRangeZ.toInt ≤ vz.toNat ∧ (vz.toNat : ℤ) ≤ maxRangeZ.toInt)
    (hv : InAxis center z minRange maxRange v vz) :
    ∃ v', InAxis center z minRange maxRange v' vz ∧
      ¬ ((bounds center z minRange maxRange minRangeZ maxRangeZ).Covers v' ∧
        (bounds center z minRange maxRange minRangeZ maxRangeZ).Test z vz v') := by
  have hc := center.toNat_lt
  have hzc := z.toNat_lt
  have hv' := v.toNat_lt
  have hm := minRange.le_toInt
  have hM := maxRange.toInt_lt
  have hmin1 : int32 (center.toNat + minRange.toInt) = center.toNat + minRange.toInt :=
    int32_of_fits (by omega) (by omega)
  unfold InAxis at hv
  unfold NarrowAxis at h
  unfold bounds Bounds.Covers Bounds.Test InAxis clamp
  dsimp only
  rw [int32_offset z hminZ, int32_offset z hmaxZ, hmin1]
  by_cases h1 : -2 ^ 31 ≤ (center.toNat : ℤ) + minRange.toInt + (z.toNat - maxRangeZ.toInt)
  · by_cases h2 : (center.toNat : ℤ) + maxRange.toInt < 2 ^ 31
    · -- the upper bound wraps with the offset, and the scan stops in the first column
      have hlast : (0xFFFF : UInt16).toNat = 0xFFFF := rfl
      have hmax1 : int32 (center.toNat + maxRange.toInt) = center.toNat + maxRange.toInt :=
        int32_of_fits (by omega) h2
      have hmax2 : int32 (center.toNat + maxRange.toInt + (z.toNat - minRangeZ.toInt)) < 0 :=
        int32_neg (by omega) (by omega)
      refine ⟨0xFFFF, ?_, ?_⟩
      · rw [hlast]
        omega
      · rw [hlast, hmax1]
        omega
    · -- the upper bound wraps by itself, and nothing passes the test
      have hmax1 : int32 (center.toNat + maxRange.toInt) = center.toNat + maxRange.toInt - 2 ^ 32 := by
        unfold int32
        omega
      refine ⟨v, hv, ?_⟩
      rw [hmax1]
      omega
  · -- the lower bound wraps, and the scan starts in the last column
    have hfirst : (0 : UInt16).toNat = 0 := rfl
    have hmin2 : 0xFFFF ≤ int32 (center.toNat + minRange.toInt + (z.toNat - maxRangeZ.toInt)) := by
      unfold int32
      omega
    refine ⟨0, ?_, ?_⟩
    · rw [hfirst]
      omega
    · rw [hfirst]
      omega

end Axis

/-! ### Maps -/

section Maps

variable {τ : Type*} {m : Map τ} {position : ℕ → Position} {isPlayer : ℕ → Bool}

/-- `QTreeLeafNode::addCreature` -/
def addCreature (m : Map τ) (isPlayer : ℕ → Bool) (leaf c : ℕ) : Map τ :=
  m.modify leaf fun l => { l with toQTreeLeafNode := l.toQTreeLeafNode.addCreature isPlayer c }

/-- `QTreeLeafNode::removeCreature` -/
def removeCreature (m : Map τ) (isPlayer : ℕ → Bool) (leaf c : ℕ) : Map τ :=
  m.modify leaf fun l => { l with toQTreeLeafNode := l.toQTreeLeafNode.removeCreature isPlayer c }

/-- A new leaf has no creatures. -/
theorem Registered.created (hr : Registered m position isPlayer) (h : Good m) {m' : Map τ} {x y : UInt32}
    {leaf : ℕ} (hc : Created m x y m' leaf) : Registered m' position isPlayer := by
  -- a leaf with creatures was there before
  have hold : ∀ x' y' l, m'.getLeaf x' y' = some l →
      (m'.leaves l).toQTreeLeafNode = {} ∨
        m.getLeaf x' y' = some l ∧ (m'.leaves l).toQTreeLeafNode = (m.leaves l).toQTreeLeafNode := by
    intro x' y' l hl
    rw [hc.getLeaf] at hl
    by_cases hb : block x' = block x ∧ block y' = block y
    · rw [if_pos hb] at hl
      obtain rfl := Option.some.inj hl
      cases hxy : m.getLeaf x y with
      | none => exact .inl (hc.fresh hxy).2
      | some l' =>
        obtain rfl := hc.same l' hxy
        exact .inr ⟨(h.getLeaf_congr hb.1 hb.2).trans hxy, (hc.kept x y leaf hxy).2⟩
    · rw [if_neg hb] at hl
      exact .inr ⟨hl, (hc.kept x' y' l hl).2⟩
  constructor
  · intro x' y' l hl c hmem
    rcases hold x' y' l hl with he | ⟨hl', he⟩
    · rw [he] at hmem
      nomatch hmem
    · rw [he] at hmem
      exact hr.home x' y' l hl' c hmem
  · intro x' y' l hl c
    rcases hold x' y' l hl with he | ⟨hl', he⟩
    · rw [he]
      exact iff_of_false nofun fun hmem => nomatch hmem.1
    · rw [he]
      exact hr.players x' y' l hl' c

/-- A creature that is on no leaf comes onto the one of its position. -/
theorem Registered.addCreature (hr : Registered m position isPlayer) (h : Good m) {pos : Position}
    {leaf c : ℕ} (hleaf : m.getLeaf pos.x.toUInt32 pos.y.toUInt32 = some leaf)
    (hc : ∀ x y l, m.getLeaf x y = some l → c ∉ (m.leaves l).creature_list) :
    Registered (addCreature m isPlayer leaf c) (Function.update position c pos) isPlayer := by
  -- the other creatures are where they were
  have hother : ∀ x y l, m.getLeaf x y = some l → ∀ c' ∈ (m.leaves l).creature_list,
      Function.update position c pos c' = position c' := by
    intro x y l hl c' hc'
    apply Function.update_of_ne
    rintro rfl
    exact hc x y l hl hc'
  have hplayer : ∀ x y l, m.getLeaf x y = some l → c ∉ (m.leaves l).player_list := fun x y l hl hp =>
    hc x y l hl ((hr.players x y l hl c).1 hp).1
  constructor
  · intro x y l hl c' hc'
    have hl' : m.getLeaf x y = some l := hl
    unfold SpectatorScan.addCreature at hc'
    rw [leaves_modify] at hc'
    by_cases he : l = leaf
    · rw [if_pos he] at hc'
      rcases List.mem_append.1 hc' with hold | hnew
      · rw [hother x y l hl' c' hold]
        exact hr.home x y l hl' c' hold
      · obtain rfl := List.mem_singleton.1 hnew
        rw [Function.update_self]
        exact h.block_eq hleaf (he ▸ hl')
    · rw [if_neg he] at hc'
      rw [hother x y l hl' c' hc']
      exact hr.home x y l hl' c' hc'
  · intro x y l hl c'
    have hl' : m.getLeaf x y = some l := hl
    have hp := hr.players x y l hl' c'
    unfold SpectatorScan.addCreature
    rw [leaves_modify]
    by_cases he : l = leaf
    · rw [if_pos he]
      unfold Spectators.QTreeLeafNode.addCreature
      dsimp only
      rw [List.mem_append, List.mem_singleton]
      split
      · next hpc =>
        rw [List.mem_append, List.mem_singleton, hp, or_and_right]
        refine or_congr_right (and_iff_left_of_imp ?_).symm
        rintro rfl
        exact hpc
      · next hpc =>
        rw [hp, or_and_right]
        refine (or_iff_left ?_).symm
        rintro ⟨rfl, hpc'⟩
        exact hpc hpc'
    · rw [if_neg he]
      exact hp

/-- A creature goes from a leaf that has it once. -/
theorem Registered.removeCreature (hr : Registered m position isPlayer) {leaf c : ℕ}
    (hn : (m.leaves leaf).creature_list.Nodup) (hp : (m.leaves leaf).player_list.Nodup) :
    Registered (removeCreature m isPlayer leaf c) position isPlayer ∧
      c ∉ ((SpectatorScan.removeCreature m isPlayer leaf c).leaves leaf).creature_list := by
  have hlists := (Spectators.nodup_swapRemove hn c).2
  have hleaves : ∀ l, (SpectatorScan.removeCreature m isPlayer leaf c).leaves l =
      if l = leaf then { m.leaves l with
        toQTreeLeafNode := (m.leaves l).toQTreeLeafNode.removeCreature isPlayer c } else m.leaves l :=
    leaves_modify leaf _
  refine ⟨⟨fun x y l hl c' hc' => ?_, fun x y l hl c' => ?_⟩, ?_⟩
  · rw [hleaves] at hc'
    by_cases he : l = leaf
    · subst he
      rw [if_pos rfl] at hc'
      exact hr.home x y l hl c' ((hlists c').1 hc').1
    · rw [if_neg he] at hc'
      exact hr.home x y l hl c' hc'
  · have hpl := hr.players x y l hl
    rw [hleaves]
    by_cases he : l = leaf
    · subst he
      rw [if_pos rfl]
      unfold Spectators.QTreeLeafNode.removeCreature
      dsimp only
      rw [hlists c']
      split
      · next hpc =>
        rw [(Spectators.nodup_swapRemove hp c).2 c', hpl]
        exact and_right_comm
      · next hpc =>
        rw [hpl]
        refine ⟨fun ⟨h1, h2⟩ => ⟨⟨h1, fun e => hpc (e ▸ h2)⟩, h2⟩, fun ⟨h1, h2⟩ => ⟨h1.1, h2⟩⟩
    · rw [if_neg he]
      exact hpl c'
  · rw [hleaves, if_pos rfl]
    exact fun hmem => ((hlists c).1 hmem).2 rfl

/-- A write to a leaf that leaves its creatures alone. -/
theorem Registered.modify (hr : Registered m position isPlayer) (leaf : ℕ)
    {f : QTreeLeafNode τ → QTreeLeafNode τ} (hf : ∀ l, (f l).toQTreeLeafNode = l.toQTreeLeafNode) :
    Registered (m.modify leaf f) position isPlayer := by
  have hleaves : ∀ l, ((m.modify leaf f).leaves l).toQTreeLeafNode = (m.leaves l).toQTreeLeafNode := by
    intro l
    rw [leaves_modify]
    by_cases he : l = leaf
    · rw [if_pos he]
      exact hf _
    · rw [if_neg he]
  constructor
  · intro x y l hl c hc
    rw [hleaves] at hc
    exact hr.home x y l hl c hc
  · intro x y l hl c
    rw [hleaves]
    exact hr.players x y l hl c

/-- `setTile` leaves the creatures where they are. -/
theorem Registered.setTile {ι : Type*} (hr : Registered m position isPlayer) (h : Good m)
    {methods : TileMethods τ ι} {call : SetTile τ} {m' : Map τ} (hset : m.setTile methods call = some m') :
    Registered m' position isPlayer := by
  unfold Map.setTile at hset
  by_cases hz : MAP_MAX_LAYERS ≤ call.pos.z.toNat
  · rw [if_pos hz] at hset
    exact Option.some.inj hset ▸ hr
  · obtain ⟨m₁, leaf, hcreate, hc⟩ := createLeaf_spec h call.pos.x call.pos.y
    rw [if_neg hz, hcreate, Option.map_some] at hset
    rw [← Option.some.inj hset]
    apply Registered.modify
    · apply (hr.created h hc).modify
      intro l
      unfold QTreeLeafNode.createFloor
      cases l.array call.pos.z.toNat <;> rfl
    · intro l
      unfold QTreeLeafNode.setPlace
      cases l.array call.pos.z.toNat <;> rfl

/-- A map with one leaf and one creature on it. -/
def lone (τ : Type*) (pos : Position) : Map τ :=
  match ({} : Map τ).createLeaf pos.x pos.y with
  | some (m, leaf) => addCreature m (fun _ => false) leaf 0
  | none => {}

theorem registered_empty (position : ℕ → Position) (isPlayer : ℕ → Bool) :
    Registered ({} : Map τ) position isPlayer where
  home _ _ _ hl := nomatch hl
  players _ _ _ hl := nomatch hl

theorem lone_spec (pos : Position) : Good (lone τ pos) ∧
    Registered (lone τ pos) (fun _ => pos) (fun _ => false) ∧ IsRegistered (lone τ pos) (fun _ => pos) 0 := by
  obtain ⟨m, leaf, hcreate, hc⟩ := createLeaf_spec (good_empty (τ := τ)) pos.x pos.y
  have hlone : lone τ pos = addCreature m (fun _ => false) leaf 0 := by
    unfold lone
    rw [hcreate]
  have hleaf : m.getLeaf pos.x.toUInt32 pos.y.toUInt32 = some leaf := by
    rw [hc.getLeaf, if_pos ⟨rfl, rfl⟩]
  have hnone : ∀ x y, ({} : Map τ).getLeaf x y = none := fun _ _ => rfl
  have hreg : Registered m (fun _ => pos) (fun _ => false) :=
    (registered_empty (fun _ => pos) fun _ => false).created good_empty hc
  have hempty : ∀ x y l, m.getLeaf x y = some l → 0 ∉ (m.leaves l).creature_list := by
    intro x y l hl
    rw [hc.getLeaf, hnone] at hl
    by_cases hb : block x = block pos.x.toUInt32 ∧ block y = block pos.y.toUInt32
    · rw [if_pos hb] at hl
      obtain rfl := Option.some.inj hl
      rw [(hc.fresh (hnone _ _)).2]
      exact nofun
    · rw [if_neg hb] at hl
      nomatch hl
  rw [hlone]
  refine ⟨hc.good.modify leaf fun _ => ⟨rfl, rfl⟩, ?_, leaf, hleaf, ?_⟩
  · have hadd := hreg.addCreature hc.good hleaf hempty
    rwa [Function.update_eq_self_iff.2 rfl] at hadd
  · unfold addCreature
    rw [leaves_modify, if_pos rfl]
    exact List.mem_append_right _ (List.mem_singleton_self 0)

end Maps

/-! ### When the scan is exact -/

section Exact

/-- The scan adds the registered creatures in the ranges to the list, on every
map in order. -/
def Exact (τ : Type*) (centerPos : Position) (r : Ranges) : Prop :=
  ∀ (m : Map τ) (position : ℕ → Position) (isPlayer : ℕ → Bool), Good m → Registered m position isPlayer →
    ∀ (list : SpectatorVec) (onlyPlayers : Bool) (c : ℕ),
      c ∈ getSpectatorsInternal m position list centerPos r onlyPlayers ↔ c ∈ list ∨
        IsRegistered m position c ∧ (onlyPlayers = true → isPlayer c = true) ∧
        InRange centerPos r (position c)

variable {τ : Type*} {centerPos : Position} {r : Ranges}

/-- What the scan finds of the registered creatures. -/
def Finds (centerPos : Position) (r : Ranges) (pos : Position) : Prop :=
  ((r.boundsX centerPos).Covers pos.x ∧ (r.boundsY centerPos).Covers pos.y) ∧ sees centerPos r pos = true

theorem finds_iff (pos : Position) : Finds centerPos r pos ↔
    (r.minRangeZ.toInt ≤ pos.z.toNat ∧ (pos.z.toNat : ℤ) ≤ r.maxRangeZ.toInt) ∧
    ((r.boundsX centerPos).Covers pos.x ∧ (r.boundsX centerPos).Test centerPos.z pos.z pos.x) ∧
    ((r.boundsY centerPos).Covers pos.y ∧ (r.boundsY centerPos).Test centerPos.z pos.z pos.y) := by
  unfold Finds
  rw [sees_iff]
  tauto

/-- What the scan finds is in the ranges, whatever the bounds. -/
theorem inRange_of_finds (hr : r.Valid) {pos : Position} (h : Finds centerPos r pos) :
    InRange centerPos r pos := by
  obtain ⟨hz, ⟨-, hx⟩, -, hy⟩ := (finds_iff pos).1 h
  exact ⟨hz, inAxis_of_test hr.minX hr.maxX hx, inAxis_of_test hr.minY hr.maxY hy⟩

/-- The scan is exact when it finds exactly the positions in the ranges. -/
theorem exact_iff_finds : Exact τ centerPos r ↔ ∀ pos, Finds centerPos r pos ↔ InRange centerPos r pos := by
  constructor
  · intro h pos
    obtain ⟨hg, hr, hi⟩ := lone_spec (τ := τ) pos
    have hc := h (lone τ pos) _ _ hg hr ∅ false 0
    rw [mem_scan hg hr] at hc
    have hn : (0 : ℕ) ∉ (∅ : SpectatorVec) := Finset.notMem_empty 0
    have hp : false = true → (fun _ : ℕ => false) 0 = true := nofun
    rw [or_iff_right hn, or_iff_right hn, and_iff_right hi, and_iff_right hi] at hc
    exact ⟨fun hf => (hc.1 ⟨hp, hf⟩).2, fun hin => (hc.2 ⟨hp, hin⟩).2⟩
  · intro h m position isPlayer hg hr list onlyPlayers c
    rw [mem_scan hg hr, ← h]
    rfl

/-- **The scan is exact when its bounds fit in 32 bits, and otherwise only when
no position is in the ranges.** -/
theorem exact_iff_narrow (hr : r.Valid) :
    Exact τ centerPos r ↔ Narrow centerPos r ∨ ∀ pos, ¬ InRange centerPos r pos := by
  rw [exact_iff_finds]
  constructor
  · intro h
    by_contra hno
    rw [not_or, not_forall] at hno
    obtain ⟨hwide, pos, hin⟩ := hno
    obtain ⟨hz, hx, hy⟩ := not_not.1 hin
    rw [Narrow, not_and_or] at hwide
    rcases hwide with hwide | hwide
    · obtain ⟨x, hin', hmiss⟩ := missed_of_not_narrow hwide hr.minX hr.maxX hr.minZ hr.maxZ hz hx
      exact hmiss ((finds_iff _).1 ((h { pos with x }).2 ⟨hz, hin', hy⟩)).2.1
    · obtain ⟨y, hin', hmiss⟩ := missed_of_not_narrow hwide hr.minY hr.maxY hr.minZ hr.maxZ hz hy
      exact hmiss ((finds_iff _).1 ((h { pos with y }).2 ⟨hz, hx, hin'⟩)).2.2
  · rintro (⟨hx, hy⟩ | hnone) pos
    · rw [finds_iff]
      refine and_congr_right fun hz => and_congr ?_ ?_
      · exact hx.covers hr.minX hr.maxX hr.minZ hr.maxZ hz
      · exact hy.covers hr.minY hr.maxY hr.minZ hr.maxZ hz
    · exact iff_of_false (fun hf => hnone pos (inRange_of_finds hr hf)) (hnone pos)

/-- The default ranges around a position on the ground floor. -/
def viewport : Ranges := ⟨-11, 11, -11, 11, 0, 9⟩

theorem exact_viewport : Exact Unit ⟨100, 100, 7⟩ viewport :=
  (exact_iff_narrow ⟨by decide, by decide, by decide, by decide, by decide, by decide⟩).2
    (.inl ⟨by unfold NarrowAxis; decide, by unfold NarrowAxis; decide⟩)

/-- As far to the west as a number goes. -/
def farWest : Ranges := ⟨-2147483647, 11, -11, 11, 0, 9⟩

/-- At the western border the scan then starts in the last column and finds
nobody. -/
theorem farWest_missed : farWest.Valid ∧ Good (lone Unit ⟨3, 100, 7⟩) ∧
    Registered (lone Unit ⟨3, 100, 7⟩) (fun _ => ⟨3, 100, 7⟩) (fun _ => false) ∧
    IsRegistered (lone Unit ⟨3, 100, 7⟩) (fun _ => ⟨3, 100, 7⟩) 0 ∧
    InRange ⟨0, 100, 7⟩ farWest ⟨3, 100, 7⟩ ∧
    0 ∉ getSpectatorsInternal (lone Unit ⟨3, 100, 7⟩) (fun _ => ⟨3, 100, 7⟩) ∅ ⟨0, 100, 7⟩ farWest false := by
  obtain ⟨hg, hr, hi⟩ := lone_spec (τ := Unit) ⟨3, 100, 7⟩
  refine ⟨⟨by decide, by decide, by decide, by decide, by decide, by decide⟩, hg, hr, hi, ?_, ?_⟩
  · unfold InRange InAxis
    decide
  · rw [mem_scan hg hr]
    rintro (h | ⟨-, -, ⟨⟨h, -⟩, -⟩, -⟩)
    · nomatch h
    · revert h
      decide

end Exact

/-! ### The map of blocks -/

section Blocks

variable {τ : Type*} {m : Map τ} {position : ℕ → Position} {centerPos : Position} {r : Ranges}

/-- The map by its blocks, as the caches see it. -/
def byBlocks (m : Map τ) (position : ℕ → Position) (creatures : Position → List ℕ) : Spectators.Map where
  leaf i j :=
    if i < 8192 ∧ j < 8192 then
      (leafAt m (8 * i) (8 * j)).map fun leaf => (m.leaves leaf).toQTreeLeafNode
    else none
  creatures
  position

def Ranges.toInt (r : Ranges) : Spectators.Ranges where
  minRangeX := r.minRangeX.toInt
  maxRangeX := r.maxRangeX.toInt
  minRangeY := r.minRangeY.toInt
  maxRangeY := r.maxRangeY.toInt
  minRangeZ := r.minRangeZ.toInt
  maxRangeZ := r.maxRangeZ.toInt

theorem mem_blocks_iff (b : Bounds) (n : ℕ) :
    n ∈ Spectators.blocks b.start b.stop ↔ ∃ i < b.rounds, b.start + 8 * i = n := by
  unfold Spectators.blocks Bounds.rounds
  simp only [List.mem_map, List.mem_range]

/-- The creatures that a block of the rectangle adds. -/
theorem mem_block (m : Map τ) (creatures : Position → List ℕ) {bx bY : Bounds} (hbx : bx.Ok) (hby : bY.Ok)
    {i j : ℕ} (hi : i < bx.rounds) (hj : j < bY.rounds) (onlyPlayers : Bool) (p : ℕ → Bool) (c : ℕ) :
    (c ∈ match (byBlocks m position creatures).leaf ((bx.start + 8 * i) / 8) ((bY.start + 8 * j) / 8) with
      | none => []
      | some leaf => (if onlyPlayers then leaf.player_list else leaf.creature_list).filter p) ↔
    ∃ leaf, leafAt m (bx.start + 8 * i) (bY.start + 8 * j) = some leaf ∧
      c ∈ (if onlyPlayers then (m.leaves leaf).player_list else (m.leaves leaf).creature_list) ∧
      p c = true := by
  obtain ⟨h1, h2, h3, h4⟩ := hbx
  obtain ⟨h5, h6, h7, h8⟩ := hby
  unfold Bounds.rounds at hi hj
  have hblock : (bx.start + 8 * i) / 8 < 8192 ∧ (bY.start + 8 * j) / 8 < 8192 := by omega
  have hx : 8 * ((bx.start + 8 * i) / 8) = bx.start + 8 * i := by omega
  have hy : 8 * ((bY.start + 8 * j) / 8) = bY.start + 8 * j := by omega
  unfold byBlocks
  dsimp only
  rw [if_pos hblock, hx, hy]
  cases hl : leafAt m (bx.start + 8 * i) (bY.start + 8 * j) with
  | none => exact iff_of_false nofun fun ⟨_, he, _⟩ => nomatch he
  | some leaf =>
    rw [Option.map_some]
    dsimp only
    rw [List.mem_filter]
    exact ⟨fun hc => ⟨leaf, rfl, hc⟩, fun ⟨_, he, hc⟩ => Option.some.inj he ▸ hc⟩

/-- **The scan of the quadtree is the scan of its blocks**, when its bounds fit. -/
theorem getSpectatorsInternal_byBlocks (h : Good m) (hr : r.Valid) (hn : Narrow centerPos r)
    (creatures : Position → List ℕ) (list : SpectatorVec) (onlyPlayers : Bool) :
    (byBlocks m position creatures).getSpectatorsInternal list centerPos r.toInt onlyPlayers =
      getSpectatorsInternal m position list centerPos r onlyPlayers := by
  have hx := hn.1.bounds_eq hr.minX hr.maxX hr.minZ hr.maxZ
  have hy := hn.2.bounds_eq hr.minY hr.maxY hr.minZ hr.maxZ
  have htest : ∀ c, (byBlocks m position creatures).inRange centerPos r.toInt c =
      sees centerPos r (position c) := by
    intro c
    rw [Bool.eq_iff_iff, sees_iff]
    unfold Spectators.Map.inRange Bounds.Test Ranges.boundsX Ranges.boundsY
    rw [hx, hy]
    simp only [Bool.and_eq_true, decide_eq_true_eq]
    dsimp only [byBlocks, Ranges.toInt]
    omega
  -- the rectangles are the same
  have hsx := congrArg Bounds.start hx
  have hex := congrArg Bounds.stop hx
  have hsy := congrArg Bounds.start hy
  have hey := congrArg Bounds.stop hy
  dsimp only at hsx hex hsy hey
  ext c
  rw [mem_scan_leaves h]
  unfold Spectators.Map.getSpectatorsInternal
  dsimp only [Ranges.toInt]
  rw [← hsx, ← hex, ← hsy, ← hey, Finset.mem_union, List.mem_toFinset, List.mem_flatMap]
  refine or_congr_right ?_
  constructor
  · intro ⟨ny, hny, hc⟩
    obtain ⟨j, hj, rfl⟩ := (mem_blocks_iff _ ny).1 hny
    obtain ⟨nx, hnx, hc⟩ := List.mem_flatMap.1 hc
    obtain ⟨i, hi, rfl⟩ := (mem_blocks_iff _ nx).1 hnx
    obtain ⟨leaf, hl, hc, hs⟩ := (mem_block m creatures (boundsX_ok r centerPos) (boundsY_ok r centerPos)
      hi hj onlyPlayers _ c).1 hc
    exact ⟨j, hj, i, hi, leaf, hl, hc, (htest c).symm.trans hs⟩
  · intro ⟨j, hj, i, hi, leaf, hl, hc, hs⟩
    refine ⟨_, (mem_blocks_iff _ _).2 ⟨j, hj, rfl⟩, List.mem_flatMap.2 ⟨_, (mem_blocks_iff _ _).2 ⟨i, hi, rfl⟩, ?_⟩⟩
    exact (mem_block m creatures (boundsX_ok r centerPos) (boundsY_ok r centerPos) hi hj onlyPlayers _ c).2
      ⟨leaf, hl, hc, (htest c).trans hs⟩

end Blocks

end SpectatorScan
end ForgottenServer
