/-
# The walk cache

A creature with a loaded map keeps, for the cells around it, whether it could
walk there. `updateMapCache` computes the whole window; `onCreatureMove` moves
its rows and columns by one place and computes the row and the column that are
new. A cell whose coordinates leave the map is skipped by `updateMapCache`.

A step to the south-east or south-west moves the columns of every row but the
first, where it should be every row but the last: `dy` is a distance, and the
branch for a negative one is never taken. Such a step keeps the cache right
exactly when those two rows happen to agree (`LevelRows`).

Key definitions: `updateMapCache`, `onCreatureMove`, `Coherent`, `LevelRows`.
Key theorems: `onCreatureMove_cell`, `coherent_iff_levelRows`.
-/
import ForgottenServer.Lib.Grid
import ForgottenServer.Spectators

namespace ForgottenServer
namespace WalkCache

open Grid
open Spectators (Position)

/-! ### The model -/

def mapWalkWidth : ℕ := 23
def mapWalkHeight : ℕ := 23
def maxWalkCacheWidth : ℕ := (mapWalkWidth - 1) / 2
def maxWalkCacheHeight : ℕ := (mapWalkHeight - 1) / 2

/-- `localMapCache`, row by row. -/
abbrev Cache := ℕ → ℕ → Bool

def getOffsetX (p q : Position) : ℤ := p.x.toNat - q.x.toNat
def getOffsetY (p q : Position) : ℤ := p.y.toNat - q.y.toNat
def getDistanceY (p q : Position) : ℤ := |getOffsetY p q|

/-- A coordinate moved by an offset, converted to `uint16_t`. -/
def moved (c : UInt16) (d : ℤ) : UInt16 := UInt16.ofNat ((c.toNat + d) % 2 ^ 16).toNat

/-- `-n` to `n` -/
def offsets (n : ℕ) : List ℤ := (List.range (2 * n + 1)).map fun i : ℕ => (i : ℤ) - n

section Functions

-- whether there is a tile at a position and its `queryAdd` returns
-- `RETURNVALUE_NOERROR` for the creature
variable (accepts : Position → Bool)

/-- `Creature::updateTileCache` for an offset. -/
def updateTileCache (cache : Cache) (accepted : Bool) (dx dy : ℤ) : Cache :=
  if |dx| ≤ maxWalkCacheWidth ∧ |dy| ≤ maxWalkCacheHeight then
    setCell cache (maxWalkCacheHeight + dy).toNat (maxWalkCacheWidth + dx).toNat accepted
  else cache

/-- `Creature::updateTileCache` for a position. -/
def updateTileCacheAt (cache : Cache) (pos myPos : Position) : Cache :=
  if pos.z = myPos.z then
    updateTileCache cache (accepts pos) (getOffsetX pos myPos) (getOffsetY pos myPos)
  else cache

/-- `Creature::updateMapCache` -/
def updateMapCache (cache : Cache) (myPos : Position) : Cache :=
  (offsets maxWalkCacheHeight).foldl (fun cache y =>
    (offsets maxWalkCacheWidth).foldl (fun cache x =>
      updateTileCacheAt accepts cache ⟨moved myPos.x x, moved myPos.y y, myPos.z⟩ myPos) cache) cache

/-- The loop over a new row. -/
def updateRow (cache : Cache) (myPos : Position) (y : ℤ) : Cache :=
  (offsets maxWalkCacheWidth).foldl (fun cache x =>
    updateTileCache cache (accepts ⟨moved myPos.x x, moved myPos.y y, myPos.z⟩) x y) cache

/-- The loop over a new column. -/
def updateColumn (cache : Cache) (myPos : Position) (x : ℤ) : Cache :=
  (offsets maxWalkCacheHeight).foldl (fun cache y =>
    updateTileCache cache (accepts ⟨moved myPos.x x, moved myPos.y y, myPos.z⟩) x y) cache

/-- The rows from `starty` to `endy`. -/
def shiftedRows (oldPos newPos : Position) : List ℕ :=
  let dy := getDistanceY oldPos newPos
  let starty := if dy < 0 then 0 else if 0 < dy then dy else 0
  let endy := if dy < 0 then (mapWalkHeight : ℤ) - 1 + dy else mapWalkHeight - 1
  List.range' starty.toNat (endy + 1 - starty).toNat

/-- The part of `Creature::onCreatureMove` that updates a loaded map cache, for
a move of the creature itself. -/
def onCreatureMove (cache : Cache) (oldPos newPos : Position) (teleport : Bool) : Cache :=
  if teleport || oldPos.z ≠ newPos.z then updateMapCache accepts cache newPos
  else
    let cache :=
      if newPos.y < oldPos.y then
        -- north: the rows move south
        updateRow accepts (shiftUp (mapWalkHeight - 1) cache) newPos (-maxWalkCacheHeight)
      else if oldPos.y < newPos.y then
        updateRow accepts (shiftDown (mapWalkHeight - 1) cache) newPos maxWalkCacheHeight
      else cache
    let cache :=
      if oldPos.x < newPos.x then
        -- east: the columns move west
        updateColumn accepts ((shiftedRows oldPos newPos).foldl (fun cache y =>
          Function.update cache y (shiftDown (mapWalkWidth - 1) (cache y))) cache) newPos
          maxWalkCacheWidth
      else if newPos.x < oldPos.x then
        updateColumn accepts ((shiftedRows oldPos newPos).foldl (fun cache y =>
          Function.update cache y (shiftUp (mapWalkWidth - 1) (cache y))) cache) newPos
          (-maxWalkCacheWidth)
      else cache
    updateTileCacheAt accepts cache oldPos newPos

end Functions

/-! ### Coherence -/

/-- Every cell of the window but the creature's own holds what `updateMapCache`
would compute there. -/
def Coherent (accepts : Position → Bool) (cache : Cache) (myPos : Position) : Prop :=
  ∀ r < mapWalkHeight, ∀ k < mapWalkWidth, (r, k) ≠ (maxWalkCacheHeight, maxWalkCacheWidth) →
    cache r k = updateMapCache accepts cache myPos r k

/-- A step to one of the eight neighbouring cells of the floor. -/
structure Neighbour (oldPos newPos : Position) : Prop where
  floor : oldPos.z = newPos.z
  near : |getOffsetX newPos oldPos| ≤ 1 ∧ |getOffsetY newPos oldPos| ≤ 1
  moved : oldPos ≠ newPos

/-- What the window holds in a row and a column when it is computed. -/
def fresh (accepts : Position → Bool) (myPos : Position) (r k : ℕ) : Bool :=
  accepts ⟨moved myPos.x ((k : ℤ) - maxWalkCacheWidth), moved myPos.y ((r : ℤ) - maxWalkCacheHeight),
    myPos.z⟩

/-- The cell lies on the map. -/
def OnMap (myPos : Position) (r k : ℕ) : Prop :=
  (0 ≤ (myPos.x.toNat : ℤ) + k - maxWalkCacheWidth ∧
    (myPos.x.toNat : ℤ) + k - maxWalkCacheWidth < 2 ^ 16) ∧
  (0 ≤ (myPos.y.toNat : ℤ) + r - maxWalkCacheHeight ∧
    (myPos.y.toNat : ℤ) + r - maxWalkCacheHeight < 2 ^ 16)

instance (myPos : Position) (r k : ℕ) : Decidable (OnMap myPos r k) :=
  inferInstanceAs (Decidable ((_ ∧ _) ∧ (_ ∧ _)))

section Cells

variable {accepts : Position → Bool} {myPos : Position}

theorem mem_offsets {n : ℕ} {d : ℤ} : d ∈ offsets n ↔ |d| ≤ n := by
  unfold offsets
  rw [List.mem_map]
  constructor
  · intro ⟨i, hi, he⟩
    rw [List.mem_range] at hi
    rw [abs_le]
    omega
  · intro h
    rw [abs_le] at h
    exact ⟨(d + n).toNat, List.mem_range.2 (by omega), by omega⟩

theorem moved_toNat (c : UInt16) (d : ℤ) : ((moved c d).toNat : ℤ) = (c.toNat + d) % 2 ^ 16 := by
  unfold moved
  have h1 := Int.emod_nonneg (c.toNat + d) (show (2 ^ 16 : ℤ) ≠ 0 by decide)
  have h2 := Int.emod_lt_of_pos (c.toNat + d) (show (0 : ℤ) < 2 ^ 16 by decide)
  rw [UInt16.toNat_ofNat_of_lt' (by simp [UInt16.size]; omega)]
  omega

/-- The row of an offset, and the column of one. -/
def rowOf (y : ℤ) : ℕ := (maxWalkCacheHeight + y).toNat
def colOf (x : ℤ) : ℕ := (maxWalkCacheWidth + x).toNat

theorem exists_rowOf {r : ℕ} (hr : r < mapWalkHeight) :
    ∃ y : ℤ, |y| ≤ maxWalkCacheHeight ∧ rowOf y = r ∧ y = (r : ℤ) - maxWalkCacheHeight := by
  refine ⟨(r : ℤ) - maxWalkCacheHeight, ?_, ?_, rfl⟩
  · rw [abs_le]
    simp only [mapWalkHeight, maxWalkCacheHeight] at hr ⊢
    omega
  · unfold rowOf
    omega

theorem exists_colOf {k : ℕ} (hk : k < mapWalkWidth) :
    ∃ x : ℤ, |x| ≤ maxWalkCacheWidth ∧ colOf x = k ∧ x = (k : ℤ) - maxWalkCacheWidth := by
  refine ⟨(k : ℤ) - maxWalkCacheWidth, ?_, ?_, rfl⟩
  · rw [abs_le]
    simp only [mapWalkWidth, maxWalkCacheWidth] at hk ⊢
    omega
  · unfold colOf
    omega

theorem rowOf_sub {y : ℤ} (hy : |y| ≤ maxWalkCacheHeight) : (rowOf y : ℤ) - maxWalkCacheHeight = y := by
  rw [abs_le] at hy
  unfold rowOf
  omega

theorem colOf_sub {x : ℤ} (hx : |x| ≤ maxWalkCacheWidth) : (colOf x : ℤ) - maxWalkCacheWidth = x := by
  rw [abs_le] at hx
  unfold colOf
  omega

variable (accepts myPos) in
theorem fresh_of {x y : ℤ} (hx : |x| ≤ maxWalkCacheWidth) (hy : |y| ≤ maxWalkCacheHeight) :
    accepts ⟨moved myPos.x x, moved myPos.y y, myPos.z⟩ =
      fresh accepts myPos (rowOf y) (colOf x) := by
  unfold fresh
  rw [rowOf_sub hy, colOf_sub hx]

/-- The two loops over a row and a column write fresh cells. -/
theorem updateTileCache_eq (cache : Cache) (x y : ℤ) :
    updateTileCache cache (accepts ⟨moved myPos.x x, moved myPos.y y, myPos.z⟩) x y =
      if |x| ≤ maxWalkCacheWidth ∧ |y| ≤ maxWalkCacheHeight then
        setCell cache (rowOf y) (colOf x) (fresh accepts myPos (rowOf y) (colOf x))
      else cache := by
  unfold updateTileCache
  by_cases h : |x| ≤ maxWalkCacheWidth ∧ |y| ≤ maxWalkCacheHeight
  · rw [if_pos h, if_pos h, fresh_of accepts myPos h.1 h.2]
    rfl
  · rw [if_neg h, if_neg h]

theorem updateRow_apply (cache : Cache) {y : ℤ} (hy : |y| ≤ maxWalkCacheHeight) (r : ℕ) {k : ℕ}
    (hk : k < mapWalkWidth) : updateRow accepts cache myPos y r k =
      if r = rowOf y then fresh accepts myPos r k else cache r k := by
  have hw : updateRow accepts cache myPos y = write
      (fun x : ℤ => |x| ≤ maxWalkCacheWidth ∧ |y| ≤ maxWalkCacheHeight) (fun _ => rowOf y) colOf
      (fresh accepts myPos) (offsets maxWalkCacheWidth) cache := by
    simp only [updateRow, write, updateTileCache_eq]
  rw [hw]
  by_cases hr : r = rowOf y
  · obtain ⟨x, hx, rfl, -⟩ := exists_colOf hk
    rw [if_pos hr, hr]
    exact write_of_mem _ (fun _ => rowOf y) colOf _ _ cache (mem_offsets.2 hx) ⟨hx, hy⟩
  · rw [if_neg hr]
    exact write_of_not_mem _ _ _ _ _ _ fun _ _ _ e => hr e.1.symm

theorem updateColumn_apply (cache : Cache) {x : ℤ} (hx : |x| ≤ maxWalkCacheWidth) {r : ℕ}
    (hr : r < mapWalkHeight) (k : ℕ) : updateColumn accepts cache myPos x r k =
      if k = colOf x then fresh accepts myPos r k else cache r k := by
  have hw : updateColumn accepts cache myPos x = write
      (fun y : ℤ => |x| ≤ maxWalkCacheWidth ∧ |y| ≤ maxWalkCacheHeight) rowOf (fun _ => colOf x)
      (fresh accepts myPos) (offsets maxWalkCacheHeight) cache := by
    simp only [updateColumn, write, updateTileCache_eq]
  rw [hw]
  by_cases hk : k = colOf x
  · obtain ⟨y, hy, rfl, -⟩ := exists_rowOf hr
    rw [if_pos hk, hk]
    exact write_of_mem _ rowOf (fun _ => colOf x) _ _ cache (mem_offsets.2 hy) ⟨hx, hy⟩
  · rw [if_neg hk]
    exact write_of_not_mem _ _ _ _ _ _ fun _ _ _ e => hk e.2.symm

/-- A wrapped coordinate leaves the window. -/
theorem offset_moved (c : UInt16) {d : ℤ} (n : ℕ) (hn : n < 1000) (hd : |d| ≤ n) :
    (|((moved c d).toNat : ℤ) - c.toNat| ≤ n ↔ 0 ≤ (c.toNat : ℤ) + d ∧ (c.toNat : ℤ) + d < 2 ^ 16) ∧
    (0 ≤ (c.toNat : ℤ) + d ∧ (c.toNat : ℤ) + d < 2 ^ 16 → ((moved c d).toNat : ℤ) - c.toNat = d) := by
  have hc := c.toNat_lt
  rw [moved_toNat]
  rw [abs_le] at hd ⊢
  constructor
  · constructor <;> intro h <;> omega
  · intro h
    omega

theorem onMap_iff {x y : ℤ} (hx : |x| ≤ maxWalkCacheWidth) (hy : |y| ≤ maxWalkCacheHeight) :
    OnMap myPos (rowOf y) (colOf x) ↔
      (0 ≤ (myPos.x.toNat : ℤ) + x ∧ (myPos.x.toNat : ℤ) + x < 2 ^ 16) ∧
      (0 ≤ (myPos.y.toNat : ℤ) + y ∧ (myPos.y.toNat : ℤ) + y < 2 ^ 16) := by
  have h1 := rowOf_sub hy
  have h2 := colOf_sub hx
  unfold OnMap
  rw [add_sub_assoc, add_sub_assoc, h1, h2]

/-- One turn of `updateMapCache` writes a fresh cell if it lies on the map. -/
theorem updateTileCacheAt_eq (cache : Cache) {x y : ℤ} (hx : |x| ≤ maxWalkCacheWidth)
    (hy : |y| ≤ maxWalkCacheHeight) :
    updateTileCacheAt accepts cache ⟨moved myPos.x x, moved myPos.y y, myPos.z⟩ myPos =
      if OnMap myPos (rowOf y) (colOf x) then
        setCell cache (rowOf y) (colOf x) (fresh accepts myPos (rowOf y) (colOf x))
      else cache := by
  have h1 := offset_moved myPos.x maxWalkCacheWidth (by decide) hx
  have h2 := offset_moved myPos.y maxWalkCacheHeight (by decide) hy
  unfold updateTileCacheAt updateTileCache getOffsetX getOffsetY
  rw [if_pos rfl]
  by_cases h : OnMap myPos (rowOf y) (colOf x)
  · have h' := (onMap_iff hx hy).1 h
    rw [if_pos ⟨h1.1.2 h'.1, h2.1.2 h'.2⟩, if_pos h, h1.2 h'.1, h2.2 h'.2,
      fresh_of accepts myPos hx hy]
    rfl
  · rw [if_neg h, if_neg]
    intro h'
    exact h ((onMap_iff hx hy).2 ⟨h1.1.1 h'.1, h2.1.1 h'.2⟩)

/-- `updateMapCache` computes the cells that lie on the map. -/
theorem updateMapCache_apply (cache : Cache) {r k : ℕ} (hr : r < mapWalkHeight)
    (hk : k < mapWalkWidth) : updateMapCache accepts cache myPos r k =
      if OnMap myPos r k then fresh accepts myPos r k else cache r k := by
  -- the two loops as one over pairs of offsets
  have hw : updateMapCache accepts cache myPos = write
      (fun o : ℤ × ℤ => OnMap myPos (rowOf o.1) (colOf o.2)) (fun o => rowOf o.1) (fun o => colOf o.2)
      (fresh accepts myPos) ((offsets maxWalkCacheHeight).flatMap fun y =>
        (offsets maxWalkCacheWidth).map fun x => (y, x)) cache := by
    unfold updateMapCache write
    rw [List.foldl_flatMap]
    apply List.foldl_ext
    intro cache y hy
    rw [List.foldl_map]
    apply List.foldl_ext
    intro cache x hx
    exact updateTileCacheAt_eq cache (mem_offsets.1 hx) (mem_offsets.1 hy)
  rw [hw]
  by_cases h : OnMap myPos r k
  · obtain ⟨y, hy, rfl, -⟩ := exists_rowOf hr
    obtain ⟨x, hx, rfl, -⟩ := exists_colOf hk
    rw [if_pos h]
    refine write_of_mem _ (fun o : ℤ × ℤ => rowOf o.1) (fun o => colOf o.2) _ _ cache (j := (y, x))
      ?_ h
    exact List.mem_flatMap.2 ⟨y, mem_offsets.2 hy, List.mem_map.2 ⟨x, mem_offsets.2 hx, rfl⟩⟩
  · rw [if_neg h]
    apply write_of_not_mem
    intro o _ ho e
    rw [e.1, e.2] at ho
    exact h ho

theorem coherent_iff (cache : Cache) : Coherent accepts cache myPos ↔
    ∀ r < mapWalkHeight, ∀ k < mapWalkWidth, (r, k) ≠ (maxWalkCacheHeight, maxWalkCacheWidth) →
      OnMap myPos r k → cache r k = fresh accepts myPos r k := by
  unfold Coherent
  constructor
  · intro h r hr k hk hne hm
    rw [h r hr k hk hne, updateMapCache_apply cache hr hk, if_pos hm]
  · intro h r hr k hk hne
    rw [updateMapCache_apply cache hr hk]
    by_cases hm : OnMap myPos r k
    · rw [if_pos hm, h r hr k hk hne hm]
    · rw [if_neg hm]

end Cells

/-! ### A step -/

section Step

variable {accepts : Position → Bool} {cache : Cache} {oldPos newPos : Position}

theorem Neighbour.cases (h : Neighbour oldPos newPos) :
    (getOffsetX newPos oldPos = -1 ∨ getOffsetX newPos oldPos = 0 ∨ getOffsetX newPos oldPos = 1) ∧
    (getOffsetY newPos oldPos = -1 ∨ getOffsetY newPos oldPos = 0 ∨ getOffsetY newPos oldPos = 1) := by
  have h1 := abs_le.1 h.near.1
  have h2 := abs_le.1 h.near.2
  omega

/-- The cache after the rows have moved. -/
def movedRows (accepts : Position → Bool) (cache : Cache) (oldPos newPos : Position) : Cache :=
  if newPos.y < oldPos.y then
    updateRow accepts (shiftUp (mapWalkHeight - 1) cache) newPos (-maxWalkCacheHeight)
  else if oldPos.y < newPos.y then
    updateRow accepts (shiftDown (mapWalkHeight - 1) cache) newPos maxWalkCacheHeight
  else cache

/-- The cache after the columns have moved, too. -/
def movedColumns (accepts : Position → Bool) (cache : Cache) (oldPos newPos : Position) : Cache :=
  if oldPos.x < newPos.x then
    updateColumn accepts ((shiftedRows oldPos newPos).foldl (fun cache y =>
      Function.update cache y (shiftDown (mapWalkWidth - 1) (cache y))) cache) newPos maxWalkCacheWidth
  else if newPos.x < oldPos.x then
    updateColumn accepts ((shiftedRows oldPos newPos).foldl (fun cache y =>
      Function.update cache y (shiftUp (mapWalkWidth - 1) (cache y))) cache) newPos
      (-maxWalkCacheWidth)
  else cache

theorem onCreatureMove_eq (hz : oldPos.z = newPos.z) :
    onCreatureMove accepts cache oldPos newPos false =
      updateTileCacheAt accepts (movedColumns accepts (movedRows accepts cache oldPos newPos)
        oldPos newPos) oldPos newPos := by
  unfold onCreatureMove
  rw [if_neg (by simp [hz])]
  rfl

theorem movedRows_apply (hy : |getOffsetY newPos oldPos| ≤ 1) {r k : ℕ} (hr : r < mapWalkHeight)
    (hk : k < mapWalkWidth) : movedRows accepts cache oldPos newPos r k =
      if (getOffsetY newPos oldPos = -1 ∧ r = 0) ∨
          (getOffsetY newPos oldPos = 1 ∧ r = mapWalkHeight - 1) then fresh accepts newPos r k
      else cache (r + getOffsetY newPos oldPos).toNat k := by
  have hd : getOffsetY newPos oldPos = newPos.y.toNat - oldPos.y.toNat := rfl
  have hy' := abs_le.1 hy
  have hH : mapWalkHeight = 23 := rfl
  have hn : rowOf (-maxWalkCacheHeight) = 0 := rfl
  have hs : rowOf maxWalkCacheHeight = mapWalkHeight - 1 := rfl
  unfold movedRows
  by_cases h1 : newPos.y < oldPos.y
  · have h1' : newPos.y.toNat < oldPos.y.toNat := h1
    rw [if_pos h1, updateRow_apply _ (by decide) r hk, shiftUp_apply, hn]
    by_cases h0 : r = 0
    · rw [if_pos h0, if_pos (by omega)]
    · rw [if_neg h0, if_pos (by omega), if_neg (by omega)]
      congr 1
      omega
  have h1' : ¬ newPos.y.toNat < oldPos.y.toNat := h1
  rw [if_neg h1]
  by_cases h2 : oldPos.y < newPos.y
  · have h2' : oldPos.y.toNat < newPos.y.toNat := h2
    rw [if_pos h2, updateRow_apply _ (by decide) r hk, shiftDown_apply, hs]
    by_cases h0 : r = mapWalkHeight - 1
    · rw [if_pos h0, if_pos (by omega)]
    · rw [if_neg h0, if_pos (by omega), if_neg (by omega)]
      congr 1
      omega
  · have h2' : ¬ oldPos.y.toNat < newPos.y.toNat := h2
    rw [if_neg h2, if_neg (by omega)]
    congr 1
    omega

/-- The rows whose columns move: all of them, but the first after a step to the
north or to the south. -/
theorem mem_shiftedRows (hy : |getOffsetY newPos oldPos| ≤ 1) {r : ℕ} (hr : r < mapWalkHeight) :
    r ∈ shiftedRows oldPos newPos ↔ getOffsetY newPos oldPos = 0 ∨ 0 < r := by
  have hd : getDistanceY oldPos newPos = |getOffsetY newPos oldPos| := by
    unfold getDistanceY getOffsetY
    rw [abs_sub_comm]
  unfold shiftedRows
  rw [hd, List.mem_range'_1]
  unfold mapWalkHeight at *
  by_cases h0 : getOffsetY newPos oldPos = 0
  · rw [h0, abs_zero]
    simp
    omega
  · have h1 : |getOffsetY newPos oldPos| = 1 := by
      have := abs_pos.2 h0
      omega
    rw [h1]
    simp
    omega

theorem shiftedRows_nodup : (shiftedRows oldPos newPos).Nodup := List.nodup_range'

theorem movedColumns_apply (hx : |getOffsetX newPos oldPos| ≤ 1)
    (hy : |getOffsetY newPos oldPos| ≤ 1) {r k : ℕ} (hr : r < mapWalkHeight) (hk : k < mapWalkWidth) :
    movedColumns accepts cache oldPos newPos r k =
      if (getOffsetX newPos oldPos = -1 ∧ k = 0) ∨
          (getOffsetX newPos oldPos = 1 ∧ k = mapWalkWidth - 1) then fresh accepts newPos r k
      else if getOffsetY newPos oldPos = 0 ∨ 0 < r then
        cache r (k + getOffsetX newPos oldPos).toNat
      else cache r k := by
  have hmem := mem_shiftedRows hy hr
  have hd : getOffsetX newPos oldPos = newPos.x.toNat - oldPos.x.toNat := rfl
  have hx' := abs_le.1 hx
  have hW : mapWalkWidth = 23 := rfl
  have hw : colOf (-maxWalkCacheWidth) = 0 := rfl
  have he : colOf maxWalkCacheWidth = mapWalkWidth - 1 := rfl
  unfold movedColumns
  by_cases h1 : oldPos.x < newPos.x
  · have h1' : oldPos.x.toNat < newPos.x.toNat := h1
    rw [if_pos h1, updateColumn_apply _ (by decide) hr, he]
    by_cases h0 : k = mapWalkWidth - 1
    · rw [if_pos h0, if_pos (by omega)]
    · rw [if_neg h0, if_neg (by omega), foldl_rows _ _ _ shiftedRows_nodup]
      by_cases hm : r ∈ shiftedRows oldPos newPos
      · rw [if_pos hm, if_pos (hmem.1 hm), shiftDown_apply, if_pos (by omega)]
        congr 1
        omega
      · rw [if_neg hm, if_neg fun h => hm (hmem.2 h)]
  have h1' : ¬ oldPos.x.toNat < newPos.x.toNat := h1
  rw [if_neg h1]
  by_cases h2 : newPos.x < oldPos.x
  · have h2' : newPos.x.toNat < oldPos.x.toNat := h2
    rw [if_pos h2, updateColumn_apply _ (by decide) hr, hw]
    by_cases h0 : k = 0
    · rw [if_pos h0, if_pos (by omega)]
    · rw [if_neg h0, if_neg (by omega), foldl_rows _ _ _ shiftedRows_nodup]
      by_cases hm : r ∈ shiftedRows oldPos newPos
      · rw [if_pos hm, if_pos (hmem.1 hm), shiftUp_apply, if_pos (by omega)]
        congr 1
        omega
      · rw [if_neg hm, if_neg fun h => hm (hmem.2 h)]
  · have h2' : ¬ newPos.x.toNat < oldPos.x.toNat := h2
    rw [if_neg h2, if_neg (by omega)]
    have hk' : (k + getOffsetX newPos oldPos).toNat = k := by omega
    rw [hk', ite_self]

/-- What a step leaves in a cell of the window. -/
theorem onCreatureMove_apply (h : Neighbour oldPos newPos) (r k : ℕ) :
    onCreatureMove accepts cache oldPos newPos false r k =
      if (r : ℤ) = maxWalkCacheHeight - getOffsetY newPos oldPos ∧
          (k : ℤ) = maxWalkCacheWidth - getOffsetX newPos oldPos then accepts oldPos
      else movedColumns accepts (movedRows accepts cache oldPos newPos) oldPos newPos r k := by
  have hW : maxWalkCacheWidth = 11 := rfl
  have hH : maxWalkCacheHeight = 11 := rfl
  have hx := abs_le.1 h.near.1
  have hy := abs_le.1 h.near.2
  have hxo : getOffsetX oldPos newPos = -getOffsetX newPos oldPos := by
    unfold getOffsetX
    ring
  have hyo : getOffsetY oldPos newPos = -getOffsetY newPos oldPos := by
    unfold getOffsetY
    ring
  rw [onCreatureMove_eq h.floor]
  unfold updateTileCacheAt updateTileCache
  rw [if_pos h.floor, hxo, hyo, abs_neg, abs_neg,
    if_pos ⟨by have := h.near.1; omega, by have := h.near.2; omega⟩, setCell_apply]
  by_cases hc : (r : ℤ) = maxWalkCacheHeight - getOffsetY newPos oldPos ∧
      (k : ℤ) = maxWalkCacheWidth - getOffsetX newPos oldPos
  · rw [if_pos hc, if_pos (by omega)]
  · rw [if_neg hc, if_neg (by omega)]

theorem moved_congr {c c' : UInt16} {d d' : ℤ} (h : (c.toNat : ℤ) + d = c'.toNat + d') :
    moved c d = moved c' d' := by
  unfold moved
  rw [h]

theorem moved_eq {c c' : UInt16} {d : ℤ} (h : (c.toNat : ℤ) + d = c'.toNat) : moved c d = c' := by
  apply UInt16.toNat_inj.1
  have h1 := moved_toNat c d
  have h2 := c'.toNat_lt
  omega

/-- A cell that is on the map holds the acceptance of the position it stands
for, before the step as after it. -/
theorem moved_cell {accepts' : Position → Bool} (hz : oldPos.z = newPos.z)
    (hagree : ∀ pos, pos ≠ oldPos → pos ≠ newPos → accepts' pos = accepts pos)
    (hc : Coherent accepts cache oldPos) {r k r' k' : ℕ} (hr' : r' < mapWalkHeight)
    (hk' : k' < mapWalkWidth) (hr : (r' : ℤ) = r + getOffsetY newPos oldPos)
    (hk : (k' : ℤ) = k + getOffsetX newPos oldPos)
    (hold : (r', k') ≠ (maxWalkCacheHeight, maxWalkCacheWidth))
    (hnew : (r, k) ≠ (maxWalkCacheHeight, maxWalkCacheWidth)) (hm : OnMap newPos r k) :
    cache r' k' = fresh accepts' newPos r k := by
  have hW : maxWalkCacheWidth = 11 := rfl
  have hH : maxWalkCacheHeight = 11 := rfl
  unfold getOffsetX at hk
  unfold getOffsetY at hr
  unfold OnMap at hm
  have hm' : OnMap oldPos r' k' := by unfold OnMap; omega
  have hpos : (⟨moved newPos.x ((k : ℤ) - maxWalkCacheWidth),
      moved newPos.y ((r : ℤ) - maxWalkCacheHeight), newPos.z⟩ : Position) =
      ⟨moved oldPos.x ((k' : ℤ) - maxWalkCacheWidth),
        moved oldPos.y ((r' : ℤ) - maxWalkCacheHeight), oldPos.z⟩ := by
    have hx : moved newPos.x ((k : ℤ) - maxWalkCacheWidth) =
        moved oldPos.x ((k' : ℤ) - maxWalkCacheWidth) := moved_congr (by omega)
    have hy : moved newPos.y ((r : ℤ) - maxWalkCacheHeight) =
        moved oldPos.y ((r' : ℤ) - maxWalkCacheHeight) := moved_congr (by omega)
    rw [hx, hy, hz]
  have hx := moved_toNat newPos.x ((k : ℤ) - maxWalkCacheWidth)
  have hy := moved_toNat newPos.y ((r : ℤ) - maxWalkCacheHeight)
  rw [(coherent_iff cache).1 hc r' hr' k' hk' hold hm']
  unfold fresh
  rw [hagree, hpos]
  · intro e
    have ex := congrArg (fun p : Position => p.x.toNat) e
    have ey := congrArg (fun p : Position => p.y.toNat) e
    simp only at ex ey
    apply hold
    rw [Prod.mk.injEq]
    omega
  · intro e
    have ex := congrArg (fun p : Position => p.x.toNat) e
    have ey := congrArg (fun p : Position => p.y.toNat) e
    simp only at ex ey
    apply hnew
    rw [Prod.mk.injEq]
    omega

end Step

/-! ### Coherence after a step -/

/-- The condition on a step to the south-east or south-west: for every column
that is not new, the northmost row is accepted where the cache had the second
row accepted, and the southmost row as its neighbour on the side of the new
column. -/
def LevelRows (accepts : Position → Bool) (cache : Cache) (oldPos newPos : Position) : Prop :=
  getOffsetY newPos oldPos = 1 → getOffsetX newPos oldPos ≠ 0 → ∀ k < mapWalkWidth,
    0 ≤ k + getOffsetX newPos oldPos → k + getOffsetX newPos oldPos < mapWalkWidth →
      (OnMap newPos 0 k → cache 1 k = fresh accepts newPos 0 k) ∧
      (OnMap newPos (mapWalkHeight - 1) k →
        fresh accepts newPos (mapWalkHeight - 1) (k + getOffsetX newPos oldPos).toNat =
          fresh accepts newPos (mapWalkHeight - 1) k)

section Main

variable {accepts accepts' : Position → Bool} {cache : Cache} {oldPos newPos : Position}

variable (accepts cache) in
/-- Where the columns did not move as they should: the two rows of a step to
the south-east or south-west. -/
theorem wrong_rows (h : Neighbour oldPos newPos) (hy : getOffsetY newPos oldPos = 1) {k : ℕ}
    (hk : k < mapWalkWidth) (h0 : 0 ≤ k + getOffsetX newPos oldPos) (h1 : k + getOffsetX newPos oldPos < mapWalkWidth) :
    onCreatureMove accepts cache oldPos newPos false 0 k = cache 1 k ∧
    onCreatureMove accepts cache oldPos newPos false (mapWalkHeight - 1) k =
      fresh accepts newPos (mapWalkHeight - 1) (k + getOffsetX newPos oldPos).toNat := by
  have hW : mapWalkWidth = 23 := rfl
  have hH : mapWalkHeight = 23 := rfl
  have hH' : maxWalkCacheHeight = 11 := rfl
  have hcases := h.cases.1
  constructor
  · rw [onCreatureMove_apply h, if_neg (by omega), movedColumns_apply h.near.1 h.near.2 (by omega) hk,
      if_neg (by omega), if_neg (by omega), movedRows_apply h.near.2 (by omega) hk, if_neg (by omega), hy]
    rfl
  · rw [onCreatureMove_apply h, if_neg (by omega), movedColumns_apply h.near.1 h.near.2 (by omega) hk,
      if_neg (by omega), if_pos (by omega), movedRows_apply h.near.2 (by omega) (by omega),
      if_pos (by omega)]

/-- Every other cell is right after the step. -/
theorem right_cells (h : Neighbour oldPos newPos)
    (hagree : ∀ pos, pos ≠ oldPos → pos ≠ newPos → accepts' pos = accepts pos)
    (hc : Coherent accepts cache oldPos) {r k : ℕ} (hr : r < mapWalkHeight) (hk : k < mapWalkWidth)
    (hne : (r, k) ≠ (maxWalkCacheHeight, maxWalkCacheWidth)) (hm : OnMap newPos r k)
    (hright : ¬ (getOffsetY newPos oldPos = 1 ∧ getOffsetX newPos oldPos ≠ 0 ∧
      (r = 0 ∨ r = mapWalkHeight - 1) ∧ 0 ≤ k + getOffsetX newPos oldPos ∧
      k + getOffsetX newPos oldPos < mapWalkWidth)) :
    onCreatureMove accepts' cache oldPos newPos false r k = fresh accepts' newPos r k := by
  have hW : mapWalkWidth = 23 := rfl
  have hH : mapWalkHeight = 23 := rfl
  have hW' : maxWalkCacheWidth = 11 := rfl
  have hH' : maxWalkCacheHeight = 11 := rfl
  obtain ⟨hcx, hcy⟩ := h.cases
  have hdx : getOffsetX newPos oldPos = newPos.x.toNat - oldPos.x.toNat := rfl
  have hdy : getOffsetY newPos oldPos = newPos.y.toNat - oldPos.y.toNat := rfl
  rw [onCreatureMove_apply h]
  by_cases hcell : (r : ℤ) = maxWalkCacheHeight - getOffsetY newPos oldPos ∧
      (k : ℤ) = maxWalkCacheWidth - getOffsetX newPos oldPos
  · -- the cell the creature left
    rw [if_pos hcell]
    unfold fresh
    have hx : moved newPos.x ((k : ℤ) - maxWalkCacheWidth) = oldPos.x := moved_eq (by omega)
    have hy : moved newPos.y ((r : ℤ) - maxWalkCacheHeight) = oldPos.y := moved_eq (by omega)
    rw [hx, hy, ← h.floor]
  rw [if_neg hcell, movedColumns_apply h.near.1 h.near.2 hr hk]
  by_cases hcol : (getOffsetX newPos oldPos = -1 ∧ k = 0) ∨
      (getOffsetX newPos oldPos = 1 ∧ k = mapWalkWidth - 1)
  · rw [if_pos hcol]
  rw [if_neg hcol]
  have hold : ∀ r' k' : ℕ, (r' : ℤ) = r + getOffsetY newPos oldPos →
      (k' : ℤ) = k + getOffsetX newPos oldPos →
      (r', k') ≠ (maxWalkCacheHeight, maxWalkCacheWidth) := by
    intro r' k' hr' hk' e
    rw [Prod.mk.injEq] at e
    omega
  by_cases hrow : getOffsetY newPos oldPos = 0 ∨ 0 < r
  · rw [if_pos hrow, movedRows_apply h.near.2 hr (by omega)]
    by_cases hnew : (getOffsetY newPos oldPos = -1 ∧ r = 0) ∨
        (getOffsetY newPos oldPos = 1 ∧ r = mapWalkHeight - 1)
    · rw [if_pos hnew]
      -- the new row is right as long as its columns stay
      have hx0 : getOffsetX newPos oldPos = 0 := by
        by_contra hx0
        exact hright (by omega)
      rw [hx0, add_zero, Int.toNat_natCast]
    · rw [if_neg hnew]
      apply moved_cell h.floor hagree hc (by omega) (by omega) (by omega) (by omega) ?_ hne hm
      exact hold _ _ (by omega) (by omega)
  · rw [if_neg hrow, movedRows_apply h.near.2 hr hk]
    by_cases hnew : (getOffsetY newPos oldPos = -1 ∧ r = 0) ∨
        (getOffsetY newPos oldPos = 1 ∧ r = mapWalkHeight - 1)
    · rw [if_pos hnew]
    · rw [if_neg hnew]
      apply moved_cell h.floor hagree hc (by omega) (by omega) (by omega) (by omega) ?_ hne hm
      exact hold _ _ (by omega) (by omega)

/-- After a step to a neighbouring cell the cache is what `updateMapCache`
would compute exactly when the step is no step to the south-east or south-west,
or the two rows that were not moved happen to agree. -/
theorem coherent_iff_levelRows (h : Neighbour oldPos newPos)
    (hagree : ∀ pos, pos ≠ oldPos → pos ≠ newPos → accepts' pos = accepts pos)
    (hc : Coherent accepts cache oldPos) :
    Coherent accepts' (onCreatureMove accepts' cache oldPos newPos false) newPos ↔
      LevelRows accepts' cache oldPos newPos := by
  have hW : mapWalkWidth = 23 := rfl
  have hH : mapWalkHeight = 23 := rfl
  have hH' : maxWalkCacheHeight = 11 := rfl
  rw [coherent_iff]
  constructor
  · intro hcoh hy hx k hk h0 h1
    obtain ⟨hw0, hw1⟩ := wrong_rows accepts' cache h hy hk h0 h1
    constructor
    · intro hm
      rw [← hw0]
      exact hcoh 0 (by omega) k hk (by rw [ne_eq, Prod.mk.injEq]; omega) hm
    · intro hm
      rw [← hw1]
      exact hcoh (mapWalkHeight - 1) (by omega) k hk (by rw [ne_eq, Prod.mk.injEq]; omega) hm
  · intro hl r hr k hk hne hm
    by_cases hright : getOffsetY newPos oldPos = 1 ∧ getOffsetX newPos oldPos ≠ 0 ∧
        (r = 0 ∨ r = mapWalkHeight - 1) ∧ 0 ≤ k + getOffsetX newPos oldPos ∧
        k + getOffsetX newPos oldPos < mapWalkWidth
    · obtain ⟨hy, hx, hrow, h0, h1⟩ := hright
      obtain ⟨hw0, hw1⟩ := wrong_rows accepts' cache h hy hk h0 h1
      obtain ⟨hl0, hl1⟩ := hl hy hx k hk h0 h1
      rcases hrow with rfl | rfl
      · rw [hw0]
        exact hl0 hm
      · rw [hw1]
        exact hl1 hm
    · exact right_cells h hagree hc hr hk hne hm hright

/-- A step to the south-east where everything is accepted. -/
theorem coherent_iff_levelRows_open :
    Coherent (fun _ => true)
      (onCreatureMove (fun _ => true) (fun _ _ => true) ⟨100, 100, 7⟩ ⟨101, 101, 7⟩ false)
      ⟨101, 101, 7⟩ :=
  have hstep : Neighbour ⟨100, 100, 7⟩ ⟨101, 101, 7⟩ := ⟨rfl, by decide, by decide⟩
  have hc : Coherent (fun _ => true) (fun _ _ => true) ⟨100, 100, 7⟩ :=
    (coherent_iff _).2 fun _ _ _ _ _ _ => rfl
  (coherent_iff_levelRows hstep (fun _ _ _ => rfl) hc).2
    fun _ _ _ _ _ _ => ⟨fun _ => rfl, fun _ => rfl⟩

/-- A step to the south-east beside a wall along the column 89: the first row
still shows the wall. -/
theorem wall_shown_after_south_east :
    Coherent (fun pos => pos.x ≠ 89) (fresh (fun pos => pos.x ≠ 89) ⟨100, 100, 7⟩) ⟨100, 100, 7⟩ ∧
    Neighbour ⟨100, 100, 7⟩ ⟨101, 101, 7⟩ ∧
    ¬ Coherent (fun pos => pos.x ≠ 89) (onCreatureMove (fun pos => pos.x ≠ 89)
      (fresh (fun pos => pos.x ≠ 89) ⟨100, 100, 7⟩) ⟨100, 100, 7⟩ ⟨101, 101, 7⟩ false)
      ⟨101, 101, 7⟩ := by
  have hstep : Neighbour ⟨100, 100, 7⟩ ⟨101, 101, 7⟩ := ⟨rfl, by decide, by decide⟩
  refine ⟨(coherent_iff _).2 fun _ _ _ _ _ _ => rfl, hstep, fun hc => ?_⟩
  have h0 := (coherent_iff _).1 hc 0 (by decide) 0 (by decide) (by decide) (by decide)
  rw [(wrong_rows _ _ hstep rfl (by decide) (by decide) (by decide)).1] at h0
  exact absurd h0 (by decide)

end Main

end WalkCache
end ForgottenServer
