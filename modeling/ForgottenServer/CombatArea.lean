/-
# The tiles of an area combat

`Combat::getCombatArea` lists the tiles around the target that the matrix of the spell has a
cell for and the target has a clear sight to. A cursor goes over the matrix with coordinates
of 16 bits, and where there is no tile it makes one: an empty tile blocks no sight, so what
has been made on the way makes no difference. But `AreaCombat::getList` asks the target's tile
whether it blocks projectiles before it knows that there is one.

Tiles are listed by their positions, and a null pointer that is used is `none`.

Key definitions: `getArea`, `getList`, `getCombatArea`, `cellPos`, `Shown`, `Listed`.
Key theorems: `isSightClear_congr`, `scan_eq`, `marks_spec`, `listed_iff`.
-/
import ForgottenServer.SightLine
import ForgottenServer.AreaCombat

namespace ForgottenServer
namespace CombatArea

open Spectators (Position)
open Sight (Map isSightClear maxLayers)
open AreaCombat (Areas MatrixArea upTo)
open PathSearch (Direction)

/-- `Map::setTile`, where there is no tile yet -/
def setTile (m : Map) (pos : Position) (tile : Sight.Tile) : Map :=
  if maxLayers ≤ pos.z then m else ⟨Function.update m.tiles pos (some tile)⟩

/-- The tile at a position, or a new `StaticTile` there. -/
def createTile (m : Map) (pos : Position) : Map :=
  if (m.getTile pos).isNone then setTile m pos {} else m

/-- `AreaCombat::getArea` -/
def getArea (a : Areas) (centerPos targetPos : Position) : Option MatrixArea :=
  let dx : ℤ := targetPos.x.toNat - centerPos.x.toNat
  let dy : ℤ := targetPos.y.toNat - centerPos.y.toNat
  let dir : Direction :=
    if dx < 0 then .west else if dx > 0 then .east else if dy < 0 then .north else .south
  let dir : Direction :=
    if a.hasExtArea then
      if dx < 0 ∧ dy < 0 then .northWest
      else if dx > 0 ∧ dy < 0 then .northEast
      else if dx < 0 ∧ dy > 0 then .southWest
      else if dx > 0 ∧ dy > 0 then .southEast
      else dir
    else dir
  a.areas dir

/-- What the loops of `getList` change. -/
structure Scan where
  tmpPos : Position
  map : Map
  list : List Position

section Scan

variable (area : MatrixArea) (targetPos : Position)

/-- A cell: its tile is put in front of the list, if the cell is set and in sight. -/
def mark (value : Bool) (pos : Position) (s : Map × List Position) : Map × List Position :=
  if value ∧ isSightClear s.1 targetPos pos true then (createTile s.1 pos, pos :: s.2) else s

/-- The body of the inner loop. -/
def scanCell (y : UInt32) (s : Scan) (x : UInt32) : Scan :=
  let (map, list) := mark targetPos (area.data y x) s.tmpPos (s.map, s.list)
  { tmpPos := { s.tmpPos with x := s.tmpPos.x + 1 }, map, list }

/-- The body of the outer loop. -/
def scanRow (s : Scan) (y : UInt32) : Scan :=
  let s := (upTo area.cols).foldl (scanCell area targetPos y) s
  { s with tmpPos := { s.tmpPos with x := s.tmpPos.x - area.cols.toUInt16, y := s.tmpPos.y + 1 } }

/-- `tmpPos`, to begin with -/
def startPos : Position :=
  { x := targetPos.x - area.centerX.toUInt16, y := targetPos.y - area.centerY.toUInt16, z := targetPos.z }

end Scan

/-- `AreaCombat::getList` -/
def getList (m : Map) (a : Areas) (centerPos targetPos : Position) : Option (Map × List Position) := do
  let tile ← m.getTile targetPos
  if tile.blocksProjectile then some (m, [])
  else
    match getArea a centerPos targetPos with
    | none => some (m, [])
    | some area =>
      let s := (upTo area.rows).foldl (scanRow area targetPos) ⟨startPos area targetPos, m, []⟩
      some (s.map, s.list)

/-- `Combat::getCombatArea` -/
def getCombatArea (m : Map) (centerPos targetPos : Position) (area : Option Areas) :
    Option (Map × List Position) :=
  if maxLayers ≤ targetPos.z then some (m, [])
  else
    match area with
    | some a => getList m a centerPos targetPos
    | none => some (createTile m targetPos, [targetPos])

/-! ### What is to be listed -/

/-- The position of a cell: as far from the target as the cell from the center. -/
def cellPos (area : MatrixArea) (targetPos : Position) (y x : UInt32) : Position where
  x := .ofInt (targetPos.x.toNat + (x.toNat - area.centerX.toNat))
  y := .ofInt (targetPos.y.toNat + (y.toNat - area.centerY.toNat))
  z := targetPos.z

/-- A cell of the matrix that is set and in sight of the target. -/
def Shown (m : Map) (area : MatrixArea) (targetPos : Position) (y x : UInt32) : Prop :=
  (y < area.rows ∧ x < area.cols) ∧ area.data y x = true ∧
    isSightClear m targetPos (cellPos area targetPos y x) true = true

/-- The tiles of the shown cells are listed, each once, unless the target blocks projectiles;
tiles have been made where there were none, and nothing else has changed. -/
def Listed (m : Map) (a : Areas) (centerPos targetPos : Position) : Prop :=
  ∃ m' list, getCombatArea m centerPos targetPos (some a) = some (m', list) ∧ list.Nodup ∧
    (∀ pos, pos ∈ list ↔ m.blocks targetPos = false ∧ ∃ area, getArea a centerPos targetPos = some area ∧
      ∃ y x, Shown m area targetPos y x ∧ pos = cellPos area targetPos y x) ∧
    m'.tiles = fun pos => if pos ∈ list ∧ m.tiles pos = none then some {} else m.tiles pos

/-- No two of the cells to be listed have the same position. -/
def Distinct (m : Map) (area : MatrixArea) (targetPos : Position) : Prop :=
  ∀ y x y' x', Shown m area targetPos y x → Shown m area targetPos y' x' →
    cellPos area targetPos y x = cellPos area targetPos y' x' → y = y' ∧ x = x'

/-! ### Sight -/

section Sight

variable {m m' : Map}

/-- Sight depends on what blocks projectiles and on which tiles have something on them. -/
theorem isSightClear_congr (hb : m'.blocks = m.blocks) (ho : m'.occupied = m.occupied) :
    isSightClear m' = isSightClear m := by
  have hsight : ∀ start destination fuel pos,
      Sight.sightLoop start destination m' fuel pos = Sight.sightLoop start destination m fuel pos := by
    intro start destination fuel
    induction fuel with
    | zero => exact fun pos => by rw [Sight.sightLoop, Sight.sightLoop]
    | succ fuel ih =>
      intro pos
      rw [Sight.sightLoop, Sight.sightLoop, hb]
      simp only [ih]
  have hfloor : ∀ floors pos, Sight.floorLoop m' floors pos = Sight.floorLoop m floors pos := by
    intro floors
    induction floors with
    | zero => exact fun pos => rfl
    | succ floors ih =>
      intro pos
      rw [Sight.floorLoop, Sight.floorLoop, ho]
      simp only [ih]
  funext fromPos toPos floorCheck
  unfold isSightClear Sight.checkSightLine
  simp only [hsight, hfloor]

/-- A tile that is made has nothing on it. -/
theorem isSightClear_createTile (pos : Position) : isSightClear (createTile m pos) = isSightClear m := by
  unfold createTile setTile
  split
  · rename_i hnone
    split
    · rfl
    · have hget : ∀ p, (⟨Function.update m.tiles pos (some {})⟩ : Map).getTile p =
          if p = pos ∧ ¬ maxLayers ≤ pos.z then some {} else m.getTile p := by
        intro p
        unfold Map.getTile
        by_cases hp : p = pos
        · subst hp
          by_cases hz : maxLayers ≤ p.z <;> simp [hz]
        · simp [hp]
      have hpos : ∀ p, p = pos → m.getTile p = none := fun p hp => hp ▸ Option.isNone_iff_eq_none.1 hnone
      refine isSightClear_congr (funext fun p => ?_) (funext fun p => ?_)
      · rw [Map.blocks, hget, Map.blocks]
        split
        · rename_i h
          rw [hpos p h.1]
          rfl
        · rfl
      · rw [Map.occupied, hget, Map.occupied]
        split
        · rename_i h
          rw [hpos p h.1]
          rfl
        · rfl
  · rfl

end Sight

/-! ### The cursor -/

section Cursor

variable {area : MatrixArea} {targetPos : Position}

theorem ofInt_toNat (n : UInt32) : UInt16.ofInt n.toNat = n.toUInt16 := by
  rw [← UInt16.toNat_inj, UInt32.toNat_toUInt16]
  show (BitVec.ofNat 16 ((n.toNat : ℤ) % 2 ^ 16).toNat).toNat = _
  rw [BitVec.toNat_ofNat]
  omega

theorem ofInt_toNat_word (n : UInt16) : UInt16.ofInt n.toNat = n := by
  have hn := n.toNat_lt
  rw [← UInt16.toNat_inj]
  show (BitVec.ofNat 16 ((n.toNat : ℤ) % 2 ^ 16).toNat).toNat = _
  rw [BitVec.toNat_ofNat]
  omega

theorem ofInt_offset (t : UInt16) (x c : UInt32) :
    UInt16.ofInt (t.toNat + (x.toNat - c.toNat)) = t - c.toUInt16 + x.toUInt16 := by
  rw [Int.sub_eq_add_neg, UInt16.ofInt_add, UInt16.ofInt_add, UInt16.ofInt_neg, ofInt_toNat, ofInt_toNat,
    ofInt_toNat_word, UInt16.sub_eq_add_neg]
  ac_rfl

/-- The cursor is at the position of its cell. -/
theorem cellPos_eq (y x : UInt32) : cellPos area targetPos y x =
    { startPos area targetPos with
      x := (startPos area targetPos).x + x.toUInt16, y := (startPos area targetPos).y + y.toUInt16 } := by
  unfold cellPos startPos
  rw [ofInt_offset, ofInt_offset]

theorem toUInt16_ofNat (k : ℕ) : (UInt32.ofNat k).toUInt16 = UInt16.ofNat k := by
  rw [← UInt16.toNat_inj, UInt32.toNat_toUInt16, UInt32.toNat_ofNat', UInt16.toNat_ofNat']
  omega

/-- The first cells of a row. -/
theorem foldl_scanCell (y : UInt32) (s : Scan) (k : ℕ) :
    ((List.range k).map UInt32.ofNat).foldl (scanCell area targetPos y) s =
      let ml := ((List.range k).map UInt32.ofNat).foldl
        (fun ml x => mark targetPos (area.data y x) { s.tmpPos with x := s.tmpPos.x + x.toUInt16 } ml) (s.map, s.list)
      ⟨{ s.tmpPos with x := s.tmpPos.x + .ofNat k }, ml.1, ml.2⟩ := by
  induction k with
  | zero =>
    show s = ⟨{ s.tmpPos with x := s.tmpPos.x + 0 }, _, _⟩
    rw [UInt16.add_zero]
    rfl
  | succ k ih =>
    rw [List.range_succ, List.map_append, List.foldl_append, ih]
    simp only [List.foldl_append, List.map_cons, List.map_nil, List.foldl_cons, List.foldl_nil, scanCell,
      toUInt16_ofNat]
    rw [UInt16.ofNat_add, UInt16.add_assoc]
    rfl

/-- A row: the cursor winds back and goes down. -/
theorem scanRow_eq (s : Scan) (y : UInt32) :
    scanRow area targetPos s y =
      let ml := (upTo area.cols).foldl
        (fun ml x => mark targetPos (area.data y x) { s.tmpPos with x := s.tmpPos.x + x.toUInt16 } ml) (s.map, s.list)
      ⟨{ s.tmpPos with y := s.tmpPos.y + 1 }, ml.1, ml.2⟩ := by
  have hcols : UInt16.ofNat area.cols.toNat = area.cols.toUInt16 := by
    rw [← toUInt16_ofNat, UInt32.ofNat_toNat]
  unfold scanRow upTo
  rw [foldl_scanCell, hcols]
  simp only [UInt16.add_sub_cancel]

variable (area targetPos) in
/-- The first rows, all of whose cells are marked at their positions. -/
theorem foldl_scanRow (s : Scan) (k : ℕ) :
    ((List.range k).map UInt32.ofNat).foldl (scanRow area targetPos) s =
      let ml := ((List.range k).map UInt32.ofNat).foldl (fun ml y => (upTo area.cols).foldl
        (fun ml x => mark targetPos (area.data y x)
          { s.tmpPos with x := s.tmpPos.x + x.toUInt16, y := s.tmpPos.y + y.toUInt16 } ml) ml) (s.map, s.list)
      ⟨{ s.tmpPos with y := s.tmpPos.y + .ofNat k }, ml.1, ml.2⟩ := by
  induction k with
  | zero =>
    show s = ⟨{ s.tmpPos with y := s.tmpPos.y + 0 }, _, _⟩
    rw [UInt16.add_zero]
    rfl
  | succ k ih =>
    rw [List.range_succ, List.map_append, List.foldl_append, ih]
    simp only [List.foldl_append, List.map_cons, List.map_nil, List.foldl_cons, List.foldl_nil, scanRow_eq,
      toUInt16_ofNat]
    rw [UInt16.ofNat_add, UInt16.add_assoc]
    rfl

/-- The cells of a matrix, row by row. -/
def cells (area : MatrixArea) : List (UInt32 × UInt32) := (upTo area.rows).product (upTo area.cols)

theorem scan_eq (m : Map) :
    (let s := (upTo area.rows).foldl (scanRow area targetPos) ⟨startPos area targetPos, m, []⟩; (s.map, s.list)) =
      (cells area).foldl (fun ml c => mark targetPos (area.data c.1 c.2) (cellPos area targetPos c.1 c.2) ml)
        (m, []) := by
  have hrows := foldl_scanRow area targetPos ⟨startPos area targetPos, m, []⟩ area.rows.toNat
  rw [upTo, hrows, cells, List.product, List.foldl_flatMap]
  simp only [List.foldl_map, cellPos_eq, upTo]

theorem nodup_upTo (n : UInt32) : (upTo n).Nodup := by
  have hn := n.toNat_lt
  refine List.Nodup.map_on (fun a ha b hb h => ?_) List.nodup_range
  rw [List.mem_range] at ha hb
  have := congrArg UInt32.toNat h
  rw [UInt32.toNat_ofNat', UInt32.toNat_ofNat'] at this
  omega

theorem nodup_cells : (cells area).Nodup := (nodup_upTo _).product (nodup_upTo _)

theorem mem_cells {y x : UInt32} : (y, x) ∈ cells area ↔ y < area.rows ∧ x < area.cols := by
  rw [cells, List.pair_mem_product, AreaCombat.mem_upTo, AreaCombat.mem_upTo]

end Cursor

/-! ### The list -/

section List

variable {area : MatrixArea} {targetPos : Position} {m : Map}

/-- A cell that is put on the list. -/
def shows (m : Map) (area : MatrixArea) (targetPos : Position) (c : UInt32 × UInt32) : Bool :=
  area.data c.1 c.2 ∧ isSightClear m targetPos (cellPos area targetPos c.1 c.2) true

/-- The map `m` with tiles where the listed ones had none. -/
def Created (m m' : Map) (list : List Position) : Prop :=
  m'.tiles = fun pos => if pos ∈ list ∧ m.tiles pos = none then some {} else m.tiles pos

theorem Created.refl (m : Map) : Created m m [] := by simp [Created]

theorem Created.createTile {m' : Map} {list : List Position} {pos : Position} (h : Created m m' list)
    (hz : ¬ maxLayers ≤ pos.z) : Created m (createTile m' pos) (pos :: list) := by
  have hget : m'.getTile pos = m'.tiles pos := if_neg hz
  have hpos := congrFun h pos
  have hother : ∀ p, p ≠ pos → (p ∈ pos :: list ↔ p ∈ list) := fun p hp => by simp [hp]
  unfold Created CombatArea.createTile setTile
  rw [hget, if_neg hz]
  funext p
  cases htile : m'.tiles pos with
  | none =>
    rw [Option.isNone_none, if_pos rfl]
    show Function.update m'.tiles pos (some {}) p = _
    by_cases hp : p = pos
    · subst hp
      have hnone : m.tiles p = none := by
        rw [htile] at hpos
        by_contra hne
        rw [if_neg fun h' => hne h'.2] at hpos
        exact hne hpos.symm
      rw [Function.update_self, if_pos ⟨List.mem_cons_self, hnone⟩]
    · rw [Function.update_of_ne hp, congrFun h p]
      simp only [hother p hp]
  | some tile =>
    rw [Option.isNone_some, if_neg Bool.false_ne_true, congrFun h p]
    by_cases hp : p = pos
    · subst hp
      by_cases hnone : m.tiles p = none
      · have hmem : p ∈ list := by
          by_contra hmem
          rw [if_neg fun h' => hmem h'.1, hnone, htile] at hpos
          exact nomatch hpos
        rw [if_pos ⟨hmem, hnone⟩, if_pos ⟨List.mem_cons_self, hnone⟩]
      · rw [if_neg fun h' => hnone h'.2, if_neg fun h' => hnone h'.2]
    · simp only [hother p hp]

variable (area) in
/-- The loop over the cells: the shown ones are on the list, the last one first. -/
theorem marks_spec (hz : ¬ maxLayers ≤ targetPos.z) (cs : List (UInt32 × UInt32)) {m' : Map} {list : List Position}
    (hsight : isSightClear m' = isSightClear m) (hc : Created m m' list) :
    ∃ m'', cs.foldl (fun ml c => mark targetPos (area.data c.1 c.2) (cellPos area targetPos c.1 c.2) ml) (m', list) =
        (m'', ((cs.filter (shows m area targetPos)).map fun c => cellPos area targetPos c.1 c.2).reverse ++ list) ∧
      Created m m'' (((cs.filter (shows m area targetPos)).map fun c => cellPos area targetPos c.1 c.2).reverse ++
        list) := by
  induction cs generalizing m' list with
  | nil => exact ⟨m', rfl, hc⟩
  | cons c cs ih =>
    rw [List.foldl_cons]
    by_cases h : shows m area targetPos c = true
    · have hmark : mark targetPos (area.data c.1 c.2) (cellPos area targetPos c.1 c.2) (m', list) =
          (createTile m' (cellPos area targetPos c.1 c.2), cellPos area targetPos c.1 c.2 :: list) := by
        rw [mark, hsight]
        exact if_pos (of_decide_eq_true h)
      rw [hmark, List.filter_cons_of_pos h, List.map_cons, List.reverse_cons, List.append_assoc]
      exact ih ((isSightClear_createTile _).trans hsight) (hc.createTile hz)
    · have hmark : mark targetPos (area.data c.1 c.2) (cellPos area targetPos c.1 c.2) (m', list) = (m', list) := by
        rw [mark, hsight]
        exact if_neg fun h' => h (decide_eq_true h')
      rw [hmark, List.filter_cons_of_neg h]
      exact ih hsight hc

/-- What `getList` gives when the target has a tile. -/
theorem getCombatArea_spec (a : Areas) (centerPos : Position) {tile : Sight.Tile} (hz : ¬ maxLayers ≤ targetPos.z)
    (htile : m.getTile targetPos = some tile) :
    ∃ m' list, getCombatArea m centerPos targetPos (some a) = some (m', list) ∧ Created m m' list ∧
      (∀ pos, pos ∈ list ↔ m.blocks targetPos = false ∧ ∃ area, getArea a centerPos targetPos = some area ∧
        ∃ y x, Shown m area targetPos y x ∧ pos = cellPos area targetPos y x) ∧
      (list.Nodup ↔ (m.blocks targetPos = false → ∀ area, getArea a centerPos targetPos = some area →
        Distinct m area targetPos)) := by
  have hblocks : m.blocks targetPos = tile.blocksProjectile := by
    rw [Map.blocks, htile]
    rfl
  have hget : getCombatArea m centerPos targetPos (some a) = getList m a centerPos targetPos := if_neg hz
  rw [hget, getList, htile, hblocks]
  simp only [Option.bind_eq_bind, Option.bind_some]
  by_cases hb : tile.blocksProjectile = true
  · rw [if_pos hb]
    exact ⟨m, [], rfl, .refl m, by simp [hb], by simp [hb]⟩
  rw [if_neg hb]
  have hb' := Bool.eq_false_iff.2 hb
  cases harea : getArea a centerPos targetPos with
  | none => exact ⟨m, [], rfl, .refl m, by simp, by simp⟩
  | some area =>
    obtain ⟨m', hfold, hcreated⟩ := marks_spec area hz (cells area) rfl (Created.refl m)
    rw [← scan_eq] at hfold
    rw [List.append_nil] at hfold hcreated
    have hshown : ∀ y x, (y, x) ∈ (cells area).filter (shows m area targetPos) ↔ Shown m area targetPos y x := by
      intro y x
      rw [List.mem_filter, mem_cells, shows, decide_eq_true_iff]
      rfl
    refine ⟨m', _, congrArg some hfold, hcreated, fun pos => ?_, ?_⟩
    · rw [List.mem_reverse, List.mem_map]
      constructor
      · rintro ⟨⟨y, x⟩, hmem, rfl⟩
        exact ⟨hb', area, rfl, y, x, (hshown y x).1 hmem, rfl⟩
      · rintro ⟨-, area', harea', y, x, hs, rfl⟩
        obtain rfl := Option.some.inj harea'
        exact ⟨(y, x), (hshown y x).2 hs, rfl⟩
    · rw [List.nodup_reverse, List.nodup_map_iff_inj_on (nodup_cells.filter _)]
      constructor
      · intro h _ area' harea' y x y' x' hs hs' heq
        obtain rfl := Option.some.inj harea'
        exact Prod.mk.inj (h _ ((hshown y x).2 hs) _ ((hshown y' x').2 hs') heq)
      · rintro h ⟨y, x⟩ hmem ⟨y', x'⟩ hmem' heq
        obtain ⟨rfl, rfl⟩ := h hb' area rfl y x y' x' ((hshown y x).1 hmem) ((hshown y' x').1 hmem') heq
        rfl

end List

/-- In a matrix whose sides have 65536 cells at most, different cells have different positions. -/
theorem distinct_of_le {m : Map} {area : MatrixArea} {targetPos : Position} (hrows : area.rows.toNat ≤ 65536)
    (hcols : area.cols.toNat ≤ 65536) : Distinct m area targetPos := by
  rintro y x y' x' ⟨⟨hy, hx⟩, -⟩ ⟨⟨hy', hx'⟩, -⟩ heq
  rw [cellPos_eq, cellPos_eq, Position.mk.injEq, UInt16.add_right_inj, UInt16.add_right_inj] at heq
  have hword : ∀ {a b n : UInt32}, n.toNat ≤ 65536 → a < n → b < n → a.toUInt16 = b.toUInt16 → a = b := by
    intro a b n hn ha hb h
    have := congrArg UInt16.toNat h
    rw [UInt32.toNat_toUInt16, UInt32.toNat_toUInt16] at this
    rw [UInt32.lt_iff_toNat_lt] at ha hb
    rw [← UInt32.toNat_inj]
    omega
  exact ⟨hword hrows hy hy' heq.2.1, hword hcols hx hx' heq.1⟩

/-- **The target's tile is used before it is known to exist.** With a tile at the target the
list and the map are right, each position once as long as the matrix does not reach around
the map; without one, the tile that is not there is asked whether it blocks. -/
theorem listed_iff (m : Map) (a : Areas) (centerPos targetPos : Position) (hz : targetPos.z < 16) :
    Listed m a centerPos targetPos ↔ (∃ tile, m.tiles targetPos = some tile) ∧
      (m.blocks targetPos = false → ∀ area, getArea a centerPos targetPos = some area →
        Distinct m area targetPos) := by
  have hz' : ¬ maxLayers ≤ targetPos.z := UInt8.not_le.2 hz
  have hget : m.getTile targetPos = m.tiles targetPos := if_neg hz'
  cases htile : m.tiles targetPos with
  | none =>
    refine iff_of_false ?_ (by rintro ⟨⟨tile, h⟩, -⟩; exact nomatch h)
    rintro ⟨m', list, h, -⟩
    rw [getCombatArea, if_neg hz', getList, hget, htile] at h
    exact nomatch h
  | some tile =>
    obtain ⟨m', list, hlist, hcreated, hmem, hnodup⟩ :=
      getCombatArea_spec a centerPos hz' (hget.trans htile)
    constructor
    · rintro ⟨m'', list', hlist', hn, -, -⟩
      obtain ⟨rfl, rfl⟩ := Prod.mk.inj (Option.some.inj (hlist.symm.trans hlist'))
      exact ⟨⟨tile, rfl⟩, hnodup.1 hn⟩
    · rintro ⟨-, hd⟩
      exact ⟨m', list, hlist, hnodup.2 hd, hmem, hcreated⟩

/-- A square of one cell, for every direction. -/
def oneCell : Areas where
  areas _ := some { rows := 1, cols := 1, data := fun _ _ => true }
  hasExtArea := false

theorem listed_iff_tile :
    Listed ⟨fun _ => some {}⟩ oneCell ⟨5, 5, 7⟩ ⟨5, 4, 7⟩ ↔ (∃ tile, (fun _ => some {} : Position → Option Sight.Tile)
      ⟨5, 4, 7⟩ = some tile) ∧ ((⟨fun _ => some {}⟩ : Map).blocks ⟨5, 4, 7⟩ = false →
        ∀ area, getArea oneCell ⟨5, 5, 7⟩ ⟨5, 4, 7⟩ = some area → Distinct ⟨fun _ => some {}⟩ area ⟨5, 4, 7⟩) :=
  listed_iff ⟨fun _ => some {}⟩ oneCell ⟨5, 5, 7⟩ ⟨5, 4, 7⟩ (by decide)

/-- A spell cast to the north from the only tile of the map. -/
theorem not_listed_no_tile : ∃ (m : Map) (a : Areas) (centerPos targetPos : Position), targetPos.z < 16 ∧
    ¬ Listed m a centerPos targetPos := by
  refine ⟨⟨fun pos => if pos = ⟨5, 5, 7⟩ then some {} else none⟩, oneCell, ⟨5, 5, 7⟩, ⟨5, 4, 7⟩, by decide, ?_⟩
  rintro ⟨m', list, h, -⟩
  rw [getCombatArea, if_neg (by decide), getList] at h
  exact nomatch h

end CombatArea
end ForgottenServer
