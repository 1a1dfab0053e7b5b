/-
# The quadtree of the map

The map keeps its tiles in leaves of eight by eight positions. `QTreeNode`
finds a leaf by the upper thirteen of the sixteen bits of each coordinate, one
bit of each a level: it is a trie whose paths are as long as the coordinates
have such bits (`getLeaf_eq`), and two positions share a path when they share
a block (`path_eq_iff`). A new leaf is linked with the leaves next to it:
every leaf leads to the leaf to its south and the one to its east, whatever
the order in which the leaves came (`Good.linked`). To the outside the map is a
function from positions to tiles (`place`).

Key definitions: `getLeafStatic`, `createLeaf`, `Map.setTile`, `Good`, `place`.
Key theorems: `createLeaf_eq`, `Map.createLeaf_spec`, `getTile_setTile`, `getTile_run`.
-/
import Mathlib.Data.Nat.Bitwise
import Mathlib.Tactic
import ForgottenServer.Lib.Run
import ForgottenServer.Lib.Trie
import ForgottenServer.Spectators

namespace ForgottenServer
namespace QTree

open Run Tries
open Spectators (Position)

def MAP_MAX_LAYERS : ℕ := 16

def FLOOR_BITS : ℕ := 3

def FLOOR_SIZE : UInt32 := 8

def FLOOR_MASK : UInt16 := 7

/-! ### Nodes -/

theorem toNat_childIndex (x y : UInt32) :
    (((x &&& 0x8000) >>> 15) ||| ((y &&& 0x8000) >>> 14)).toNat =
      (x.toNat.testBit 15).toNat + 2 * (y.toNat.testBit 15).toNat := by
  have hand : ∀ n : ℕ, n &&& 0x8000 = (n.testBit 15).toNat * 2 ^ 15 := fun n => Nat.and_two_pow n 15
  rw [UInt32.toNat_or, UInt32.toNat_shiftRight, UInt32.toNat_shiftRight, UInt32.toNat_and,
    UInt32.toNat_and]
  change ((x.toNat &&& 0x8000) >>> 15) ||| ((y.toNat &&& 0x8000) >>> 14) = _
  rw [hand, hand]
  cases x.toNat.testBit 15 <;> cases y.toNat.testBit 15 <;> rfl

theorem childIndex_lt (x y : UInt32) :
    (((x &&& 0x8000) >>> 15) ||| ((y &&& 0x8000) >>> 14)).toNat < 4 := by
  rw [toNat_childIndex]
  cases x.toNat.testBit 15 <;> cases y.toNat.testBit 15 <;> decide

/-- The child that the highest of the sixteen bits of the coordinates choose. -/
def childIndex (x y : UInt32) : Fin 4 :=
  ⟨(((x &&& 0x8000) >>> 15) ||| ((y &&& 0x8000) >>> 14)).toNat, childIndex_lt x y⟩

/-- A node with four children, a leaf or a null pointer. Leaves are references. -/
abbrev QTreeNode := Trie (Fin 4) ℕ

/-- `QTreeNode::getLeaf` -/
def getLeaf : QTreeNode → UInt32 → UInt32 → Option ℕ
  | .leaf l, _, _ => some l
  | .node child, x, y => getLeaf (child (childIndex x y)) (x <<< 1) (y <<< 1)
  | .empty, _, _ => none

/-- `QTreeNode::getLeafStatic`. It goes down before it looks for a leaf. -/
def getLeafStatic : QTreeNode → UInt32 → UInt32 → Option ℕ
  | .node child, x, y =>
    match child (childIndex x y) with
    | .empty => none
    | .leaf l => some l
    | .node _ => getLeafStatic (child (childIndex x y)) (x <<< 1) (y <<< 1)
  | _, _, _ => none

/-- The child that `QTreeNode::createLeaf` goes on with, and whether it is a
leaf made for a null pointer. -/
def makeChild (newLeaf level : ℕ) : QTreeNode → QTreeNode × Bool
  | .empty => if level ≠ FLOOR_BITS then (.node fun _ => .empty, false) else (.leaf newLeaf, true)
  | node => (node, false)

/-- `QTreeNode::createLeaf`: the node, its leaf for the coordinates and whether
the leaf is new. A null pointer is not called, and no inner node is reached
below level three, where the source would go on with a level of `2^32 - 1`. -/
def createLeaf (newLeaf : ℕ) : QTreeNode → UInt32 → UInt32 → ℕ → Option (QTreeNode × ℕ × Bool)
  | .leaf l, _, _, _ => some (.leaf l, l, false)
  | .node child, x, y, level + 1 =>
    let index := childIndex x y
    let made := makeChild newLeaf (level + 1) (child index)
    (createLeaf newLeaf made.1 (x * 2) (y * 2) level).map fun (node, leaf, isNew) =>
      (.node (Function.update child index node), leaf, made.2 || isNew)
  | _, _, _, _ => none

/-! ### Paths -/

/-- The children on the way to a leaf, `n` levels down. -/
def path : ℕ → UInt32 → UInt32 → List (Fin 4)
  | 0, _, _ => []
  | n + 1, x, y => childIndex x y :: path n (x <<< 1) (y <<< 1)

@[simp] theorem length_path : ∀ (n : ℕ) (x y : UInt32), (path n x y).length = n
  | 0, _, _ => rfl
  | n + 1, x, y => congrArg (· + 1) (length_path n (x <<< 1) (y <<< 1))

theorem childIndex_eq_iff {x y x' y' : UInt32} : childIndex x y = childIndex x' y' ↔
    x.toNat.testBit 15 = x'.toNat.testBit 15 ∧ y.toNat.testBit 15 = y'.toNat.testBit 15 := by
  unfold childIndex
  rw [Fin.mk.injEq, toNat_childIndex, toNat_childIndex]
  cases x.toNat.testBit 15 <;> cases x'.toNat.testBit 15 <;> cases y.toNat.testBit 15 <;>
    cases y'.toNat.testBit 15 <;> decide

theorem testBit_shiftLeft (x : UInt32) {i : ℕ} (hi : i < 31) :
    (x <<< (1 : UInt32)).toNat.testBit (i + 1) = x.toNat.testBit i := by
  rw [UInt32.toNat_shiftLeft, Nat.testBit_mod_two_pow, decide_eq_true (by omega : i + 1 < 32)]
  change (x.toNat <<< 1).testBit (i + 1) = _
  rw [Nat.testBit_shiftLeft, Nat.add_sub_cancel, decide_eq_true (Nat.le_add_left 1 i), Bool.true_and]

theorem mul_two_eq_shiftLeft (x : UInt32) : x * 2 = x <<< (1 : UInt32) := by
  apply UInt32.toNat_inj.1
  rw [UInt32.toNat_mul, UInt32.toNat_shiftLeft]
  change x.toNat * 2 % 2 ^ 32 = (x.toNat <<< 1) % 2 ^ 32
  rw [Nat.shiftLeft_eq]

/-- A path reads the highest of the sixteen bits, one a level. -/
theorem path_eq_iff_testBit {n : ℕ} (hn : n ≤ 16) {x y x' y' : UInt32} :
    path n x y = path n x' y' ↔ ∀ i < n,
      x.toNat.testBit (15 - i) = x'.toNat.testBit (15 - i) ∧
      y.toNat.testBit (15 - i) = y'.toNat.testBit (15 - i) := by
  induction n generalizing x y x' y' with
  | zero => exact iff_of_true rfl fun i hi => absurd hi (Nat.not_lt_zero i)
  | succ n ih =>
    unfold path
    rw [List.cons.injEq, childIndex_eq_iff, ih (Nat.le_of_succ_le hn)]
    have hshift : ∀ (z : UInt32) (i : ℕ), i < n →
        (z <<< (1 : UInt32)).toNat.testBit (15 - i) = z.toNat.testBit (15 - (i + 1)) := by
      intro z i hi
      rw [← testBit_shiftLeft z (by omega : 15 - (i + 1) < 31)]
      congr 1
      omega
    constructor
    · intro ⟨h0, h⟩ i hi
      cases i with
      | zero => exact h0
      | succ i =>
        have hi' := Nat.lt_of_succ_lt_succ hi
        rw [← hshift x i hi', ← hshift x' i hi', ← hshift y i hi', ← hshift y' i hi']
        exact h i hi'
    · intro h
      refine ⟨h 0 (Nat.succ_pos n), fun i hi => ?_⟩
      rw [hshift x i hi, hshift x' i hi, hshift y i hi, hshift y' i hi]
      exact h (i + 1) (Nat.succ_lt_succ hi)

/-- The row or column of blocks that a coordinate is in, modulo `2^16`. -/
def block (x : UInt32) : ℕ := x.toNat % 0x10000 / 8

theorem testBit_block (x : UInt32) (j : ℕ) :
    (block x).testBit j = (decide (j < 13) && x.toNat.testBit (j + 3)) := by
  have h : block x = x.toNat % 2 ^ 16 / 2 ^ 3 := rfl
  rw [h, Nat.testBit_div_two_pow, Nat.testBit_mod_two_pow]
  congr 1
  exact decide_eq_decide.2 (by omega)

theorem block_eq_iff {x x' : UInt32} :
    block x = block x' ↔ ∀ i < 13, x.toNat.testBit (15 - i) = x'.toNat.testBit (15 - i) := by
  constructor
  · intro h i hi
    have hbit : ∀ z : UInt32, z.toNat.testBit (15 - i) = (block z).testBit (12 - i) := by
      intro z
      rw [testBit_block, decide_eq_true (by omega : 12 - i < 13), Bool.true_and]
      congr 1
      omega
    rw [hbit, hbit, h]
  · intro h
    apply Nat.eq_of_testBit_eq
    intro j
    rw [testBit_block, testBit_block]
    by_cases hj : j < 13
    · have hi := h (12 - j) (by omega)
      have he : 15 - (12 - j) = j + 3 := by omega
      rw [he] at hi
      rw [hi]
    · rw [decide_eq_false hj, Bool.false_and, Bool.false_and]

/-- **Two positions share a path when they share a block.** -/
theorem path_eq_iff {x y x' y' : UInt32} :
    path 13 x y = path 13 x' y' ↔ block x = block x' ∧ block y = block y' := by
  rw [path_eq_iff_testBit (by norm_num), block_eq_iff, block_eq_iff]
  exact ⟨fun h => ⟨fun i hi => (h i hi).1, fun i hi => (h i hi).2⟩, fun h i hi => ⟨h.1 i hi, h.2 i hi⟩⟩

/-! ### The tree as a trie -/

theorem getLeaf_eq {n : ℕ} {t : QTreeNode} (h : Deep n t) (x y : UInt32) :
    getLeaf t x y = find t (path n x y) := by
  induction h generalizing x y with
  | empty => rw [find_empty, getLeaf]
  | leaf l => rw [find_leaf, getLeaf]
  | node _ ih => rw [getLeaf, path, find_node, ih]

theorem getLeafStatic_eq {n : ℕ} {child : Fin 4 → QTreeNode} (h : Deep (n + 1) (.node child))
    (x y : UInt32) : getLeafStatic (.node child) x y = find (.node child) (path (n + 1) x y) := by
  induction n generalizing child x y with
  | zero =>
    cases h with
    | node hc =>
      rw [getLeafStatic, path, find_node]
      have hd := hc (childIndex x y)
      cases hi : child (childIndex x y) with
      | empty => rw [find_empty]
      | leaf l => rw [find_leaf]
      | node child' =>
        rw [hi] at hd
        nomatch hd
  | succ n ih =>
    cases h with
    | node hc =>
      rw [getLeafStatic, path, find_node]
      have hd := hc (childIndex x y)
      cases hi : child (childIndex x y) with
      | empty => rw [find_empty]
      | leaf l => rw [find_leaf]
      | node child' =>
        rw [hi] at hd
        exact ih hd (x <<< 1) (y <<< 1)

/-- A child made for a null pointer grows as the null pointer. -/
theorem makeChild_spec {n : ℕ} {t : QTreeNode} (h : Deep n t) (newLeaf : ℕ) {p : List (Fin 4)}
    (hp : p.length = n) : ∃ t' made, makeChild newLeaf (n + 3) t = (t', made) ∧
      Deep n t' ∧ t' ≠ .empty ∧ grow t' p newLeaf = grow t p newLeaf ∧
      (find t' p).getD newLeaf = (find t p).getD newLeaf ∧
      (made || (find t' p).isNone) = (find t p).isNone := by
  cases t with
  | empty =>
    cases n with
    | zero =>
      rw [List.length_eq_zero_iff.1 hp]
      exact ⟨.leaf newLeaf, true, rfl, .leaf newLeaf, nofun, rfl, rfl, rfl⟩
    | succ n =>
      obtain _ | ⟨b, l⟩ := p
      · exact absurd hp (Nat.succ_ne_zero n).symm
      have hlevel : n + 1 + 3 ≠ FLOOR_BITS := by
        unfold FLOOR_BITS
        omega
      have hmake : makeChild newLeaf (n + 1 + 3) .empty = (.node fun _ => .empty, false) := by
        unfold makeChild
        exact if_pos hlevel
      refine ⟨_, false, hmake, .node fun _ => .empty n, nofun, ?_, ?_, ?_⟩
      · exact grow_bare b l newLeaf
      · rw [find_node, find_empty, find_empty]
      · rw [find_node, find_empty, find_empty, Bool.false_or]
  | leaf l => exact ⟨_, false, rfl, h, nofun, rfl, rfl, Bool.false_or _⟩
  | node child => exact ⟨_, false, rfl, h, nofun, rfl, rfl, Bool.false_or _⟩

/-- **`createLeaf` grows the tree to the leaf of the coordinates.** -/
theorem createLeaf_eq {n : ℕ} {t : QTreeNode} (h : Deep n t) (ht : t ≠ .empty) (newLeaf : ℕ)
    (x y : UInt32) : createLeaf newLeaf t x y (n + 2) =
      some (grow t (path n x y) newLeaf, (find t (path n x y)).getD newLeaf,
        (find t (path n x y)).isNone) := by
  induction n generalizing t x y with
  | zero =>
    cases h with
    | empty => exact absurd rfl ht
    | leaf l => rfl
  | succ n ih =>
    cases h with
    | empty => exact absurd rfl ht
    | @node _ child hc =>
      obtain ⟨t', made, hmake, hd, hne, hgrow, hget, hnone⟩ :=
        makeChild_spec (hc (childIndex x y)) newLeaf (length_path n (x <<< 1) (y <<< 1))
      rw [createLeaf, path, find_node]
      simp only [mul_two_eq_shiftLeft, hmake]
      rw [ih hd hne]
      simp only [Option.map_some, hgrow, hget, hnone]
      rfl

/-! ### The map -/

structure Floor (τ : Type*) where
  tiles : ℕ → ℕ → Option τ := fun _ _ => none

/-- A leaf with its creatures; `leafS`, `leafE` and the floors may be null. -/
structure QTreeLeafNode (τ : Type*) extends Spectators.QTreeLeafNode where
  leafS : Option ℕ := none
  leafE : Option ℕ := none
  array : ℕ → Option (Floor τ) := fun _ => none

/-- The tree and the leaves that its references stand for. -/
structure Map (τ : Type*) where
  root : QTreeNode := .node fun _ => .empty
  leaves : ℕ → QTreeLeafNode τ := fun _ => {}
  allocated : ℕ := 0

section Map

variable {τ ι : Type*}

def Map.getLeaf (m : Map τ) (x y : UInt32) : Option ℕ := QTree.getLeaf m.root x y

/-- `Map::getTile` -/
def Map.getTile (m : Map τ) (pos : Position) : Option τ :=
  if MAP_MAX_LAYERS ≤ pos.z.toNat then none
  else
    match getLeafStatic m.root pos.x.toUInt32 pos.y.toUInt32 with
    | none => none
    | some leaf =>
      match (m.leaves leaf).array pos.z.toNat with
      | none => none
      | some floor => floor.tiles (pos.x &&& FLOOR_MASK).toNat (pos.y &&& FLOOR_MASK).toNat

/-- A write to a leaf. -/
def Map.modify (m : Map τ) (leaf : ℕ) (f : QTreeLeafNode τ → QTreeLeafNode τ) : Map τ :=
  { m with leaves := Function.update m.leaves leaf (f (m.leaves leaf)) }

/-- `target->leafS = value` or `target->leafE = value`, when neither is null. -/
def Map.setLink (m : Map τ) (target value : Option ℕ)
    (write : QTreeLeafNode τ → ℕ → QTreeLeafNode τ) : Map τ :=
  match target, value with
  | some target, some value => m.modify target (write · value)
  | _, _ => m

def QTreeLeafNode.setLeafS (l : QTreeLeafNode τ) (leaf : ℕ) : QTreeLeafNode τ := { l with leafS := some leaf }

def QTreeLeafNode.setLeafE (l : QTreeLeafNode τ) (leaf : ℕ) : QTreeLeafNode τ := { l with leafE := some leaf }

/-- The links of a new leaf, in `Map::setTile`. -/
def Map.linkLeaf (m : Map τ) (x y : UInt32) (leaf : ℕ) : Map τ :=
  -- update north
  let m := m.setLink (m.getLeaf x (y - FLOOR_SIZE)) (some leaf) QTreeLeafNode.setLeafS
  -- update west leaf
  let m := m.setLink (m.getLeaf (x - FLOOR_SIZE) y) (some leaf) QTreeLeafNode.setLeafE
  -- update south
  let m := m.setLink (some leaf) (m.getLeaf x (y + FLOOR_SIZE)) QTreeLeafNode.setLeafS
  -- update east
  m.setLink (some leaf) (m.getLeaf (x + FLOOR_SIZE) y) QTreeLeafNode.setLeafE

/-- A new leaf, not yet linked. -/
def Map.addLeaf (m : Map τ) (root : QTreeNode) : Map τ where
  root
  leaves := Function.update m.leaves m.allocated {}
  allocated := m.allocated + 1

/-- The leaf of a position, created and linked when it is new, in `Map::setTile`. -/
def Map.createLeaf (m : Map τ) (x y : UInt16) : Option (Map τ × ℕ) :=
  (QTree.createLeaf m.allocated m.root x.toUInt32 y.toUInt32 15).map fun (root, leaf, isNew) =>
    if isNew then ((m.addLeaf root).linkLeaf x.toUInt32 y.toUInt32 leaf, leaf)
    else ({ m with root }, leaf)

/-- `QTreeLeafNode::createFloor` -/
def QTreeLeafNode.createFloor (l : QTreeLeafNode τ) (z : ℕ) : QTreeLeafNode τ :=
  match l.array z with
  | none => { l with array := Function.update l.array z (some {}) }
  | some _ => l

/-- What `Map::setTile` calls of a tile. -/
structure TileMethods (τ ι : Type*) where
  getItemList : τ → Option (List ι)
  getGround : τ → Option ι
  addThing : τ → ι → τ

/-- The items and the ground of a tile are put on the one in its place. -/
def TileMethods.merge (methods : TileMethods τ ι) (tile newTile : τ) : τ :=
  let tile := match methods.getItemList newTile with
    | some items => items.reverse.foldl methods.addThing tile
    | none => tile
  match methods.getGround newTile with
  | some ground => methods.addThing tile ground
  | none => tile

/-- The place of a tile is written. -/
def QTreeLeafNode.setPlace (l : QTreeLeafNode τ) (z i j : ℕ) (f : Option τ → τ) : QTreeLeafNode τ :=
  match l.array z with
  | none => l
  | some floor =>
    { l with array := Function.update l.array z (some
        ⟨Function.update floor.tiles i (Function.update (floor.tiles i) j (some (f (floor.tiles i j))))⟩) }

/-- A call of `Map::setTile`. -/
structure SetTile (τ : Type*) where
  pos : Position
  newTile : τ

/-- `Map::setTile` -/
def Map.setTile (methods : TileMethods τ ι) (m : Map τ) (c : SetTile τ) : Option (Map τ) :=
  if MAP_MAX_LAYERS ≤ c.pos.z.toNat then some m
  else
    (m.createLeaf c.pos.x c.pos.y).map fun (m, leaf) =>
      let m := m.modify leaf (·.createFloor c.pos.z.toNat)
      let offsetX := (c.pos.x &&& FLOOR_MASK).toNat
      let offsetY := (c.pos.y &&& FLOOR_MASK).toNat
      m.modify leaf (·.setPlace c.pos.z.toNat offsetX offsetY fun tile =>
        match tile with
        | some tile => methods.merge tile c.newTile
        | none => c.newTile)

/-! ### Links -/

/-- What holds of a map that only `setTile` has built: the leaves are at depth
thirteen, each at one place, and lead to the leaves next to them. -/
structure Good (m : Map τ) : Prop where
  inner : ∃ child, m.root = .node child
  deep : Deep 13 m.root
  distinct : Distinct 13 m.root
  allocated : ∀ p l, p.length = 13 → find m.root p = some l → l < m.allocated
  linked : ∀ x y l, m.getLeaf x y = some l →
    (m.leaves l).leafS = m.getLeaf x (y + FLOOR_SIZE) ∧
    (m.leaves l).leafE = m.getLeaf (x + FLOOR_SIZE) y

theorem block_lt (x : UInt32) : block x < 8192 := by
  unfold block
  omega

theorem block_add (x : UInt32) : block (x + FLOOR_SIZE) = (block x + 1) % 8192 := by
  have h : (x + FLOOR_SIZE).toNat = (x.toNat + 8) % 2 ^ 32 := UInt32.toNat_add x FLOOR_SIZE
  unfold block
  omega

theorem block_sub (x : UInt32) : block (x - FLOOR_SIZE) = (block x + 8191) % 8192 := by
  have h : (x - FLOOR_SIZE).toNat = (2 ^ 32 - 8 + x.toNat) % 2 ^ 32 := UInt32.toNat_sub x FLOOR_SIZE
  unfold block
  omega

theorem block_eq_sub_iff {x x' : UInt32} :
    block x' = block (x - FLOOR_SIZE) ↔ block (x' + FLOOR_SIZE) = block x := by
  have h := block_lt x
  have h' := block_lt x'
  rw [block_sub, block_add]
  omega

theorem block_toUInt32 (x : UInt16) : block x.toUInt32 = x.toNat / 8 := by
  have h := x.toNat_lt
  unfold block
  rw [UInt16.toNat_toUInt32]
  omega

section Leaves

variable {m : Map τ}

theorem Good.getLeaf_eq (h : Good m) (x y : UInt32) : m.getLeaf x y = find m.root (path 13 x y) :=
  QTree.getLeaf_eq h.deep x y

theorem Good.getLeaf_congr (h : Good m) {x y x' y' : UInt32} (hx : block x = block x')
    (hy : block y = block y') : m.getLeaf x y = m.getLeaf x' y' := by
  rw [h.getLeaf_eq, h.getLeaf_eq, path_eq_iff.2 ⟨hx, hy⟩]

/-- A leaf is at one place. -/
theorem Good.block_eq (h : Good m) {x y x' y' : UInt32} {l : ℕ} (hl : m.getLeaf x y = some l)
    (hl' : m.getLeaf x' y' = some l) : block x = block x' ∧ block y = block y' := by
  rw [h.getLeaf_eq] at hl hl'
  exact path_eq_iff.1 (h.distinct _ _ l (length_path 13 x y) (length_path 13 x' y') hl hl')

theorem Good.getLeafStatic_eq (h : Good m) (x y : UInt32) :
    getLeafStatic m.root x y = m.getLeaf x y := by
  obtain ⟨child, hroot⟩ := h.inner
  have hd := h.deep
  rw [h.getLeaf_eq, hroot]
  rw [hroot] at hd
  exact QTree.getLeafStatic_eq hd x y

theorem leaves_modify (l : ℕ) (f : QTreeLeafNode τ → QTreeLeafNode τ) (l' : ℕ) :
    (m.modify l f).leaves l' = if l' = l then f (m.leaves l') else m.leaves l' := by
  unfold Map.modify
  by_cases h : l' = l
  · rw [if_pos h, h]
    exact Function.update_self ..
  · rw [if_neg h]
    exact Function.update_of_ne h _ _

@[simp] theorem getLeaf_modify (l : ℕ) (f : QTreeLeafNode τ → QTreeLeafNode τ) (x y : UInt32) :
    (m.modify l f).getLeaf x y = m.getLeaf x y := rfl

@[simp] theorem root_setLink (target value : Option ℕ)
    (write : QTreeLeafNode τ → ℕ → QTreeLeafNode τ) :
    (m.setLink target value write).root = m.root := by
  cases target <;> cases value <;> rfl

@[simp] theorem allocated_setLink (target value : Option ℕ)
    (write : QTreeLeafNode τ → ℕ → QTreeLeafNode τ) :
    (m.setLink target value write).allocated = m.allocated := by
  cases target <;> cases value <;> rfl

@[simp] theorem getLeaf_setLink (target value : Option ℕ)
    (write : QTreeLeafNode τ → ℕ → QTreeLeafNode τ) (x y : UInt32) :
    (m.setLink target value write).getLeaf x y = m.getLeaf x y :=
  congrArg (QTree.getLeaf · x y) (root_setLink target value write)

theorem leaves_setLink (target value : Option ℕ) (write : QTreeLeafNode τ → ℕ → QTreeLeafNode τ)
    (l : ℕ) : (m.setLink target value write).leaves l =
      if target = some l then (value.map (write (m.leaves l))).getD (m.leaves l) else m.leaves l := by
  cases target with
  | none => rfl
  | some t =>
    cases value with
    | none => exact (ite_self _).symm
    | some v => simp only [Map.setLink, leaves_modify, Option.some.injEq, eq_comm, Option.map_some,
        Option.getD_some]

theorem linkLeaf_root (x y : UInt32) (leaf : ℕ) : (m.linkLeaf x y leaf).root = m.root := by
  simp only [Map.linkLeaf, root_setLink]

theorem linkLeaf_allocated (x y : UInt32) (leaf : ℕ) :
    (m.linkLeaf x y leaf).allocated = m.allocated := by
  simp only [Map.linkLeaf, allocated_setLink]

/-- What `setTile` writes into the leaves to link a new one. -/
theorem linkLeaf_leaves {x y : UInt32} {leaf : ℕ} (hnorth : m.getLeaf x (y - FLOOR_SIZE) ≠ some leaf)
    (hwest : m.getLeaf (x - FLOOR_SIZE) y ≠ some leaf) (l : ℕ) :
    (m.linkLeaf x y leaf).leaves l =
      { m.leaves l with
        leafS :=
          if l = leaf then (m.getLeaf x (y + FLOOR_SIZE)).or (m.leaves l).leafS
          else if m.getLeaf x (y - FLOOR_SIZE) = some l then some leaf else (m.leaves l).leafS
        leafE :=
          if l = leaf then (m.getLeaf (x + FLOOR_SIZE) y).or (m.leaves l).leafE
          else if m.getLeaf (x - FLOOR_SIZE) y = some l then some leaf else (m.leaves l).leafE } := by
  simp only [Map.linkLeaf, leaves_setLink, getLeaf_setLink, Option.some.injEq, Option.map_some,
    Option.getD_some]
  by_cases hl : l = leaf
  · subst hl
    simp only [if_true, if_neg hnorth, if_neg hwest]
    cases m.getLeaf x (y + FLOOR_SIZE) <;> cases m.getLeaf (x + FLOOR_SIZE) y <;> rfl
  · simp only [if_neg hl, if_neg (Ne.symm hl)]
    by_cases hn : m.getLeaf x (y - FLOOR_SIZE) = some l
    · by_cases hw : m.getLeaf (x - FLOOR_SIZE) y = some l
      · simp only [if_pos hn, if_pos hw]
        rfl
      · simp only [if_pos hn, if_neg hw]
        rfl
    · by_cases hw : m.getLeaf (x - FLOOR_SIZE) y = some l
      · simp only [if_neg hn, if_pos hw]
        rfl
      · simp only [if_neg hn, if_neg hw]

/-- What `setTile` does about the leaf of a position. -/
structure Created (m : Map τ) (x y : UInt32) (m' : Map τ) (leaf : ℕ) : Prop where
  good : Good m'
  getLeaf : ∀ x' y', m'.getLeaf x' y' =
    if block x' = block x ∧ block y' = block y then some leaf else m.getLeaf x' y'
  same : ∀ l, m.getLeaf x y = some l → leaf = l
  kept : ∀ x' y' l, m.getLeaf x' y' = some l → (m'.leaves l).array = (m.leaves l).array ∧
    (m'.leaves l).toQTreeLeafNode = (m.leaves l).toQTreeLeafNode
  fresh : m.getLeaf x y = none → (m'.leaves leaf).array = (fun _ => none) ∧
    (m'.leaves leaf).toQTreeLeafNode = {}

/-- One of the two links, by the steps `dx` and `dy` that it makes. -/
theorem link_correct (h : Good m) {m' : Map τ} {x y : UInt32} {leaf : ℕ}
    (hget : ∀ x' y', m'.getLeaf x' y' =
      if block x' = block x ∧ block y' = block y then some leaf else m.getLeaf x' y')
    (hleaf : ∀ x' y', m.getLeaf x' y' ≠ some leaf) {dx dy : UInt32}
    (hx : ∀ a b, block a = block (b - dx) ↔ block (a + dx) = block b)
    (hy : ∀ a b, block a = block (b - dy) ↔ block (a + dy) = block b)
    (hne : ¬ (block (x - dx) = block x ∧ block (y - dy) = block y)) {x' y' : UInt32} {l : ℕ}
    (hl : m'.getLeaf x' y' = some l) (old : Option ℕ) (hnew : l = leaf → old = none)
    (hold : m.getLeaf x' y' = some l → old = m.getLeaf (x' + dx) (y' + dy)) :
    (if l = leaf then (m'.getLeaf (x + dx) (y + dy)).or old
      else if m'.getLeaf (x - dx) (y - dy) = some l then some leaf else old) =
      m'.getLeaf (x' + dx) (y' + dy) := by
  have hprev : m'.getLeaf (x - dx) (y - dy) = m.getLeaf (x - dx) (y - dy) :=
    (hget _ _).trans (if_neg hne)
  rw [hget] at hl
  by_cases hsame : block x' = block x ∧ block y' = block y
  · -- the new leaf
    rw [if_pos hsame] at hl
    have hl' := (Option.some.inj hl).symm
    rw [if_pos hl', hnew hl', Option.or_none, hget, hget]
    have hx1 : block (x' + dx) = block (x + dx) :=
      (hx x' (x + dx)).1 (hsame.1.trans ((hx x (x + dx)).2 rfl))
    have hy1 : block (y' + dy) = block (y + dy) :=
      (hy y' (y + dy)).1 (hsame.2.trans ((hy y (y + dy)).2 rfl))
    rw [hx1, hy1, h.getLeaf_congr hx1 hy1]
  · rw [if_neg hsame] at hl
    have hl' : l ≠ leaf := fun e => hleaf x' y' (e ▸ hl)
    rw [if_neg hl', hprev, hold hl, hget]
    have hiff : block (x' + dx) = block x ∧ block (y' + dy) = block y ↔
        m.getLeaf (x - dx) (y - dy) = some l := by
      rw [← hx, ← hy]
      exact ⟨fun hb => (h.getLeaf_congr hb.1 hb.2).symm.trans hl, fun hp => h.block_eq hl hp⟩
    simp only [hiff]

theorem Good.getLeaf_ne_allocated (h : Good m) (x y : UInt32) : m.getLeaf x y ≠ some m.allocated := by
  intro hl
  rw [h.getLeaf_eq] at hl
  exact lt_irrefl _ (h.allocated _ _ (length_path 13 x y) hl)

/-- The map with a new leaf for the coordinates, not yet linked. -/
def Map.withLeaf (m : Map τ) (x y : UInt32) : Map τ := m.addLeaf (grow m.root (path 13 x y) m.allocated)

theorem find_withLeaf (h : Good m) {x y : UInt32} (hl : m.getLeaf x y = none) {p : List (Fin 4)}
    (hp : p.length = 13) : find (m.withLeaf x y).root p =
      if p = path 13 x y then some m.allocated else find m.root p := by
  have hf := find_grow h.deep (length_path 13 x y) hp m.allocated
  rw [← h.getLeaf_eq, hl] at hf
  exact hf

theorem getLeaf_withLeaf (h : Good m) {x y : UInt32} (hl : m.getLeaf x y = none) (x' y' : UInt32) :
    (m.withLeaf x y).getLeaf x' y' =
      if block x' = block x ∧ block y' = block y then some m.allocated else m.getLeaf x' y' := by
  have hf : (m.withLeaf x y).getLeaf x' y' = find (m.withLeaf x y).root (path 13 x' y') :=
    QTree.getLeaf_eq (h.deep.grow (length_path 13 x y) _) x' y'
  rw [hf, find_withLeaf h hl (length_path 13 x' y'), h.getLeaf_eq]
  simp only [path_eq_iff]

theorem leaves_withLeaf {x y : UInt32} {l : ℕ} (hl : l ≠ m.allocated) :
    (m.withLeaf x y).leaves l = m.leaves l :=
  Function.update_of_ne hl _ _

theorem leaves_withLeaf_new (x y : UInt32) : (m.withLeaf x y).leaves m.allocated = {} :=
  Function.update_self ..

theorem block_sub_ne (x : UInt32) : block (x - FLOOR_SIZE) ≠ block x := by
  have h := block_lt x
  rw [block_sub]
  omega

/-- A new leaf as `linkLeaf` leaves it: nothing but links has changed in the
old ones. -/
theorem linkLeaf_withLeaf (h : Good m) {x y : UInt32} (hl : m.getLeaf x y = none) (l : ℕ) :
    ((m.withLeaf x y).linkLeaf x y m.allocated).leaves l =
      { (m.withLeaf x y).leaves l with
        leafS :=
          if l = m.allocated then
            ((m.withLeaf x y).getLeaf x (y + FLOOR_SIZE)).or ((m.withLeaf x y).leaves l).leafS
          else if (m.withLeaf x y).getLeaf x (y - FLOOR_SIZE) = some l then some m.allocated
          else ((m.withLeaf x y).leaves l).leafS
        leafE :=
          if l = m.allocated then
            ((m.withLeaf x y).getLeaf (x + FLOOR_SIZE) y).or ((m.withLeaf x y).leaves l).leafE
          else if (m.withLeaf x y).getLeaf (x - FLOOR_SIZE) y = some l then some m.allocated
          else ((m.withLeaf x y).leaves l).leafE } := by
  apply linkLeaf_leaves
  · rw [getLeaf_withLeaf h hl, if_neg fun hb => block_sub_ne y hb.2]
    exact h.getLeaf_ne_allocated _ _
  · rw [getLeaf_withLeaf h hl, if_neg fun hb => block_sub_ne x hb.1]
    exact h.getLeaf_ne_allocated _ _

/-- **The links of a new leaf keep the map in order.** -/
theorem Good.linkLeaf (h : Good m) {x y : UInt32} (hl : m.getLeaf x y = none) :
    Good ((m.withLeaf x y).linkLeaf x y m.allocated) := by
  have hget : ∀ x' y', ((m.withLeaf x y).linkLeaf x y m.allocated).getLeaf x' y' =
      (m.withLeaf x y).getLeaf x' y' := fun x' y' =>
    congrArg (QTree.getLeaf · x' y') (linkLeaf_root x y m.allocated)
  have hlen := length_path 13 x y
  constructor
  · rw [linkLeaf_root]
    obtain ⟨child, hroot⟩ := h.inner
    exact ⟨_, congrArg (grow · (path 13 x y) m.allocated) hroot⟩
  · rw [linkLeaf_root]
    exact h.deep.grow hlen _
  · rw [linkLeaf_root]
    apply h.distinct.grow h.deep hlen
    exact fun p hp hf => lt_irrefl _ (h.allocated p _ hp hf)
  · intro p l hp hf
    rw [linkLeaf_root, find_withLeaf h hl hp] at hf
    rw [linkLeaf_allocated]
    by_cases he : p = path 13 x y
    · rw [if_pos he] at hf
      exact Option.some.inj hf ▸ Nat.lt_succ_self m.allocated
    · rw [if_neg he] at hf
      exact Nat.lt_succ_of_lt (h.allocated p l hp hf)
  · intro x' y' l hl'
    rw [hget] at hl'
    have hold : m.getLeaf x' y' = some l → (m.withLeaf x y).leaves l = m.leaves l := fun hl' =>
      leaves_withLeaf fun e => h.getLeaf_ne_allocated x' y' (e ▸ hl')
    have hzero : ∀ a b : UInt32, block a = block (b - 0) ↔ block (a + 0) = block b := by
      intro a b
      rw [UInt32.sub_zero, UInt32.add_zero]
    have hleaf := h.getLeaf_ne_allocated
    rw [linkLeaf_withLeaf h hl, hget, hget]
    constructor
    · have hs := link_correct h (getLeaf_withLeaf h hl) hleaf hzero (fun _ _ => block_eq_sub_iff)
        (fun hb => block_sub_ne y hb.2) hl' ((m.withLeaf x y).leaves l).leafS
        (fun e => by rw [e, leaves_withLeaf_new])
        fun hl' => by rw [hold hl', (h.linked x' y' l hl').1, UInt32.add_zero]
      rw [UInt32.add_zero, UInt32.add_zero, UInt32.sub_zero] at hs
      exact hs
    · have he := link_correct h (getLeaf_withLeaf h hl) hleaf (fun _ _ => block_eq_sub_iff) hzero
        (fun hb => block_sub_ne x hb.1) hl' ((m.withLeaf x y).leaves l).leafE
        (fun e => by rw [e, leaves_withLeaf_new])
        fun hl' => by rw [hold hl', (h.linked x' y' l hl').2, UInt32.add_zero]
      rw [UInt32.add_zero, UInt32.add_zero, UInt32.sub_zero] at he
      exact he

theorem createLeaf_spec (h : Good m) (x y : UInt16) : ∃ m' leaf, m.createLeaf x y = some (m', leaf) ∧
    Created m x.toUInt32 y.toUInt32 m' leaf := by
  have hne : m.root ≠ .empty := by
    obtain ⟨child, hroot⟩ := h.inner
    rw [hroot]
    exact nofun
  unfold Map.createLeaf
  rw [createLeaf_eq h.deep hne, Option.map_some, ← h.getLeaf_eq]
  generalize x.toUInt32 = x
  generalize y.toUInt32 = y
  cases hl : m.getLeaf x y with
  | some l =>
    rw [grow_of_find (h.getLeaf_eq x y ▸ hl)]
    refine ⟨m, l, rfl, h, fun x' y' => ?_, fun l' hl' => Option.some.inj (hl.symm.trans hl'),
      fun _ _ _ _ => ⟨rfl, rfl⟩, fun hn => nomatch hl.symm.trans hn⟩
    by_cases hb : block x' = block x ∧ block y' = block y
    · rw [if_pos hb, h.getLeaf_congr hb.1 hb.2, hl]
    · rw [if_neg hb]
  | none =>
    refine ⟨(m.withLeaf x y).linkLeaf x y m.allocated, m.allocated, rfl, h.linkLeaf hl, ?_,
      fun l' hl' => (nomatch hl.symm.trans hl'), ?_, ?_⟩
    · intro x' y'
      rw [← getLeaf_withLeaf h hl]
      exact congrArg (QTree.getLeaf · x' y') (linkLeaf_root x y m.allocated)
    · intro x' y' l hl'
      rw [linkLeaf_withLeaf h hl, leaves_withLeaf fun e => h.getLeaf_ne_allocated x' y' (e ▸ hl')]
      exact ⟨rfl, rfl⟩
    · intro _
      rw [linkLeaf_withLeaf h hl, leaves_withLeaf_new]
      exact ⟨rfl, rfl⟩

end Leaves

/-! ### Tiles -/

section Tiles

variable {m : Map τ}

/-- What a leaf has at a place of a floor. -/
def QTreeLeafNode.tile (l : QTreeLeafNode τ) (z i j : ℕ) : Option τ :=
  (l.array z).bind fun floor => floor.tiles i j

theorem toNat_and_mask (x : UInt16) : (x &&& FLOOR_MASK).toNat = x.toNat % 8 := by
  rw [UInt16.toNat_and]
  exact Nat.and_two_pow_sub_one_eq_mod x.toNat 3

theorem Good.getTile_eq (h : Good m) (pos : Position) : m.getTile pos =
    if MAP_MAX_LAYERS ≤ pos.z.toNat then none
    else (m.getLeaf pos.x.toUInt32 pos.y.toUInt32).bind fun leaf =>
      (m.leaves leaf).tile pos.z.toNat (pos.x.toNat % 8) (pos.y.toNat % 8) := by
  unfold Map.getTile
  rw [h.getLeafStatic_eq, toNat_and_mask, toNat_and_mask]
  congr 1
  cases m.getLeaf pos.x.toUInt32 pos.y.toUInt32 with
  | none => rfl
  | some leaf =>
    dsimp only [Option.bind_some]
    unfold QTreeLeafNode.tile
    cases (m.leaves leaf).array pos.z.toNat <;> rfl

theorem tile_setPlace (l : QTreeLeafNode τ) (z i j : ℕ) (f : Option τ → τ) (z' i' j' : ℕ) :
    ((l.createFloor z).setPlace z i j f).tile z' i' j' =
      if z' = z ∧ i' = i ∧ j' = j then some (f (l.tile z i j)) else l.tile z' i' j' := by
  -- the floor, made when it was missing
  obtain ⟨floor, hfloor, htile⟩ : ∃ floor, (l.createFloor z).array = Function.update l.array z (some floor) ∧
      ∀ i j, floor.tiles i j = l.tile z i j := by
    unfold QTreeLeafNode.createFloor QTreeLeafNode.tile
    cases hz : l.array z with
    | none => exact ⟨{}, rfl, fun _ _ => rfl⟩
    | some floor =>
      refine ⟨floor, ?_, fun _ _ => rfl⟩
      have hsame : Function.update l.array z (some floor) = l.array := by
        rw [← hz, Function.update_eq_self]
      exact hsame.symm
  unfold QTreeLeafNode.setPlace
  have hhere : (l.createFloor z).array z = some floor := by rw [hfloor, Function.update_self]
  rw [hhere]
  unfold QTreeLeafNode.tile
  dsimp only
  rw [hfloor, Function.update_idem]
  by_cases hz : z' = z
  · subst hz
    rw [Function.update_self, Option.bind_some]
    dsimp only
    by_cases hi : i' = i
    · subst hi
      rw [Function.update_self]
      by_cases hj : j' = j
      · subst hj
        rw [Function.update_self, if_pos ⟨rfl, rfl, rfl⟩, htile]
        rfl
      · rw [Function.update_of_ne hj, if_neg fun e => hj e.2.2]
        exact htile i' j'
    · rw [Function.update_of_ne hi, if_neg fun e => hi e.2.1]
      exact htile i' j'
  · rw [Function.update_of_ne hz, if_neg fun e => hz e.1]

/-- Two positions of a block with the same remainders are one. -/
theorem position_eq_iff {pos pos' : Position} : pos' = pos ↔
    (block pos'.x.toUInt32 = block pos.x.toUInt32 ∧ block pos'.y.toUInt32 = block pos.y.toUInt32) ∧
    pos'.z.toNat = pos.z.toNat ∧ pos'.x.toNat % 8 = pos.x.toNat % 8 ∧
    pos'.y.toNat % 8 = pos.y.toNat % 8 := by
  constructor
  · rintro rfl
    exact ⟨⟨rfl, rfl⟩, rfl, rfl, rfl⟩
  · intro ⟨⟨hbx, hby⟩, hz, hx, hy⟩
    rw [block_toUInt32, block_toUInt32] at hbx hby
    obtain ⟨x, y, z⟩ := pos
    obtain ⟨x', y', z'⟩ := pos'
    have hx' : x' = x := UInt16.toNat_inj.1 (by dsimp only at hbx hx; omega)
    have hy' : y' = y := UInt16.toNat_inj.1 (by dsimp only at hby hy; omega)
    have hz' : z' = z := UInt8.toNat_inj.1 hz
    rw [hx', hy', hz']

/-- What a call does to the tiles, as a function from the positions: the tile
is there, or its things are on the one that was there. -/
def place (methods : TileMethods τ ι) (tiles : Position → Option τ) (c : SetTile τ) :
    Position → Option τ :=
  if MAP_MAX_LAYERS ≤ c.pos.z.toNat then tiles
  else Function.update tiles c.pos (some
    (match tiles c.pos with
      | some tile => methods.merge tile c.newTile
      | none => c.newTile))

/-- The leaf of the coordinates has the tiles that it had, or none. -/
theorem Created.tile_eq {m' : Map τ} {x y : UInt32} {leaf : ℕ} (hc : Created m x y m' leaf)
    (z i j : ℕ) : (m'.leaves leaf).tile z i j =
      (m.getLeaf x y).bind fun l => (m.leaves l).tile z i j := by
  unfold QTreeLeafNode.tile
  cases hl : m.getLeaf x y with
  | none =>
    rw [(hc.fresh hl).1]
    rfl
  | some l =>
    rw [hc.same l hl, (hc.kept x y l hl).1]
    rfl

/-- A write to the contents of a leaf keeps the map in order. -/
theorem Good.modify (h : Good m) (leaf : ℕ) {f : QTreeLeafNode τ → QTreeLeafNode τ}
    (hf : ∀ l, (f l).leafS = l.leafS ∧ (f l).leafE = l.leafE) : Good (m.modify leaf f) := by
  refine ⟨h.inner, h.deep, h.distinct, h.allocated, fun x y l hl => ?_⟩
  rw [getLeaf_modify, getLeaf_modify, leaves_modify]
  rw [getLeaf_modify] at hl
  by_cases he : l = leaf
  · rw [if_pos he, (hf _).1, (hf _).2]
    exact h.linked x y l hl
  · rw [if_neg he]
    exact h.linked x y l hl

theorem createFloor_links (l : QTreeLeafNode τ) (z : ℕ) :
    (l.createFloor z).leafS = l.leafS ∧ (l.createFloor z).leafE = l.leafE := by
  unfold QTreeLeafNode.createFloor
  cases l.array z <;> exact ⟨rfl, rfl⟩

theorem setPlace_links (l : QTreeLeafNode τ) (z i j : ℕ) (f : Option τ → τ) :
    (l.setPlace z i j f).leafS = l.leafS ∧ (l.setPlace z i j f).leafE = l.leafE := by
  unfold QTreeLeafNode.setPlace
  cases l.array z <;> exact ⟨rfl, rfl⟩

/-- **A call does to the tiles what it says**, and keeps the map in order. -/
theorem getTile_setTile (h : Good m) (methods : TileMethods τ ι) (c : SetTile τ) :
    ∃ m', m.setTile methods c = some m' ∧ Good m' ∧ m'.getTile = place methods m.getTile c := by
  unfold Map.setTile place
  by_cases hz : MAP_MAX_LAYERS ≤ c.pos.z.toNat
  · rw [if_pos hz, if_pos hz]
    exact ⟨m, rfl, h, rfl⟩
  rw [if_neg hz, if_neg hz]
  obtain ⟨m₁, leaf, hcreate, hc⟩ := createLeaf_spec h c.pos.x c.pos.y
  rw [hcreate, Option.map_some]
  dsimp only
  rw [toNat_and_mask, toNat_and_mask]
  have hgood := (hc.good.modify leaf (createFloor_links · c.pos.z.toNat)).modify leaf
    (setPlace_links · c.pos.z.toNat (c.pos.x.toNat % 8) (c.pos.y.toNat % 8) fun tile =>
      match tile with
      | some tile => methods.merge tile c.newTile
      | none => c.newTile)
  refine ⟨_, rfl, hgood, ?_⟩
  funext pos
  rw [hgood.getTile_eq, getLeaf_modify, getLeaf_modify, hc.getLeaf]
  by_cases hpz : MAP_MAX_LAYERS ≤ pos.z.toNat
  · have hne : pos ≠ c.pos := fun e => hz (e ▸ hpz)
    rw [if_pos hpz, Function.update_of_ne hne, h.getTile_eq, if_pos hpz]
  rw [if_neg hpz]
  by_cases hb : block pos.x.toUInt32 = block c.pos.x.toUInt32 ∧
      block pos.y.toUInt32 = block c.pos.y.toUInt32
  · -- a position of the leaf
    have hold : (m₁.leaves leaf).tile pos.z.toNat (pos.x.toNat % 8) (pos.y.toNat % 8) = m.getTile pos := by
      rw [h.getTile_eq, if_neg hpz, h.getLeaf_congr hb.1 hb.2]
      exact hc.tile_eq _ _ _
    rw [if_pos hb, Option.bind_some, leaves_modify, if_pos rfl, leaves_modify, if_pos rfl, tile_setPlace]
    by_cases he : pos = c.pos
    · subst he
      rw [Function.update_self, if_pos ⟨rfl, rfl, rfl⟩, hold]
    · rw [Function.update_of_ne he, if_neg fun hp => he (position_eq_iff.2 ⟨hb, hp⟩), hold]
  · have hne : pos ≠ c.pos := fun e => hb (e ▸ ⟨rfl, rfl⟩)
    rw [if_neg hb, Function.update_of_ne hne, h.getTile_eq, if_neg hpz]
    cases hl : m.getLeaf pos.x.toUInt32 pos.y.toUInt32 with
    | none => rfl
    | some l =>
      have hne' : l ≠ leaf := by
        rintro rfl
        have hhere : m₁.getLeaf pos.x.toUInt32 pos.y.toUInt32 = some l := by
          rw [hc.getLeaf, if_neg hb, hl]
        have hthere : m₁.getLeaf c.pos.x.toUInt32 c.pos.y.toUInt32 = some l := by
          rw [hc.getLeaf, if_pos ⟨rfl, rfl⟩]
        exact hb (hc.good.block_eq hhere hthere)
      rw [Option.bind_some, Option.bind_some, leaves_modify, if_neg hne', leaves_modify, if_neg hne']
      unfold QTreeLeafNode.tile
      rw [(hc.kept _ _ l hl).1]

end Tiles

/-! ### Runs -/

section Runs

variable (methods : TileMethods τ ι)

def step (m : Option (Map τ)) (c : SetTile τ) : Option (Map τ) := m.bind (·.setTile methods c)

theorem good_empty : Good ({} : Map τ) where
  inner := ⟨_, rfl⟩
  deep := .node fun _ => .empty 12
  distinct p p' l hp _ hf _ := by
    cases p with
    | nil => nomatch hp
    | cons b p => rw [find_node, find_empty] at hf; nomatch hf
  allocated p l hp hf := by
    cases p with
    | nil => nomatch hp
    | cons b p => rw [find_node, find_empty] at hf; nomatch hf
  linked x y l hl := nomatch hl

theorem getTile_empty : ({} : Map τ).getTile = fun _ => none := by
  funext pos
  rw [good_empty.getTile_eq]
  exact ite_self _

/-- A run of calls returns, keeps the map in order and does to the tiles what
the calls do. -/
theorem run_spec {m : Map τ} (h : Good m) (cs : List (SetTile τ)) :
    ∃ m', run (step methods) (some m) cs = some m' ∧ Good m' ∧
      m'.getTile = cs.foldl (place methods) m.getTile := by
  induction cs generalizing m with
  | nil => exact ⟨m, rfl, h, rfl⟩
  | cons c cs ih =>
    obtain ⟨m₁, hset, h₁, htile⟩ := getTile_setTile h methods c
    obtain ⟨m', hrun, h', htiles⟩ := ih h₁
    refine ⟨m', ?_, h', ?_⟩
    · rw [run, step, Option.bind_some, hset]
      exact hrun
    · rw [htiles, htile]
      rfl

theorem place_of_ne {tiles : Position → Option τ} {c : SetTile τ} {pos : Position} (h : pos ≠ c.pos) :
    place methods tiles c pos = tiles pos := by
  unfold place
  split
  · rfl
  · exact Function.update_of_ne h _ _

theorem foldl_place_of_not_mem {cs : List (SetTile τ)} {tiles : Position → Option τ} {pos : Position}
    (h : pos ∉ cs.map (·.pos)) : cs.foldl (place methods) tiles pos = tiles pos := by
  induction cs generalizing tiles with
  | nil => rfl
  | cons c cs ih =>
    rw [List.map_cons, List.mem_cons, not_or] at h
    rw [List.foldl_cons, ih h.2, place_of_ne methods h.1]

/-- Tiles that are set on empty places, each once, are there. -/
theorem foldl_place_of_mem {cs : List (SetTile τ)} {tiles : Position → Option τ}
    (hz : ∀ c ∈ cs, c.pos.z.toNat < MAP_MAX_LAYERS) (hd : (cs.map (·.pos)).Nodup)
    (hn : ∀ c ∈ cs, tiles c.pos = none) {c : SetTile τ} (hc : c ∈ cs) :
    cs.foldl (place methods) tiles c.pos = some c.newTile := by
  induction cs generalizing tiles with
  | nil => nomatch hc
  | cons c' cs ih =>
    rw [List.map_cons, List.nodup_cons] at hd
    rw [List.foldl_cons]
    rcases List.mem_cons.1 hc with rfl | hc
    · rw [foldl_place_of_not_mem methods hd.1]
      unfold place
      rw [if_neg (Nat.not_le_of_lt (hz c List.mem_cons_self)), Function.update_self,
        hn c List.mem_cons_self]
    · apply ih (fun d hd => hz d (List.mem_cons_of_mem c' hd)) hd.2 _ hc
      intro d hdm
      have hne : d.pos ≠ c'.pos := fun e => hd.1 (e ▸ List.mem_map_of_mem hdm)
      rw [place_of_ne methods hne]
      exact hn d (List.mem_cons_of_mem c' hdm)

theorem block_add_toUInt32 (x : UInt16) : block (x + 8).toUInt32 = block (x.toUInt32 + FLOOR_SIZE) := by
  have h : (x + 8).toNat = (x.toNat + 8) % 2 ^ 16 := UInt16.toNat_add x 8
  rw [block_add, block_toUInt32, block_toUInt32]
  omega

/-- **The quadtree is a map.** A run of `setTile` on an empty map, on distinct
positions, ends with the tiles where they were set and nowhere else, and with
every leaf linked to the ones to its south and to its east. -/
theorem getTile_run (cs : List (SetTile τ)) (hz : ∀ c ∈ cs, c.pos.z.toNat < MAP_MAX_LAYERS)
    (hd : (cs.map (·.pos)).Nodup) : ∃ m, run (step methods) (some {}) cs = some m ∧
      (∀ c ∈ cs, m.getTile c.pos = some c.newTile) ∧
      (∀ pos, pos ∉ cs.map (·.pos) → m.getTile pos = none) ∧
      ∀ (x y : UInt16) l, m.getLeaf x.toUInt32 y.toUInt32 = some l →
        (m.leaves l).leafS = m.getLeaf x.toUInt32 (y + 8).toUInt32 ∧
        (m.leaves l).leafE = m.getLeaf (x + 8).toUInt32 y.toUInt32 := by
  obtain ⟨m, hrun, h, htiles⟩ := run_spec methods good_empty cs
  rw [getTile_empty] at htiles
  refine ⟨m, hrun, fun c hc => ?_, fun pos hpos => ?_, fun x y l hl => ?_⟩
  · rw [htiles]
    exact foldl_place_of_mem methods hz hd (fun _ _ => rfl) hc
  · rw [htiles]
    exact foldl_place_of_not_mem methods hpos
  · obtain ⟨hs, he⟩ := h.linked _ _ l hl
    rw [hs, he]
    exact ⟨h.getLeaf_congr rfl (block_add_toUInt32 y).symm, h.getLeaf_congr (block_add_toUInt32 x).symm rfl⟩

/-- Tiles with a ground and items. -/
def groundAndItems : TileMethods (Option ℕ × List ℕ) ℕ where
  getItemList tile := some tile.2
  getGround tile := tile.1
  addThing tile i := (tile.1, i :: tile.2)

/-- Two leaves beside each other, the eastern one first, and one at the other
end of the row. -/
def threeTiles : List (SetTile (Option ℕ × List ℕ)) :=
  [⟨⟨8, 0, 7⟩, (some 1, [])⟩, ⟨⟨0, 7, 7⟩, (some 2, [3])⟩, ⟨⟨65535, 0, 15⟩, (none, [4])⟩]

end Runs

end Map

theorem getTile_threeTiles : ∃ m, run (step groundAndItems) (some {}) threeTiles = some m ∧
    (∀ c ∈ threeTiles, m.getTile c.pos = some c.newTile) ∧
    (∀ pos, pos ∉ threeTiles.map (·.pos) → m.getTile pos = none) ∧
    ∀ (x y : UInt16) l, m.getLeaf x.toUInt32 y.toUInt32 = some l →
      (m.leaves l).leafS = m.getLeaf x.toUInt32 (y + 8).toUInt32 ∧
      (m.leaves l).leafE = m.getLeaf (x + 8).toUInt32 y.toUInt32 :=
  getTile_run groundAndItems threeTiles (by decide) (by decide)

end QTree
end ForgottenServer
