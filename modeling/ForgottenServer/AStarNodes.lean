/-
# The nodes of a path search

`AStarNodes` is a pool of 512 nodes with a parent each, a flag for the open
ones and a table from positions to nodes. A new node has a parent that is next
to it and costs less; a node that is found again at a lower cost gets the node
it is reached from as its parent, in place. Every node keeps costing more than
its parent (`Sound.parent`), so the parents lead to the start
(`Sound.cheaper`), and a node is no further from the start than it is in the
pool (`Sound.near`), so no coordinate wraps.

Key definitions: `AStarNodes`, `Sound`, `opened`, `total`.
Key theorems: `getBestNode_spec`, `createOpenNode_sound`, `improve_sound`, `Sound.cheaper`.
-/
import Mathlib.Tactic
import ForgottenServer.Item
import ForgottenServer.Lib.Ancestry

namespace ForgottenServer
namespace AStar

def MAX_NODES : ℕ := 512

def MAP_NORMALWALKCOST : ℤ := 10

def MAP_DIAGONALWALKCOST : ℤ := 25

/-! ### The pool -/

/-- The parent is the index of a node. `f` has 64 bits and stays small, see
`Sound.cost`. -/
structure AStarNode where
  parent : Option ℕ := none
  f : ℤ := 0
  x : UInt16 := 0
  y : UInt16 := 0

/-- The nodes are those below `curNode`. -/
structure AStarNodes where
  nodes : ℕ → AStarNode := fun _ => {}
  openNodes : ℕ → Bool := fun _ => false
  nodeTable : UInt32 → Option ℕ := fun _ => none
  curNode : ℕ
  closedNodes : ℤ

/-- `(x << 16) | y` -/
def tableKey (x y : UInt16) : UInt32 := x.toUInt32 <<< 16 ||| y.toUInt32

namespace AStarNodes

/-- The constructor. -/
def init (x y : UInt16) : AStarNodes where
  nodes := Function.update (fun _ => {}) 0 ⟨none, 0, x, y⟩
  openNodes := Function.update (fun _ => false) 0 true
  nodeTable := Function.update (fun _ => none) (tableKey x y) (some 0)
  curNode := 1
  closedNodes := 0

/-- The null pointer when the pool is used up. -/
def createOpenNode (a : AStarNodes) (parent : ℕ) (x y : UInt16) (f : ℤ) : Option AStarNodes :=
  if MAX_NODES ≤ a.curNode then none
  else
    some { a with
      nodes := Function.update a.nodes a.curNode ⟨some parent, f, x, y⟩
      openNodes := Function.update a.openNodes a.curNode true
      nodeTable := Function.update a.nodeTable (tableKey x y) (some a.curNode)
      curNode := a.curNode + 1 }

/-- One round of the loop in `getBestNode`: the lowest `f` so far, narrowed to
32 bits, and its node. -/
def better (a : AStarNodes) (best : ℤ × Option ℕ) (i : ℕ) : ℤ × Option ℕ :=
  if a.openNodes i ∧ (a.nodes i).f < best.1 then (int32 (a.nodes i).f, some i) else best

def getBestNode (a : AStarNodes) : Option ℕ :=
  if a.curNode = 0 then none else ((List.range a.curNode).foldl a.better (2 ^ 31 - 1, none)).2

def closeNode (a : AStarNodes) (node : ℕ) : AStarNodes :=
  { a with openNodes := Function.update a.openNodes node false, closedNodes := a.closedNodes + 1 }

def openNode (a : AStarNodes) (node : ℕ) : AStarNodes :=
  if !a.openNodes node then
    { a with openNodes := Function.update a.openNodes node true, closedNodes := a.closedNodes - 1 }
  else a

def getNodeByPosition (a : AStarNodes) (x y : UInt16) : Option ℕ := a.nodeTable (tableKey x y)

/-- A node that is reached at a lower cost from `parent`. -/
def improve (a : AStarNodes) (node parent : ℕ) (f : ℤ) : AStarNodes :=
  { a with nodes := Function.update a.nodes node { a.nodes node with f, parent := some parent } }

end AStarNodes

/-! ### Small lemmas -/

theorem tableKey_toNat (x y : UInt16) : (tableKey x y).toNat = x.toNat * 2 ^ 16 + y.toNat := by
  have hx := x.toNat_lt
  have hy := y.toNat_lt
  unfold tableKey
  rw [UInt32.toNat_or, UInt32.toNat_shiftLeft, UInt16.toNat_toUInt32, UInt16.toNat_toUInt32]
  change x.toNat <<< 16 % 2 ^ 32 ||| y.toNat = _
  rw [Nat.shiftLeft_eq, Nat.mod_eq_of_lt (by omega), ← Nat.shiftLeft_eq, Nat.shiftLeft_add_eq_or_of_lt hy]

theorem tableKey_eq_iff {x y x' y' : UInt16} : tableKey x y = tableKey x' y' ↔ x = x' ∧ y = y' := by
  constructor
  · intro h
    have h := congrArg UInt32.toNat h
    have hy := y.toNat_lt
    have hy' := y'.toNat_lt
    rw [tableKey_toNat, tableKey_toNat] at h
    exact ⟨UInt16.toNat_inj.1 (by omega), UInt16.toNat_inj.1 (by omega)⟩
  · intro ⟨hx, hy⟩
    rw [hx, hy]

variable {a a' : AStarNodes}

theorem foldl_better {l : List ℕ} {best : ℤ × Option ℕ} {n : ℕ}
    (h : (l.foldl a.better best).2 = some n) : best.2 = some n ∨ n ∈ l ∧ a.openNodes n = true := by
  induction l generalizing best with
  | nil => exact .inl h
  | cons i l ih =>
    rw [List.foldl_cons] at h
    rcases ih h with hb | ⟨hm, ho⟩
    · unfold AStarNodes.better at hb
      split at hb
      · next hi =>
        obtain rfl := Option.some.inj hb
        exact .inr ⟨List.mem_cons_self, hi.1⟩
      · exact .inl hb
    · exact .inr ⟨List.mem_cons_of_mem i hm, ho⟩

/-- The best node is an open one. -/
theorem getBestNode_spec {n : ℕ} (h : a.getBestNode = some n) : n < a.curNode ∧ a.openNodes n = true := by
  unfold AStarNodes.getBestNode at h
  split at h
  · nomatch h
  · rcases foldl_better h with hn | ⟨hm, ho⟩
    · nomatch hn
    · exact ⟨List.mem_range.1 hm, ho⟩

@[simp] theorem nodes_closeNode (n : ℕ) : (a.closeNode n).nodes = a.nodes := rfl

@[simp] theorem nodeTable_closeNode (n : ℕ) : (a.closeNode n).nodeTable = a.nodeTable := rfl

@[simp] theorem curNode_closeNode (n : ℕ) : (a.closeNode n).curNode = a.curNode := rfl

@[simp] theorem nodes_openNode (n : ℕ) : (a.openNode n).nodes = a.nodes := by
  unfold AStarNodes.openNode
  split <;> rfl

@[simp] theorem nodeTable_openNode (n : ℕ) : (a.openNode n).nodeTable = a.nodeTable := by
  unfold AStarNodes.openNode
  split <;> rfl

@[simp] theorem curNode_openNode (n : ℕ) : (a.openNode n).curNode = a.curNode := by
  unfold AStarNodes.openNode
  split <;> rfl

theorem openNodes_openNode (n k : ℕ) :
    (a.openNode n).openNodes k = if k = n then true else a.openNodes k := by
  unfold AStarNodes.openNode
  split
  · next h => exact Function.update_apply ..
  · next h =>
    by_cases hk : k = n
    · rw [if_pos hk, hk]
      simpa using h
    · rw [if_neg hk]

/-! ### What holds of the pool -/

/-- Two cells that are one step apart, straight or diagonal. -/
def Adjacent (x y x' y' : UInt16) : Prop :=
  (-1 ≤ (x'.toNat : ℤ) - x.toNat ∧ (x'.toNat : ℤ) - x.toNat ≤ 1) ∧
    (-1 ≤ (y'.toNat : ℤ) - y.toNat ∧ (y'.toNat : ℤ) - y.toNat ≤ 1) ∧
    ¬ ((x'.toNat : ℤ) - x.toNat = 0 ∧ (y'.toNat : ℤ) - y.toNat = 0)

/-- At most `n` steps apart. -/
def Within (n : ℕ) (x y x' y' : UInt16) : Prop :=
  (-(n : ℤ) ≤ (x'.toNat : ℤ) - x.toNat ∧ (x'.toNat : ℤ) - x.toNat ≤ n) ∧
    -(n : ℤ) ≤ (y'.toNat : ℤ) - y.toNat ∧ (y'.toNat : ℤ) - y.toNat ≤ n

theorem Within.step {n : ℕ} {x y x' y' x'' y'' : UInt16} (h : Within n x y x' y')
    (ha : Adjacent x' y' x'' y'') : Within (n + 1) x y x'' y'' := by
  unfold Within at h ⊢
  unfold Adjacent at ha
  omega

theorem Within.mono {n m : ℕ} {x y x' y' : UInt16} (h : Within n x y x' y') (hn : n ≤ m) :
    Within m x y x' y' := by
  unfold Within at h ⊢
  omega

/-- The pool is in order: every node but the start is next to its parent, which
costs less, the table leads to the nodes by their positions, and a node is at
most as many steps from the start as there are nodes before it. -/
structure Sound (sx sy : UInt16) (a : AStarNodes) : Prop where
  cur_pos : 0 < a.curNode
  cur_le : a.curNode ≤ MAX_NODES
  start : a.nodes 0 = ⟨none, 0, sx, sy⟩
  parent : ∀ k, 0 < k → k < a.curNode → ∃ p, (a.nodes k).parent = some p ∧ p < a.curNode ∧
    (a.nodes p).f < (a.nodes k).f ∧ Adjacent (a.nodes p).x (a.nodes p).y (a.nodes k).x (a.nodes k).y
  table : ∀ x y k, a.nodeTable (tableKey x y) = some k →
    k < a.curNode ∧ (a.nodes k).x = x ∧ (a.nodes k).y = y
  near : ∀ k, k < a.curNode → Within k sx sy (a.nodes k).x (a.nodes k).y
  cost : ∀ k, k < a.curNode → 0 ≤ (a.nodes k).f ∧ (a.nodes k).f ≤ 235 * k

section Sound

variable {sx sy : UInt16}

theorem init_sound (x y : UInt16) : Sound x y (.init x y) where
  cur_pos := Nat.zero_lt_one
  cur_le := (by decide : 1 ≤ MAX_NODES)
  start := rfl
  parent k h0 hk := by
    have hk : k < 1 := hk
    omega
  table x' y' k h := by
    have h : Function.update (fun _ => none) (tableKey x y) (some 0) (tableKey x' y') = some k := h
    by_cases hkey : tableKey x' y' = tableKey x y
    · rw [hkey, Function.update_self] at h
      obtain rfl := Option.some.inj h
      obtain ⟨rfl, rfl⟩ := tableKey_eq_iff.1 hkey
      exact ⟨Nat.zero_lt_one, rfl, rfl⟩
    · rw [Function.update_of_ne hkey] at h
      nomatch h
  near k hk := by
    obtain rfl : k = 0 := Nat.lt_one_iff.1 hk
    change Within 0 x y x y
    unfold Within
    omega
  cost k hk := by
    obtain rfl : k = 0 := Nat.lt_one_iff.1 hk
    exact ⟨le_refl (0 : ℤ), le_refl (0 : ℤ)⟩

/-- The pool is read through its nodes, its table and its size. -/
theorem Sound.congr (h : Sound sx sy a) (hn : a'.nodes = a.nodes) (ht : a'.nodeTable = a.nodeTable)
    (hc : a'.curNode = a.curNode) : Sound sx sy a' := by
  obtain ⟨nodes, openNodes, nodeTable, curNode, closedNodes⟩ := a
  obtain ⟨nodes', openNodes', nodeTable', curNode', closedNodes'⟩ := a'
  dsimp only at hn ht hc
  subst hn ht hc
  exact ⟨h.cur_pos, h.cur_le, h.start, h.parent, h.table, h.near, h.cost⟩

theorem createOpenNode_eq {p : ℕ} {x y : UInt16} {f : ℤ} (h : a.createOpenNode p x y f = some a') :
    a.curNode < MAX_NODES ∧ a' = { a with
      nodes := Function.update a.nodes a.curNode ⟨some p, f, x, y⟩
      openNodes := Function.update a.openNodes a.curNode true
      nodeTable := Function.update a.nodeTable (tableKey x y) (some a.curNode)
      curNode := a.curNode + 1 } := by
  unfold AStarNodes.createOpenNode at h
  split at h
  · nomatch h
  · next hlt => exact ⟨Nat.lt_of_not_le hlt, (Option.some.inj h).symm⟩

/-- **A new node keeps the pool in order.** -/
theorem createOpenNode_sound (h : Sound sx sy a) {p : ℕ} {x y : UInt16} {f : ℤ} (hp : p < a.curNode)
    (hadj : Adjacent (a.nodes p).x (a.nodes p).y x y) (hlt : (a.nodes p).f < f)
    (hle : f ≤ (a.nodes p).f + 235) (hc : a.createOpenNode p x y f = some a') : Sound sx sy a' := by
  obtain ⟨hroom, rfl⟩ := createOpenNode_eq hc
  have hold : ∀ k, k < a.curNode → Function.update a.nodes a.curNode ⟨some p, f, x, y⟩ k = a.nodes k :=
    fun k hk => Function.update_of_ne hk.ne _ _
  have hnew : Function.update a.nodes a.curNode ⟨some p, f, x, y⟩ a.curNode = ⟨some p, f, x, y⟩ :=
    Function.update_self ..
  have hcases : ∀ k, k < a.curNode + 1 → k < a.curNode ∨ k = a.curNode := fun k hk =>
    Nat.lt_succ_iff_lt_or_eq.1 hk
  constructor
  · exact Nat.succ_pos _
  · exact hroom
  · exact (hold 0 h.cur_pos).trans h.start
  · intro k h0 hk
    dsimp only at hk ⊢
    rcases hcases k hk with hk | rfl
    · obtain ⟨q, hq, hqc, hf, ha⟩ := h.parent k h0 hk
      rw [hold k hk]
      refine ⟨q, hq, Nat.lt_succ_of_lt hqc, ?_⟩
      rw [hold q hqc]
      exact ⟨hf, ha⟩
    · rw [hnew]
      refine ⟨p, rfl, Nat.lt_succ_of_lt hp, ?_⟩
      rw [hold p hp]
      exact ⟨hlt, hadj⟩
  · intro x' y' k hk
    dsimp only at hk ⊢
    by_cases hkey : tableKey x' y' = tableKey x y
    · rw [hkey, Function.update_self] at hk
      obtain rfl := Option.some.inj hk
      obtain ⟨rfl, rfl⟩ := tableKey_eq_iff.1 hkey
      rw [hnew]
      exact ⟨Nat.lt_succ_self _, rfl, rfl⟩
    · rw [Function.update_of_ne hkey] at hk
      obtain ⟨hkc, hx, hy⟩ := h.table x' y' k hk
      rw [hold k hkc]
      exact ⟨Nat.lt_succ_of_lt hkc, hx, hy⟩
  · intro k hk
    dsimp only at hk ⊢
    rcases hcases k hk with hk | rfl
    · rw [hold k hk]
      exact h.near k hk
    · rw [hnew]
      exact ((h.near p hp).step hadj).mono hp
  · intro k hk
    dsimp only at hk ⊢
    rcases hcases k hk with hk | rfl
    · rw [hold k hk]
      exact h.cost k hk
    · rw [hnew]
      obtain ⟨h1, h2⟩ := h.cost p hp
      dsimp only
      omega

/-- **A node that is reached at a lower cost keeps the pool in order.** -/
theorem improve_sound (h : Sound sx sy a) {k n : ℕ} {f : ℤ} (hk : k < a.curNode) (hn : n < a.curNode)
    (hne : k ≠ n) (hadj : Adjacent (a.nodes n).x (a.nodes n).y (a.nodes k).x (a.nodes k).y)
    (hgt : (a.nodes n).f < f) (hlt : f < (a.nodes k).f) : Sound sx sy (a.improve k n f) := by
  have hn0 := (h.cost n hn).1
  -- the start is as cheap as can be
  have hk0 : k ≠ 0 := by
    rintro rfl
    rw [h.start] at hlt
    dsimp only at hlt
    omega
  have hself : (a.improve k n f).nodes k = { a.nodes k with f, parent := some n } := Function.update_self ..
  have hother : ∀ j, j ≠ k → (a.improve k n f).nodes j = a.nodes j := fun j hj =>
    Function.update_of_ne hj _ _
  have hx : ∀ j, ((a.improve k n f).nodes j).x = (a.nodes j).x ∧
      ((a.improve k n f).nodes j).y = (a.nodes j).y := by
    intro j
    by_cases hj : j = k
    · rw [hj, hself]
      exact ⟨rfl, rfl⟩
    · rw [hother j hj]
      exact ⟨rfl, rfl⟩
  have hf : ∀ j, ((a.improve k n f).nodes j).f ≤ (a.nodes j).f := by
    intro j
    by_cases hj : j = k
    · rw [hj, hself]
      exact hlt.le
    · rw [hother j hj]
  constructor
  · exact h.cur_pos
  · exact h.cur_le
  · rw [hother 0 hk0.symm]
    exact h.start
  · intro j h0 hj
    by_cases hjk : j = k
    · subst hjk
      rw [hself]
      refine ⟨n, rfl, hn, ?_⟩
      rw [hother n hne.symm]
      exact ⟨hgt, hadj⟩
    · obtain ⟨p, hp, hpc, hpf, ha⟩ := h.parent j h0 hj
      rw [hother j hjk]
      refine ⟨p, hp, hpc, (hf p).trans_lt hpf, ?_⟩
      rw [(hx p).1, (hx p).2]
      exact ha
  · intro x y j hj
    rw [(hx j).1, (hx j).2]
    exact h.table x y j hj
  · intro j hj
    rw [(hx j).1, (hx j).2]
    exact h.near j hj
  · intro j hj
    by_cases hjk : j = k
    · subst hjk
      rw [hself]
      have hc := (h.cost j hj).2
      dsimp only
      omega
    · rw [hother j hjk]
      exact h.cost j hj

/-- **The parents get cheaper**, so they lead to the start. -/
theorem Sound.cheaper (h : Sound sx sy a) : Ancestry.Cheaper (fun k => (a.nodes k).parent)
    (· < a.curNode) 0 fun k => (a.nodes k).f.toNat where
  root_mem := h.cur_pos
  root_none := by rw [h.start]
  parent k hk h0 := by
    obtain ⟨p, hp, hpc, hf, -⟩ := h.parent k (Nat.pos_of_ne_zero h0) hk
    refine ⟨p, hp, hpc, ?_⟩
    have h1 := (h.cost p hpc).1
    omega

end Sound

/-! ### What a search uses up -/

/-- The costs of all nodes together. -/
def total (a : AStarNodes) : ℕ := ∑ k ∈ Finset.range a.curNode, (a.nodes k).f.toNat

/-- The number of open nodes. -/
def opened (a : AStarNodes) : ℕ := ((Finset.range a.curNode).filter fun k => a.openNodes k).card

theorem total_openNode (n : ℕ) : total (a.openNode n) = total a := by
  unfold total
  rw [nodes_openNode, curNode_openNode]

/-- A node that gets cheaper lowers the total. -/
theorem total_improve {k n : ℕ} {f : ℤ} (hk : k < a.curNode) (h0 : 0 ≤ f) (hlt : f < (a.nodes k).f) :
    total (a.improve k n f) < total a := by
  have hself : (a.improve k n f).nodes k = { a.nodes k with f, parent := some n } := Function.update_self ..
  unfold total
  apply Finset.sum_lt_sum
  · intro j _
    by_cases hj : j = k
    · rw [hj, hself]
      exact Int.toNat_le_toNat hlt.le
    · have hother : (a.improve k n f).nodes j = a.nodes j := Function.update_of_ne hj _ _
      rw [hother]
  · refine ⟨k, Finset.mem_range.2 hk, ?_⟩
    rw [hself]
    dsimp only
    omega

/-- A node that is closed is one open node less. -/
theorem opened_closeNode {n : ℕ} (hn : n < a.curNode) (ho : a.openNodes n = true) :
    opened (a.closeNode n) < opened a := by
  unfold opened
  apply Finset.card_lt_card
  rw [Finset.ssubset_iff_of_subset]
  · refine ⟨n, Finset.mem_filter.2 ⟨Finset.mem_range.2 hn, ho⟩, fun hm => ?_⟩
    have hclosed : (a.closeNode n).openNodes n = false := Function.update_self ..
    rw [Finset.mem_filter, hclosed] at hm
    exact Bool.false_ne_true hm.2
  · intro k hk
    obtain ⟨hk, hok⟩ := Finset.mem_filter.1 hk
    refine Finset.mem_filter.2 ⟨hk, ?_⟩
    by_cases hkn : k = n
    · exact hkn ▸ ho
    · have hsame : (a.closeNode n).openNodes k = a.openNodes k := Function.update_of_ne hkn _ _
      exact hsame.symm.trans hok

end AStar
end ForgottenServer
