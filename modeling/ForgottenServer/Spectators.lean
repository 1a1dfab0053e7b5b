/-
# Spectators and their caches

`Map::getSpectators` adds to a set the creatures that can see a position. For
the default ranges over several floors it keeps the answer for each position
in two caches, one for all creatures and one for players, that every insertion,
removal and move of a creature clears. What it stores is the caller's set with
the scan added to it, so an answer can come back with creatures that the scan
of its position does not find: `Monster::convinceCreature` asks for two
positions with one set.

Key definitions: `getSpectators`, `scan`, `step`, `Fresh`.
Key theorems: `spectators_exact`.
-/
import Mathlib.Tactic
import ForgottenServer.Lib.Run

namespace ForgottenServer
namespace Spectators

open Run

/-! ### The map -/

structure Position where
  x : UInt16
  y : UInt16
  z : UInt8
  deriving DecidableEq, Repr

/-- The creatures of a block of eight by eight positions. -/
structure QTreeLeafNode where
  creature_list : List ℕ := []
  player_list : List ℕ := []

/-- The leaves of the quadtree by their blocks, the creatures of each tile and
the position of each creature's tile. -/
structure Map where
  leaf : ℕ → ℕ → Option QTreeLeafNode
  creatures : Position → List ℕ
  position : ℕ → Position

/-- `SpectatorVec` -/
abbrev SpectatorVec := Finset ℕ

/-- The map with its two caches. -/
structure State where
  map : Map
  spectatorCache : Position → Option SpectatorVec
  playersSpectatorCache : Position → Option SpectatorVec

/-- `Map::clearSpectatorCache` -/
def State.clearSpectatorCache (s : State) : State :=
  { s with spectatorCache := fun _ => none, playersSpectatorCache := fun _ => none }

/-- `Map::getQTNode` -/
def Map.getQTNode (m : Map) (pos : Position) : Option QTreeLeafNode :=
  m.leaf (pos.x.toNat / 8) (pos.y.toNat / 8)

section Players

variable (isPlayer : ℕ → Bool)

/-! ### Looking -/

/-- The steps of eight from `a` to at most `b`. -/
def blocks (a b : ℕ) : List ℕ := (List.range ((b + 8 - a) / 8)).map (a + 8 * ·)

/-- A coordinate, moved into the map. -/
def clamp (v : ℤ) : ℕ := (min 0xFFFF (max 0 v)).toNat

/-- The ranges of a scan. -/
@[ext] structure Ranges where
  minRangeX : ℤ
  maxRangeX : ℤ
  minRangeY : ℤ
  maxRangeY : ℤ
  minRangeZ : ℤ
  maxRangeZ : ℤ
  deriving DecidableEq

/-- The test of one creature in `Map::getSpectatorsInternal`. -/
def Map.inRange (m : Map) (centerPos : Position) (r : Ranges) (creature : ℕ) : Bool :=
  let cpos := m.position creature
  let offsetZ : ℤ := centerPos.z.toNat - cpos.z.toNat
  r.minRangeZ ≤ cpos.z.toNat && cpos.z.toNat ≤ r.maxRangeZ &&
    centerPos.y.toNat + r.minRangeY + offsetZ ≤ cpos.y.toNat &&
    cpos.y.toNat ≤ centerPos.y.toNat + r.maxRangeY + offsetZ &&
    centerPos.x.toNat + r.minRangeX + offsetZ ≤ cpos.x.toNat &&
    cpos.x.toNat ≤ centerPos.x.toNat + r.maxRangeX + offsetZ

/-- `Map::getSpectatorsInternal`. The links between leaves lead to the leaf of
the next block, as `QTreeNode::getLeafStatic` does. -/
def Map.getSpectatorsInternal (m : Map) (list : SpectatorVec) (centerPos : Position) (r : Ranges)
    (onlyPlayers : Bool) : SpectatorVec :=
  let minoffset : ℤ := centerPos.z.toNat - r.maxRangeZ
  let x1 := clamp (centerPos.x.toNat + r.minRangeX + minoffset)
  let y1 := clamp (centerPos.y.toNat + r.minRangeY + minoffset)
  let maxoffset : ℤ := centerPos.z.toNat - r.minRangeZ
  let x2 := clamp (centerPos.x.toNat + r.maxRangeX + maxoffset)
  let y2 := clamp (centerPos.y.toNat + r.maxRangeY + maxoffset)
  let found := (blocks (y1 - y1 % 8) (y2 - y2 % 8)).flatMap fun ny =>
    (blocks (x1 - x1 % 8) (x2 - x2 % 8)).flatMap fun nx =>
      match m.leaf (nx / 8) (ny / 8) with
      | none => []
      | some leaf =>
        (if onlyPlayers then leaf.player_list else leaf.creature_list).filter (m.inRange centerPos r)
  list ∪ found.toFinset

/-- The arguments of `Map::getSpectators`, with their defaults. -/
structure Call where
  list : SpectatorVec := ∅
  centerPos : Position
  multifloor : Bool := false
  onlyPlayers : Bool := false
  minRangeX : ℤ := 0
  maxRangeX : ℤ := 0
  minRangeY : ℤ := 0
  maxRangeY : ℤ := 0

/-- The ranges that a call scans. -/
def Call.ranges (c : Call) : Ranges :=
  let z : ℤ := c.centerPos.z.toNat
  { minRangeX := if c.minRangeX = 0 then -11 else -c.minRangeX
    maxRangeX := if c.maxRangeX = 0 then 11 else c.maxRangeX
    minRangeY := if c.minRangeY = 0 then -11 else -c.minRangeY
    maxRangeY := if c.maxRangeY = 0 then 11 else c.maxRangeY
    minRangeZ := if c.multifloor then (if 7 < z then max (z - 2) 0 else 0) else z
    maxRangeZ :=
      if c.multifloor then
        if 7 < z then min (z + 2) 15 else if z = 6 then 8 else if z = 7 then 9 else 7
      else z }

/-- The calls that look into the caches. -/
def Call.cacheable (c : Call) : Bool :=
  c.ranges.minRangeX = -11 && c.ranges.maxRangeX = 11 && c.ranges.minRangeY = -11 &&
    c.ranges.maxRangeY = 11 && c.multifloor

/-- The answer of the caches to a call. -/
def State.cached (s : State) (c : Call) : Option SpectatorVec :=
  match if c.onlyPlayers then s.playersSpectatorCache c.centerPos else none with
  | some cachedList => some cachedList
  | none =>
    (s.spectatorCache c.centerPos).map fun cachedList =>
      if c.onlyPlayers then cachedList.filter (isPlayer ·) else cachedList

/-- `Map::getSpectators` -/
def getSpectators (s : State) (c : Call) : State × SpectatorVec :=
  if 16 ≤ c.centerPos.z.toNat then (s, c.list)
  else
    match if c.cacheable then s.cached isPlayer c else none with
    | some cachedList => (s, c.list ∪ cachedList)
    | none =>
      let list := s.map.getSpectatorsInternal c.list c.centerPos c.ranges c.onlyPlayers
      if c.cacheable then
        if c.onlyPlayers then
          ({ s with playersSpectatorCache :=
              Function.update s.playersSpectatorCache c.centerPos (some list) }, list)
        else
          ({ s with spectatorCache := Function.update s.spectatorCache c.centerPos (some list) }, list)
      else (s, list)

/-- What a call adds to its list when there is no cache. -/
def scan (m : Map) (c : Call) : SpectatorVec :=
  if 16 ≤ c.centerPos.z.toNat then ∅
  else m.getSpectatorsInternal ∅ c.centerPos c.ranges c.onlyPlayers

/-! ### Changing the map -/

/-- The element is overwritten by the last one, which is dropped. -/
def swapRemove (l : List ℕ) (creature : ℕ) : List ℕ :=
  if creature ∈ l then (l.set (l.idxOf creature) (l.getLastD 0)).dropLast else l

/-- `QTreeLeafNode::addCreature` -/
def QTreeLeafNode.addCreature (leaf : QTreeLeafNode) (c : ℕ) : QTreeLeafNode :=
  { creature_list := leaf.creature_list ++ [c]
    player_list := if isPlayer c then leaf.player_list ++ [c] else leaf.player_list }

/-- `QTreeLeafNode::removeCreature` -/
def QTreeLeafNode.removeCreature (leaf : QTreeLeafNode) (c : ℕ) : QTreeLeafNode :=
  { creature_list := swapRemove leaf.creature_list c
    player_list := if isPlayer c then swapRemove leaf.player_list c else leaf.player_list }

/-- Runs `f` on the leaf of a position. -/
def Map.onLeaf (m : Map) (pos : Position) (f : QTreeLeafNode → QTreeLeafNode) : Map :=
  { m with leaf := fun i j =>
      if i = pos.x.toNat / 8 ∧ j = pos.y.toNat / 8 then (m.leaf i j).map f else m.leaf i j }

/-- A creature is put on a tile. -/
def Map.enter (m : Map) (pos : Position) (creature : ℕ) : Map :=
  { m with
    position := Function.update m.position creature pos
    creatures := Function.update m.creatures pos (m.creatures pos ++ [creature]) }

/-- A creature is taken from a tile. -/
def Map.leave (m : Map) (pos : Position) (creature : ℕ) : Map :=
  { m with creatures := Function.update m.creatures pos ((m.creatures pos).erase creature) }

/-- `Tile::addThing` and `Tile::internalAddThing` for a creature. -/
def addThing (s : State) (pos : Position) (creature : ℕ) : State :=
  let s := s.clearSpectatorCache
  { s with map := s.map.enter pos creature }

/-- `Tile::removeThing` for a creature. -/
def removeThing (s : State) (pos : Position) (creature : ℕ) : State :=
  if creature ∈ s.map.creatures pos then
    let s := s.clearSpectatorCache
    { s with map := s.map.leave pos creature }
  else s

/-- What the server does with the map. -/
inductive Action
  | getSpectators (c : Call)
  | placeCreature (creature : ℕ) (dest : Position)
  | removeCreature (creature : ℕ)
  | moveCreature (creature : ℕ) (newPos : Position)

/-- `Map::placeCreature`, once the tile is found. -/
def placeCreature (s : State) (creature : ℕ) (dest : Position) : State :=
  let s := addThing s dest creature
  { s with map := s.map.onLeaf dest (·.addCreature isPlayer creature) }

/-- `Tile::removeCreature` of the creature's tile. -/
def removeCreature (s : State) (creature : ℕ) : State :=
  let pos := s.map.position creature
  removeThing { s with map := s.map.onLeaf pos (·.removeCreature isPlayer creature) } pos creature

/-- The two calls of `Map::moveCreature`; the second one goes on with the list
of the first. -/
def moveCalls (s : State) (creature : ℕ) (newPos : Position) : Call × Call :=
  let oldCall : Call := { centerPos := s.map.position creature, multifloor := true }
  let list := (getSpectators isPlayer s oldCall).2
  (oldCall, { list, centerPos := newPos, multifloor := true })

/-- `Map::moveCreature` -/
def moveCreature (s : State) (creature : ℕ) (newPos : Position) : State :=
  let oldPos := s.map.position creature
  let (oldCall, newCall) := moveCalls isPlayer s creature newPos
  let s := (getSpectators isPlayer s oldCall).1
  let s := (getSpectators isPlayer s newCall).1
  let s := removeThing s oldPos creature
  let switched := (s.map.onLeaf oldPos (·.removeCreature isPlayer creature)).onLeaf newPos
    (·.addCreature isPlayer creature)
  let s :=
    if oldPos.x.toNat / 8 = newPos.x.toNat / 8 ∧ oldPos.y.toNat / 8 = newPos.y.toNat / 8 then s
    else { s with map := switched }
  addThing s newPos creature

def step (s : State) : Action → State
  | .getSpectators c => (getSpectators isPlayer s c).1
  | .placeCreature creature dest => placeCreature isPlayer s creature dest
  | .removeCreature creature => removeCreature isPlayer s creature
  | .moveCreature creature newPos => moveCreature isPlayer s creature newPos

/-- The calls of `getSpectators` that an action makes, each with the state that
it is made in. -/
def calls (s : State) : Action → List (State × Call)
  | .getSpectators c => [(s, c)]
  | .moveCreature creature newPos =>
    let (oldCall, newCall) := moveCalls isPlayer s creature newPos
    [(s, oldCall), ((getSpectators isPlayer s oldCall).1, newCall)]
  | _ => []

end Players

/-! ### Leaves and tiles -/

/-- The last element takes the place of the removed one. -/
theorem swapRemove_perm (l : List ℕ) (c : ℕ) : (swapRemove l c).Perm (l.erase c) := by
  unfold swapRemove
  by_cases hc : c ∈ l
  · rw [if_pos hc]
    obtain ⟨l1, l2, hl1, rfl, he⟩ := List.exists_erase_eq hc
    have hidx : (l1 ++ c :: l2).idxOf c = l1.length := by
      rw [List.idxOf_append_of_notMem hl1, List.idxOf_cons_self, Nat.add_zero]
    rw [he, hidx, List.set_append_right _ _ le_rfl, Nat.sub_self, List.set_cons_zero]
    rcases List.eq_nil_or_concat l2 with rfl | ⟨l3, d, rfl⟩
    · simp
    · have hlast : (l1 ++ c :: (l3 ++ [d])).getLastD 0 = d := by
        rw [← List.cons_append, ← List.append_assoc, List.getLastD_concat]
      rw [List.concat_eq_append, hlast, ← List.cons_append, ← List.append_assoc,
        List.dropLast_concat]
      exact (List.perm_append_singleton d l3).symm.append_left l1
  · rw [if_neg hc, List.erase_of_not_mem hc]

theorem nodup_swapRemove {l : List ℕ} (h : l.Nodup) (c : ℕ) :
    (swapRemove l c).Nodup ∧ ∀ x, x ∈ swapRemove l c ↔ x ∈ l ∧ x ≠ c := by
  have hp := swapRemove_perm l c
  refine ⟨hp.nodup_iff.2 (h.erase c), fun x => ?_⟩
  rw [hp.mem_iff, h.mem_erase_iff]
  exact and_comm

section Inv

variable {isPlayer : ℕ → Bool} {m : Map} {s : State}

/-- The map is in order: the players of a leaf are the players among its
creatures, and every creature of a leaf is in the vector of its tile, in the
block of the leaf. -/
structure MapOk (isPlayer : ℕ → Bool) (m : Map) : Prop where
  nodup : ∀ i j leaf, m.leaf i j = some leaf →
    leaf.creature_list.Nodup ∧ leaf.player_list.Nodup
  players : ∀ i j leaf, m.leaf i j = some leaf → ∀ c,
    c ∈ leaf.player_list ↔ c ∈ leaf.creature_list ∧ isPlayer c
  tiles : ∀ i j leaf, m.leaf i j = some leaf → ∀ c ∈ leaf.creature_list,
    c ∈ m.creatures (m.position c) ∧ i = (m.position c).x.toNat / 8 ∧
      j = (m.position c).y.toNat / 8

/-- A creature is on the map. -/
def Map.Has (m : Map) (c : ℕ) : Prop := ∃ i j leaf, m.leaf i j = some leaf ∧ c ∈ leaf.creature_list

theorem enter_position_of_ne {c c' : ℕ} {pos : Position} (h : c' ≠ c) :
    (m.enter pos c).position c' = m.position c' :=
  Function.update_of_ne h _ _

theorem mem_enter {c c' : ℕ} {pos p : Position} (h : c' ∈ m.creatures p) :
    c' ∈ (m.enter pos c).creatures p := by
  unfold Map.enter
  by_cases hp : p = pos
  · subst hp
    simp only [Function.update_self]
    exact List.mem_append_left _ h
  · simpa only [Function.update_of_ne hp] using h

theorem mem_leave {c c' : ℕ} {pos p : Position} (hne : c' ≠ c) (h : c' ∈ m.creatures p) :
    c' ∈ (m.leave pos c).creatures p := by
  unfold Map.leave
  by_cases hp : p = pos
  · subst hp
    simp only [Function.update_self]
    exact (List.mem_erase_of_ne hne).2 h
  · simpa only [Function.update_of_ne hp] using h

theorem onLeaf_cases {pos : Position} {f : QTreeLeafNode → QTreeLeafNode} {i j : ℕ}
    {leaf' : QTreeLeafNode} (h : (m.onLeaf pos f).leaf i j = some leaf') :
    (i = pos.x.toNat / 8 ∧ j = pos.y.toNat / 8 ∧ ∃ leaf, m.leaf i j = some leaf ∧ f leaf = leaf') ∨
    ¬ (i = pos.x.toNat / 8 ∧ j = pos.y.toNat / 8) ∧ m.leaf i j = some leaf' := by
  unfold Map.onLeaf at h
  by_cases hb : i = pos.x.toNat / 8 ∧ j = pos.y.toNat / 8
  · simp only [if_pos hb] at h
    exact .inl ⟨hb.1, hb.2, Option.map_eq_some_iff.1 h⟩
  · simp only [if_neg hb] at h
    exact .inr ⟨hb, h⟩

/-- A creature that is on no leaf is put on a tile and on its leaf. -/
theorem MapOk.add (h : MapOk isPlayer m) {c : ℕ} (hc : ¬ m.Has c) (pos : Position) :
    MapOk isPlayer ((m.enter pos c).onLeaf pos (·.addCreature isPlayer c)) := by
  have hnot : ∀ i j leaf, m.leaf i j = some leaf → c ∉ leaf.creature_list := fun i j leaf hl hmem =>
    hc ⟨i, j, leaf, hl, hmem⟩
  -- the creatures that were there before
  have hold : ∀ i j leaf, m.leaf i j = some leaf → ∀ c' ∈ leaf.creature_list,
      c' ∈ (m.enter pos c).creatures ((m.enter pos c).position c') ∧
      i = ((m.enter pos c).position c').x.toNat / 8 ∧
      j = ((m.enter pos c).position c').y.toNat / 8 := by
    intro i j leaf hl c' hc'
    have hne : c' ≠ c := fun hcc => hnot i j leaf hl (hcc ▸ hc')
    rw [enter_position_of_ne hne]
    obtain ⟨h1, h2⟩ := h.tiles i j leaf hl c' hc'
    exact ⟨mem_enter h1, h2⟩
  refine ⟨fun i j leaf' hl' => ?_, fun i j leaf' hl' c' => ?_, fun i j leaf' hl' c' hc' => ?_⟩
  · rcases onLeaf_cases hl' with ⟨-, -, leaf, hl, rfl⟩ | ⟨-, hl⟩
    · obtain ⟨h1, h2⟩ := h.nodup i j leaf hl
      have hn := hnot i j leaf hl
      have hnp : c ∉ leaf.player_list := fun hp => hn ((h.players i j leaf hl c).1 hp).1
      refine ⟨List.nodup_append_comm.1 (List.nodup_cons.2 ⟨hn, h1⟩), ?_⟩
      unfold QTreeLeafNode.addCreature
      dsimp only
      split
      · exact List.nodup_append_comm.1 (List.nodup_cons.2 ⟨hnp, h2⟩)
      · exact h2
    · exact h.nodup i j leaf' hl
  · rcases onLeaf_cases hl' with ⟨-, -, leaf, hl, rfl⟩ | ⟨-, hl⟩
    · have hp := h.players i j leaf hl c'
      unfold QTreeLeafNode.addCreature
      dsimp only
      split
      · next hpc =>
        simp only [List.mem_append, List.mem_singleton, hp]
        constructor
        · rintro (⟨h1, h2⟩ | rfl)
          · exact ⟨.inl h1, h2⟩
          · exact ⟨.inr rfl, hpc⟩
        · rintro ⟨h1 | rfl, h2⟩
          · exact .inl ⟨h1, h2⟩
          · exact .inr rfl
      · next hpc =>
        simp only [List.mem_append, List.mem_singleton, hp]
        constructor
        · exact fun ⟨h1, h2⟩ => ⟨.inl h1, h2⟩
        · rintro ⟨h1 | rfl, h2⟩
          · exact ⟨h1, h2⟩
          · exact absurd h2 hpc
    · exact h.players i j leaf' hl c'
  · rcases onLeaf_cases hl' with ⟨hi, hj, leaf, hl, rfl⟩ | ⟨-, hl⟩
    · rcases List.mem_append.1 hc' with hc' | hc'
      · exact hold i j leaf hl c' hc'
      · rw [List.mem_singleton.1 hc']
        have hpos : (m.enter pos c).position c = pos := Function.update_self ..
        show c ∈ (m.enter pos c).creatures ((m.enter pos c).position c) ∧
          i = ((m.enter pos c).position c).x.toNat / 8 ∧
          j = ((m.enter pos c).position c).y.toNat / 8
        rw [hpos]
        refine ⟨?_, hi, hj⟩
        unfold Map.enter
        simp
    · exact hold i j leaf' hl c' hc'

/-- A creature is taken from its tile and its leaf. -/
theorem MapOk.remove (h : MapOk isPlayer m) (c : ℕ) :
    MapOk isPlayer ((m.leave (m.position c) c).onLeaf (m.position c)
      (·.removeCreature isPlayer c)) ∧
    ¬ ((m.leave (m.position c) c).onLeaf (m.position c) (·.removeCreature isPlayer c)).Has c := by
  -- the creature is in no list any more, and all others are where they were
  have hlists : ∀ i j leaf', ((m.leave (m.position c) c).onLeaf (m.position c)
      (·.removeCreature isPlayer c)).leaf i j = some leaf' → ∃ leaf, m.leaf i j = some leaf ∧
      leaf'.creature_list.Nodup ∧ leaf'.player_list.Nodup ∧
      (∀ c', c' ∈ leaf'.creature_list ↔ c' ∈ leaf.creature_list ∧ c' ≠ c) ∧
      (∀ c', c' ∈ leaf'.player_list ↔ c' ∈ leaf.player_list ∧ c' ≠ c) := by
    intro i j leaf' hl'
    rcases onLeaf_cases hl' with ⟨hi, hj, leaf, hl, rfl⟩ | ⟨hb, hl⟩
    · obtain ⟨h1, h2⟩ := h.nodup i j leaf hl
      obtain ⟨h3, h4⟩ := nodup_swapRemove h1 c
      refine ⟨leaf, hl, h3, ?_, h4, ?_⟩
      · unfold QTreeLeafNode.removeCreature
        dsimp only
        split
        · exact (nodup_swapRemove h2 c).1
        · exact h2
      · intro c'
        unfold QTreeLeafNode.removeCreature
        dsimp only
        split
        · exact (nodup_swapRemove h2 c).2 c'
        · next hpc =>
          refine ⟨fun hc' => ⟨hc', fun hcc => hpc ?_⟩, And.left⟩
          rw [← hcc]
          exact ((h.players i j leaf hl c').1 hc').2
    · have hn : c ∉ leaf'.creature_list := fun hc => hb (h.tiles i j leaf' hl c hc).2
      have hnp : c ∉ leaf'.player_list := fun hc => hn ((h.players i j leaf' hl c).1 hc).1
      obtain ⟨h1, h2⟩ := h.nodup i j leaf' hl
      exact ⟨leaf', hl, h1, h2, fun c' => ⟨fun hc' => ⟨hc', fun hcc => hn (hcc ▸ hc')⟩, And.left⟩,
        fun c' => ⟨fun hc' => ⟨hc', fun hcc => hnp (hcc ▸ hc')⟩, And.left⟩⟩
  refine ⟨⟨fun i j leaf' hl' => ?_, fun i j leaf' hl' c' => ?_, fun i j leaf' hl' c' hc' => ?_⟩, ?_⟩
  · obtain ⟨leaf, hl, h1, h2, h3, h4⟩ := hlists i j leaf' hl'
    exact ⟨h1, h2⟩
  · obtain ⟨leaf, hl, h1, h2, h3, h4⟩ := hlists i j leaf' hl'
    rw [h3, h4, h.players i j leaf hl]
    exact and_right_comm
  · obtain ⟨leaf, hl, h1, h2, h3, h4⟩ := hlists i j leaf' hl'
    obtain ⟨h5, h6⟩ := (h3 c').1 hc'
    obtain ⟨h7, h8⟩ := h.tiles i j leaf hl c' h5
    exact ⟨mem_leave h6 h7, h8⟩
  · rintro ⟨i, j, leaf', hl', hc⟩
    obtain ⟨leaf, hl, h1, h2, h3, h4⟩ := hlists i j leaf' hl'
    exact ((h3 c).1 hc).2 rfl

/-- A creature goes to a tile of its block. -/
theorem MapOk.within (h : MapOk isPlayer m) {c : ℕ} {pos : Position}
    (hx : (m.position c).x.toNat / 8 = pos.x.toNat / 8)
    (hy : (m.position c).y.toNat / 8 = pos.y.toNat / 8) :
    MapOk isPlayer ((m.leave (m.position c) c).enter pos c) := by
  refine ⟨h.nodup, h.players, fun i j leaf hl c' hc' => ?_⟩
  obtain ⟨h1, h2, h3⟩ := h.tiles i j leaf hl c' hc'
  by_cases hcc : c' = c
  · subst hcc
    have hpos : ((m.leave (m.position c') c').enter pos c').position c' = pos :=
      Function.update_self ..
    rw [hpos]
    refine ⟨?_, h2.trans hx, h3.trans hy⟩
    unfold Map.enter
    simp
  · rw [enter_position_of_ne hcc]
    exact ⟨mem_enter (mem_leave hcc h1), h2, h3⟩

/-! ### The caches -/

/-- The players among the creatures that a scan finds are those that a scan for
players finds. -/
theorem getSpectatorsInternal_players (h : MapOk isPlayer m) (pos : Position) (r : Ranges) :
    m.getSpectatorsInternal ∅ pos r true =
      (m.getSpectatorsInternal ∅ pos r false).filter (isPlayer ·) := by
  ext c
  unfold Map.getSpectatorsInternal
  simp only [Finset.empty_union, List.mem_toFinset, Finset.mem_filter, List.mem_flatMap]
  have hleaf : ∀ nx ny, (c ∈ match m.leaf nx ny with
        | none => []
        | some leaf => (if true then leaf.player_list else leaf.creature_list).filter
          (m.inRange pos r)) ↔
      (c ∈ match m.leaf nx ny with
        | none => []
        | some leaf => (if false then leaf.player_list else leaf.creature_list).filter
          (m.inRange pos r)) ∧ isPlayer c := by
    intro nx ny
    cases hl : m.leaf nx ny with
    | none => simp
    | some leaf =>
      simp only [↓reduceIte, Bool.false_eq_true, List.mem_filter, h.players nx ny leaf hl c]
      exact and_right_comm
  constructor
  · rintro ⟨ny, hy, nx, hx, hc⟩
    obtain ⟨hc, hp⟩ := (hleaf _ _).1 hc
    exact ⟨⟨ny, hy, nx, hx, hc⟩, hp⟩
  · rintro ⟨⟨ny, hy, nx, hx, hc⟩, hp⟩
    exact ⟨ny, hy, nx, hx, (hleaf _ _).2 ⟨hc, hp⟩⟩

theorem mem_blocks {a b v : ℕ} (ha : a ≤ v) (hb : v ≤ b) :
    8 * (v / 8) ∈ blocks (a - a % 8) (b - b % 8) := by
  unfold blocks
  rw [List.mem_map]
  refine ⟨v / 8 - a / 8, ?_, ?_⟩
  · rw [List.mem_range]
    omega
  · omega

theorem clamp_le {v : ℤ} {n : ℕ} (h : v ≤ n) : clamp v ≤ n := by
  unfold clamp
  omega

theorem le_clamp {v : ℤ} {n : ℕ} (h : n ≤ v) (hn : n ≤ 0xFFFF) : n ≤ clamp v := by
  unfold clamp
  omega

/-- A scan finds every creature of the map in its ranges. -/
theorem mem_getSpectatorsInternal (h : MapOk isPlayer m) {c : ℕ} (hc : m.Has c) (list : SpectatorVec)
    {pos : Position} {r : Ranges} (hr : m.inRange pos r c) {onlyPlayers : Bool}
    (hplayer : onlyPlayers → isPlayer c) :
    c ∈ m.getSpectatorsInternal list pos r onlyPlayers := by
  obtain ⟨i, j, leaf, hleaf, hmem⟩ := hc
  obtain ⟨-, hi, hj⟩ := h.tiles i j leaf hleaf c hmem
  have hrange := hr
  unfold Map.inRange at hrange
  simp only [Bool.and_eq_true, decide_eq_true_eq] at hrange
  obtain ⟨⟨⟨⟨⟨hz1, hz2⟩, hy1⟩, hy2⟩, hx1⟩, hx2⟩ := hrange
  have hx := (m.position c).x.toNat_lt
  have hy := (m.position c).y.toNat_lt
  unfold Map.getSpectatorsInternal
  rw [Finset.mem_union, List.mem_toFinset, List.mem_flatMap]
  right
  refine ⟨8 * ((m.position c).y.toNat / 8), ?_, ?_⟩
  · exact mem_blocks (clamp_le (by omega)) (le_clamp (by omega) (by omega))
  rw [List.mem_flatMap]
  refine ⟨8 * ((m.position c).x.toNat / 8), ?_, ?_⟩
  · exact mem_blocks (clamp_le (by omega)) (le_clamp (by omega) (by omega))
  rw [Nat.mul_div_cancel_left _ (by norm_num), Nat.mul_div_cancel_left _ (by norm_num), ← hi, ← hj,
    hleaf]
  apply List.mem_filter.2
  refine ⟨?_, hr⟩
  cases honly : onlyPlayers with
  | true =>
    rw [if_pos rfl]
    exact (h.players i j leaf hleaf c).2 ⟨hmem, hplayer honly⟩
  | false => exact hmem

/-- The call that the caches answer. -/
def fullCall (pos : Position) (onlyPlayers : Bool) : Call :=
  { centerPos := pos, multifloor := true, onlyPlayers }

theorem scan_full (pos : Position) (onlyPlayers : Bool) : scan m (fullCall pos onlyPlayers) =
    if 16 ≤ pos.z.toNat then ∅
    else m.getSpectatorsInternal ∅ pos (fullCall pos false).ranges onlyPlayers := rfl

theorem scan_cacheable {c : Call} (hc : c.cacheable) :
    scan m c = scan m (fullCall c.centerPos c.onlyPlayers) := by
  simp only [Call.cacheable, Bool.and_eq_true, decide_eq_true_eq] at hc
  obtain ⟨⟨⟨⟨h1, h2⟩, h3⟩, h4⟩, h5⟩ := hc
  obtain ⟨list, pos, multifloor, onlyPlayers, a, b, d, e⟩ := c
  have hr : (Call.mk list pos multifloor onlyPlayers a b d e).ranges =
      (fullCall pos false).ranges := by
    rw [Ranges.ext_iff, h1, h2, h3, h4]
    subst h5
    exact ⟨rfl, rfl, rfl, rfl, rfl, rfl⟩
  rw [scan_full, ← hr]
  rfl

theorem scan_players (h : MapOk isPlayer m) (pos : Position) :
    scan m (fullCall pos true) = (scan m (fullCall pos false)).filter (isPlayer ·) := by
  rw [scan_full, scan_full]
  split
  · rfl
  · exact getSpectatorsInternal_players h _ _

/-- What the caches hold is what a scan finds. -/
structure Coherent (s : State) : Prop where
  all : ∀ pos list, s.spectatorCache pos = some list → list = scan s.map (fullCall pos false)
  players : ∀ pos list, s.playersSpectatorCache pos = some list →
    list = scan s.map (fullCall pos true)

theorem cached_eq (h : MapOk isPlayer s.map) (hs : Coherent s) {c : Call} (hc : c.cacheable)
    {list : SpectatorVec} (hl : s.cached isPlayer c = some list) : list = scan s.map c := by
  rw [scan_cacheable hc]
  unfold State.cached at hl
  cases hp : c.onlyPlayers with
  | true =>
    simp only [hp, ↓reduceIte] at hl
    split at hl
    · next l hl' =>
      cases hl
      exact hs.players _ _ hl'
    · obtain ⟨l, hl', rfl⟩ := Option.map_eq_some_iff.1 hl
      rw [hs.all _ _ hl', scan_players h]
  | false =>
    simp only [hp, Bool.false_eq_true, ↓reduceIte] at hl
    obtain ⟨l, hl', rfl⟩ := Option.map_eq_some_iff.1 hl
    exact hs.all _ _ hl'

/-- A call is exact: its list has grown by what a scan finds. -/
def Exact (isPlayer : ℕ → Bool) (s : State) (c : Call) : Prop :=
  (getSpectators isPlayer s c).2 = c.list ∪ scan s.map c

theorem getSpectatorsInternal_eq {c : Call} (hz : ¬ 16 ≤ c.centerPos.z.toNat) :
    m.getSpectatorsInternal c.list c.centerPos c.ranges c.onlyPlayers = c.list ∪ scan m c := by
  unfold scan
  rw [if_neg hz]
  unfold Map.getSpectatorsInternal
  rw [Finset.empty_union]

theorem getSpectators_exact (h : MapOk isPlayer s.map) (hs : Coherent s) (c : Call) :
    Exact isPlayer s c := by
  unfold Exact getSpectators
  split
  · next hz =>
    unfold scan
    rw [if_pos hz, Finset.union_empty]
  next hz =>
  have hscan := getSpectatorsInternal_eq (m := s.map) hz
  split
  · next l hl =>
    split at hl
    · next hc => rw [cached_eq h hs hc hl]
    · exact absurd hl (by simp)
  · split
    · split
      · exact hscan
      · exact hscan
    · exact hscan

/-- A call that stores its list. -/
def Stores (isPlayer : ℕ → Bool) (s : State) (c : Call) : Prop :=
  c.centerPos.z.toNat < 16 ∧ c.cacheable ∧ s.cached isPlayer c = none

theorem getSpectators_map (c : Call) : (getSpectators isPlayer s c).1.map = s.map := by
  unfold getSpectators
  split
  · rfl
  split
  · rfl
  split
  · split
    · rfl
    · rfl
  · rfl

/-- A call whose list is within its scan, if it is stored at all, keeps the
caches coherent. -/
theorem getSpectators_coherent (hs : Coherent s) {c : Call}
    (hf : Stores isPlayer s c → c.list ⊆ scan s.map c) :
    Coherent (getSpectators isPlayer s c).1 := by
  unfold getSpectators
  split
  · exact hs
  next hz =>
  split
  · exact hs
  next hcached =>
  dsimp only
  by_cases hc : c.cacheable
  · rw [if_pos hc] at hcached ⊢
    -- the stored list is the scan itself
    have hstored : s.map.getSpectatorsInternal c.list c.centerPos c.ranges c.onlyPlayers =
        scan s.map (fullCall c.centerPos c.onlyPlayers) := by
      rw [getSpectatorsInternal_eq hz, Finset.union_eq_right.2 (hf ⟨by omega, hc, hcached⟩),
        scan_cacheable hc]
    rw [hstored]
    split
    · next hp =>
      refine ⟨hs.all, fun pos list hl => ?_⟩
      by_cases hpos : pos = c.centerPos
      · subst hpos
        simp only [Function.update_self, hp, Option.some.injEq] at hl
        exact hl.symm
      · simp only [Function.update_of_ne hpos] at hl
        exact hs.players pos list hl
    · next hp =>
      refine ⟨fun pos list hl => ?_, hs.players⟩
      by_cases hpos : pos = c.centerPos
      · subst hpos
        simp only [Function.update_self, hp, Option.some.injEq] at hl
        exact hl.symm
      · simp only [Function.update_of_ne hpos] at hl
        exact hs.all pos list hl
  · rw [if_neg hc]
    exact hs

theorem coherent_of_empty (h1 : ∀ pos, s.spectatorCache pos = none)
    (h2 : ∀ pos, s.playersSpectatorCache pos = none) : Coherent s :=
  ⟨fun pos _ h => by simp [h1 pos] at h, fun pos _ h => by simp [h2 pos] at h⟩

theorem removeThing_of_mem {pos : Position} {c : ℕ} (h : c ∈ s.map.creatures pos) :
    removeThing s pos c = { s.clearSpectatorCache with map := s.map.leave pos c } :=
  if_pos h

/-! ### Runs -/

/-- The server before any creature is on the map, whose leaves are those of
`grid`. -/
def init (grid : ℕ → ℕ → Bool) : State where
  map :=
    { leaf := fun i j => if grid i j then some {} else none
      creatures := fun _ => []
      position := fun _ => ⟨0, 0, 0⟩ }
  spectatorCache := fun _ => none
  playersSpectatorCache := fun _ => none

/-- What the callers keep to: only creatures that are not on the map are placed,
only creatures on the map are removed and moved, and only to tiles. -/
def Legal (s : State) : Action → Prop
  | .getSpectators _ => True
  | .placeCreature c dest => ¬ s.map.Has c ∧ (s.map.getQTNode dest).isSome
  | .removeCreature c => s.map.Has c
  | .moveCreature c newPos => s.map.Has c ∧ (s.map.getQTNode newPos).isSome

/-- A list that is stored is within the scan that it is stored for. -/
def Fresh (isPlayer : ℕ → Bool) (s : State) : Action → Prop
  | .getSpectators c => Stores isPlayer s c → c.list ⊆ scan s.map c
  | _ => True

def Inv (isPlayer : ℕ → Bool) (s : State) : Prop := MapOk isPlayer s.map ∧ Coherent s

theorem Map.Has.mem_creatures (h : MapOk isPlayer m) {c : ℕ} (hc : m.Has c) :
    c ∈ m.creatures (m.position c) := by
  obtain ⟨i, j, leaf, hl, hc⟩ := hc
  exact (h.tiles i j leaf hl c hc).1

theorem leaf_init {grid : ℕ → ℕ → Bool} {i j : ℕ} {leaf : QTreeLeafNode}
    (hl : (init grid).map.leaf i j = some leaf) : leaf = {} := by
  simp only [init, Option.ite_none_right_eq_some, Option.some.injEq] at hl
  exact hl.2.symm

theorem not_has_init (grid : ℕ → ℕ → Bool) (c : ℕ) : ¬ (init grid).map.Has c := by
  rintro ⟨i, j, leaf, hl, hc⟩
  rw [leaf_init hl] at hc
  exact List.not_mem_nil hc

theorem inv_init (grid : ℕ → ℕ → Bool) : Inv isPlayer (init grid) := by
  refine ⟨⟨fun i j leaf hl => ?_, fun i j leaf hl c => ?_, fun i j leaf hl c hc => ?_⟩,
    coherent_of_empty (fun _ => rfl) fun _ => rfl⟩
  · rw [leaf_init hl]
    exact ⟨List.nodup_nil, List.nodup_nil⟩
  · rw [leaf_init hl]
    simp
  · exact absurd ⟨i, j, leaf, hl, hc⟩ (not_has_init grid c)

theorem inv_removeCreature (h : Inv isPlayer s) {c : ℕ} (hc : s.map.Has c) :
    Inv isPlayer (removeCreature isPlayer s c) := by
  have hmem := hc.mem_creatures h.1
  unfold removeCreature
  dsimp only
  rw [removeThing_of_mem]
  · exact ⟨(h.1.remove c).1, coherent_of_empty (fun _ => rfl) fun _ => rfl⟩
  · exact hmem

theorem inv_moveCreature (h : Inv isPlayer s) {c : ℕ} (hc : s.map.Has c) (newPos : Position) :
    Inv isPlayer (moveCreature isPlayer s c newPos) := by
  have hmem := hc.mem_creatures h.1
  unfold moveCreature
  dsimp only
  generalize hs2 : (getSpectators isPlayer (getSpectators isPlayer s
    (moveCalls isPlayer s c newPos).1).1 (moveCalls isPlayer s c newPos).2).1 = s2
  have hmap : s2.map = s.map := by
    rw [← hs2, getSpectators_map, getSpectators_map]
  have hok : MapOk isPlayer s2.map := by rw [hmap]; exact h.1
  rw [← hmap] at hmem ⊢
  rw [removeThing_of_mem hmem]
  split
  · next hb => exact ⟨hok.within hb.1 hb.2, coherent_of_empty (fun _ => rfl) fun _ => rfl⟩
  · obtain ⟨h1, h2⟩ := hok.remove c
    exact ⟨h1.add h2 newPos, coherent_of_empty (fun _ => rfl) fun _ => rfl⟩

theorem inv_step (h : Inv isPlayer s) {a : Action} (hl : Legal s a) (hf : Fresh isPlayer s a) :
    Inv isPlayer (step isPlayer s a) := by
  cases a with
  | getSpectators c =>
    refine ⟨?_, getSpectators_coherent h.2 hf⟩
    show MapOk isPlayer (getSpectators isPlayer s c).1.map
    rw [getSpectators_map]
    exact h.1
  | placeCreature c dest =>
    exact ⟨h.1.add hl.1 dest, coherent_of_empty (fun _ => rfl) fun _ => rfl⟩
  | removeCreature c => exact inv_removeCreature h hl
  | moveCreature c newPos => exact inv_moveCreature h hl.1 newPos

/-- Every call of an action is exact. -/
theorem calls_exact (h : Inv isPlayer s) (a : Action) :
    ∀ p ∈ calls isPlayer s a, Exact isPlayer p.1 p.2 := by
  obtain ⟨hok, hs⟩ := h
  cases a with
  | getSpectators c =>
    intro p hp
    rw [List.mem_singleton.1 hp]
    exact getSpectators_exact hok hs c
  | placeCreature c dest => simp [calls]
  | removeCreature c => simp [calls]
  | moveCreature c newPos =>
    intro p hp
    simp only [calls, List.mem_cons, List.not_mem_nil, or_false] at hp
    rcases hp with rfl | rfl
    · exact getSpectators_exact hok hs _
    · -- the list of the first call is empty, so what it stores is its scan
      apply getSpectators_exact
      · rw [getSpectators_map]
        exact hok
      · exact getSpectators_coherent hs fun _ => Finset.empty_subset _

/-- In every run in which each stored list is within its scan, every call
returns its list with exactly what a scan finds. -/
theorem spectators_exact {grid : ℕ → ℕ → Bool} {as : List Action}
    (h : Along (step isPlayer) (fun s a => Legal s a ∧ Fresh isPlayer s a) (init grid) as) :
    Along (step isPlayer) (fun s a => ∀ p ∈ calls isPlayer s a, Exact isPlayer p.1 p.2)
      (init grid) as :=
  along_of_inv (I := Inv isPlayer) (fun _ _ hs ha => inv_step hs ha.1 ha.2)
    (fun _ a hs _ => calls_exact hs a) as (inv_init grid) h

end Inv

/-- A creature walks into the view of a position that is asked for. -/
theorem spectators_exact_walk :
    Along (step fun _ => true) (fun s a => ∀ p ∈ calls (fun _ => true) s a,
      Exact (fun _ => true) p.1 p.2) (init fun _ _ => true)
      [.placeCreature 0 ⟨90, 100, 7⟩, .getSpectators { centerPos := ⟨107, 100, 7⟩, multifloor := true },
        .moveCreature 0 ⟨96, 100, 7⟩,
        .getSpectators { centerPos := ⟨107, 100, 7⟩, multifloor := true }] := by
  refine spectators_exact ⟨⟨⟨not_has_init _ 0, rfl⟩, trivial⟩,
    ⟨trivial, fun _ => Finset.empty_subset _⟩, ⟨⟨⟨11, 12, { creature_list := [0], player_list := [0] },
      rfl, List.mem_cons_self⟩, rfl⟩, trivial⟩, ⟨trivial, fun _ => Finset.empty_subset _⟩, trivial⟩

/-- The calls of `Monster::convinceCreature`, and one after it: a creature that
is only seen from the monster's position is then found at the convincer's. -/
def convince : List Action :=
  [.placeCreature 0 ⟨90, 100, 7⟩, .getSpectators { centerPos := ⟨100, 100, 7⟩, multifloor := true },
    .getSpectators { list := {0}, centerPos := ⟨107, 100, 7⟩, multifloor := true },
    .getSpectators { centerPos := ⟨107, 100, 7⟩, multifloor := true }]

theorem convince_not_exact : Along (step fun _ => false) Legal (init fun _ _ => true) convince ∧
    ¬ Along (step fun _ => false) (fun s a => ∀ p ∈ calls (fun _ => false) s a,
      Exact (fun _ => false) p.1 p.2) (init fun _ _ => true) convince := by
  refine ⟨⟨⟨not_has_init _ 0, rfl⟩, trivial, trivial, trivial, trivial⟩, fun h => ?_⟩
  · have := h.2.2.2.1 _ List.mem_cons_self
    revert this
    unfold Exact
    decide +kernel

end Spectators
end ForgottenServer
