/-
# The items of a tile

A tile keeps its ground and a vector of items: first the down items, the last
one dropped in front, then the items that are always on top, ordered by
`alwaysOnTopOrder`. Here the two parts are two lists; an item comes with the
forest of what it holds.

Key definitions: `Tile`, `Tile.internalAddThing`, `Tile.transformItem`.
Key theorems: `Tile.internalAddThing_grown`, `Tile.transformItem_same`.
-/
import ForgottenServer.ItemStream
import ForgottenServer.Lib.Forest

namespace ForgottenServer

open Item

/-- An item and what it holds. -/
abbrev Tree := Item × Forest Item

/-- Puts `x` in front of the first element with the property, else at the end. -/
def insertBefore {α : Type*} (p : α → Bool) (x : α) : List α → List α
  | [] => [x]
  | y :: l => if p y then x :: y :: l else y :: insertBefore p x l

/-- The first element with the property, with what stands before and after it. -/
def splitFirst {α : Type*} (p : α → Bool) : List α → Option (List α × α × List α)
  | [] => none
  | y :: l => if p y then some ([], y, l) else (splitFirst p l).map fun r => (y :: r.1, r.2)

/-- A tile's ground and items. -/
structure Tile where
  ground : Option Tree := none
  down : List Tree := []
  top : List Tree := []

namespace Tile

/-- The item vector: the down items, then the top items. -/
def items (t : Tile) : List Tree := t.down ++ t.top

/-- An item of the vector, in its part, with its neighbours. -/
structure Found where
  onTop : Bool
  before : List Tree
  tree : Tree
  after : List Tree

/-- The first item of the vector with the property. -/
def find (t : Tile) (p : Tree → Bool) : Option Found :=
  match splitFirst p t.down with
  | some (a, x, b) => some ⟨false, a, x, b⟩
  | none => (splitFirst p t.top).map fun (a, x, b) => ⟨true, a, x, b⟩

/-- The vector with `l` in place of a found item. -/
def put (t : Tile) (k : Found) (l : List Tree) : Tile :=
  if k.onTop then { t with top := k.before ++ l ++ k.after }
  else { t with down := k.before ++ l ++ k.after }

section Types

variable (types : UInt16 → ItemType)

/-- `Tile::internalAddThing` for an item. -/
def internalAddThing (t : Tile) (x : Tree) : Tile :=
  let itemType := types x.1.id
  if itemType.isGroundTile then
    if t.ground.isNone then { t with ground := some x } else t
  else if 0xFFFF ≤ t.items.length then t
  else if itemType.alwaysOnTop then
    { t with top :=
        insertBefore (fun y => itemType.alwaysOnTopOrder < (types y.1.id).alwaysOnTopOrder) x t.top }
  else { t with down := x :: t.down }

/-- `Tile::addThing` for an item that is no ground, splash or magic field. Here
an item goes in front of those of its own order. -/
def addThing (t : Tile) (x : Tree) : Tile :=
  let itemType := types x.1.id
  if 0xFFFF ≤ t.items.length then t
  else if itemType.alwaysOnTop then
    { t with top :=
        insertBefore (fun y => itemType.alwaysOnTopOrder ≤ (types y.1.id).alwaysOnTopOrder) x t.top }
  else { t with down := x :: t.down }

/-- `Tile::removeThing` for the whole stack of an item: it is looked for in the
part of its type. -/
def removeThing (t : Tile) (k : Found) : Tile :=
  if (types k.tree.1.id).alwaysOnTop = k.onTop then t.put k [] else t.put k [k.tree]

/-- `Game::transformItem(item, newId)` for an item of a tile, the only count
that the callers here give being the default. The notifications of the tile do
nothing: they matter to teleports, trash holders, mailboxes and scripts. -/
def transformItem (t : Tile) (k : Found) (newId : UInt16) : Tile :=
  let item := k.tree.1
  let newType := types newId
  let curType := types item.id
  if item.id = newId then t.put k [k.tree]
  else if newType.id = 0 then t.put k [k.tree]
  else if curType.alwaysOnTop ≠ newType.alwaysOnTop then
    (t.removeThing types k).addThing types (item.setID types newId, k.tree.2)
  else if curType.type = newType.type then
    -- the sub-type is read before the default one is set
    let count := item.getSubType types
    let item :=
      if curType.id ≠ newType.id ∧ newType.group ≠ curType.group then item.setDefaultSubtype types
      else item
    let itemId := if curType.id ≠ newType.id then newId else item.id
    t.put k [((item.setID types itemId).setSubType types count, k.tree.2)]
  else
    match createItem types newId 0 with
    | none => t.put k [k.tree]
    | some newItem => t.put k [(newItem, .nil)]

end Types

/-! ### Moveable items -/

section Lists

variable {α : Type*} {p q : α → Bool} {x : α}

theorem splitFirst_eq : ∀ {l a b : List α} {x : α}, splitFirst p l = some (a, x, b) →
    l = a ++ x :: b ∧ p x
  | [], _, _, _, h => by simp [splitFirst] at h
  | y :: l, a, b, x, h => by
    unfold splitFirst at h
    split at h
    · next hy =>
      simp only [Option.some.injEq, Prod.mk.injEq] at h
      obtain ⟨rfl, rfl, rfl⟩ := h
      exact ⟨rfl, hy⟩
    · simp only [Option.map_eq_some_iff, Prod.mk.injEq, Prod.exists] at h
      obtain ⟨a', x', b', h, rfl, rfl, rfl⟩ := h
      obtain ⟨rfl, hx⟩ := splitFirst_eq h
      exact ⟨rfl, hx⟩

theorem insertBefore_perm : ∀ l : List α, (insertBefore p x l).Perm (x :: l)
  | [] => .refl _
  | y :: l => by
    unfold insertBefore
    split
    · exact .refl _
    · exact ((insertBefore_perm l).cons y).trans (.swap _ _ _)

/-- An element inserted where the relation lets it stand. -/
theorem insertBefore_pairwise {R : α → α → Prop} (htrans : ∀ a b c, R a b → R b c → R a c) :
    ∀ {l : List α}, l.Pairwise R → (∀ y ∈ l, p y → R x y) → (∀ y ∈ l, ¬ p y → R y x) →
      (insertBefore p x l).Pairwise R
  | [], _, _, _ => List.pairwise_singleton R x
  | y :: l, hl, hx, hy => by
    obtain ⟨hyl, hl'⟩ := List.pairwise_cons.1 hl
    unfold insertBefore
    split
    · next hp =>
      have hxy := hx y List.mem_cons_self hp
      refine List.pairwise_cons.2 ⟨fun z hz => ?_, hl⟩
      rcases List.mem_cons.1 hz with rfl | hz
      · exact hxy
      · exact htrans _ _ _ hxy (hyl z hz)
    · next hp =>
      have hyx := hy y List.mem_cons_self hp
      refine List.pairwise_cons.2 ⟨fun z hz => ?_, ?_⟩
      · rcases List.mem_cons.1 ((insertBefore_perm l).mem_iff.1 hz) with rfl | hz
        · exact hyx
        · exact hyl z hz
      · exact insertBefore_pairwise htrans hl' (fun z hz => hx z (List.mem_cons_of_mem _ hz))
          fun z hz => hy z (List.mem_cons_of_mem _ hz)

/-- An element without the property leaves those that have it as they are. -/
theorem filter_insertBefore_of_not (hx : ¬ q x) : ∀ l : List α,
    (insertBefore p x l).filter q = l.filter q
  | [] => List.filter_cons_of_neg hx
  | y :: l => by
    unfold insertBefore
    split
    · exact List.filter_cons_of_neg hx
    · rw [List.filter_cons, List.filter_cons, filter_insertBefore_of_not hx l]

/-- An element comes in front of those that it precedes. -/
theorem filter_insertBefore (hx : q x) : ∀ {l : List α}, (∀ y ∈ l, q y → p y) →
    (insertBefore p x l).filter q = x :: l.filter q
  | [], _ => List.filter_cons_of_pos hx
  | y :: l, h => by
    unfold insertBefore
    split
    · exact List.filter_cons_of_pos hx
    · next hp =>
      have hy : ¬ q y := fun hq => hp (h y List.mem_cons_self hq)
      rw [List.filter_cons_of_neg hy, List.filter_cons_of_neg hy,
        filter_insertBefore hx fun z hz => h z (List.mem_cons_of_mem _ hz)]

end Lists

/-- A door or a bed is no ground, no splash and no container. -/
def DoorTypes (types : UInt16 → ItemType) : Prop :=
  ∀ id, (types id).isDoor ∨ (types id).isBed →
    ¬ (types id).isGroundTile ∧ ¬ (types id).isSplash ∧ ¬ (types id).isContainer

/-- The items of a list that can be moved. -/
def moveables (types : UInt16 → ItemType) (l : List Tree) : List Tree :=
  l.filter fun x => (types x.1.id).moveable

theorem moveables_cons_of_not {types : UInt16 → ItemType} {x : Tree}
    (h : ¬ (types x.1.id).moveable) (l : List Tree) : moveables types (x :: l) = moveables types l :=
  List.filter_cons_of_neg (p := fun x : Tree => (types x.1.id).moveable) h

theorem moveables_insertBefore_of_not {types : UInt16 → ItemType} {x : Tree} {p : Tree → Bool}
    (h : ¬ (types x.1.id).moveable) (l : List Tree) :
    moveables types (insertBefore p x l) = moveables types l :=
  filter_insertBefore_of_not (q := fun x : Tree => (types x.1.id).moveable) h l

/-- An item in its part of the vector. -/
structure Fits (types : UInt16 → ItemType) (onTop : Bool) (x : Tree) : Prop where
  part : (types x.1.id).alwaysOnTop = onTop
  cls : x.1.cls = classOf (types x.1.id)
  plain : (types x.1.id).moveable → x.1.cls ≠ .door ∧ x.1.cls ≠ .bed

/-- A tile whose items are in their parts, of the classes of their types, with
no doors or beds that can be moved. -/
structure Laid (types : UInt16 → ItemType) (t : Tile) : Prop where
  down : ∀ x ∈ t.down, Fits types false x
  top : ∀ x ∈ t.top, Fits types true x

/-- `t'` has the moveable items of `t`, and as many items. -/
structure SameMoveables (types : UInt16 → ItemType) (t t' : Tile) : Prop where
  down : moveables types t'.down = moveables types t.down
  top : moveables types t'.top = moveables types t.top
  length : t'.items.length = t.items.length

section Steps

variable {types : UInt16 → ItemType} {t : Tile} {k : Found} {x : Tree} {p : Tree → Bool}

theorem find_spec (h : t.find p = some k) : p k.tree ∧ t.put k [k.tree] = t := by
  unfold find at h
  split at h
  · next a x b hs =>
    cases h
    obtain ⟨hl, hp⟩ := splitFirst_eq hs
    refine ⟨hp, ?_⟩
    simp only [put, Bool.false_eq_true, ↓reduceIte, List.append_assoc, List.singleton_append, ← hl]
  · obtain ⟨⟨a, x, b⟩, hs, rfl⟩ := Option.map_eq_some_iff.1 h
    obtain ⟨hl, hp⟩ := splitFirst_eq hs
    refine ⟨hp, ?_⟩
    simp only [put, ↓reduceIte, List.append_assoc, List.singleton_append, ← hl]

/-- A found item fits its part. -/
theorem Laid.found (h : Laid types t) (hk : t.put k [k.tree] = t) : Fits types k.onTop k.tree := by
  obtain ⟨hd, ht⟩ := h
  rw [← hk] at hd ht
  unfold put at hd ht
  cases hon : k.onTop with
  | true => exact ht _ (by simp [hon])
  | false => exact hd _ (by simp [hon])

theorem moveables_put {l : List Tree} (hl : ∀ y ∈ l, ¬ (types y.1.id).moveable) :
    moveables types (t.put k l).down = moveables types (t.put k []).down ∧
      moveables types (t.put k l).top = moveables types (t.put k []).top := by
  have hnil : l.filter (fun y => (types y.1.id).moveable) = [] :=
    List.filter_eq_nil_iff.2 fun y hy => hl y hy
  unfold put moveables
  split
  · exact ⟨rfl, by simp only [List.filter_append, hnil, List.filter_nil]⟩
  · exact ⟨by simp only [List.filter_append, hnil, List.filter_nil], rfl⟩

theorem length_put (l : List Tree) :
    (t.put k l).items.length = (t.put k []).items.length + l.length := by
  unfold put items
  split
  · simp only [List.length_append, List.length_nil]
    omega
  · simp only [List.length_append, List.length_nil]
    omega

theorem Laid.put {l : List Tree} (h : Laid types t) (hk : t.put k [k.tree] = t)
    (hl : ∀ y ∈ l, Fits types k.onTop y) : Laid types (t.put k l) := by
  obtain ⟨hd, ht⟩ := h
  rw [← hk] at hd ht
  unfold Tile.put at hd ht ⊢
  cases hon : k.onTop with
  | true =>
    rw [hon] at hl
    simp only [hon, ↓reduceIte, List.mem_append, List.mem_singleton] at hd ht ⊢
    refine ⟨hd, fun y hy => ?_⟩
    simp only [List.mem_append] at hy
    rcases hy with (hy | hy) | hy
    · exact ht y (.inl (.inl hy))
    · exact hl y hy
    · exact ht y (.inr hy)
  | false =>
    rw [hon] at hl
    simp only [hon, Bool.false_eq_true, ↓reduceIte, List.mem_append, List.mem_singleton] at hd ht ⊢
    refine ⟨fun y hy => ?_, ht⟩
    simp only [List.mem_append] at hy
    rcases hy with (hy | hy) | hy
    · exact hd y (.inl (.inl hy))
    · exact hl y hy
    · exact hd y (.inr hy)

/-- Another item in place of a found one. -/
theorem put_same (h : Laid types t) (hk : t.put k [k.tree] = t) (hx : Fits types k.onTop x)
    (hm : ¬ (types x.1.id).moveable) (hf : ¬ (types k.tree.1.id).moveable) :
    Laid types (t.put k [x]) ∧ SameMoveables types t (t.put k [x]) := by
  refine ⟨h.put hk (by simpa using hx), ?_⟩
  obtain ⟨h1, h2⟩ := moveables_put (t := t) (k := k) (l := [x]) (by simpa using hm)
  obtain ⟨h3, h4⟩ := moveables_put (t := t) (k := k) (l := [k.tree]) (by simpa using hf)
  have h5 := length_put (t := t) (k := k) [x]
  have h6 := length_put (t := t) (k := k) [k.tree]
  rw [hk] at h3 h4 h6
  exact ⟨h1.trans h3.symm, h2.trans h4.symm, h5.trans h6.symm⟩

theorem classOf_eq_door {it : ItemType} (h : classOf it = .door) : it.isDoor := by
  unfold classOf at h
  split_ifs at h with _ _ _ _ h5
  exact h5

theorem classOf_eq_bed {it : ItemType} (h : classOf it = .bed) : it.isBed := by
  unfold classOf at h
  split_ifs at h with _ _ _ _ _ _ _ h8
  exact h8

theorem classOf_door {id : UInt16} (hT : DoorTypes types) (h : (types id).isDoor) :
    classOf (types id) = .door := by
  have hc := (hT id (.inl h)).2.2
  simp only [ItemType.isDoor, decide_eq_true_eq] at h
  simp [classOf, hc, ItemType.isDepot, ItemType.isTeleport, ItemType.isMagicField, ItemType.isDoor, h]

theorem classOf_bed {id : UInt16} (hT : DoorTypes types) (h : (types id).isBed) :
    classOf (types id) = .bed := by
  have hc := (hT id (.inr h)).2.2
  simp only [ItemType.isBed, decide_eq_true_eq] at h
  simp [classOf, hc, ItemType.isDepot, ItemType.isTeleport, ItemType.isMagicField, ItemType.isDoor,
    ItemType.isTrashHolder, ItemType.isMailbox, ItemType.isBed, h]

theorem setID_kind (types : UInt16 → ItemType) (it : Item) (id : UInt16) :
    (it.setID types id).id = id ∧ (it.setID types id).cls = it.cls := by
  unfold setID
  simp only []
  split_ifs <;> exact ⟨rfl, rfl⟩

theorem setSubType_kind (types : UInt16 → ItemType) (it : Item) (n : ℕ) :
    (it.setSubType types n).id = it.id ∧ (it.setSubType types n).cls = it.cls := by
  unfold setSubType
  split_ifs <;> exact ⟨rfl, rfl⟩

theorem setDefaultSubtype_kind (types : UInt16 → ItemType) (it : Item) :
    (it.setDefaultSubtype types).id = it.id ∧ (it.setDefaultSubtype types).cls = it.cls := by
  unfold setDefaultSubtype
  simp only []
  split_ifs <;> exact ⟨rfl, rfl⟩

/-- Adding an item that cannot be moved. -/
theorem addThing_same (h : Laid types t) (hsize : t.items.length < 0xFFFF)
    (hx : Fits types (types x.1.id).alwaysOnTop x) (hm : ¬ (types x.1.id).moveable) :
    Laid types (t.addThing types x) ∧
      moveables types (t.addThing types x).down = moveables types t.down ∧
      moveables types (t.addThing types x).top = moveables types t.top ∧
      (t.addThing types x).items.length = t.items.length + 1 := by
  unfold addThing
  simp only [if_neg (Nat.not_le.2 hsize)]
  split
  · next hon =>
    have hp := insertBefore_perm (x := x)
      (p := fun y => (types x.1.id).alwaysOnTopOrder ≤ (types y.1.id).alwaysOnTopOrder) t.top
    refine ⟨⟨h.down, fun y hy => ?_⟩, rfl,
      moveables_insertBefore_of_not hm _, ?_⟩
    · rcases List.mem_cons.1 (hp.mem_iff.1 hy) with rfl | hy
      · rwa [hon] at hx
      · exact h.top y hy
    · simp only [items, List.length_append, hp.length_eq, List.length_cons]
      omega
  · next hon =>
    refine ⟨⟨fun y hy => ?_, h.top⟩, moveables_cons_of_not hm _, rfl, ?_⟩
    · rcases List.mem_cons.1 hy with rfl | hy
      · rwa [Bool.eq_false_iff.2 hon] at hx
      · exact h.down y hy
    · simp only [items, List.length_append, List.length_cons]
      omega

/-- `transformItem` of a door or a bed to the saved type, or of an item to its
own type, keeps the moveable items. -/
theorem transformItem_same (hT : DoorTypes types) (h : Laid types t) (hk : t.put k [k.tree] = t)
    (hsize : t.items.length ≤ 0xFFFF) {id : UInt16} (hid : ¬ (types id).moveable)
    (hp : k.tree.1.id = id ∨ (types id).isDoor ∧ k.tree.1.cls = .door ∨
      (types id).isBed ∧ k.tree.1.cls = .bed)
    (hx : x.1.id = k.tree.1.id ∧ x.1.cls = k.tree.1.cls) :
    Laid types (t.transformItem types { k with tree := x } id) ∧
      SameMoveables types t (t.transformItem types { k with tree := x } id) := by
  have hfit := h.found hk
  have hf : ¬ (types k.tree.1.id).moveable := fun hm => by
    rcases hp with hp | ⟨-, hp⟩ | ⟨-, hp⟩
    · exact hid (hp ▸ hm)
    · exact (hfit.plain hm).1 hp
    · exact (hfit.plain hm).2 hp
  have hmx : ¬ (types x.1.id).moveable := by rwa [hx.1]
  have hfx : Fits types k.onTop x :=
    ⟨by rw [hx.1]; exact hfit.part, by rw [hx.1, hx.2]; exact hfit.cls, fun hm => absurd hm hmx⟩
  have hput : ∀ l, t.put { k with tree := x } l = t.put k l := fun _ => rfl
  have hsame := put_same h hk hfx hmx hf
  by_cases hne : x.1.id = id
  · unfold transformItem
    simp only [hput, if_pos hne]
    exact hsame
  -- the item is a door and becomes a door, or a bed and becomes a bed
  have hdoor : (types x.1.id).type = (types id).type ∧ x.1.cls = classOf (types id) := by
    have hcls := hfx.cls
    rcases hp with hp | ⟨hp, hc⟩ | ⟨hp, hc⟩
    · exact absurd (hx.1.trans hp) hne
    · have hd := classOf_eq_door (hcls.symm.trans (hx.2.trans hc))
      refine ⟨?_, (hx.2.trans hc).trans (classOf_door hT hp).symm⟩
      simp only [ItemType.isDoor, decide_eq_true_eq] at hd hp
      rw [hd, hp]
    · have hd := classOf_eq_bed (hcls.symm.trans (hx.2.trans hc))
      refine ⟨?_, (hx.2.trans hc).trans (classOf_bed hT hp).symm⟩
      simp only [ItemType.isBed, decide_eq_true_eq] at hd hp
      rw [hd, hp]
  obtain ⟨htype, hcls⟩ := hdoor
  unfold transformItem
  simp only [hput, if_neg hne, if_pos htype]
  split
  · exact hsame
  split
  · have hrem : t.removeThing types { k with tree := x } = t.put k [] := by
      unfold removeThing
      rw [if_pos hfx.part]
      exact hput []
    obtain ⟨hs1, hs2⟩ := setID_kind types x.1 id
    have hlen := length_put (t := t) (k := k) [k.tree]
    rw [hk, List.length_singleton] at hlen
    obtain ⟨h1, h2, h3, h4⟩ := addThing_same (x := (x.1.setID types id, x.2)) (h.put (l := []) hk (by simp))
      (by omega) ⟨rfl, by rw [hs2, hs1]; exact hcls, fun hm => absurd (hs1 ▸ hm) hid⟩
      (by rw [hs1]; exact hid)
    obtain ⟨h5, h6⟩ := moveables_put (t := t) (k := k) (l := [k.tree]) (by simpa using hf)
    rw [hk] at h5 h6
    rw [hrem]
    exact ⟨h1, h2.trans h5.symm, h3.trans h6.symm, by omega⟩
  next htop =>
  rw [not_not] at htop
  -- the id is the new one, or stays the item's own
  have hset : ∀ (i : Item) (newid : UInt16) (n : ℕ), i.cls = x.1.cls →
      newid = id ∨ newid = x.1.id →
      Laid types (t.put k [((i.setID types newid).setSubType types n, x.2)]) ∧
        SameMoveables types t (t.put k [((i.setID types newid).setSubType types n, x.2)]) := by
    intro i newid n hi hnew
    obtain ⟨h1, h2⟩ := setID_kind types i newid
    obtain ⟨h3, h4⟩ := setSubType_kind types (i.setID types newid) n
    have hm : ¬ (types newid).moveable := by
      rcases hnew with rfl | rfl
      · exact hid
      · exact hmx
    refine put_same h hk ⟨?_, ?_, fun h => absurd h ?_⟩ ?_ hf
    · rw [h3, h1]
      rcases hnew with rfl | rfl
      · rw [← htop]
        exact hfx.part
      · exact hfx.part
    · rw [h4, h2, h3, h1, hi]
      rcases hnew with rfl | rfl
      · exact hcls
      · exact hfx.cls
    · rw [h3, h1]
      exact hm
    · rw [h3, h1]
      exact hm
  obtain ⟨hd1, hd2⟩ := setDefaultSubtype_kind types x.1
  split_ifs with hc hi hi
  · exact hset _ _ _ hd2 (.inl rfl)
  · exact hset _ _ _ hd2 (.inr hd1)
  · exact hset _ _ _ rfl (.inl rfl)
  · exact hset _ _ _ rfl (.inr rfl)

/-- One part of the vector. -/
def part (t : Tile) (onTop : Bool) : List Tree := if onTop then t.top else t.down

/-- `t'` has the moveable items of `t` and, in front of those of one part, the
items `l`. -/
structure Grown (types : UInt16 → ItemType) (onTop : Bool) (l : List Tree) (t t' : Tile) : Prop where
  laid : Laid types t'
  part : moveables types (t'.part onTop) = l ++ moveables types (t.part onTop)
  other : moveables types (t'.part !onTop) = moveables types (t.part !onTop)
  length : t'.items.length = t.items.length + l.length

theorem Grown.refl (h : Laid types t) (onTop : Bool) : Grown types onTop [] t t :=
  ⟨h, rfl, rfl, rfl⟩

theorem Grown.trans {onTop : Bool} {l l' : List Tree} {t' t'' : Tile}
    (h : Grown types onTop l t t') (h' : Grown types onTop l' t' t'') :
    Grown types onTop (l' ++ l) t t'' :=
  ⟨h'.laid, by rw [h'.part, h.part, List.append_assoc], h'.other.trans h.other, by
    have := h.length
    have := h'.length
    rw [List.length_append]
    omega⟩

theorem SameMoveables.grown {t' : Tile} (h : SameMoveables types t t') (hl : Laid types t')
    (onTop : Bool) : Grown types onTop [] t t' := by
  cases onTop with
  | true => exact ⟨hl, h.top, h.down, h.length⟩
  | false => exact ⟨hl, h.down, h.top, h.length⟩

/-- A moveable item goes in front of the others of its part; on top this takes
an order below theirs. -/
theorem internalAddThing_grown (h : Laid types t) (hsize : t.items.length < 0xFFFF)
    (hg : ¬ (types x.1.id).isGroundTile) (hx : Fits types (types x.1.id).alwaysOnTop x)
    (hm : (types x.1.id).moveable)
    (hord : (types x.1.id).alwaysOnTop → ∀ y ∈ moveables types t.top,
      (types x.1.id).alwaysOnTopOrder < (types y.1.id).alwaysOnTopOrder) :
    Grown types (types x.1.id).alwaysOnTop [x] t (t.internalAddThing types x) := by
  unfold internalAddThing
  simp only [if_neg hg, if_neg (Nat.not_le.2 hsize)]
  split
  · next hon =>
    have hp := insertBefore_perm (x := x)
      (p := fun y => (types x.1.id).alwaysOnTopOrder < (types y.1.id).alwaysOnTopOrder) t.top
    rw [hon] at hx ⊢
    refine ⟨⟨h.down, fun y hy => ?_⟩, ?_, rfl, ?_⟩
    · rcases List.mem_cons.1 (hp.mem_iff.1 hy) with rfl | hy
      · exact hx
      · exact h.top y hy
    · refine filter_insertBefore (q := fun x : Tree => (types x.1.id).moveable) hm fun y hy hmy => ?_
      exact decide_eq_true (hord hon y (List.mem_filter.2 ⟨hy, hmy⟩))
    · simp only [items, List.length_append, hp.length_eq, List.length_cons, List.length_nil]
      omega
  · next hon =>
    rw [Bool.eq_false_iff.2 hon] at hx ⊢
    refine ⟨⟨fun y hy => ?_, h.top⟩, ?_, rfl, ?_⟩
    · rcases List.mem_cons.1 hy with rfl | hy
      · exact hx
      · exact h.down y hy
    · exact List.filter_cons_of_pos (p := fun x : Tree => (types x.1.id).moveable) hm
    · simp only [items, List.length_append, List.length_cons, List.length_nil]
      omega

end Steps

end Tile
end ForgottenServer
