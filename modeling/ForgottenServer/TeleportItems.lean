/-
# Items on teleports

An item that is put on a teleport is moved to the tile at the destination, or to
the one that a hole or the stairs there lead to. On the way it may be joined
with a stack, which is told in turn, or be exchanged with something that hangs
there, which comes back to the teleport. As long as nothing that is moved or
replaced is itself a teleport, stairs or a ground (`Steady`), the way of the
items stays what it was (`Kept`), and where it does not lead back every item
comes to rest (`item_ends`).

Key definitions: `Plain`, `Steady`, `Quiet`, `Kept`, `itemLeadsTo`.
Key theorems: `addThing_quiet`, `settles_item`, `item_ends`.
-/
import ForgottenServer.Teleport

namespace ForgottenServer
namespace Teleport

open Depth Inventory
open Spectators (Position)
open TileStack (Thing TileItemVector)

/-! ### Lists that differ in one element -/

section Lists

variable {α : Type} {p : α → Bool} {l l' : List α} {a : α}

/-- The last element with the property is the last of those that have it. -/
theorem find?_reverse_congr (h : l'.filter p = l.filter p) : l'.reverse.find? p = l.reverse.find? p := by
  rw [← List.head?_filter, ← List.head?_filter, List.filter_reverse, List.filter_reverse, h]

theorem filter_erase_of_neg [DecidableEq α] (ha : ¬ p a = true) : (l.erase a).filter p = l.filter p := by
  induction l with
  | nil => rfl
  | cons b l ih =>
    by_cases hb : b = a
    · subst hb
      rw [List.erase_cons_head, List.filter_cons_of_neg ha]
    · rw [List.erase_cons_tail (by simpa using hb), List.filter_cons, List.filter_cons, ih]

theorem filter_insertBefore_of_neg {q : α → Bool} (ha : ¬ p a = true) :
    (insertBefore q a l).filter p = l.filter p := by
  induction l with
  | nil => exact List.filter_cons_of_neg ha
  | cons b l ih =>
    unfold insertBefore
    split
    · exact List.filter_cons_of_neg ha
    · rw [List.filter_cons, List.filter_cons, ih]

end Lists

/-! ### Changes of a tile that leave its teleport and its floor -/

section Tiles

open TileItems TileItems.State
open TileFlags (listed)

variable {items : UInt16 → ItemType} {v v₁ v' : TileItems.State Ref CreatureId} {i x : Ref} {N N' : List Ref}

def isTeleport (v : TileItems.State Ref CreatureId) (r : Ref) : Bool := (v.item r).cls = .teleport

/-- The item decides nothing about the way of what is put on its tile. -/
def PlainOn (items : UInt16 → ItemType) (v : TileItems.State Ref CreatureId) (i : Ref) : Prop :=
  (v.item i).cls ≠ .teleport ∧ (v.type items i).floorChange = 0

theorem PlainOn.not_isTeleport (h : PlainOn items v i) : ¬ isTeleport v i = true := by
  unfold isTeleport
  rw [decide_eq_true_iff]
  exact h.1

/-- The tile has the teleport and the floor it had, and no item but those it had
and the new ones. -/
structure Quiet (v v' : TileItems.State Ref CreatureId) (N : List Ref) : Prop where
  cls : ∀ r, (v'.item r).cls = (v.item r).cls
  id : ∀ r, (v'.item r).id = (v.item r).id
  floor : v'.floorChange = v.floorChange
  flag : v'.flag .teleport = v.flag .teleport
  last : lastTeleport v' = lastTeleport v
  mem : ∀ x ∈ listed v', x ∈ listed v ∨ x ∈ N

theorem Quiet.refl (v : TileItems.State Ref CreatureId) : Quiet v v [] :=
  ⟨fun _ => rfl, fun _ => rfl, rfl, rfl, rfl, fun _ hx => .inl hx⟩

theorem Quiet.trans (h : Quiet v v₁ N) (h' : Quiet v₁ v' N') : Quiet v v' (N ++ N') where
  cls r := (h'.cls r).trans (h.cls r)
  id r := (h'.id r).trans (h.id r)
  floor := h'.floor.trans h.floor
  flag := h'.flag.trans h.flag
  last := h'.last.trans h.last
  mem x hx := by
    rcases h'.mem x hx with hx | hx
    · exact (h.mem x hx).imp_right fun hx => List.mem_append_left _ hx
    · exact .inr (List.mem_append_right _ hx)

theorem Quiet.plain (h : Quiet v v' N) : PlainOn items v' x ↔ PlainOn items v x := by
  unfold PlainOn TileItems.State.type
  rw [h.cls, h.id]

/-- The parents of the items are no part of it. -/
theorem Quiet.setParent (h : Quiet v v' N) (j : Ref) (here : Bool) : Quiet v (v'.setParent j here) N :=
  ⟨h.cls, h.id, h.floor, h.flag, h.last, h.mem⟩

theorem Quiet.of_setParent {j : Ref} {here : Bool} (h : Quiet (v.setParent j here) v' N) : Quiet v v' N :=
  ⟨h.cls, h.id, h.floor, h.flag, h.last, h.mem⟩

theorem Quiet.setTileFlags (h : Quiet v v' N) (hi : PlainOn items v i) : Quiet v (v'.setTileFlags items i) N where
  cls := h.cls
  id := h.id
  floor := by
    have hfloor : (v'.type items i).floorChange = 0 := (h.plain.2 hi).2
    unfold TileItems.State.setTileFlags
    dsimp only
    rw [if_neg fun hc => hc.2 hfloor]
    exact h.floor
  flag := by
    have hcls : (v'.item i).cls ≠ .teleport := (h.plain.2 hi).1
    show (v'.flag .teleport || decide ((v'.item i).cls = .teleport)) = _
    rw [decide_eq_false hcls, Bool.or_false]
    exact h.flag
  last := h.last
  mem := h.mem

theorem Quiet.resetTileFlags (h : Quiet v v' N) (hi : PlainOn items v i) :
    Quiet v (v'.resetTileFlags items i) N where
  cls := h.cls
  id := h.id
  floor := by
    have hfloor : (v'.type items i).floorChange = 0 := (h.plain.2 hi).2
    unfold TileItems.State.resetTileFlags
    dsimp only
    rw [if_neg (not_not_intro hfloor)]
    exact h.floor
  flag := by
    have hcls : (v'.item i).cls ≠ .teleport := (h.plain.2 hi).1
    show (v'.flag .teleport && !decide ((v'.item i).cls = .teleport)) = _
    rw [decide_eq_false hcls, Bool.not_false, Bool.and_true]
    exact h.flag
  last := h.last
  mem := h.mem

/-- The vector with elements taken out or put in that are no teleports. -/
theorem Quiet.setItemList (h : Quiet v v' N) {w : TileItemVector Ref}
    (hfilter : w.items.filter (isTeleport v') = v'.makeItemList.items.filter (isTeleport v'))
    (hmem : ∀ x ∈ w.items, x ∈ v'.makeItemList.items ∨ x ∈ N') : Quiet v (v'.setItemList w) (N ++ N') where
  cls := h.cls
  id := h.id
  floor := h.floor
  flag := h.flag
  last := (find?_reverse_congr hfilter).trans h.last
  mem x hx := by
    have hold (hx : x ∈ listed v') : x ∈ listed v ∨ x ∈ N ++ N' :=
      (h.mem x hx).imp_right fun hx => List.mem_append_left _ hx
    rcases List.mem_append.1 hx with hg | hx
    · exact hold (List.mem_append_left _ hg)
    rcases hmem x hx with hx | hx
    · exact hold (List.mem_append_right _ hx)
    · exact .inr (List.mem_append_right _ hx)

theorem quiet_setItemCount (v : TileItems.State Ref CreatureId) (i : Ref) (n : ℕ) :
    Quiet v (v.setItem i ((v.item i).setItemCount n)) [] where
  cls j := setItemCount_cls v i j n
  id j := setItemCount_id v i j n
  floor := rfl
  flag := rfl
  last := by
    unfold lastTeleport
    simp only [setItemCount_cls]
    rfl
  mem _ hx := .inl hx

variable (items) in
/-- An item that is taken from the tile, or a part of its count. -/
theorem removeThing_quiet (hi : PlainOn items v i) (count : UInt32) :
    Quiet v (v.removeThing items (.item i) count) [] := by
  have hno : ¬ isTeleport v i = true := hi.not_isTeleport
  unfold TileItems.State.removeThing
  dsimp only
  split
  · exact .refl v
  split
  · refine Quiet.resetTileFlags ?_ hi
    exact ⟨fun _ => rfl, fun _ => rfl, rfl, rfl, rfl, fun x hx => .inl (List.mem_append_right _ hx)⟩
  cases hv : v.tile.items with
  | none => exact .refl v
  | some w =>
    have hw : v.makeItemList = w := by
      unfold TileItems.State.makeItemList
      rw [hv]
      rfl
    have hparts : w.downItems ++ w.topItems = w.items := List.take_append_drop ..
    dsimp only
    split
    · split
      · exact .refl v
      refine Quiet.resetTileFlags ?_ hi
      refine ((Quiet.refl v).setParent i false).setItemList ?_ ?_
      · show (w.downItems ++ w.topItems.erase i).filter (isTeleport v) = v.makeItemList.items.filter (isTeleport v)
        rw [hw, List.filter_append, filter_erase_of_neg hno, ← List.filter_append, hparts]
      · intro x hx
        show x ∈ v.makeItemList.items ∨ _
        rw [hw, ← hparts]
        exact .inl ((List.erase_sublist.append_left _).subset hx)
    split
    · exact .refl v
    split
    · exact quiet_setItemCount v i _
    · refine Quiet.resetTileFlags ?_ hi
      refine ((Quiet.refl v).setParent i false).setItemList ?_ ?_
      · show (w.downItems.erase i ++ w.topItems).filter (isTeleport v) = v.makeItemList.items.filter (isTeleport v)
        rw [hw, List.filter_append, filter_erase_of_neg hno, ← List.filter_append, hparts]
      · intro x hx
        show x ∈ v.makeItemList.items ∨ _
        rw [hw, ← hparts]
        exact .inl ((List.erase_sublist.append_right _).subset hx)

/-- An item that changes its count or its charges. -/
theorem updateThing_quiet (hi : PlainOn items v i) (count : UInt32) :
    Quiet v (v.updateThing items (.item i) (v.item i).id count) [] := by
  unfold TileItems.State.updateThing
  dsimp only
  split
  · exact .refl v
  have hreset := (Quiet.refl v).resetTileFlags hi
  refine Quiet.setTileFlags ?_ hi
  have hitem (j : Ref) : ((((v.resetTileFlags items i).setItem i
        ((((v.resetTileFlags items i).item i).setID items (v.item i).id).setSubType items
          (count.toNat % 2 ^ 16))).item j).cls = (v.item j).cls) ∧
      ((((v.resetTileFlags items i).setItem i
        ((((v.resetTileFlags items i).item i).setID items (v.item i).id).setSubType items
          (count.toNat % 2 ^ 16))).item j).id = (v.item j).id) := by
    by_cases hj : j = i
    · subst hj
      rw [setItem_item_self, Item.setSubType_cls, Item.setID_cls, setSubType_id, setID_id]
      exact ⟨rfl, rfl⟩
    · rw [setItem_item_of_ne _ hj]
      exact ⟨rfl, rfl⟩
  refine ⟨fun j => (hitem j).1, fun j => (hitem j).2, hreset.floor, hreset.flag, ?_, hreset.mem⟩
  unfold lastTeleport
  simp only [hitem]
  rfl

/-- Items that make room for others on the tile are plain. -/
def Yields (items : UInt16 → ItemType) (v : TileItems.State Ref CreatureId) : Prop :=
  ∀ x ∈ listed v, (v.type items x).isSplash = true ∨ (v.item x).cls = .magicField → PlainOn items v x

theorem Quiet.yields (h : Quiet v v' []) (hy : Yields items v) : Yields items v' := by
  intro x hx hroom
  have hold := (h.mem x hx).resolve_right List.not_mem_nil
  apply h.plain.2
  apply hy x hold
  unfold TileItems.State.type at hroom ⊢
  rwa [h.cls, h.id] at hroom

theorem mem_listed_of_part {w : TileItemVector Ref} (hw : v.tile.items = some w)
    (hx : x ∈ w.items) : x ∈ listed v := by
  unfold listed TileItems.State.makeItemList
  rw [hw]
  exact List.mem_append_right _ hx

theorem mem_listed_of_topItems (hx : x ∈ v.tile.topItems) : x ∈ listed v := by
  unfold TileStack.Tile.topItems at hx
  cases hw : v.tile.items with
  | none => rw [hw] at hx; exact nomatch hx
  | some w =>
    rw [hw] at hx
    exact mem_listed_of_part hw (List.drop_subset _ _ hx)

theorem mem_listed_of_downItems (hx : x ∈ v.tile.downItems) : x ∈ listed v := by
  unfold TileStack.Tile.downItems at hx
  cases hw : v.tile.items with
  | none => rw [hw] at hx; exact nomatch hx
  | some w =>
    rw [hw] at hx
    exact mem_listed_of_part hw (List.take_subset _ _ hx)

theorem removeSplash_quiet (hy : Yields items v) : Quiet v (v.removeSplash items) [] := by
  unfold removeSplash
  split
  · exact .refl v
  next old hold =>
    obtain ⟨hmem, hsplash⟩ := mem_of_find? hold
    have hplain := hy old (mem_listed_of_topItems hmem) (.inl hsplash)
    exact (removeThing_quiet items hplain 1).setParent old false

theorem removeFields_quiet (hy : Yields items v) {fuel : ℕ} {replaced : Bool}
    (h : removeFields items fuel v = some (v', replaced)) : Quiet v v' [] := by
  refine (removeFields_induct (P := fun v₁ => Quiet v v₁ []) ?_ fuel (Quiet.refl v) h).1
  intro v₁ oldField hv₁ hfind _
  obtain ⟨hmem, hfield⟩ := mem_of_find? hfind
  have hplain := hv₁.yields hy oldField (mem_listed_of_downItems hmem) (.inr (by simpa using hfield))
  exact hv₁.trans ((removeThing_quiet items hplain 1).setParent oldField false)

theorem insertTop_quiet (h : Quiet v v' []) (hi : PlainOn items v i) (before : ItemType → Bool) :
    Quiet v (v'.insertTop items before i) [i] := by
  have hno : ¬ isTeleport v' i = true := (h.plain.2 hi).not_isTeleport
  have hparts : v'.makeItemList.downItems ++ v'.makeItemList.topItems = v'.makeItemList.items :=
    List.take_append_drop ..
  refine h.setItemList ?_ ?_
  · show (v'.makeItemList.downItems ++ insertBefore _ i v'.makeItemList.topItems).filter (isTeleport v') = _
    rw [List.filter_append, filter_insertBefore_of_neg hno, ← List.filter_append, hparts]
  · intro x hx
    have hx : x ∈ v'.makeItemList.downItems ++ insertBefore _ i v'.makeItemList.topItems := hx
    rw [(insertBefore_parts _ i _ _).mem_iff, List.mem_cons, hparts] at hx
    exact hx.symm.imp_right List.mem_singleton.2

theorem insertDown_quiet (h : Quiet v v' []) (hi : PlainOn items v i) : Quiet v (v'.insertDown i) [i] := by
  have hno : ¬ isTeleport v' i = true := (h.plain.2 hi).not_isTeleport
  refine h.setItemList (List.filter_cons_of_neg hno) ?_
  intro x hx
  exact (List.mem_cons.1 hx).symm.imp_right List.mem_singleton.2

variable (items) in
/-- A plain item that is put on the tile, and is no ground. -/
theorem addThing_quiet (hi : PlainOn items v i) (hground : (v.type items i).isGroundTile = false)
    (hy : Yields items v) (h : v.addThing items (.item i) = some v') : Quiet v v' [i] := by
  have hgain {w : TileItems.State Ref CreatureId} (hw : Quiet v w []) : Quiet v w [i] := hw.trans ⟨
    fun _ => rfl, fun _ => rfl, rfl, rfl, rfl, fun _ hx => .inl hx⟩
  have hparent := (Quiet.refl v).setParent i true
  unfold TileItems.State.addThing at h
  dsimp only at h
  split at h
  · exact Option.some.inj h ▸ hgain (.refl v)
  have hground : ((v.setParent i true).type items i).isGroundTile = false := hground
  rw [hground, if_neg Bool.false_ne_true] at h
  split at h
  · obtain rfl := Option.some.inj h
    refine Quiet.setTileFlags (insertTop_quiet ?_ hi _) hi
    split
    · exact hparent.trans (removeSplash_quiet (hparent.yields hy))
    · exact hparent
  split at h
  · obtain ⟨⟨w, replaced⟩, hw, rfl⟩ := Option.map_eq_some_iff.1 h
    have hw := hparent.trans (removeFields_quiet (hparent.yields hy) hw)
    dsimp only
    split
    · exact (insertDown_quiet hw hi).setTileFlags hi
    · exact hgain (hw.setParent i false)
  · obtain rfl := Option.some.inj h
    exact (insertDown_quiet hparent hi).setTileFlags hi

end Tiles

/-! ### States that keep the way of the items -/

section States

open TileFlags (listed)

variable {cfg : Config} {W : Position → Prop} {L : Position → Layout} {s s' : State} {t u : Position}
  {x r : Ref} {v : TileItems.State Ref CreatureId} {N : List Ref}

variable (cfg s x) in
/-- The item decides nothing about the way of what is put on its tile. -/
def Plain : Prop := (s.item x).cls ≠ .teleport ∧ (s.type cfg x).floorChange = 0

variable (cfg s x) in
/-- What can be moved, or has to make room for another item, is plain, and no
ground can be moved. -/
def Steady : Prop :=
  ((s.type cfg x).moveable = true ∨ (s.type cfg x).isSplash = true ∨ (s.item x).cls = .magicField →
    Plain cfg s x) ∧
  ((s.type cfg x).moveable = true → (s.type cfg x).isGroundTile = false)

/-- The map has its layout still, its items are older than the next one, and
those on the way are steady. -/
structure Kept (cfg : Config) (W : Position → Prop) (L : Position → Layout) (s : State) : Prop where
  layout : layout s = L
  fresh : ∀ u, ∀ x ∈ s.contents (.tile u), x < s.next
  steady : ∀ u, W u → ∀ x ∈ s.contents (.tile u), Steady cfg s x

theorem Steady.congr (hcls : (s'.item x).cls = (s.item r).cls) (hid : (s'.item x).id = (s.item r).id) :
    Steady cfg s' x ↔ Steady cfg s r := by
  unfold Steady Plain State.type
  rw [hcls, hid]

theorem mem_contents_tile : x ∈ s.contents (.tile u) ↔ x ∈ listed (s.tileState u) := by
  unfold State.contents listed State.tileState TileItems.State.makeItemList
    TileStack.Tile.topItems TileStack.Tile.downItems
  dsimp only
  cases (s.mapTile u).tile.items with
  | none => rfl
  | some w =>
    have hparts : w.downItems ++ w.topItems = w.items := List.take_append_drop ..
    simp only [List.mem_append, Option.map_some, Option.getD_some]
    rw [← hparts, List.mem_append]
    tauto

/-- An item that has an index on a tile lies there. -/
theorem mem_of_getThingIndex (h : s.getThingIndex cfg.items x (.tile u) ≠ -1) : x ∈ s.contents (.tile u) := by
  by_contra hno
  unfold State.contents at hno
  simp only [List.mem_append, not_or] at hno
  obtain ⟨hground, htop, hdown⟩ := hno
  apply h
  show (s.mapTile u).tile.getThingIndex _ (.item x) = -1
  apply TileItems.State.index_of_ok
  · intro hg
    rw [hg] at hground
    exact hground (List.mem_singleton_self x)
  · intro n
    unfold TileStack.Tile.getThingIndex.atTop
    unfold TileStack.Tile.topItems at htop
    cases hw : (s.mapTile u).tile.items with
    | none => exact ⟨n, rfl⟩
    | some w =>
      rw [hw] at htop
      dsimp only
      split
      · exact ⟨_, TileStack.Tile.countTo_of_not_mem n htop⟩
      · exact ⟨_, rfl⟩
  · intro n
    unfold TileStack.Tile.getThingIndex.atDown
    unfold TileStack.Tile.downItems at hdown
    cases hw : (s.mapTile u).tile.items with
    | none => exact ⟨n, rfl⟩
    | some w =>
      rw [hw] at hdown
      dsimp only
      split
      · exact ⟨_, TileStack.Tile.countTo_of_not_mem n hdown⟩
      · exact ⟨n, rfl⟩

theorem onMap_of_mem (h : x ∈ s.contents (.tile u)) : (s.tiles u).isSome = true := by
  cases hu : s.tiles u with
  | some v => rfl
  | none =>
    unfold State.contents State.mapTile at h
    dsimp only at h
    rw [hu] at h
    exact nomatch h

/-- A change of a tile by plain items alone. -/
theorem Kept.putTile (h : Kept cfg W L s) (hu : (s.tiles u).isSome = true) (hq : Quiet (s.tileState u) v N)
    (hN : ∀ x ∈ N, x < s.next ∧ Steady cfg s x) : Kept cfg W L (s.putTile u v) := by
  have hmem {x : Ref} {u' : Position} (hx : x ∈ (s.putTile u v).contents (.tile u')) :
      x ∈ s.contents (.tile u') ∨ x ∈ N := by
    by_cases hu' : u' = u
    · subst hu'
      rw [mem_contents_tile] at hx ⊢
      apply hq.mem
      unfold State.tileState listed TileItems.State.makeItemList at hx
      rw [mapTile_putTile_self] at hx
      exact hx
    · unfold State.contents at hx ⊢
      dsimp only at hx ⊢
      rw [mapTile_putTile_of_ne hu'] at hx
      exact .inl hx
  have hsame (x : Ref) : Steady cfg (s.putTile u v) x ↔ Steady cfg s x := Steady.congr (hq.cls x) (hq.id x)
  refine ⟨(layout_putTile hu hq.cls hq.floor hq.flag hq.last).trans h.layout, ?_, ?_⟩
  · intro u' x hx
    exact (hmem hx).elim (h.fresh u' x) fun hx => (hN x hx).1
  · intro u' hu' x hx
    rw [hsame]
    exact (hmem hx).elim (h.steady u' hu' x) fun hx => (hN x hx).2

/-- Only the tiles and the items matter. -/
theorem Kept.congr (h : Kept cfg W L s) (htiles : s'.tiles = s.tiles) (hitem : s'.item = s.item)
    (hnext : s'.next = s.next) : Kept cfg W L s' := by
  have hcontents (u : Position) : s'.contents (.tile u) = s.contents (.tile u) := by
    unfold State.contents State.mapTile
    rw [htiles]
  have hlayout : Teleport.layout s' = Teleport.layout s := by
    funext u
    unfold Teleport.layout State.findFromEnd State.mapTile
    rw [htiles, hitem]
  refine ⟨hlayout.trans h.layout, ?_, ?_⟩
  · intro u x hx
    rw [hcontents] at hx
    exact hnext ▸ h.fresh u x hx
  · intro u hu x hx
    rw [hcontents] at hx
    exact (Steady.congr (by rw [hitem]) (by rw [hitem])).2 (h.steady u hu x hx)

theorem Kept.of_bare (h : Kept cfg W L s) (hbare : s'.bare = s.bare) : Kept cfg W L s' :=
  h.congr (State.congr_bare (f := State.tiles) (fun _ => rfl) hbare)
    (State.congr_bare (f := State.item) (fun _ => rfl) hbare)
    (State.congr_bare (f := State.next) (fun _ => rfl) hbare)

theorem Kept.yields (h : Kept cfg W L s) (hu : W u) : Yields cfg.items (s.tileState u) :=
  fun x hx hroom => (h.steady u hu x (mem_contents_tile.2 hx)).1 (.inr hroom)

variable (cfg s x) in
/-- An item that is moved. -/
structure Movable : Prop where
  old : x < s.next
  moveable : (s.type cfg x).moveable = true
  steady : Steady cfg s x

theorem Movable.of_putTile (h : Movable cfg s x) (hq : Quiet (s.tileState u) v N) :
    Movable cfg (s.putTile u v) x := by
  have hcls : ((s.putTile u v).item x).cls = (s.item x).cls := hq.cls x
  have hid : ((s.putTile u v).item x).id = (s.item x).id := hq.id x
  refine ⟨h.old, ?_, (Steady.congr hcls hid).2 h.steady⟩
  unfold State.type
  rw [hid]
  exact h.moveable

theorem Kept.movable (h : Kept cfg W L s) (hu : W u) (hx : x ∈ s.contents (.tile u))
    (hmove : (s.type cfg x).moveable = true) : Movable cfg s x :=
  ⟨h.fresh u x hx, hmove, h.steady u hu x hx⟩

/-- An item that can be moved is taken from a tile. -/
theorem Kept.removeThing (h : Kept cfg W L s) (hx : Movable cfg s x) (u : Position) (count : ℕ) :
    Kept cfg W L (removeThing cfg s x count (.tile u)) ∧
    ∀ r, Movable cfg s r → Movable cfg (removeThing cfg s x count (.tile u)) r := by
  unfold Inventory.removeThing
  dsimp only
  split
  · exact ⟨h, fun _ hr => hr⟩
  next hidx =>
    have hplain : PlainOn cfg.items (s.tileState u) x := hx.steady.1 (.inl hx.moveable)
    have hquiet := removeThing_quiet cfg.items hplain (.ofNat count)
    exact ⟨h.putTile (onMap_of_mem (mem_of_getThingIndex hidx)) hquiet nofun, fun r hr => hr.of_putTile hquiet⟩

/-- An item that can be moved changes its count on a tile on the way. -/
theorem Kept.updateThing (h : Kept cfg W L s) (hu : W u) (hx : (s.type cfg x).moveable = true) (count : ℕ) :
    Kept cfg W L (updateThing cfg s x (s.item x).id count (.tile u)) ∧
    ∀ r, Movable cfg s r → Movable cfg (updateThing cfg s x (s.item x).id count (.tile u)) r := by
  unfold Inventory.updateThing
  dsimp only
  split
  · exact ⟨h, fun _ hr => hr⟩
  next hidx =>
    have hmem := mem_of_getThingIndex hidx
    have hplain : PlainOn cfg.items (s.tileState u) x := (h.steady u hu x hmem).1 (.inl hx)
    have hquiet := updateThing_quiet hplain (.ofNat count)
    exact ⟨h.putTile (onMap_of_mem hmem) hquiet nofun, fun r hr => hr.of_putTile hquiet⟩

/-- A copy is a new item, like the one it is of. -/
theorem clone_item (s : State) (r : Ref) (n : ℕ) (x : Ref) : (s.clone r n).item x =
    if x = s.next then (s.item r).setItemCount n else s.item x := by
  unfold State.clone State.item State.setThing
  dsimp only
  by_cases hx : x = s.next
  · subst hx
    rw [Function.update_self, if_pos rfl]
  · rw [Function.update_of_ne hx, if_neg hx]

theorem Kept.clone (h : Kept cfg W L s) (r : Ref) (n : ℕ) : Kept cfg W L (s.clone r n) := by
  have hitem {u : Position} {x : Ref} (hx : x ∈ s.contents (.tile u)) : (s.clone r n).item x = s.item x := by
    rw [clone_item, if_neg (h.fresh u x hx).ne]
  refine ⟨Eq.trans ?_ h.layout, fun u x hx => (h.fresh u x hx).trans (Nat.lt_succ_self _), ?_⟩
  · funext u
    refine layout_eq_iff.2 ⟨rfl, rfl, rfl, ?_⟩
    rw [findFromEnd_teleport, findFromEnd_teleport]
    apply List.find?_congr
    intro x hx
    have hx : x ∈ s.contents (.tile u) :=
      mem_contents_tile.2 (List.mem_append_right _ (List.mem_reverse.1 hx))
    have hsame : ((s.clone r n).tileState u).item x = (s.tileState u).item x := hitem hx
    rw [hsame]
  · intro u hu x hx
    have hx : x ∈ s.contents (.tile u) := hx
    exact (Steady.congr (by rw [hitem hx]) (by rw [hitem hx])).2 (h.steady u hu x hx)

theorem Movable.clone (h : Movable cfg s r) (n : ℕ) : Movable cfg (s.clone r n) s.next := by
  have hitem : (s.clone r n).item s.next = (s.item r).setItemCount n := by rw [clone_item, if_pos rfl]
  have hid : ((s.clone r n).item s.next).id = (s.item r).id := by rw [hitem]; rfl
  refine ⟨Nat.lt_succ_self _, ?_, (Steady.congr (by rw [hitem]; rfl) hid).2 h.steady⟩
  unfold State.type
  rw [hid]
  exact h.moveable

/-- A plain item is put on a tile on the way. -/
theorem Kept.addThing (h : Kept cfg W L s) (hu : W u) (hon : (s.tiles u).isSome = true)
    (hr : Movable cfg s r) {index : ℤ} (hs' : Inventory.addThing cfg s index r (.tile u) = some s') :
    Kept cfg W L s' := by
  obtain ⟨v, hv, rfl⟩ := Option.map_eq_some_iff.1 hs'
  have hplain : PlainOn cfg.items (s.tileState u) r := hr.steady.1 (.inl hr.moveable)
  refine h.putTile hon (addThing_quiet cfg.items hplain (hr.steady.2 hr.moveable) (h.yields hu) hv) ?_
  intro x hx
  obtain rfl := List.mem_singleton.1 hx
  exact ⟨hr.old, hr.steady⟩

/-- The rest of a stack, or the item itself, is put on a tile on the way. -/
theorem Kept.addRest (h : Kept cfg W L s) (hu : W u) (hon : (s.tiles u).isSome = true)
    (hr : Movable cfg s r) {index : ℤ} {n : ℕ} {moveItem : Option Ref}
    (hs' : addRest cfg s (.tile u) index r n = some (s', moveItem)) : Kept cfg W L s' := by
  unfold Inventory.addRest at hs'
  split at hs'
  · split at hs'
    · obtain ⟨s₁, hs₁, he⟩ := Option.map_eq_some_iff.1 hs'
      obtain ⟨rfl, -⟩ := Prod.mk.inj he
      exact (h.clone r n).addThing hu hon (hr.clone n) hs₁
    · obtain ⟨rfl, -⟩ := Prod.mk.inj (Option.some.inj hs')
      exact h
  · obtain ⟨s₁, hs₁, he⟩ := Option.map_eq_some_iff.1 hs'
    obtain ⟨rfl, -⟩ := Prod.mk.inj he
    exact h.addThing hu hon hr hs₁

end States

/-! ### A move between two tiles on the way -/

section Moves

variable {cfg : Config} {W : Position → Prop} {L : Position → Layout} {s s' : State} {t u : Position}
  {x item : Ref} {notify : ℕ → Notify}

/-- Whatever item a tile on the way is told of, the notification comes to an end. -/
def Rests (cfg : Config) (W : Position → Prop) (L : Position → Layout) (notify : ℕ → Notify) (u : Position) : Prop :=
  ∀ s x, Kept cfg W L s → x ∈ s.contents (.tile u) → Settles (fun n => notify n s (.item x) u) (Kept cfg W L)

theorem settles_notifyAdded (h : Kept cfg W L s) (hrest : Rests cfg W L notify u) (item : Option Ref) :
    Settles (fun n => notifyAdded cfg (notify n) s item u) (Kept cfg W L) := by
  unfold notifyAdded
  cases item with
  | none => exact .ok h
  | some x =>
    dsimp only
    split
    · exact .ok h
    next hidx => exact hrest s x h (mem_of_getThingIndex hidx)

theorem settles_transfer (h : Kept cfg W L s) (hu : W u) (hon : (s.tiles u).isSome = true)
    (hrest : Rests cfg W L notify u) (hitem : Movable cfg s item) (index : ℤ) (toItem : Option Ref) (m : ℕ) :
    Settles (fun n => transfer cfg (notify n) s t u index item toItem m) (Kept cfg W L) := by
  have honMap {s' : State} (hs' : Kept cfg W L s') : (s'.tiles u).isSome = true := by
    have hlayout : layout s' = layout s := hs'.layout.trans h.layout.symm
    exact (congrArg Layout.onMap (congrFun hlayout u)).trans hon
  unfold transfer
  dsimp only
  obtain ⟨h₁, hmove₁⟩ := h.removeThing hitem t m
  have hitem₁ := hmove₁ item hitem
  generalize removeThing cfg s item m (.tile t) = s₁ at h₁ hitem₁ ⊢
  generalize (if (s₁.type cfg item).stackable = true then mergeCount cfg s₁ item toItem m else 0) = k
  generalize hupdate : (if ((s₁.type cfg item).stackable && !(s₁.type cfg item).isRune &&
    s₁.equals item toItem) = true then toItem else none) = updateItem
  -- the rest is put on the tile, and the tile is told of what has changed on it
  have hrest₂ : ∀ s₂, Kept cfg W L s₂ → Movable cfg s₂ item → Settles (fun n => do
      let v ← orFault (addRest cfg s₂ (.tile u) index item (m - k))
      let s ← notifyAdded cfg (notify n)
        (notifyRemoved cfg v.1 (s.getThingIndex cfg.items item (.tile t)) (.tile t)) v.2 u
      notifyAdded cfg (notify n) s updateItem u) (Kept cfg W L) := by
    intro s₂ h₂ hitem₂
    cases hadd : addRest cfg s₂ (.tile u) index item (m - k) with
    | none => exact .fault
    | some v =>
      have h₃ : Kept cfg W L v.1 := h₂.addRest hu (honMap h₂) hitem₂ hadd
      have h₄ : Kept cfg W L (notifyRemoved cfg v.1 (s.getThingIndex cfg.items item (.tile t)) (.tile t)) :=
        h₃.of_bare (bare_notifyRemoved _)
      exact (settles_notifyAdded h₄ hrest v.2).bind fun s₅ h₅ => settles_notifyAdded h₅ hrest updateItem
  cases updateItem with
  | none => exact hrest₂ s₁ h₁ hitem₁
  | some x =>
    -- an item that is joined with the one that is moved has its type
    have hmoveable : (s₁.type cfg x).moveable = true := by
      split at hupdate
      · next hmerges =>
        rw [hupdate, Bool.and_eq_true] at hmerges
        have hid : (s₁.item item).id = (s₁.item x).id := (Item.equals_iff.1 hmerges.2).1
        have hmoveable := hitem₁.moveable
        unfold State.type at hmoveable ⊢
        rwa [hid] at hmoveable
      · exact nomatch hupdate
    obtain ⟨h₂, hmove₂⟩ := h₁.updateThing hu hmoveable ((s₁.item x).count + k)
    exact hrest₂ _ h₂ (hmove₂ item hitem₁)

theorem settles_moveChecked (h : Kept cfg W L s) (ht : W t) (hu : W u) (hon : (s.tiles u).isSome = true)
    (hrest : Rests cfg W L notify u) {flags : Flags} (hflags : flags.ignoreNotMoveable = false) (index : ℤ)
    (count : ℕ) (toItem : Option Ref) :
    Settles (fun n => moveChecked cfg (notify n) s t u index item count toItem flags)
      fun v => Kept cfg W L v.2 := by
  unfold moveChecked
  dsimp only
  split
  · exact .ok h
  split
  · exact .ok h
  next hremove =>
    obtain ⟨hidx, -, hmove⟩ := queryRemove_eq_noError.1 (not_not.1 hremove)
    rw [hflags] at hmove
    have hitem := h.movable ht (mem_of_getThingIndex hidx) (hmove.resolve_right Bool.false_ne_true)
    exact (settles_transfer h hu hon hrest hitem index toItem _).bind fun s' hs' => .ok hs'

/-- The first down item of the tile has become another one, and there are fewer. -/
def Shrunk (s s' : State) (u : Position) (x : Ref) : Prop :=
  s'.getTopDownItem u = some x ∨
    (s'.mapTile u).tile.downItems.length < (s.mapTile u).tile.downItems.length

/-- Taking the first down item away leaves it the first, or leaves fewer. -/
theorem removeThing_downItems {items : UInt16 → ItemType} {v : TileItems.State Ref CreatureId}
    (hx : v.tile.downItems.head? = some x) (count : UInt32) :
    (v.removeThing items (.item x) count).tile.downItems.head? = some x ∨
    (v.removeThing items (.item x) count).tile.downItems.length < v.tile.downItems.length := by
  unfold TileItems.State.removeThing
  dsimp only
  split
  · exact .inl hx
  split
  · exact .inl hx
  cases hv : v.tile.items with
  | none => exact .inl hx
  | some w =>
    have hdown : v.tile.downItems = w.downItems := by
      unfold TileStack.Tile.downItems
      rw [hv]
      rfl
    rw [hdown] at hx ⊢
    dsimp only
    split
    · split
      · exact .inl (hdown ▸ hx)
      · left
        show (List.take w.downItemCount (w.downItems ++ w.topItems.erase x)).head? = some x
        obtain ⟨l, hl⟩ := List.head?_eq_some_iff.1 hx
        have hcount : w.downItemCount ≠ 0 := by
          intro hzero
          unfold TileItemVector.downItems at hl
          rw [hzero, List.take_zero] at hl
          exact List.cons_ne_nil x l hl.symm
        obtain ⟨k, hk⟩ := Nat.exists_eq_succ_of_ne_zero hcount
        rw [hl, hk]
        rfl
    split
    · exact .inl (hdown ▸ hx)
    split
    · exact .inl (hdown ▸ hx)
    · right
      have hmem : x ∈ w.downItems := List.mem_of_mem_head? hx
      have hpos : 0 < w.downItems.length := List.length_pos_of_mem hmem
      have hdowns : w.downItems.length = min w.downItemCount w.items.length := List.length_take
      have htops : w.topItems.length = w.items.length - w.downItemCount := List.length_drop
      show (List.take (((w.downItemCount : ℤ) + (-1)) % 2 ^ 16).toNat
        (w.downItems.erase x ++ w.topItems)).length < w.downItems.length
      rw [List.length_take, List.length_append, List.length_erase_of_mem hmem]
      omega

/-- The item in the way is put on the tile of the teleport, which is told of it. -/
theorem settles_exchange (h : Kept cfg W L s) (ht : W t) (hu : W u) (hne : t ≠ u)
    (hon : (s.tiles t).isSome = true) (hx : s.getTopDownItem u = some x) (hmove : (s.type cfg x).moveable = true)
    (hagain : ∀ s', Kept cfg W L s' → x ∈ s'.contents (.tile t) → Shrunk s s' u x →
      Settles (fun n => notify n s' (.item x) t) (Kept cfg W L)) :
    Settles (fun n => exchange cfg (notify n) s t u x) (Kept cfg W L) := by
  have hmem : x ∈ s.contents (.tile u) := by
    rw [mem_contents_tile]
    exact mem_listed_of_downItems (v := s.tileState u) (List.mem_of_mem_head? hx)
  have hx₀ := h.movable hu hmem hmove
  obtain ⟨h₁, hmove₁⟩ := h.removeThing hx₀ u (s.item x).count
  have hx₁ := hmove₁ x hx₀
  have hshrunk : Shrunk s (removeThing cfg s x (s.item x).count (.tile u)) u x := by
    unfold Inventory.removeThing
    dsimp only
    split
    · exact .inl hx
    · unfold Shrunk State.getTopDownItem
      rw [mapTile_putTile_self]
      exact removeThing_downItems (v := s.tileState u) hx _
  unfold exchange
  dsimp only
  generalize removeThing cfg s x (s.item x).count (.tile u) = s₁ at h₁ hx₁ hshrunk ⊢
  have hon₁ : (s₁.tiles t).isSome = true :=
    (congrArg Layout.onMap (congrFun (h₁.layout.trans h.layout.symm) t)).trans hon
  cases hadd : addThingFront cfg s₁ x (.tile t) with
  | none => exact .fault
  | some s₂ =>
    have hadd : Inventory.addThing cfg s₁ 0 x (.tile t) = some s₂ := hadd
    have h₂ : Kept cfg W L s₂ := h₁.addThing ht hon₁ hx₁ hadd
    have hshrunk₂ : Shrunk s s₂ u x := by
      obtain ⟨v, -, rfl⟩ := Option.map_eq_some_iff.1 hadd
      unfold Shrunk State.getTopDownItem at hshrunk ⊢
      rwa [mapTile_putTile_of_ne hne.symm]
    have h₃ : Kept cfg W L (notifyRemoved cfg s₂ (s.getThingIndex cfg.items x (.tile u)) (.tile u)) :=
      h₂.of_bare (bare_notifyRemoved _)
    have hshrunk₃ : Shrunk s (notifyRemoved cfg s₂ (s.getThingIndex cfg.items x (.tile u)) (.tile u)) u x := by
      rwa [notifyRemoved_tile]
    show Settles (fun n => notifyAdded cfg (notify n) _ (some x) t) _
    unfold notifyAdded
    dsimp only
    split
    · exact .ok h₃
    next hidx => exact hagain _ h₃ (mem_of_getThingIndex hidx) hshrunk₃

theorem findDestination_flags : ∀ {n : ℕ} {d : Destination} {t : Position}, d.cylinder = .tile t →
    d.flags.ignoreNotMoveable = false → (findDestination cfg s item n d).flags.ignoreNotMoveable = false
  | 0, _, _, _, hd => hd
  | n + 1, d, t, hcyl, hd => by
    have hsub : (Inventory.Tile.queryDestination s t d.index d.flags).flags.ignoreNotMoveable = false := by
      unfold Inventory.Tile.queryDestination
      dsimp only
      split <;> exact hd
    unfold findDestination
    rw [hcyl]
    dsimp only [queryDestination]
    split
    · exact hsub
    · exact findDestination_flags (t := (floorExit s t).getD t) (queryDestination_tile d.index d.flags).1 rfl

/-- A move between two tiles comes to an end, where the notifications of the
second do, and those of the first after something was taken from the second. -/
theorem settles_internalMoveItem {dest : Position} (h : Kept cfg W L s) (hdest : descend s mapMaxLayers dest = u)
    (ht : W t) (hu : W u) (hne : t ≠ u) (hont : (s.tiles t).isSome = true) (honu : (s.tiles u).isSome = true)
    (hrest : Rests cfg W L notify u)
    (hagain : ∀ s' x, Kept cfg W L s' → x ∈ s'.contents (.tile t) → Shrunk s s' u x →
      Settles (fun n => notify n s' (.item x) t) (Kept cfg W L)) (count : UInt32) :
    Settles (fun n => internalMoveItem cfg (notify n) s t dest item count) fun v => Kept cfg W L v.2 := by
  obtain ⟨hland, hd, -, htop⟩ := landing_spec cfg s item dest
  have hflags : (landing cfg s item dest).2.flags.ignoreNotMoveable = false :=
    hd ▸ findDestination_flags (t := dest) rfl rfl
  have hmoves {s' : State} (hs' : Kept cfg W L s') (index : ℤ) (toItem : Option Ref) :
      Settles (fun n => moveChecked cfg (notify n) s' t u index item count.toNat toItem
        (landing cfg s item dest).2.flags) fun v => Kept cfg W L v.2 := by
    have hon' : (s'.tiles u).isSome = true :=
      (congrArg Layout.onMap (congrFun (hs'.layout.trans h.layout.symm) u)).trans honu
    exact settles_moveChecked hs' ht hu hon' hrest hflags index count.toNat toItem
  unfold internalMoveItem
  dsimp only
  rw [hland, hdest] at htop ⊢
  split
  · exact .ok h
  split
  · exact hmoves h _ _
  · split
    · exact .fault
    next x hx =>
      split
      · exact .ok h
      split
      · exact .ok h
      split
      · next hremove =>
        obtain ⟨-, -, hmove⟩ := queryRemove_eq_noError.1 hremove
        rw [hflags] at hmove
        refine (settles_exchange h ht hu hne hont (htop.symm.trans hx) (hmove.resolve_right Bool.false_ne_true)
          fun s' => hagain s' x).bind fun s₁ h₁ => ?_
        split
        · exact .ok h₁
        · exact hmoves h₁ _ _
      · exact hmoves h _ _
  · exact .ok h

end Moves

/-! ### Items come to rest -/

section Rest

variable {cfg : Config} {destPos : Ref → Position} {canRemove : Ref → Bool} {W : Position → Prop}
  {L : Position → Layout} {s s' : State} {t u : Position} {x d : Ref}

variable (cfg) in
/-- A letter that is sent goes from where it lies to a depot, or stays: the map
is what it was, and nothing comes to a tile or is changed there. -/
def SendsAway : Prop :=
  ∀ s mailbox item, Steady cfg s item →
    layout (cfg.deliver s mailbox item) = layout s ∧ s.next ≤ (cfg.deliver s mailbox item).next ∧
    ∀ u, ∀ x ∈ (cfg.deliver s mailbox item).contents (.tile u), x ∈ s.contents (.tile u) ∧
      ((cfg.deliver s mailbox item).item x).cls = (s.item x).cls ∧
      ((cfg.deliver s mailbox item).item x).id = (s.item x).id

theorem Kept.mail (h : Kept cfg W L s) (hsend : SendsAway cfg) (ht : W t) (hx : x ∈ s.contents (.tile t)) :
    Kept cfg W L (mail cfg s d (.item x)) := by
  unfold Teleport.mail
  dsimp only
  split
  · obtain ⟨hlayout, hnext, hmem⟩ := hsend s d x (h.steady t ht x hx)
    refine ⟨hlayout.trans h.layout, ?_, ?_⟩
    · intro u y hy
      exact (h.fresh u y (hmem u y hy).1).trans_le hnext
    · intro u hu y hy
      obtain ⟨hy, hcls, hid⟩ := hmem u y hy
      exact (Steady.congr hcls hid).2 (h.steady u hu y hy)
  · exact h

theorem Kept.detach (h : Kept cfg W L s) (x : Ref) (c : Cylinder) : Kept cfg W L (s.detach x c) := by
  refine h.congr ?_ (State.item_detach s x c) ?_
  all_goals
    unfold State.detach
    split
    · rfl
    · split <;> rfl
    · rfl

/-- An item that can be moved is removed from where it is. -/
theorem Kept.internalRemoveItem (h : Kept cfg W L s) (hx : Movable cfg s x) :
    Kept cfg W L (internalRemoveItem cfg canRemove s x (-1)).2 := by
  unfold Inventory.internalRemoveItem
  split
  · exact h
  next c hc =>
    dsimp only
    rw [if_pos rfl]
    by_cases hremove : queryRemove cfg s x (s.item x).count { ignoreNotMoveable := true } c = .noError
    · rw [if_neg (not_not_intro hremove)]
      split
      · exact h
      refine Kept.of_bare ?_ (bare_postNotification ..)
      have hidx := (queryRemove_eq_noError.1 hremove).1
      have hcarried (hc : State.Carries c) : Kept cfg W L (Inventory.removeThing cfg s x (s.item x).count c) :=
        (h.detach x c).of_bare (bare_removeThing_whole hc
          (not_not.1 fun hn => hidx ((State.getThingIndex_eq_neg_one hc).2 hn)) (.inr rfl))
      cases c with
      | tile u => exact (h.removeThing hx u _).1
      | device d => exact absurd rfl hidx
      | container q => exact hcarried trivial
      | player p => exact hcarried trivial
    · rw [if_pos hremove]
      exact h

theorem Kept.trash (h : Kept cfg W L s) (ht : W t) (hx : x ∈ s.contents (.tile t)) :
    Kept cfg W L (trash cfg canRemove s d t (.item x)) := by
  unfold Teleport.trash
  dsimp only
  split
  · exact h
  next hmove =>
    split
    · exact h
    have hmove : (s.type cfg x).moveable = true := by
      obtain ⟨-, hmove⟩ := not_or.1 hmove
      simp only [Bool.and_eq_false_iff, not_or, Bool.not_eq_false] at hmove
      exact hmove.1
    exact h.internalRemoveItem (h.movable ht hx hmove)

variable (destPos s t) in
/-- The tile that an item comes to that is put on the teleport of a tile. -/
def itemLeadsTo : Option Position := (leadsTo destPos s t).map (descend s mapMaxLayers)

theorem floorExit_congr (h : layout s' = layout s) : floorExit s' = floorExit s := by
  have hfloor (u : Position) : (s'.mapTile u).floorChange = (s.mapTile u).floorChange :=
    congrArg Layout.floorChange (congrFun h u)
  funext u
  unfold floorExit Inventory.Tile.fallTo Inventory.Tile.climbTo Inventory.Tile.floorChange
  simp only [hfloor, getTile_congr h]

theorem descend_congr (h : layout s' = layout s) (n : ℕ) : descend s' n = descend s n := by
  induction n with
  | zero => rfl
  | succ n ih =>
    funext u
    unfold descend
    rw [floorExit_congr h, ih]

theorem onMap_of_floorExit (h : floorExit s t = some u) : (s.tiles u).isSome = true := by
  unfold floorExit at h
  split at h
  · unfold Inventory.Tile.fallTo at h
    dsimp only at h
    split at h
    · exact onMap_of_getTile h
    split at h
    · exact onMap_of_getTile h
    · obtain ⟨downTile, -, hu⟩ := Option.bind_eq_some_iff.1 h
      exact onMap_of_getTile hu
  split at h
  · exact onMap_of_getTile h
  · exact nomatch h

theorem onMap_descend : ∀ (n : ℕ) {t : Position}, (s.tiles t).isSome = true →
    (s.tiles (descend s n t)).isSome = true
  | 0, _, h => h
  | n + 1, t, h => by
    unfold descend
    cases ht : floorExit s t with
    | none => exact h
    | some u =>
      dsimp only
      split
      · exact h
      · exact onMap_descend n (onMap_of_floorExit ht)

/-- An item that is the first where it would come to stays. -/
theorem internalMoveItem_of_top {notify : Notify} {dest : Position}
    (h : s.getTopDownItem (descend s mapMaxLayers dest) = some x) (count : UInt32) :
    internalMoveItem cfg notify s t dest x count = .ok (.noError, s) := by
  obtain ⟨hland, -, -, htop⟩ := landing_spec cfg s x dest
  unfold internalMoveItem
  dsimp only
  rw [if_pos (htop.trans (hland ▸ h))]

/-- Where the way of the items ends, an item on it comes to rest. -/
theorem settles_item (hsend : SendsAway cfg) (hclosed : ∀ t u, W t → itemLeadsTo destPos s t = some u → W u)
    (h : Acc (fun u t => itemLeadsTo destPos s t = some u) t) :
    W t → Rests cfg W (layout s) (postAddNotification cfg destPos canRemove) t := by
  induction h with
  | intro t hacc ih =>
    intro ht s' x hs' hx
    have hleads {s' : State} (hs' : Kept cfg W (layout s) s') : leadsTo destPos s' t = leadsTo destPos s t :=
      congrFun (leadsTo_congr hs'.layout) t
    cases hdest : leadsTo destPos s t with
    | none =>
      obtain ⟨s₁, hs₁, hcases⟩ := postAddNotification_of_none cfg canRemove ((hleads hs').trans hdest) (.item x)
      apply Settles.of_succ
      simp only [hs₁]
      apply Settles.ok
      rcases hcases with rfl | ⟨d, rfl | rfl⟩
      · exact hs'
      · exact hs'.trash ht hx
      · exact hs'.mail hsend ht hx
    | some dest =>
      have hu : itemLeadsTo destPos s t = some (descend s mapMaxLayers dest) := by
        unfold itemLeadsTo
        rw [hdest]
        rfl
      generalize huse : descend s mapMaxLayers dest = u at hu
      have hne : t ≠ u := by
        rintro rfl
        exact not_transGen_of_acc (r := fun t u => itemLeadsTo destPos s t = some u) ⟨t, hacc⟩ (.single hu)
      have hdescend {s' : State} (hs' : Kept cfg W (layout s) s') : descend s' mapMaxLayers dest = u :=
        (congrFun (descend_congr hs'.layout mapMaxLayers) dest).trans huse
      -- an exchange comes back to the tile with fewer items left in the way
      induction hk : (s'.mapTile u).tile.downItems.length using Nat.strong_induction_on generalizing s' x with
      | _ k ihk =>
        have hdest' := (hleads hs').trans hdest
        apply Settles.of_succ
        simp only [postAddNotification_of_leadsTo hdest']
        refine (settles_internalMoveItem hs' (hdescend hs') ht (hclosed t u ht hu) hne (onMap_of_leadsTo hdest')
          (hdescend hs' ▸ onMap_descend mapMaxLayers (onMap_of_leadsTo_right hdest')) (ih u hu (hclosed t u ht hu))
          ?_ _).bind fun v hv => .ok hv
        rintro s₂ y h₂ hy (htop | hless)
        · apply Settles.of_succ
          simp only [postAddNotification_of_leadsTo ((hleads h₂).trans hdest),
            internalMoveItem_of_top ((hdescend h₂).symm ▸ htop)]
          exact .ok h₂
        · exact ihk _ (hk ▸ hless) s₂ y h₂ hy rfl

variable (cfg destPos s t x) in
/-- The first move of the item is not made: the teleport of the tile leads
nowhere, the item is the first down item where it would come to, or one of the
tiles refuses it. -/
def Refused : Prop :=
  ∀ dest, leadsTo destPos s t = some dest →
    let count := (UInt32.ofNat (s.item x).count).toNat
    let (u, d) := landing cfg s x dest
    let answer := queryAdd cfg s d.index x count d.flags none (.tile u)
    d.destItem = some x ∨ answer ≠ .needExchange ∧
      (answer = .noError → ∀ m, queryRemove cfg s x m d.flags (.tile t) ≠ .noError)

theorem internalMoveItem_of_refused (notify : Notify) {dest : Position} (h : Refused cfg destPos s t x)
    (hdest : leadsTo destPos s t = some dest) :
    ∃ ret, internalMoveItem cfg notify s t dest x (.ofNat (s.item x).count) = .ok (ret, s) := by
  unfold internalMoveItem
  dsimp only
  rcases h dest hdest with htop | ⟨hexchange, hremove⟩
  · exact ⟨_, if_pos htop⟩
  split
  · exact ⟨_, rfl⟩
  split
  · next hadd =>
    unfold moveChecked
    dsimp only
    split
    · exact ⟨_, rfl⟩
    · exact ⟨_, if_pos (hremove hadd _)⟩
  · next hadd => exact absurd hadd hexchange
  · exact ⟨_, rfl⟩

/-- An item comes to rest if its first move is refused, or if its way does not
lead back and what can be moved or replaced on it does not change the way. -/
theorem item_ends (hsend : SendsAway cfg) (hfresh : ∀ u, ∀ x ∈ s.contents (.tile u), x < s.next)
    (hx : x ∈ s.contents (.tile t))
    (h : Refused cfg destPos s t x ∨
      Acyclic (fun t u => itemLeadsTo destPos s t = some u) t ∧
        ∀ u, Relation.ReflTransGen (fun t u => itemLeadsTo destPos s t = some u) t u →
          ∀ y ∈ s.contents (.tile u), Steady cfg s y) :
    Ends cfg destPos canRemove s (.item x) t := by
  rcases h with hrefused | ⟨hacyclic, hsteady⟩
  · refine ⟨1, ?_⟩
    cases hdest : leadsTo destPos s t with
    | none =>
      obtain ⟨s₁, hs₁, -⟩ := postAddNotification_of_none cfg canRemove hdest (.item x)
      rw [hs₁]
      nofun
    | some dest =>
      obtain ⟨ret, hret⟩ := internalMoveItem_of_refused (postAddNotification cfg destPos canRemove 0) hrefused hdest
      rw [postAddNotification_of_leadsTo hdest]
      dsimp only
      rw [hret]
      nofun
  · let W := Relation.ReflTransGen (fun t u => itemLeadsTo destPos s t = some u) t
    have hkept : Kept cfg W (layout s) s := ⟨rfl, hfresh, hsteady⟩
    have hrest : Rests cfg W (layout s) (postAddNotification cfg destPos canRemove) t :=
      settles_item hsend (fun _ _ ht hu => ht.tail hu) (acc_iff_acyclic.2 hacyclic) .refl
    exact (hrest s x hkept hx).ends

/-- A creature that is put on a tile comes to rest just where the way of the
teleports from there does not lead back. An item does if its first move is
refused, or if its way by teleports, stairs and holes does not lead back and
what can be moved or replaced on it does not change the way. -/
theorem teleporting_ends (cfg : Config) (destPos : Ref → Position) (canRemove : Ref → Bool)
    (hsend : SendsAway cfg) (s : State) (hfresh : ∀ u, ∀ x ∈ s.contents (.tile u), x < s.next) :
    (∀ c, Ends cfg destPos canRemove s (.creature c) (s.players c).tile ↔
      Acyclic (fun t u => leadsTo destPos s t = some u) (s.players c).tile) ∧
    ∀ t, ∀ x ∈ s.contents (.tile t),
      Refused cfg destPos s t x ∨
        Acyclic (fun t u => itemLeadsTo destPos s t = some u) t ∧
          (∀ u, Relation.ReflTransGen (fun t u => itemLeadsTo destPos s t = some u) t u →
            ∀ y ∈ s.contents (.tile u), Steady cfg s y) →
      Ends cfg destPos canRemove s (.item x) t :=
  ⟨fun _ => creature_ends_iff, fun _ _ hx h => item_ends hsend hfresh hx h⟩

end Rest

/-! ### Two teleports that lead to each other -/

section Row

def plainTypes (id : UInt16) : ItemType := { id, moveable := id = 2148 }

/-- The tiles of a row. -/
def rowTile (n : UInt16) : Position := ⟨100 + n, 100, 7⟩

/-- The teleports 0 and 1 lead to each other, the teleport 3 to a tile without one. -/
def rowDest (teleport : Ref) : Position :=
  if teleport = 0 then rowTile 1 else if teleport = 1 then rowTile 0 else rowTile 2

/-- Four tiles in a row, with the teleports 0, 1 and 3, and a coin in front of
the last. A creature stands on the first tile, another on the last. -/
def row : State where
  things r := { item := if r = 2 then ⟨.item, 2148, 1, none, (0, 0, 0), 0, 0, 0⟩
                        else ⟨.teleport, 1387, 1, none, (0, 0, 0), 0, 0, 0⟩ }
  players c := { tile := if c = 0 then rowTile 0 else rowTile 3 }
  tiles t :=
    if t = rowTile 0 then some { tile := { items := some ⟨[0], 1⟩ }, flag := fun f => f = .teleport }
    else if t = rowTile 1 then some { tile := { items := some ⟨[1], 1⟩ }, flag := fun f => f = .teleport }
    else if t = rowTile 2 then some {}
    else if t = rowTile 3 then some { tile := { items := some ⟨[2, 3], 2⟩ }, flag := fun f => f = .teleport }
    else none
  next := 4

theorem row_fresh : ∀ u, ∀ x ∈ row.contents (.tile u), x < row.next := by
  intro u
  unfold State.contents State.mapTile row
  dsimp only
  split_ifs <;> decide

theorem row_sendsAway : SendsAway { items := plainTypes } :=
  fun _ _ _ _ => ⟨rfl, le_rfl, fun _ _ hx => ⟨hx, rfl, rfl⟩⟩

theorem teleporting_ends_row :
    ¬ Ends { items := plainTypes } rowDest (fun _ => true) row (.creature 0) (rowTile 0) ∧
    Ends { items := plainTypes } rowDest (fun _ => true) row (.item 2) (rowTile 3) := by
  obtain ⟨hcreature, hitem⟩ :=
    teleporting_ends { items := plainTypes } rowDest (fun _ => true) row_sendsAway row row_fresh
  have hto : itemLeadsTo rowDest row (rowTile 3) = some (rowTile 2) := by decide
  have hend : itemLeadsTo rowDest row (rowTile 2) = none := by decide
  have h₀ : leadsTo rowDest row (rowTile 0) = some (rowTile 1) := by decide
  have h₁ : leadsTo rowDest row (rowTile 1) = some (rowTile 0) := by decide
  constructor
  · intro h
    exact (hcreature 0).1 h _ .refl (.tail (.single h₀) h₁)
  · refine hitem (rowTile 3) 2 (by decide) (.inr ⟨?_, ?_⟩)
    · apply acc_iff_acyclic.1
      refine ⟨_, fun u hu => ?_⟩
      obtain rfl := Option.some.inj (hto.symm.trans hu)
      exact ⟨_, fun u hu => nomatch hend.symm.trans hu⟩
    · intro u hu
      have hway : u = rowTile 3 ∨ u = rowTile 2 := by
        rcases Relation.ReflTransGen.cases_head_iff.1 hu with rfl | ⟨v, hv, hu⟩
        · exact .inl rfl
        obtain rfl := Option.some.inj (hto.symm.trans hv)
        rcases Relation.ReflTransGen.cases_head_iff.1 hu with rfl | ⟨v, hv, -⟩
        · exact .inr rfl
        · exact nomatch hend.symm.trans hv
      unfold Steady Plain
      rcases hway with rfl | rfl <;> decide

/-- The creature on the first tile is moved to and fro without end. -/
theorem creature_never_rests :
    ¬ Ends { items := plainTypes } rowDest (fun _ => true) row (.creature 0) (rowTile 0) := by
  intro h
  have h₀ : leadsTo rowDest row (rowTile 0) = some (rowTile 1) := by decide
  have h₁ : leadsTo rowDest row (rowTile 1) = some (rowTile 0) := by decide
  have hacyclic := (creature_ends_iff (c := 0) (s := row)).1 h
  exact hacyclic _ .refl (.tail (.single h₀) h₁)

end Row

end Teleport
end ForgottenServer
