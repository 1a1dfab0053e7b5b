/-
# Where items lie

Weights do not matter for where the items are: a state is looked at without
them (`State.bare`), and then a container or a player takes an item in at one
place (`State.attach`), gives it away (`State.detach`), or changes its count.

`State.Wf` says that the two directions of holding agree: an item lies once in
the cylinder that is its parent, and no container lies in itself.

Key definitions: `State.bare`, `State.detach`, `State.attach`, `State.Wf`.
Key theorems: `State.getThingIndex_eq_neg_one`, `bare_addThing`,
`bare_removeThing_whole`, `bare_removeThing_part`, `bare_updateThing`.
-/
import ForgottenServer.InventoryQuery

namespace ForgottenServer
namespace Inventory

open Spectators (Position)

/-! ### States without weights -/

namespace State

/-- The state without the weights. -/
def bare (s : State) : State :=
  { s with
    things := fun r => { s.things r with totalWeight := 0 }
    players := fun p => { s.players p with inventoryWeight := 0 } }

variable {s s' : State} {r q : Ref} {p : CreatureId} {c : Cylinder}

@[simp] theorem item_bare (s : State) : s.bare.item = s.item := rfl
@[simp] theorem parent_bare (s : State) : s.bare.parent = s.parent := rfl
@[simp] theorem next_bare (s : State) : s.bare.next = s.next := rfl
@[simp] theorem tiles_bare (s : State) : s.bare.tiles = s.tiles := rfl

theorem itemlist_bare (s : State) (q : Ref) : (s.bare.things q).itemlist = (s.things q).itemlist := rfl

theorem inventory_bare (s : State) (p : CreatureId) :
    (s.bare.players p).inventory = (s.players p).inventory := rfl

@[simp] theorem contents_bare (s : State) : s.bare.contents = s.contents := by
  funext c
  cases c <;> rfl

@[simp] theorem getThingIndex_bare (items : UInt16 → ItemType) (s : State) (r : Ref) (c : Cylinder) :
    s.bare.getThingIndex items r c = s.getThingIndex items r c := by
  cases c <;> rfl

/-- What is read off a state without its weights is the same in states that
differ in the weights. -/
theorem congr_bare {α : Type*} {f : State → α} (hf : ∀ s, f s.bare = f s) (h : s'.bare = s.bare) :
    f s' = f s := by
  rw [← hf s', h, hf s]

theorem bare_setThing (s : State) (r : Ref) (t : Thing) :
    (s.setThing r t).bare = s.bare.setThing r { t with totalWeight := 0 } := by
  unfold setThing bare
  congr
  funext x
  by_cases hx : x = r
  · subst hx
    simp
  · simp [Function.update_of_ne hx]

theorem bare_setPlayer (s : State) (p : CreatureId) (x : Player) :
    (s.setPlayer p x).bare = s.bare.setPlayer p { x with inventoryWeight := 0 } := by
  unfold setPlayer bare
  congr
  funext y
  by_cases hy : y = p
  · subst hy
    simp
  · simp [Function.update_of_ne hy]

theorem bare_setItem (s : State) (r : Ref) (it : Item) :
    (s.setItem r it).bare = s.bare.setItem r it := s.bare_setThing r _

theorem bare_setParent (s : State) (r : Ref) (c : Option Cylinder) :
    (s.setParent r c).bare = s.bare.setParent r c := s.bare_setThing r _

theorem bare_setItemlist (s : State) (q : Ref) (l : List Ref) :
    (s.setItemlist q l).bare = s.bare.setItemlist q l := s.bare_setThing q _

theorem setThing_things (s : State) (r : Ref) : s.setThing r (s.things r) = s := by
  unfold setThing
  rw [Function.update_eq_self]

theorem setPlayer_players (s : State) (p : CreatureId) : s.setPlayer p (s.players p) = s := by
  unfold setPlayer
  rw [Function.update_eq_self]

@[simp] theorem bare_updateItemWeightUp : ∀ (n : ℕ) (q : Ref) (diff : UInt32) (s : State),
    (updateItemWeightUp n q diff s).bare = s.bare
  | 0, _, _, _ => rfl
  | n + 1, q, diff, s => by
    have h : (s.setThing q
        { s.things q with totalWeight := (s.things q).totalWeight + diff }).bare = s.bare :=
      (s.bare_setThing q _).trans (s.bare.setThing_things q)
    rw [updateItemWeightUp]
    split
    · exact (bare_updateItemWeightUp n _ diff _).trans h
    · exact h

@[simp] theorem bare_updateItemWeight (s : State) (q : Ref) (diff : UInt32) :
    (s.updateItemWeight q diff).bare = s.bare :=
  bare_updateItemWeightUp _ _ _ s

theorem players_updateItemWeightUp : ∀ (n : ℕ) (q : Ref) (diff : UInt32) (s : State),
    (updateItemWeightUp n q diff s).players = s.players
  | 0, _, _, _ => rfl
  | n + 1, q, diff, s => by
    rw [updateItemWeightUp]
    split
    · exact players_updateItemWeightUp n _ diff _
    · rfl

theorem players_updateItemWeight (s : State) (q : Ref) (diff : UInt32) :
    (s.updateItemWeight q diff).players = s.players :=
  players_updateItemWeightUp _ _ _ s

@[simp] theorem bare_updateInventoryWeight (items : UInt16 → ItemType) (s : State) (p : CreatureId) :
    (s.updateInventoryWeight items p).bare = s.bare := by
  unfold updateInventoryWeight
  split
  · rfl
  · exact (s.bare_setPlayer p _).trans (s.bare.setPlayer_players p)

end State

@[simp] theorem bare_postNotification (items : UInt16 → ItemType) (s : State) :
    ∀ (n : ℕ) (link : Link) (c : Cylinder), (postNotification items s n link c).bare = s.bare
  | 0, _, _ => by
    unfold postNotification
    rfl
  | n + 1, link, .player p => by
    unfold postNotification
    split
    · exact s.bare_updateInventoryWeight items p
    · rfl
  | n + 1, _, .tile _ => rfl
  | n + 1, _, .device r => by
    unfold postNotification
    split
    · exact bare_postNotification items s n _ _
    · rfl
  | n + 1, _, .container q => by
    unfold postNotification
    split
    · split
      · exact bare_postNotification items s n _ _
      · rfl
    · split
      · exact s.bare_updateInventoryWeight items _
      · split
        · rfl
        · exact bare_postNotification items s n _ _
      · rfl

namespace State

variable {s s' : State} {r q x : Ref} {p : CreatureId} {c d : Cylinder}

/-! ### Members after a change -/

theorem things_setThing (s : State) (r x : Ref) (t : Thing) :
    (s.setThing r t).things x = if x = r then t else s.things x :=
  Function.update_apply ..

@[simp] theorem parent_setParent (s : State) (r x : Ref) (y : Option Cylinder) :
    (s.setParent r y).parent x = if x = r then y else s.parent x := by
  unfold parent setParent
  rw [things_setThing]
  split <;> rfl

@[simp] theorem item_setParent (s : State) (r : Ref) (y : Option Cylinder) :
    (s.setParent r y).item = s.item := by
  funext x
  unfold item setParent
  rw [things_setThing]
  split
  · next h => rw [h]
  · rfl

theorem itemlist_setParent (s : State) (r q : Ref) (y : Option Cylinder) :
    ((s.setParent r y).things q).itemlist = (s.things q).itemlist := by
  unfold setParent
  rw [things_setThing]
  split
  · next h => rw [h]
  · rfl

@[simp] theorem parent_setItemlist (s : State) (q : Ref) (l : List Ref) :
    (s.setItemlist q l).parent = s.parent := by
  funext x
  unfold parent setItemlist
  rw [things_setThing]
  split
  · next h => rw [h]
  · rfl

@[simp] theorem item_setItemlist (s : State) (q : Ref) (l : List Ref) :
    (s.setItemlist q l).item = s.item := by
  funext x
  unfold item setItemlist
  rw [things_setThing]
  split
  · next h => rw [h]
  · rfl

theorem itemlist_setItemlist (s : State) (q x : Ref) (l : List Ref) :
    ((s.setItemlist q l).things x).itemlist = if x = q then l else (s.things x).itemlist := by
  unfold setItemlist
  rw [things_setThing]
  split <;> rfl

@[simp] theorem item_setItem (s : State) (r x : Ref) (it : Item) :
    (s.setItem r it).item x = if x = r then it else s.item x := by
  unfold item setItem
  rw [things_setThing]
  split <;> rfl

theorem itemlist_setItem (s : State) (r q : Ref) (it : Item) :
    ((s.setItem r it).things q).itemlist = (s.things q).itemlist := by
  unfold setItem
  rw [things_setThing]
  split
  · next h => rw [h]
  · rfl

theorem parent_setItem (s : State) (r : Ref) (it : Item) : (s.setItem r it).parent = s.parent := by
  funext x
  unfold parent setItem
  rw [things_setThing]
  split
  · next h => rw [h]
  · rfl

theorem totalWeight_setItem (s : State) (y : Ref) (it : Item) :
    ((s.setItem r it).things y).totalWeight = (s.things y).totalWeight := by
  unfold setItem
  rw [things_setThing]
  split
  · next h => rw [h]
  · rfl

theorem totalWeight_setParent (s : State) (y : Ref) (c : Option Cylinder) :
    ((s.setParent r c).things y).totalWeight = (s.things y).totalWeight := by
  unfold setParent
  rw [things_setThing]
  split
  · next h => rw [h]
  · rfl

theorem totalWeight_setItemlist (s : State) (y : Ref) (l : List Ref) :
    ((s.setItemlist r l).things y).totalWeight = (s.things y).totalWeight := by
  unfold setItemlist
  rw [things_setThing]
  split
  · next h => rw [h]
  · rfl

theorem itemlist_clone (s : State) (r q : Ref) (n : ℕ) :
    ((s.clone r n).things q).itemlist = if q = s.next then [] else (s.things q).itemlist := by
  unfold clone
  dsimp only
  rw [things_setThing]
  split <;> rfl

@[simp] theorem item_clone (s : State) (r x : Ref) (n : ℕ) :
    (s.clone r n).item x = if x = s.next then (s.item r).setItemCount n else s.item x := by
  unfold item clone
  dsimp only
  rw [things_setThing]
  split <;> rfl

theorem inventory_setSlot (s : State) (p p' : CreatureId) (i j : ℕ) (x : Option Ref) :
    ((s.setSlot p i x).players p').inventory j =
      if p' = p ∧ j = i then x else (s.players p').inventory j := by
  unfold setSlot setPlayer
  dsimp only
  by_cases hp : p' = p
  · subst hp
    rw [Function.update_self]
    by_cases hj : j = i
    · subst hj
      simp
    · simp [hj]
  · rw [Function.update_of_ne hp, if_neg fun h => hp h.1]

/-! ### Where an item lies -/

variable {items : UInt16 → ItemType}

theorem mem_contents_player : r ∈ s.contents (.player p) ↔ ∃ i ∈ slots, (s.players p).inventory i = some r := by
  unfold contents
  rw [List.mem_filterMap]

theorem getThingIndex_container (h : r ∈ s.contents (.container q)) :
    s.getThingIndex items r (.container q) = (s.things q).itemlist.idxOf r :=
  if_pos h

variable (items) in
theorem getThingIndex_player (h : r ∈ s.contents (.player p)) :
    ∃ i ∈ slots, (s.players p).inventory i = some r ∧ s.getThingIndex items r (.player p) = i := by
  obtain ⟨j, hj, hr⟩ := mem_contents_player.1 h
  have hsome : (slots.find? fun i => (s.players p).inventory i = some r).isSome := by
    rw [List.find?_isSome]
    exact ⟨j, hj, by simpa using hr⟩
  obtain ⟨i, hi⟩ := Option.isSome_iff_exists.1 hsome
  refine ⟨i, List.mem_of_find?_eq_some hi, by simpa using List.find?_some hi, ?_⟩
  unfold getThingIndex
  dsimp only
  rw [hi]

/-- A container or a player. -/
def Carries : Cylinder → Prop
  | .container _ | .player _ => True
  | _ => False

theorem getThingIndex_eq_neg_one (hc : Carries c) : s.getThingIndex items r c = -1 ↔ r ∉ s.contents c := by
  constructor
  · intro h hr
    cases c with
    | container q =>
      rw [getThingIndex_container hr] at h
      omega
    | player p =>
      obtain ⟨i, -, -, hi⟩ := getThingIndex_player items hr
      omega
    | tile t => exact hc
    | device d => exact hc
  · intro h
    cases c with
    | container q => exact if_neg h
    | player p =>
      have hi : (slots.find? fun i => (s.players p).inventory i = some r) = none := by
        rw [List.find?_eq_none]
        exact fun i hi hr => h (mem_contents_player.2 ⟨i, hi, by simpa using hr⟩)
      unfold getThingIndex
      dsimp only
      rw [hi]
    | tile t => exact hc.elim
    | device d => rfl

/-! ### Taking out and putting in, without weights -/

/-- The item is taken out of a container or a slot. -/
def detach (s : State) (r : Ref) : Cylinder → State
  | .container q => (s.setParent r none).setItemlist q ((s.things q).itemlist.erase r)
  | .player p =>
    match slots.find? fun i => (s.players p).inventory i = some r with
    | some i => (s.setParent r none).setSlot p i none
    | none => s
  | _ => s

/-- The item is put in front of a container, or into a slot. -/
def attach (s : State) (index : ℤ) (r : Ref) : Cylinder → State
  | .container q => (s.setParent r (some (.container q))).setItemlist q (r :: (s.things q).itemlist)
  | .player p => (s.setParent r (some (.player p))).setSlot p index.toNat (some r)
  | _ => s

/-- The index is one that the cylinder puts an item at. -/
def Accepts (s : State) (index : ℤ) : Cylinder → Prop
  | .container q => index < (s.things q).maxSize.toNat
  | .player _ => 1 ≤ index ∧ index ≤ 10
  | _ => False

theorem item_attach (s : State) (index : ℤ) (r : Ref) (c : Cylinder) : (s.attach index r c).item = s.item := by
  cases c with
  | container q => simp [attach]
  | player p => exact s.item_setParent r _
  | tile t => rfl
  | device d => rfl

theorem item_detach (s : State) (r : Ref) (c : Cylinder) : (s.detach r c).item = s.item := by
  unfold detach
  split
  · simp
  · split
    · exact s.item_setParent r none
    · rfl
  · rfl

theorem next_detach (s : State) (r : Ref) (c : Cylinder) : (s.detach r c).next = s.next := by
  unfold detach
  split
  · rfl
  · split <;> rfl
  · rfl

end State

section Operations

variable {cfg : Config} {s : State} {r x : Ref} {c : Cylinder} {count : ℕ} {index : ℤ}

open State

theorem addThing_of_accepts (h : s.Accepts index c) :
    ∃ s', addThing cfg s index r c = some s' ∧ s'.bare = (s.attach index r c).bare := by
  cases c with
  | container q =>
    refine ⟨_, if_neg (not_le.2 h), ?_⟩
    rw [bare_updateItemWeight, itemlist_setParent]
    rfl
  | player p =>
    have hidx : ¬ (index < 1 ∨ 10 < index) := by
      unfold Accepts at h
      omega
    exact ⟨_, if_neg hidx, rfl⟩
  | tile t => exact h.elim
  | device d => exact h.elim

theorem addThing_of_not_accepts (hc : Carries c) (h : ¬ s.Accepts index c) :
    addThing cfg s index r c = some s := by
  cases c with
  | container q => exact if_pos (not_lt.1 h)
  | player p =>
    have hidx : index < 1 ∨ 10 < index := by
      unfold Accepts at h
      omega
    exact if_pos hidx
  | tile t => exact hc.elim
  | device d => exact hc.elim

theorem bare_removeThing_whole (hc : Carries c) (hr : r ∈ s.contents c)
    (hw : (cfg.items (s.item r).id).stackable = false ∨ count = (s.item r).count) :
    (removeThing cfg s r count c).bare = (s.detach r c).bare := by
  have hidx : s.getThingIndex cfg.items r c ≠ -1 := fun e => (getThingIndex_eq_neg_one hc).1 e hr
  have hwhole : (!(cfg.items (s.item r).id).stackable || decide (count = (s.item r).count)) = true := by
    simpa using hw
  unfold removeThing
  dsimp only
  rw [if_neg hidx]
  cases c with
  | container q =>
    dsimp only
    have hlist : ((s.updateItemWeight q (-s.getWeight cfg.items r)).things q).itemlist =
        (s.things q).itemlist :=
      congr_bare (f := fun s => (s.things q).itemlist) (fun _ => rfl) (bare_updateItemWeight s q _)
    rw [if_pos hwhole, bare_setItemlist, bare_setParent, bare_updateItemWeight, hlist,
      getThingIndex_container hr, Int.toNat_natCast, List.eraseIdx_idxOf_eq_erase, ← bare_setParent,
      ← bare_setItemlist]
    rfl
  | player p =>
    dsimp only
    rw [if_pos hwhole]
    unfold getThingIndex at hidx ⊢
    unfold State.detach
    dsimp only at hidx ⊢
    cases hi : slots.find? fun i => (s.players p).inventory i = some r with
    | some i => rfl
    | none =>
      rw [hi] at hidx
      exact absurd rfl hidx
  | tile t => exact hc.elim
  | device d => exact hc.elim

theorem bare_removeThing_part (hc : Carries c) (hr : r ∈ s.contents c)
    (hs : (cfg.items (s.item r).id).stackable = true) (hne : count ≠ (s.item r).count) :
    (removeThing cfg s r count c).bare =
      (s.setItem r ((s.item r).setItemCount
        (uint 1 (max 0 (int32 (((s.item r).count : ℤ) - count)))))).bare := by
  have hidx : s.getThingIndex cfg.items r c ≠ -1 := fun e => (getThingIndex_eq_neg_one hc).1 e hr
  have hwhole : ¬ (!(cfg.items (s.item r).id).stackable || decide (count = (s.item r).count)) = true := by
    simp [hs, hne]
  unfold removeThing
  dsimp only
  rw [if_neg hidx]
  cases c with
  | container q =>
    dsimp only
    rw [if_neg hwhole, bare_updateItemWeight]
  | player p =>
    dsimp only
    rw [if_neg hwhole]
  | tile t => exact hc.elim
  | device d => exact hc.elim

theorem bare_updateThing {itemId : UInt16} (hc : Carries c) (hr : r ∈ s.contents c) :
    (updateThing cfg s r itemId count c).bare =
      (s.setItem r (((s.item r).setID cfg.items itemId).setSubType cfg.items (count % 2 ^ 16))).bare := by
  have hidx : s.getThingIndex cfg.items r c ≠ -1 := fun e => (getThingIndex_eq_neg_one hc).1 e hr
  unfold updateThing
  rw [if_neg hidx]
  cases c with
  | container q =>
    dsimp only
    rw [bare_updateItemWeight]
  | player p => rfl
  | tile t => exact hc.elim
  | device d => exact hc.elim

theorem updateThing_of_not_mem {itemId : UInt16} (hc : Carries c) (hr : r ∉ s.contents c) :
    updateThing cfg s r itemId count c = s :=
  if_pos ((getThingIndex_eq_neg_one hc).2 hr)

end Operations

end Inventory
end ForgottenServer
