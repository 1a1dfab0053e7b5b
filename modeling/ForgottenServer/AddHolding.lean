/-
# Adding an item to what a player has

Where `Player::queryDestination` leads when an item may go anywhere: to a stack
in a slot or in a container that is carried, to a free slot, or into a container
that is carried. A tile puts it on the stack on its top, or there as it is.

When the item, or every piece that it is split into, finds a place so, the
player has the more by just its count, and all else is as it was.

Key definitions: `Spot`, `Places`, `Enriched`, `Counts`.
Key theorems: `Player.spot_of_queryDestination`, `internalAddItem_of_places`,
`Places.enriched`.
-/
import ForgottenServer.AddItem
import ForgottenServer.Holdings

namespace ForgottenServer
namespace Inventory

open Ancestry Nesting Relation State
open Spectators (Position)

section Spots

variable {cfg : Config} {s : State} {p : CreatureId} {q r x : Ref} {flags : Flags}

/-- What is left to look through: containers that are carried. -/
def Open (s : State) (p : CreatureId) (containers : List Ref) : Prop :=
  ∀ q ∈ containers, q ∈ s.carried p ∧ s.isContainer q = true

/-- A stack that an item can be put on. -/
structure Stack (s : State) (r x : Ref) : Prop where
  equals : (s.item x).equals (s.item r) = true
  count : (s.item x).count < 100

/-- The places that a player has for an item. -/
inductive Spot (cfg : Config) (s : State) (p : CreatureId) (r : Ref) : Destination → Prop
  | stack {i : ℕ} {x : Ref} {flags : Flags} (hx : x ∈ s.contents (.player p)) (hslot : s.getInventoryItem p i = some x)
      (hstack : Stack s r x) (hadd : Player.queryAdd cfg s p i r (s.item r).count {} = .noError) :
      Spot cfg s p r ⟨.player p, i, some x, flags⟩
  | slot {i : ℕ} {flags : Flags} (hi : i ∈ slots) (hfree : (s.players p).inventory i = none) :
      Spot cfg s p r ⟨.player p, i, none, flags⟩
  | stackIn {q x : Ref} {n : ℕ} {flags : Flags} (hq : q ∈ s.carried p) (hcont : s.isContainer q = true)
      (hx : x ∈ s.contents (.container q)) (hstack : Stack s r x) : Spot cfg s p r ⟨.container q, n, some x, flags⟩
  | within {q : Ref} {index : ℤ} {flags : Flags} (hq : q ∈ s.carried p) (hcont : s.isContainer q = true) :
      Spot cfg s p r ⟨.container q, index, none, flags⟩
  | nowhere {flags : Flags} : Spot cfg s p r ⟨.player p, indexWhereever, none, flags⟩

theorem Spot.carries {d : Destination} (h : Spot cfg s p r d) : Carries d.cylinder := by
  cases h <;> trivial

theorem Open.append (h : Open s p l) (hx : x ∈ s.carried p) :
    Open s p (if s.isContainer x then l ++ [x] else l) := by
  split
  · next hcont =>
    intro q hq
    rcases List.mem_append.1 hq with hq | hq
    · exact h q hq
    · obtain rfl := List.mem_singleton.1 hq
      exact ⟨hx, hcont⟩
  · exact h

theorem Owned.mem_of_slot (h : Owned s p) (hx : x ∈ s.contents (.player p)) : x ∈ s.carried p :=
  h.mem_carried.2 ⟨x, hx, .refl⟩

theorem Owned.mem_of_list (h : Owned s p) (hq : q ∈ s.carried p) (hx : x ∈ s.contents (.container q)) :
    x ∈ s.carried p := by
  obtain ⟨a, ha, hup⟩ := h.mem_carried.1 hq
  exact h.mem_carried.2 ⟨a, ha, hup.head ((h.forest.mem_iff_holder q x).1 hx)⟩

variable (cfg r flags) in
theorem Player.spot_of_findSlot (h : Owned s p) : ∀ {l containers : List Ref}, l ⊆ slots → Open s p containers →
    Sum.elim (Spot cfg s p r) (Open s p) (findSlot cfg s p r flags l containers)
  | [], _, _, hopen => hopen
  | i :: l, containers, hl, hopen => by
    have hi : i ∈ slots := hl List.mem_cons_self
    have hl' : l ⊆ slots := fun j hj => hl (List.mem_cons_of_mem i hj)
    have hrange := mem_slots.1 hi
    unfold findSlot
    cases hslot : (s.players p).inventory i with
    | none =>
      dsimp only
      by_cases hadd : queryAdd cfg s p i r (s.item r).count flags = .noError
      · rw [if_pos hadd]
        exact .slot hi hslot
      · rw [if_neg hadd]
        exact spot_of_findSlot h hl' hopen
    | some x =>
      have hmem : x ∈ s.contents (.player p) := mem_contents_player.2 ⟨i, hi, hslot⟩
      have hget : s.getInventoryItem p i = some x := by
        unfold State.getInventoryItem
        rw [if_pos (by omega), Int.toNat_natCast, hslot]
      dsimp only
      split
      · exact spot_of_findSlot h hl' hopen
      split
      · next hstack =>
        simp only [Bool.and_eq_true, decide_eq_true_eq] at hstack
        exact .stack hmem hget ⟨hstack.1.2, hstack.2⟩ hstack.1.1.2
      · exact spot_of_findSlot h hl' (hopen.append (h.mem_of_slot hmem))

variable (r) in
theorem Player.spot_of_findStackIn (h : Owned s p) (hq : q ∈ s.carried p) :
    ∀ {l : List Ref} {n : ℕ} {containers : List Ref}, l ⊆ s.contents (.container q) → Open s p containers →
      Sum.elim (fun found => found.2 ∈ s.contents (.container q) ∧ Stack s r found.2) (fun rest => Open s p rest.2)
        (findStackIn s p r l n containers)
  | [], _, _, _, hopen => hopen
  | x :: l, n, containers, hl, hopen => by
    have hx : x ∈ s.contents (.container q) := hl List.mem_cons_self
    have hl' : l ⊆ s.contents (.container q) := fun y hy => hl (List.mem_cons_of_mem x hy)
    unfold findStackIn
    split
    · exact spot_of_findStackIn h hq hl' hopen
    split
    · next hstack => exact ⟨hx, hstack.1, hstack.2⟩
    · exact spot_of_findStackIn h hq hl' (hopen.append (h.mem_of_list hq hx))

theorem Player.spot_of_findContainer (h : Owned s p) : ∀ {k : ℕ} {containers : List Ref} {d : Destination},
    Open s p containers → findContainer cfg s p r flags k containers = some d → Spot cfg s p r d
  | 0, _, _, _, hd => nomatch hd
  | _ + 1, [], _, _, hd => nomatch hd
  | k + 1, q :: containers, d, hopen, hd => by
    obtain ⟨hq, hcont⟩ := hopen q List.mem_cons_self
    have hrest : Open s p containers := fun y hy => hopen y (List.mem_cons_of_mem q hy)
    have happend {sub : List Ref} (hsub : Open s p sub) : Open s p (containers ++ sub) := by
      intro y hy
      exact (List.mem_append.1 hy).elim (hrest y) (hsub y)
    unfold findContainer at hd
    split at hd
    · dsimp only at hd
      split at hd
      · exact Option.some.inj hd ▸ .within hq hcont
      · refine spot_of_findContainer h (happend fun y hy => ?_) hd
        obtain ⟨hy, hcont⟩ := List.mem_filter.1 hy
        exact ⟨h.mem_of_list hq hy, hcont⟩
    · have hnil : Open s p [] := fun _ hy => nomatch hy
      have hstack := spot_of_findStackIn r h hq (l := (s.things q).itemlist) (n := 0) (fun _ hy => hy) hnil
      split at hd
      · next n x he =>
        rw [he] at hstack
        exact Option.some.inj hd ▸ .stackIn hq hcont hstack.1 hstack.2
      · next n sub he =>
        rw [he] at hstack
        split at hd
        · exact Option.some.inj hd ▸ .within hq hcont
        · exact spot_of_findContainer h (happend hstack) hd

theorem Player.spot_of_queryDestination (h : Owned s p) :
    Spot cfg s p r (Player.queryDestination cfg s p indexWhereever r none flags) := by
  have hnil : Open s p [] := fun _ hq => nomatch hq
  have hslots := spot_of_findSlot cfg r flags h (List.Subset.refl slots) hnil
  unfold Player.queryDestination
  dsimp only
  rw [if_pos (.inr rfl)]
  split
  · next d he =>
    rw [he] at hslots
    exact hslots
  · next containers he =>
    rw [he] at hslots
    cases hd : findContainer cfg s p r flags (s.next + 1) containers with
    | none => exact .nowhere
    | some d => exact spot_of_findContainer h hslots hd

end Spots

/-! ### Where the pieces find their places -/

section Placed

variable (cfg : Config)

/-- What is put on a tile stays there: a teleport, trash holder or mailbox on it
leaves it as it is. -/
def KeepsIt (s : State) (r : Ref) : Cylinder → Prop
  | .tile t => ∀ device, s.tileDevice t = some device → cfg.deliver s device r = s
  | _ => True

/-- The item is taken, and by a tile itself, not by one that things fall to. -/
structure TakesHere (s : State) (toCylinder : Cylinder) (item : Ref) (index : ℤ) (flags : Flags) (d : Destination) :
    Prop extends Takes cfg s toCylinder item index flags d where
  here : ∀ t, toCylinder = .tile t → d.cylinder = .tile t

/-- The item, or the pieces it is split into, find places one after the other. -/
inductive Places (toCylinder : Cylinder) : State → Ref → ℤ → Flags → State → Prop
  | placed {s item index flags d s'} (h : TakesHere cfg s toCylinder item index flags d)
      (hmerges : mergesWith cfg s item d.destItem = none) (hadd : addThing cfg s d.index item d.cylinder = some s')
      (hthere : s'.parent item = some d.cylinder) (hkeeps : KeepsIt cfg s' item d.cylinder) :
      Places toCylinder s item index flags (notifyAdded cfg s' (some item) d.cylinder)
  | merged {s item index flags d x m n} (h : TakesHere cfg s toCylinder item index flags d)
      (hmerges : mergesWith cfg s item d.destItem = some x) (hm : m = takenCount cfg s toCylinder item d.flags)
      (hn : n = mergedCount s x m) (hle : m ≤ n) (hkeeps : KeepsIt cfg (merge cfg s d x n) x d.cylinder) :
      Places toCylinder s item index flags (notifyAdded cfg (merge cfg s d x n) (some x) d.cylinder)
  | beside {s item index flags d x m n s'} (h : TakesHere cfg s toCylinder item index flags d)
      (hmerges : mergesWith cfg s item d.destItem = some x) (hm : m = takenCount cfg s toCylinder item d.flags)
      (hn : n = mergedCount s x m) (hlt : n < m) (hcount : (s.item item).count = m - n)
      (hadd : addThing cfg (merge cfg s d x n) d.index item d.cylinder = some s')
      (hthere : s'.parent item = some d.cylinder) (hkeeps : KeepsIt cfg s' item d.cylinder) :
      Places toCylinder s item index flags (notifyAdded cfg s' (some item) d.cylinder)
  | again {s item index flags d x m n s'} (h : TakesHere cfg s toCylinder item index flags d)
      (hmerges : mergesWith cfg s item d.destItem = some x) (hm : m = takenCount cfg s toCylinder item d.flags)
      (hn : n = mergedCount s x m) (hlt : n < m) (hcount : (s.item item).count ≠ m - n)
      (hrest : Places toCylinder ((merge cfg s d x n).clone item (m - n)) (merge cfg s d x n).next indexWhereever
        d.flags s') :
      Places toCylinder s item index flags s'

variable {cfg} {s s' : State} {toCylinder : Cylinder} {item x : Ref} {index : ℤ} {flags : Flags} {d : Destination}
  {m n : ℕ}

/-- `internalAddItem` once the item is taken. -/
theorem internalAddItem_of_takes (h : Takes cfg s toCylinder item index flags d) :
    internalAddItem cfg s toCylinder item index flags =
      match mergesWith cfg s item d.destItem with
      | none => (place cfg s d item).map fun s => (.noError, 0, s)
      | some x =>
        let m := takenCount cfg s toCylinder item d.flags
        let n := mergedCount s x m
        let itemCount := (s.item item).count
        let s := merge cfg s d x n
        if 0 < m - n then
          if itemCount ≠ m - n then
            (internalAddItem cfg (s.clone item (m - n)) toCylinder s.next indexWhereever d.flags).map fun (ret, _, s) =>
              (.noError, if ret ≠ .noError then m - n else 0, s)
          else (place cfg s d item).map fun s => (.noError, 0, s)
        else some (.noError, 0, notifyAdded cfg s (some x) d.cylinder) := by
  have hasked := h.asked
  have hroom := h.room
  have hd := h.destination
  rw [internalAddItem]
  dsimp only
  rw [hd, if_neg (not_not_intro hasked), if_neg (not_not_intro hroom)]
  cases mergesWith cfg s item d.destItem with
  | none => rfl
  | some x => simp only [dite_eq_ite]

/-- What finds its places is added. -/
theorem internalAddItem_of_places (h : Places cfg toCylinder s item index flags s') :
    internalAddItem cfg s toCylinder item index flags = some (.noError, 0, s') := by
  induction h with
  | placed h hmerges hadd _ _ =>
    rw [internalAddItem_of_takes h.toTakes, hmerges]
    unfold place
    dsimp only
    rw [hadd]
    rfl
  | merged h hmerges hm hn hle _ =>
    rw [internalAddItem_of_takes h.toTakes, hmerges]
    dsimp only
    rw [← hm, ← hn, if_neg (by omega)]
  | beside h hmerges hm hn hlt hcount hadd _ _ =>
    rw [internalAddItem_of_takes h.toTakes, hmerges]
    dsimp only
    rw [← hm, ← hn, if_pos (by omega), if_neg (not_not_intro hcount)]
    unfold place
    rw [hadd]
    rfl
  | again h hmerges hm hn hlt hcount _ ih =>
    rw [internalAddItem_of_takes h.toTakes, hmerges]
    dsimp only
    rw [← hm, ← hn, if_pos (by omega), if_pos hcount, ih]
    rfl

end Placed

/-! ### What has become more -/

/-- A measure of all that is carried or lies on the tile. -/
noncomputable def State.total (μ : Item → ℕ) (s : State) (p : CreatureId) (t : Position) : ℕ :=
  ∑ x ∈ s.holdings p t, μ (s.item x)

/-- The items of some types are stacks of at most 100, and no containers. -/
def Small (K : UInt16 → Prop) (s : State) (p : CreatureId) (t : Position) : Prop :=
  ∀ x ∈ s.holdings p t, K (s.item x).id → (s.item x).count ≤ 100 ∧ (s.item x).isContainer = false

theorem State.isContainer_eq (s : State) (x : Ref) : s.isContainer x = (s.item x).isContainer := by
  unfold State.isContainer Item.isContainer
  exact Bool.decide_or _ _

/-- Nothing has become less, and the measure is so much more. -/
structure Enriched (K : UInt16 → Prop) (μ : Item → ℕ) (s s' : State) (p : CreatureId) (t : Position) (a : ℕ) :
    Prop where
  holding : Holding s' p t
  carried : s.carried p ⊆ s'.carried p
  holdings : s.holdings p t ⊆ s'.holdings p t
  kept : ∀ x ∈ s.holdings p t, (s'.item x).id = (s.item x).id ∧ (s'.item x).cls = (s.item x).cls ∧
    (s.item x).count ≤ (s'.item x).count
  small : Small K s' p t
  total : s'.total μ p t = s.total μ p t + a
  stands : (s'.players p).tile = (s.players p).tile

/-- A measure that counts the pieces of stacks of a kind, each as `w`. -/
structure Counts (items : UInt16 → ItemType) (μ : Item → ℕ) (like : Item) (w : ℕ) : Prop where
  piece : ∀ n, n ≤ 100 → μ (like.setItemCount n) = w * n
  merged : ∀ it n, it.equals like = true → it.isContainer = false → it.count + n ≤ 100 →
    μ (updated items it it.id (it.count + n)) = μ it + w * n ∧
      (updated items it it.id (it.count + n)).id = it.id ∧
      (updated items it it.id (it.count + n)).count = it.count + n

section Enriched

variable {K : UInt16 → Prop} {μ : Item → ℕ} {s s₁ s' : State} {p : CreatureId} {t : Position} {r x : Ref} {it : Item}
  {a b : ℕ}

theorem Enriched.trans (h : Enriched K μ s s₁ p t a) (h' : Enriched K μ s₁ s' p t b) :
    Enriched K μ s s' p t (a + b) where
  holding := h'.holding
  carried := h.carried.trans h'.carried
  holdings := h.holdings.trans h'.holdings
  kept x hx := by
    obtain ⟨hid, hcls, hcount⟩ := h.kept x hx
    obtain ⟨hid', hcls', hcount'⟩ := h'.kept x (h.holdings hx)
    exact ⟨hid'.trans hid, hcls'.trans hcls, hcount.trans hcount'⟩
  small := h'.small
  total := by rw [h'.total, h.total, Nat.add_assoc]
  stands := h'.stands.trans h.stands

theorem Enriched.of_bare (h : Enriched K μ s s₁ p t a) (hbare : s'.bare = s₁.bare) : Enriched K μ s s' p t a := by
  have hholdings : s'.holdings p t = s₁.holdings p t := Holding.holdings_of_bare hbare
  have hitem : s'.item = s₁.item := congr_bare (f := State.item) item_bare hbare
  refine ⟨h.holding.of_bare hbare, ?_, ?_, fun x hx => ?_, ?_, ?_, (stands_of_bare hbare).trans h.stands⟩
  · rw [Holding.carried_of_bare hbare]
    exact h.carried
  · rw [hholdings]
    exact h.holdings
  · rw [hitem]
    exact h.kept x hx
  · unfold Small
    rw [hholdings, hitem]
    exact h.small
  · unfold State.total
    rw [hholdings, hitem]
    exact h.total

/-- A new object is not counted. -/
theorem Holding.enriched_create (h : Holding s p t) (hsmall : Small K s p t) (it : Item) (n : UInt16) :
    Enriched K μ s (s.create it n) p t 0 := by
  obtain ⟨hholding, hholdings, hcarried⟩ := h.create it n
  have hitem {x : Ref} (hx : x ∈ s.holdings p t) : (s.create it n).item x = s.item x := by
    rw [item_create, Function.update_of_ne (h.lt_of_mem hx).ne]
  refine ⟨hholding, hcarried.ge, hholdings.ge, fun x hx => ?_, fun x hx => ?_, ?_, rfl⟩
  · rw [hitem hx]
    exact ⟨rfl, rfl, le_rfl⟩
  · rw [hholdings] at hx
    rw [hitem hx]
    exact hsmall x hx
  · unfold State.total
    rw [hholdings, Nat.add_zero]
    exact Finset.sum_congr rfl fun x hx => by rw [hitem hx]

theorem Gained.enriched (h : Gained s s' p t r) (hr : r ∉ s.holdings p t) (hsmall : Small K s p t)
    (hcount : (s.item r).count ≤ 100) (hleaf : s.isContainer r = false) : Enriched K μ s s' p t (μ (s.item r)) := by
  refine ⟨h.holding, h.carried, ?_, fun x _ => ?_, fun x hx => ?_, ?_, h.stands⟩
  · rw [h.holdings]
    exact Finset.subset_insert ..
  · rw [h.item]
    exact ⟨rfl, rfl, le_rfl⟩
  · rw [h.item]
    rw [h.holdings] at hx
    rcases Finset.mem_insert.1 hx with rfl | hx
    · exact fun _ => ⟨hcount, s.isContainer_eq x ▸ hleaf⟩
    · exact hsmall x hx
  · unfold State.total
    rw [h.holdings, h.item, Finset.sum_insert hr, Nat.add_comm]

theorem Changed.small (h : Changed s s' p t x it) (hx : x ∈ s.holdings p t) (hsmall : Small K s p t)
    (hid : it.id = (s.item x).id) (hcls : it.cls = (s.item x).cls) (hcount : it.count ≤ 100) : Small K s' p t := by
  intro y hy
  rw [h.item]
  by_cases hyx : y = x
  · subst hyx
    rw [Function.update_self, hid]
    intro hK
    refine ⟨hcount, ?_⟩
    unfold Item.isContainer
    rw [hcls]
    exact (hsmall y hx hK).2
  · rw [Function.update_of_ne hyx]
    exact hsmall y (h.holdings ▸ hy)

theorem Changed.total (h : Changed s s' p t x it) (hx : x ∈ s.holdings p t) (μ : Item → ℕ) :
    s'.total μ p t + μ (s.item x) = s.total μ p t + μ it := by
  unfold State.total
  rw [h.holdings, h.item, ← Finset.add_sum_erase _ _ hx, ← Finset.add_sum_erase _ (fun y => μ (s.item y)) hx,
    Function.update_self]
  have hrest : ∑ y ∈ (s.holdings p t).erase x, μ (Function.update s.item x it y) =
      ∑ y ∈ (s.holdings p t).erase x, μ (s.item y) :=
    Finset.sum_congr rfl fun y hy => by rw [Function.update_of_ne (Finset.ne_of_mem_erase hy)]
  rw [hrest]
  omega

theorem Changed.enriched (h : Changed s s' p t x it) (hx : x ∈ s.holdings p t) (hsmall : Small K s p t)
    (hid : it.id = (s.item x).id) (hcls : it.cls = (s.item x).cls) (hle : (s.item x).count ≤ it.count)
    (hcount : it.count ≤ 100) (hμ : μ it = μ (s.item x) + a) : Enriched K μ s s' p t a := by
  refine ⟨h.holding, h.carried.ge, h.holdings.ge, fun y _ => ?_, h.small hx hsmall hid hcls hcount, ?_, h.stands⟩
  · rw [h.item]
    by_cases hy : y = x
    · subst hy
      rw [Function.update_self]
      exact ⟨hid, hcls, hle⟩
    · rw [Function.update_of_ne hy]
      exact ⟨rfl, rfl, le_rfl⟩
  · have htotal := h.total hx μ
    omega

end Enriched

/-! ### What is added is there -/

section Added

variable {cfg : Config} {K : UInt16 → Prop} {μ : Item → ℕ} {s s₁ s' : State} {p : CreatureId} {t : Position}
  {c : Cylinder} {r x : Ref} {index : ℤ} {flags : Flags} {d : Destination} {m n w : ℕ}

/-- An item that lies nowhere yet and can be put anywhere. -/
structure Loose (cfg : Config) (s : State) (r : Ref) : Prop where
  parent : s.parent r = none
  leaf : s.isContainer r = false
  lt : r < s.next
  plain : Plain cfg.items (s.item r).id
  count : (s.item r).count ≤ 100

/-- The places that the player and the tile have for an item. -/
inductive Offers (cfg : Config) (s : State) (p : CreatureId) (t : Position) (r : Ref) (d : Destination) : Prop
  | player (h : Spot cfg s p r d)
  | tile (hd : d.cylinder = .tile t) (hitem : d.destItem = s.getTopDownItem t)

theorem TakesHere.offers (h : TakesHere cfg s c r indexWhereever flags d) (hs : Holding s p t)
    (hc : c = .player p ∨ c = .tile t) : Offers cfg s p t r d := by
  have hd := h.destination
  rcases hc with rfl | rfl
  · exact .player (hd ▸ Player.spot_of_queryDestination hs.owned)
  · have htile := h.here t rfl
    unfold queryDestination Tile.queryDestination at hd
    dsimp only at hd
    split at hd
    · subst hd
      obtain rfl := Cylinder.tile.inj htile
      exact .tile rfl rfl
    · subst hd
      exact .tile rfl rfl

/-- The whole count is taken. -/
theorem Takes.takenCount (h : Takes cfg s c r index flags d) (hc : c = .player p ∨ c = .tile t) :
    Inventory.takenCount cfg s c r d.flags = (s.item r).count := by
  have hroom := h.room
  unfold Inventory.takenCount
  rw [min_eq_left_iff]
  rcases hc with rfl | rfl
  · unfold queryMaxCount Player.queryMaxCount at hroom ⊢
    dsimp only at hroom ⊢
    rw [if_pos rfl] at hroom ⊢
    dsimp only at hroom ⊢
    by_contra hlt
    rw [if_pos (not_le.1 hlt)] at hroom
    exact nomatch hroom
  · exact le_max_right ..

theorem equals_symm {a b : Item} (h : a.equals b = true) : b.equals a = true := by
  rw [Item.equals_iff] at h ⊢
  exact ⟨h.1.symm, h.2.symm⟩

theorem mergesWith_eq_some {toItem : Option Ref} (h : mergesWith cfg s r toItem = some x) :
    toItem = some x ∧ (s.item x).equals (s.item r) = true := by
  unfold mergesWith at h
  split at h
  · next hmerges =>
    rw [Bool.and_eq_true] at hmerges
    have hequals := hmerges.2
    rw [h] at hequals
    exact ⟨h, equals_symm hequals⟩
  · exact nomatch h

theorem id_of_mergesWith {toItem : Option Ref} (h : mergesWith cfg s r toItem = some x) :
    (s.item x).id = (s.item r).id :=
  (Item.equals_iff.1 (mergesWith_eq_some h).2).1

/-- A player is asked for a stack that is not full. -/
theorem Spot.count_lt (h : Spot cfg s p r d) (hmerges : mergesWith cfg s r d.destItem = some x) :
    (s.item x).count < 100 := by
  have hd := (mergesWith_eq_some hmerges).1
  cases h with
  | stack _ _ hstack => exact Option.some.inj hd ▸ hstack.count
  | stackIn _ _ _ hstack => exact Option.some.inj hd ▸ hstack.count
  | slot | within | nowhere => exact nomatch hd

/-- An item that is not put on what is there finds a place of its own. -/
theorem Offers.gained (h : Offers cfg s p t r d) (hs : Holding s p t) (hr : Loose cfg s r)
    (hmerges : mergesWith cfg s r d.destItem = none) (hadd : addThing cfg s d.index r d.cylinder = some s')
    (hthere : s'.parent r = some d.cylinder) : Gained s s' p t r := by
  have hgone {c : Cylinder} (he : s' = s) : s'.parent r ≠ some c := by
    rw [he, hr.parent]
    exact fun e => nomatch e
  cases h with
  | player h =>
    have haccepts : s.Accepts d.index d.cylinder := by
      by_contra hnot
      rw [addThing_of_not_accepts h.carries hnot] at hadd
      exact hgone (Option.some.inj hadd).symm hthere
    obtain ⟨s₁, hs₁, hbare⟩ : ∃ s₁, addThing cfg s d.index r d.cylinder = some s₁ ∧
        s₁.bare = (s.attach d.index r d.cylinder).bare := addThing_of_accepts haccepts
    obtain rfl := Option.some.inj (hs₁.symm.trans hadd)
    refine Gained.of_bare ?_ hbare
    cases h with
    | stack hx hslot hstack hasked =>
      -- the stack in the slot would have been taken
      refine absurd hmerges fun hnone => ?_
      have hfree := Player.occupied_of_noError rfl hasked
      have hok := not_not.1 fun hnot => Bool.false_ne_true (hfree.symm.trans (Player.occupied_iff.2 ⟨_, hslot, hnot⟩))
      obtain ⟨hstackable, hrune, hid⟩ := hok
      unfold mergesWith at hnone
      have htype : s.type cfg r = s.type cfg _ := congrArg cfg.items hid.symm
      rw [htype, hstackable, hrune, if_pos] at hnone
      · exact nomatch hnone
      · exact equals_symm hstack.equals
    | slot _ hfree =>
      refine hs.gained_slot hr.parent hr.leaf hr.lt haccepts ?_
      rw [Int.toNat_natCast]
      exact hfree
    | stackIn hq hcont => exact hs.gained_container hr.parent hr.leaf hr.lt hq hcont _
    | within hq hcont => exact hs.gained_container hr.parent hr.leaf hr.lt hq hcont _
    | nowhere =>
      have hone : (1 : ℤ) ≤ indexWhereever := haccepts.1
      exact absurd hone (by decide)
  | tile hd _ =>
    rw [hd] at hadd hthere
    obtain ⟨v, hv, rfl⟩ := Option.map_eq_some_iff.1 hadd
    exact hs.gained_tile hr.parent hr.lt hr.plain hv hthere

/-- What is told after it leaves the item there. -/
theorem bare_notifyAdded_keeps (h : KeepsIt cfg s r c) (hc : Carries c ∨ ∃ t, c = .tile t) :
    (notifyAdded cfg s (some r) c).bare = s.bare := by
  rcases hc with hc | ⟨t, rfl⟩
  · exact bare_notifyAdded hc
  · unfold notifyAdded
    dsimp only
    split
    · rfl
    · unfold postAddNotification
      dsimp only
      split
      · next device hdevice => rw [h device hdevice]
      · rfl

theorem Offers.carries (h : Offers cfg s p t r d) : Carries d.cylinder ∨ ∃ t, d.cylinder = .tile t := by
  cases h with
  | player h => exact .inl h.carries
  | tile hd => exact .inr ⟨t, hd⟩

/-- The stack that the item is put on is one of the player's. -/
theorem Offers.mem_holdings (h : Offers cfg s p t r d) (hs : Holding s p t)
    (hmerges : mergesWith cfg s r d.destItem = some x) : x ∈ s.holdings p t := by
  have hd := (mergesWith_eq_some hmerges).1
  rw [Inventory.mem_holdings]
  cases h with
  | player h =>
    cases h with
    | stack hx => exact .inl (hs.owned.mem_of_slot (Option.some.inj hd ▸ hx))
    | stackIn hq _ hx => exact .inl (hs.owned.mem_of_list hq (Option.some.inj hd ▸ hx))
    | slot | within | nowhere => exact nomatch hd
  | tile _ hitem =>
    have hx : x ∈ (s.mapTile t).tile.downItems := List.mem_of_mem_head? (hitem.symm.trans hd)
    exact .inr (List.mem_append_right _ (List.mem_append_right _ hx))

/-- The item is put on it. -/
theorem Offers.merged (h : Offers cfg s p t r d) (hs : Holding s p t) (hplain : Plain cfg.items (s.item r).id)
    (hmerges : mergesWith cfg s r d.destItem = some x) (hle : (s.item x).count + n ≤ 100) :
    Changed s (merge cfg s d x n) p t x
      (updated cfg.items (s.item x) (s.item x).id ((s.item x).count + n)) := by
  have hd := (mergesWith_eq_some hmerges).1
  have hid := id_of_mergesWith hmerges
  unfold merge
  cases h with
  | player h =>
    cases h with
    | stack hx => exact hs.changed_carries trivial (Option.some.inj hd ▸ hx)
    | stackIn _ _ hx => exact hs.changed_carries trivial (Option.some.inj hd ▸ hx)
    | slot | within | nowhere => exact nomatch hd
  | tile htile hitem =>
    rw [htile]
    exact hs.changed_tile (List.mem_of_mem_head? (hitem.symm.trans hd)) (hid ▸ hplain) (by omega)

/-- The count of a stack that an item can be put on, and so much more. -/
theorem mergedCount_le (h : (s.item x).count ≤ 100) (m : ℕ) :
    (s.item x).count + mergedCount s x m ≤ 100 ∧ mergedCount s x m ≤ m ∧
      ((s.item x).count < 100 → 0 < m → 0 < mergedCount s x m) := by
  have hroom : uint 4 (100 - (s.item x).count) = 100 - (s.item x).count := by
    unfold uint
    omega
  unfold mergedCount
  rw [hroom]
  omega

/-- A part of the item is put on a stack, and the item lies nowhere still. -/
theorem Offers.enriched_merge {w : ℕ} (h : Offers cfg s p t r d) (hs : Holding s p t) (hsmall : Small K s p t)
    (hr : Loose cfg s r) (hK : K (s.item r).id) (hcounts : Counts cfg.items μ (s.item r) w)
    (hmerges : mergesWith cfg s r d.destItem = some x) (hn : n = mergedCount s x m) :
    Enriched K μ s (merge cfg s d x n) p t (w * n) ∧ Loose cfg (merge cfg s d x n) r ∧
      (merge cfg s d x n).item r = s.item r := by
  have hequals := (mergesWith_eq_some hmerges).2
  have hid := id_of_mergesWith hmerges
  have hx : x ∈ s.holdings p t := h.mem_holdings hs hmerges
  obtain ⟨hcount, hleaf⟩ := hsmall x hx (hid ▸ hK)
  have hle : (s.item x).count + n ≤ 100 := hn ▸ (mergedCount_le hcount m).1
  have hchanged := h.merged hs hr.plain hmerges hle
  obtain ⟨hμ, hid', hcount'⟩ := hcounts.merged (s.item x) n hequals hleaf hle
  have hne : r ≠ x := by
    rintro rfl
    exact hs.notMem hr.parent hx
  have hitem : (merge cfg s d x n).item r = s.item r := by
    rw [hchanged.item, Function.update_of_ne hne]
  refine ⟨?_, ⟨?_, ?_, ?_, ?_, ?_⟩, hitem⟩
  · exact hchanged.enriched hx hsmall hid' (updated_cls ..) (by omega) (by omega) hμ
  · rw [hchanged.parent]
    exact hr.parent
  · unfold isContainer
    rw [hitem]
    exact hr.leaf
  · rw [hchanged.next]
    exact hr.lt
  · rw [hitem]
    exact hr.plain
  · rw [hitem]
    exact hr.count

/-- What is left of the item as an item of its own. -/
theorem Loose.clone (hr : Loose cfg s r) (n : ℕ) (hn : n ≤ 100) :
    Loose cfg (s.clone r n) s.next ∧ (s.clone r n).item s.next = (s.item r).setItemCount n := by
  have hitem : (s.clone r n).item s.next = (s.item r).setItemCount n := by
    rw [item_clone, if_pos rfl]
  refine ⟨⟨parent_create_self s _ 0, ?_, Nat.lt_succ_self _, ?_, ?_⟩, hitem⟩
  · unfold isContainer
    rw [hitem]
    exact hr.leaf
  · rw [hitem]
    exact hr.plain
  · rw [hitem]
    unfold Item.setItemCount
    dsimp only
    omega

/-- An item that finds its places is there, and nothing else has changed but stacks of it. -/
theorem Places.enriched {w : ℕ} (hplaces : Places cfg c s r index flags s') (hc : c = .player p ∨ c = .tile t)
    (hindex : index = indexWhereever) (hs : Holding s p t) (hsmall : Small K s p t) (hr : Loose cfg s r)
    (hK : K (s.item r).id) (hcounts : Counts cfg.items μ (s.item r) w) :
    Enriched K μ s s' p t (w * (s.item r).count) := by
  have hself {s : State} {r : Ref} (hr : Loose cfg s r) (hcounts : Counts cfg.items μ (s.item r) w) :
      μ (s.item r) = w * (s.item r).count := by
    have hpiece := hcounts.piece _ hr.count
    have hsame : (s.item r).setItemCount (s.item r).count = s.item r := by
      have hcount := hr.count
      unfold Item.setItemCount
      rw [Nat.mod_eq_of_lt (by omega)]
    rwa [hsame] at hpiece
  induction hplaces with
  | placed h hmerges hadd hthere hkeeps =>
    subst hindex
    have hoffers := h.offers hs hc
    have hgained := hoffers.gained hs hr hmerges hadd hthere
    rw [← hself hr hcounts]
    exact (hgained.of_bare (bare_notifyAdded_keeps hkeeps hoffers.carries)).enriched (hs.notMem hr.parent) hsmall
      hr.count hr.leaf
  | @merged s item index flags d x m n h hmerges hm hn hle hkeeps =>
    subst hindex
    have hoffers := h.offers hs hc
    obtain ⟨henriched, -, -⟩ := hoffers.enriched_merge hs hsmall hr hK hcounts hmerges hn
    have htaken := h.takenCount hc
    have hx := hsmall _ (hoffers.mem_holdings hs hmerges) (id_of_mergesWith hmerges ▸ hK)
    have hle' := (mergedCount_le hx.1 m).2.1
    rw [← hm] at htaken
    rw [← hn] at hle'
    rw [← htaken, le_antisymm hle hle']
    exact henriched.of_bare (bare_notifyAdded_keeps hkeeps hoffers.carries)
  | @beside s item index flags d x m n s' h hmerges hm hn hlt hcount hadd hthere hkeeps =>
    subst hindex
    have hoffers := h.offers hs hc
    obtain ⟨henriched, hloose, hitem⟩ := hoffers.enriched_merge hs hsmall hr hK hcounts hmerges hn
    have htaken := h.takenCount hc
    rw [← hm] at htaken
    obtain rfl : n = 0 := by omega
    have hcarries := hoffers.carries
    cases hoffers with
    | player hspot =>
      have hlt' := hspot.count_lt hmerges
      have hpos := (mergedCount_le hlt'.le m).2.2 hlt' hlt
      rw [← hn] at hpos
      exact absurd hpos (Nat.lt_irrefl 0)
    | tile hd _ =>
      rw [hd] at hadd hthere
      obtain ⟨v, hv, rfl⟩ := Option.map_eq_some_iff.1 hadd
      have hgained := henriched.holding.gained_tile hloose.parent hloose.lt hloose.plain hv hthere
      have hrest : Enriched K μ _ _ p t (μ ((merge cfg s d x 0).item item)) :=
        (hgained.of_bare (bare_notifyAdded_keeps hkeeps hcarries)).enriched
          (henriched.holding.notMem hloose.parent) henriched.small hloose.count hloose.leaf
      have hall := henriched.trans hrest
      rwa [hitem, hself hr hcounts, Nat.mul_zero, Nat.zero_add] at hall
  | @again s item index flags d x m n s' h hmerges hm hn hlt hcount hrest ih =>
    subst hindex
    have hoffers := h.offers hs hc
    obtain ⟨henriched, hloose, hitem⟩ := hoffers.enriched_merge hs hsmall hr hK hcounts hmerges hn
    have htaken := h.takenCount hc
    rw [← hm] at htaken
    have hle : m - n ≤ 100 := by
      have hcount := hr.count
      omega
    obtain ⟨hclone, hpiece⟩ := hloose.clone (m - n) hle
    rw [hitem] at hpiece
    have hcreated : Enriched K μ (merge cfg s d x n) ((merge cfg s d x n).clone item (m - n)) p t 0 :=
      henriched.holding.enriched_create henriched.small _ 0
    have hcounts' : Counts cfg.items μ ((s.item item).setItemCount (m - n)) w :=
      ⟨hcounts.piece, hcounts.merged⟩
    have hrest := ih rfl hcreated.holding hcreated.small hclone (by rw [hpiece]; exact hK)
      (by rw [hpiece]; exact hcounts')
    have hall := (henriched.trans hcreated).trans hrest
    have hnew : ((s.item item).setItemCount (m - n)).count = m - n := Nat.mod_eq_of_lt (by omega)
    have hsum : w * n + 0 + w * (m - n) = w * (s.item item).count := by
      rw [Nat.add_zero, ← Nat.mul_add, ← htaken, Nat.add_sub_cancel' hlt.le]
    rwa [hpiece, hnew, hsum] at hall

end Added

end Inventory
end ForgottenServer
