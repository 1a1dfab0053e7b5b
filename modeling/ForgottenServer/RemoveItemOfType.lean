/-
# Counting and removing the items of a type

`Player::getItemTypeCount` adds up the counts of the items of a type that a
player carries. `Player::removeItemOfType` goes the same way, collects the items
until their counts suffice, and removes them: of stacks no more than is asked
for, of other types all that were collected.

It removes what is asked for exactly if the counts that were collected add up to
it or the type is stackable (`removesExactly_iff`).

Key definitions: `Player.getItemTypeCount`, `Player.removeItemOfType`,
`RemovesExactly`.
Key theorems: `Player.getItemTypeCount_eq`, `Player.collects`,
`removesExactly_iff`.
-/
import ForgottenServer.Carried
import ForgottenServer.RemoveItem

namespace ForgottenServer
namespace Inventory

open State

/-! ### The code -/

section Code

variable (cfg : Config) (canRemove : Ref → Bool) (s : State)

/-- `Item::countByType` -/
def countByType (r : Ref) (subType : ℤ) : UInt32 :=
  if subType = -1 ∨ subType = (s.item r).getSubType cfg.items then .ofNat (s.item r).count else 0

/-- The loop over the stacks of `Game::internalRemoveItems`. -/
def removeStacks (s : State) (amount : UInt32) : List Ref → State
  | [] => s
  | item :: itemList =>
    if amount < .ofNat (s.item item).count then (internalRemoveItem cfg canRemove s item amount.toNat).2
    else
      removeStacks (internalRemoveItem cfg canRemove s item (-1)).2 (amount - .ofNat (s.item item).count) itemList

/-- `Game::internalRemoveItems` -/
def internalRemoveItems (itemList : List Ref) (amount : UInt32) (stackable : Bool) : State :=
  if stackable then removeStacks cfg canRemove s amount itemList
  else itemList.foldl (fun s item => (internalRemoveItem cfg canRemove s item (-1)).2) s

namespace Player

variable (p : CreatureId) (itemId : UInt16)

/-- `Player::getItemTypeCount` -/
def getItemTypeCount (subType : ℤ) : UInt32 :=
  (slots.map fun i =>
    match (s.players p).inventory i with
    | none => 0
    | some item => count item + if s.isContainer item then ((s.iterator item).map count).sum else 0).sum
where
  count (item : Ref) : UInt32 := if (s.item item).id = itemId then countByType cfg s item subType else 0

/-- The items of the type that `removeItemOfType` comes to in a slot. -/
def itemsOfType (ignoreEquipped : Bool) (i : ℕ) : List Ref :=
  match (s.players p).inventory i with
  | none => []
  | some item =>
    if !ignoreEquipped && (s.item item).id = itemId then [item]
    else if s.isContainer item then (s.iterator item).filter fun x => (s.item x).id = itemId
    else []

/-- The loops of `removeItemOfType` that collect, up to where the counts are
enough. -/
def collect (amount : UInt32) (subType : ℤ) : List Ref → List Ref → UInt32 → Option (List Ref)
  | [], _, _ => none
  | item :: l, itemList, count =>
    let itemCount := countByType cfg s item subType
    if itemCount = 0 then collect amount subType l itemList count
    else if amount ≤ count + itemCount then some (itemList ++ [item])
    else collect amount subType l (itemList ++ [item]) (count + itemCount)

/-- `Player::removeItemOfType` -/
def removeItemOfType (amount : UInt32) (subType : ℤ) (ignoreEquipped : Bool) : Bool × State :=
  if amount = 0 then (true, s)
  else
    match collect cfg s amount subType (slots.flatMap (itemsOfType s p itemId ignoreEquipped)) [] 0 with
    | some itemList =>
      (true, internalRemoveItems cfg canRemove s itemList amount (cfg.items itemId).stackable)
    | none => (false, s)

end Player

end Code

/-! ### What is counted and what is collected -/

section Counted

variable {cfg : Config} {s : State} {p : CreatureId} {itemId : UInt16} {amount : UInt32}

/-- The count is that of all that is carried. -/
theorem Player.getItemTypeCount_eq (h : Owned s p) (subType : ℤ) :
    getItemTypeCount cfg s p itemId subType =
      ∑ x ∈ (s.carried p).filter fun x => (s.item x).id = itemId, countByType cfg s x subType := by
  rw [Finset.sum_filter]
  exact h.sum_slots (getItemTypeCount.count cfg s itemId subType)

theorem coe_flatMap {α β : Type*} (f : α → List β) :
    ∀ l : List α, (l.flatMap f : Multiset β) = (l.map fun a => (f a : Multiset β)).sum
  | [] => rfl
  | a :: l => by
    rw [List.flatMap_cons, ← Multiset.coe_add, coe_flatMap f l, List.map_cons, List.sum_cons]

theorem coe_filter_eq_sum {β : Type*} (P : β → Prop) [DecidablePred P] :
    ∀ l : List β, (l.filter P : Multiset β) = (l.map fun x => if P x then ({x} : Multiset β) else 0).sum
  | [] => rfl
  | x :: l => by
    rw [List.map_cons, List.sum_cons, ← coe_filter_eq_sum P l]
    by_cases hx : P x
    · rw [List.filter_cons_of_pos (by simpa using hx), if_pos hx]
      rfl
    · rw [List.filter_cons_of_neg (by simpa using hx), if_neg hx, zero_add]

/-- The loops come to every item of the type that is carried, once. -/
theorem Player.coe_itemsOfType (h : Owned s p) (hplain : ∀ r, (s.item r).id = itemId → s.isContainer r = false) :
    (slots.flatMap (itemsOfType s p itemId false) : Multiset Ref) =
      ((s.carried p).filter fun x => (s.item x).id = itemId).val := by
  let one (x : Ref) : Multiset Ref := if (s.item x).id = itemId then {x} else 0
  have hone : ∑ x ∈ s.carried p, one x = ((s.carried p).filter fun x => (s.item x).id = itemId).val := by
    rw [← Finset.sum_filter, Finset.sum_multiset_singleton]
  rw [← hone, ← h.sum_slots one, coe_flatMap]
  refine congrArg List.sum (List.map_congr_left fun i _ => ?_)
  unfold itemsOfType
  cases (s.players p).inventory i with
  | none => rfl
  | some item =>
    dsimp only
    by_cases hid : (s.item item).id = itemId
    · have hc : s.isContainer item = false := hplain item hid
      rw [if_pos (by simpa using hid), hc, if_neg Bool.false_ne_true, add_zero]
      exact (if_pos hid).symm
    · have hnone : one item = 0 := if_neg hid
      rw [if_neg (by simpa using hid), hnone, zero_add]
      split
      · exact coe_filter_eq_sum _ _
      · rfl

/-- What the loops have counted after so many items. -/
def countOf (cfg : Config) (s : State) (l : List Ref) (subType : ℤ) (k : ℕ) : UInt32 :=
  ((l.take k).map fun x => countByType cfg s x subType).sum

theorem countOf_cons (l : List Ref) (item : Ref) (subType : ℤ) (k : ℕ) :
    countOf cfg s (item :: l) subType (k + 1) = countByType cfg s item subType + countOf cfg s l subType k := by
  unfold countOf
  rw [List.take_succ_cons, List.map_cons, List.sum_cons]

/-- The items are collected up to the first at which the count is enough, those
without a count left out; or the count never is. -/
def Player.Collects (cfg : Config) (s : State) (amount : UInt32) (subType : ℤ) (l itemList : List Ref)
    (count : UInt32) (result : Option (List Ref)) : Prop :=
  (∃ k, amount ≤ count + countOf cfg s l subType k ∧ (∀ j < k, count + countOf cfg s l subType j < amount) ∧
    result = some (itemList ++ (l.take k).filter fun x => countByType cfg s x subType ≠ 0)) ∨
  (result = none ∧ ∀ k, count + countOf cfg s l subType k < amount)

/-- One more item in front. -/
theorem Player.Collects.cons {subType : ℤ} {item : Ref} {l itemList itemList' : List Ref} {count count' : UInt32}
    {result : Option (List Ref)} (h : Collects cfg s amount subType l itemList' count' result) (hlt : count < amount)
    (hcount : count' = count + countByType cfg s item subType)
    (hlist : itemList' = itemList ++ [item].filter fun x => countByType cfg s x subType ≠ 0) :
    Collects cfg s amount subType (item :: l) itemList count result := by
  have hzero : count + countOf cfg s (item :: l) subType 0 < amount := (UInt32.add_zero count).symm ▸ hlt
  have hnext (k : ℕ) : count + countOf cfg s (item :: l) subType (k + 1) = count' + countOf cfg s l subType k := by
    rw [countOf_cons, hcount, UInt32.add_assoc]
  rcases h with ⟨k, hk, hfirst, hsome⟩ | ⟨hnone, hless⟩
  · refine .inl ⟨k + 1, hnext k ▸ hk, fun j hj => ?_, ?_⟩
    · cases j with
      | zero => exact hzero
      | succ j => exact hnext j ▸ hfirst j (Nat.lt_of_succ_lt_succ hj)
    · rw [hsome, hlist, List.append_assoc, ← List.filter_append, List.take_succ_cons]
      rfl
  · refine .inr ⟨hnone, fun k => ?_⟩
    cases k with
    | zero => exact hzero
    | succ k => exact hnext k ▸ hless k

theorem Player.collects {subType : ℤ} : ∀ {l itemList : List Ref} {count : UInt32}, count < amount →
    Collects cfg s amount subType l itemList count (collect cfg s amount subType l itemList count)
  | [], itemList, count, hlt => by
    refine .inr ⟨rfl, fun k => ?_⟩
    unfold countOf
    rw [List.take_nil]
    exact (UInt32.add_zero count).symm ▸ hlt
  | item :: l, itemList, count, hlt => by
    unfold collect
    dsimp only
    by_cases hitem : countByType cfg s item subType = 0
    · rw [if_pos hitem]
      refine (collects hlt).cons hlt ?_ ?_
      · rw [hitem, UInt32.add_zero]
      · rw [List.filter_cons_of_neg (by simpa using hitem), List.filter_nil, List.append_nil]
    have hfilter : [item].filter (fun x => countByType cfg s x subType ≠ 0) = [item] :=
      List.filter_cons_of_pos (by simpa using hitem)
    rw [if_neg hitem]
    by_cases henough : amount ≤ count + countByType cfg s item subType
    · rw [if_pos henough]
      refine .inl ⟨1, ?_, fun j hj => ?_, ?_⟩
      · rw [countOf_cons, ← UInt32.add_assoc]
        exact (UInt32.add_zero (count + countByType cfg s item subType)).symm ▸ henough
      · obtain rfl : j = 0 := by omega
        exact (UInt32.add_zero count).symm ▸ hlt
      · rw [List.take_succ_cons, List.take_zero, hfilter]
    · rw [if_neg henough]
      exact (collects (UInt32.not_le.1 henough)).cons hlt rfl (congrArg _ hfilter.symm)

end Counted

/-! ### What is removed -/

/-- Some items stay what and where they are. -/
structure Spares (other : Ref → Bool) (s s' : State) : Prop where
  item : ∀ x, other x = true → s'.item x = s.item x
  parent : ∀ x, other x = true → s'.parent x = s.parent x
  slot : ∀ p i x, other x = true → ((s'.players p).inventory i = some x ↔ (s.players p).inventory i = some x)
  order : ∀ q, (s'.things q).itemlist.filter other = (s.things q).itemlist.filter other

namespace Spares

variable {other : Ref → Bool} {s s₁ s' : State} {r : Ref}

theorem refl (s : State) : Spares other s s where
  item _ _ := rfl
  parent _ _ := rfl
  slot _ _ _ _ := Iff.rfl
  order _ := rfl

theorem trans (h : Spares other s s₁) (h' : Spares other s₁ s') : Spares other s s' where
  item x hx := (h'.item x hx).trans (h.item x hx)
  parent x hx := (h'.parent x hx).trans (h.parent x hx)
  slot p i x hx := (h'.slot p i x hx).trans (h.slot p i x hx)
  order q := (h'.order q).trans (h.order q)

theorem of_bare (h : Spares other s s₁) (hbare : s'.bare = s₁.bare) : Spares other s s' where
  item x hx := by
    rw [congr_bare (f := State.item) item_bare hbare]
    exact h.item x hx
  parent x hx := by
    rw [congr_bare (f := State.parent) parent_bare hbare]
    exact h.parent x hx
  slot p i x hx := by
    rw [congr_bare (f := fun s => (s.players p).inventory) (fun s => s.inventory_bare p) hbare]
    exact h.slot p i x hx
  order q := by
    rw [congr_bare (f := fun s => (s.things q).itemlist) (fun s => s.itemlist_bare q) hbare]
    exact h.order q

theorem setItem {it : Item} (hr : other r = false) : Spares other s (s.setItem r it) where
  item x hx := by
    rw [item_setItem, if_neg]
    rintro rfl
    exact Bool.false_ne_true (hr.symm.trans hx)
  parent x _ := by rw [parent_setItem]
  slot _ _ _ _ := Iff.rfl
  order q := by rw [itemlist_setItem]

theorem detach {p : CreatureId} {c : Cylinder} (h : Owned s p) (hmem : r ∈ s.carried p) (hc : s.parent r = some c)
    (hr : other r = false) : Spares other s (s.detach r c) := by
  have hne {x : Ref} (hx : other x = true) : x ≠ r := by
    rintro rfl
    exact Bool.false_ne_true (hr.symm.trans hx)
  refine ⟨fun x _ => congrFun (s.item_detach r c) x, ?_, ?_, ?_⟩
  all_goals rcases h.parent_of_mem hmem with ⟨hparent, hslot⟩ | ⟨q, hparent, hlist⟩
  all_goals obtain rfl := Option.some.inj (hc.symm.trans hparent)
  · obtain ⟨i, -, -, hdetach⟩ := detach_player hslot
    intro x hx
    rw [hdetach]
    exact (parent_setParent s r x none).trans (if_neg (hne hx))
  · intro x hx
    unfold State.detach
    rw [parent_setItemlist, parent_setParent, if_neg (hne hx)]
  · obtain ⟨i, -, hi, hdetach⟩ := detach_player hslot
    intro p' j x hx
    rw [hdetach, inventory_setSlot]
    split
    · next hj =>
      obtain ⟨rfl, rfl⟩ := hj
      refine iff_of_false (fun e => nomatch e) fun e => hne hx ?_
      exact Option.some.inj (e.symm.trans hi)
    · rfl
  · exact fun _ _ _ _ => Iff.rfl
  · obtain ⟨i, -, -, hdetach⟩ := detach_player hslot
    intro q
    rw [hdetach]
    exact congrArg _ (itemlist_setParent s r q none)
  · intro y
    unfold State.detach
    rw [itemlist_setItemlist, itemlist_setParent]
    split
    · next hy =>
      subst hy
      have hout : r ∉ (s.things y).itemlist.filter other := fun hm =>
        Bool.false_ne_true (hr.symm.trans (List.mem_filter.1 hm).2)
      rw [← List.erase_filter, List.erase_of_not_mem hout]
    · rfl

end Spares

section Removed

variable {cfg : Config} {canRemove : Ref → Bool} {s : State} {p : CreatureId} {r : Ref} {c : Cylinder}

variable (cfg) in
/-- What `internalRemoveItem` does with a count of an item that is carried. -/
theorem internalRemoveItem_eq (h : Owned s p) (hr : r ∈ s.carried p) (hc : s.parent r = some c)
    (hremove : canRemove r = true) {count : ℤ} {n : ℕ}
    (hn : (if count = -1 then (s.item r).count else uint 4 count) = n) (hpos : n ≠ 0) (hle : n ≤ (s.item r).count) :
    Carries c ∧ r ∈ s.contents c ∧ (internalRemoveItem cfg canRemove s r count).2 =
      postRemoveNotification cfg.items (removeThing cfg s r n c) c := by
  have hplace : Carries c ∧ r ∈ s.contents c := by
    rcases h.parent_of_mem hr with ⟨hparent, hmem⟩ | ⟨q, hparent, hmem⟩
    all_goals obtain rfl := Option.some.inj (hc.symm.trans hparent)
    all_goals exact ⟨trivial, hmem⟩
  have hidx : s.getThingIndex cfg.items r c ≠ -1 := fun e => (getThingIndex_eq_neg_one hplace.1).1 e hplace.2
  have hquery : queryRemove cfg s r n { ignoreNotMoveable := true } c = .noError := by
    unfold queryRemove
    rw [if_neg hidx, if_neg (not_or.2 ⟨hpos, fun he => absurd he.2 (not_lt.2 hle)⟩), if_neg (by simp)]
  refine ⟨hplace.1, hplace.2, ?_⟩
  unfold internalRemoveItem
  rw [hc]
  dsimp only
  rw [hn, hquery, if_neg (not_not.2 rfl), hremove, Bool.not_true, if_neg Bool.false_ne_true]

/-- The whole of an item leaves. -/
theorem bare_internalRemoveItem_whole (h : Owned s p) (hr : r ∈ s.carried p) (hc : s.parent r = some c)
    (hremove : canRemove r = true) {count : ℤ}
    (hn : (if count = -1 then (s.item r).count else uint 4 count) = (s.item r).count)
    (hcount : (s.item r).count ≠ 0) :
    (internalRemoveItem cfg canRemove s r count).2.bare = (s.detach r c).bare := by
  obtain ⟨hcarries, hmem, heq⟩ := internalRemoveItem_eq cfg h hr hc hremove hn hcount le_rfl
  rw [heq]
  exact (bare_postNotification _ _ _ _ _).trans (bare_removeThing_whole hcarries hmem (.inr rfl))

variable (cfg) in
/-- A part of a stack leaves. -/
theorem bare_internalRemoveItem_part (h : Owned s p) (hr : r ∈ s.carried p) (hremove : canRemove r = true)
    (hstack : (cfg.items (s.item r).id).stackable = true) (hbyte : (s.item r).count < 256) {n : ℕ} (hpos : n ≠ 0)
    (hlt : n < (s.item r).count) :
    (internalRemoveItem cfg canRemove s r n).2.bare =
      (s.setItem r ((s.item r).setItemCount ((s.item r).count - n))).bare := by
  obtain ⟨c, hc⟩ := h.exists_parent hr
  have hn : (if (n : ℤ) = -1 then (s.item r).count else uint 4 n) = n := by
    rw [if_neg (by omega)]
    unfold uint
    omega
  obtain ⟨hcarries, hmem, heq⟩ := internalRemoveItem_eq cfg h hr hc hremove hn hpos hlt.le
  rw [heq]
  refine (bare_postNotification _ _ _ _ _).trans ((bare_removeThing_part hcarries hmem hstack hlt.ne).trans ?_)
  have hleft : uint 1 (max 0 (int32 (((s.item r).count : ℤ) - n))) = (s.item r).count - n := by
    unfold uint int32
    omega
  rw [hleft]

/-- Nothing leaves. -/
theorem internalRemoveItem_zero : (internalRemoveItem cfg canRemove s r 0).2 = s := by
  unfold internalRemoveItem
  split
  · rfl
  · next c hc =>
    have hquery : queryRemove cfg s r 0 { ignoreNotMoveable := true } c = .notPossible := by
      unfold queryRemove
      split
      · rfl
      · rw [if_pos (.inl rfl)]
    have hcount : (if (0 : ℤ) = -1 then (s.item r).count else uint 4 0) = 0 := if_neg (by decide)
    dsimp only
    rw [hcount, hquery, if_pos (by decide)]

variable {itemId : UInt16} {other : Ref → Bool}

/-- An item of the type that is carried and lets itself be removed. -/
structure CarriedOfType (canRemove : Ref → Bool) (s : State) (p : CreatureId) (itemId : UInt16) (r : Ref) : Prop where
  mem : r ∈ s.carried p
  id : (s.item r).id = itemId
  leaf : s.isContainer r = false
  canRemove : canRemove r = true
  count : (s.item r).count ≠ 0
  byte : (s.item r).count < 256

variable (cfg) in
/-- One of them is removed. -/
theorem CarriedOfType.whole (hr : CarriedOfType canRemove s p itemId r) (h : Owned s p) (hother : other r = false) :
    let s' := (internalRemoveItem cfg canRemove s r (-1)).2
    Owned s' p ∧ Spares other s s' ∧
      Player.getItemTypeCount cfg s' p itemId (-1) + .ofNat (s.item r).count =
        Player.getItemTypeCount cfg s p itemId (-1) ∧
      ∀ x, x ≠ r → CarriedOfType canRemove s p itemId x → (s'.item x).count = (s.item x).count ∧
        CarriedOfType canRemove s' p itemId x := by
  intro s'
  obtain ⟨c, hc⟩ := h.exists_parent hr.mem
  have hbare : s'.bare = (s.detach r c).bare :=
    bare_internalRemoveItem_whole h hr.mem hc hr.canRemove (if_pos rfl) hr.count
  have howned : Owned s' p := (h.detach hr.mem hc).1.of_bare hbare
  have hitem : s'.item = s.item := (congr_bare (f := State.item) item_bare hbare).trans (s.item_detach r c)
  have hcarried : s'.carried p = (s.carried p).erase r := by
    rw [← h.carried_detach hr.mem hc hr.leaf]
    exact congr_bare (f := fun s => s.carried p) (fun _ => rfl) hbare
  refine ⟨howned, (Spares.detach h hr.mem hc hother).of_bare hbare, ?_, fun x hne hx => ?_⟩
  · have hcount : countByType cfg s r (-1) = .ofNat (s.item r).count := if_pos (.inl rfl)
    have hsame : (fun x => countByType cfg s' x (-1)) = fun x => countByType cfg s x (-1) := by
      funext x
      unfold countByType
      rw [hitem]
    have hmem : r ∈ (s.carried p).filter fun x => (s.item x).id = itemId := Finset.mem_filter.2 ⟨hr.mem, hr.id⟩
    rw [Player.getItemTypeCount_eq howned, Player.getItemTypeCount_eq h, hsame, hitem, hcarried, ← hcount,
      Finset.filter_erase, Finset.sum_erase_add _ _ hmem]
  · refine ⟨by rw [hitem], ?_, ?_, ?_, hx.canRemove, ?_, ?_⟩
    · rw [hcarried]
      exact Finset.mem_erase.2 ⟨hne, hx.mem⟩
    · rw [hitem]
      exact hx.id
    · rw [isContainer_congr hitem]
      exact hx.leaf
    · rw [hitem]
      exact hx.count
    · rw [hitem]
      exact hx.byte

/-- A part of one is removed. -/
theorem CarriedOfType.part (hr : CarriedOfType canRemove s p itemId r) (h : Owned s p) (hother : other r = false)
    (hstack : (cfg.items itemId).stackable = true) {n : UInt32} (hlt : n < .ofNat (s.item r).count) :
    let s' := (internalRemoveItem cfg canRemove s r n.toNat).2
    Spares other s s' ∧
      Player.getItemTypeCount cfg s' p itemId (-1) + n = Player.getItemTypeCount cfg s p itemId (-1) := by
  intro s'
  by_cases hzero : n = 0
  · subst hzero
    have hs' : s' = s := internalRemoveItem_zero
    rw [hs']
    exact ⟨.refl s, UInt32.add_zero _⟩
  have hpos : n.toNat ≠ 0 := fun he => hzero (UInt32.toNat_inj.1 he)
  have hbyte := hr.byte
  have hltn : n.toNat < (s.item r).count := by
    rw [UInt32.lt_iff_toNat_lt, UInt32.toNat_ofNat', Nat.mod_eq_of_lt (by omega)] at hlt
    exact hlt
  let it := (s.item r).setItemCount ((s.item r).count - n.toNat)
  have hbare : s'.bare = (s.setItem r it).bare :=
    bare_internalRemoveItem_part cfg h hr.mem hr.canRemove (by rw [hr.id]; exact hstack) hr.byte hpos hltn
  have hset : Owned (s.setItem r it) p := h.setItem rfl
  have howned : Owned s' p := hset.of_bare hbare
  have hitem : s'.item = (s.setItem r it).item := congr_bare (f := State.item) item_bare hbare
  have hself : s'.item r = it := by
    rw [hitem, item_setItem, if_pos rfl]
  have hrest {x : Ref} (hx : x ≠ r) : s'.item x = s.item x := by
    rw [hitem, item_setItem, if_neg hx]
  have hcarried : s'.carried p = s.carried p := by
    have hc : (s.setItem r it).carried p = s.carried p := by
      unfold State.carried
      rw [holder_setItem]
      rfl
    rw [← hc]
    exact congr_bare (f := fun s => s.carried p) (fun _ => rfl) hbare
  refine ⟨(Spares.setItem hother).of_bare hbare, ?_⟩
  have hid : (fun x => (s'.item x).id = itemId) = fun x => (s.item x).id = itemId := by
    funext x
    by_cases hx : x = r
    · subst hx
      rw [hself]
      rfl
    · rw [hrest hx]
  have hmem : r ∈ (s.carried p).filter fun x => (s.item x).id = itemId := Finset.mem_filter.2 ⟨hr.mem, hr.id⟩
  have hsum : ∑ x ∈ ((s.carried p).filter fun x => (s.item x).id = itemId).erase r, countByType cfg s' x (-1) =
      ∑ x ∈ ((s.carried p).filter fun x => (s.item x).id = itemId).erase r, countByType cfg s x (-1) := by
    refine Finset.sum_congr rfl fun x hx => ?_
    unfold countByType
    rw [hrest (Finset.mem_erase.1 hx).1]
  have hleft : countByType cfg s' r (-1) + n = countByType cfg s r (-1) := by
    unfold countByType
    rw [if_pos (.inl rfl), if_pos (.inl rfl), hself]
    have hcount : it.count = (s.item r).count - n.toNat := Nat.mod_eq_of_lt (by omega)
    rw [hcount, ← UInt32.toNat_inj, UInt32.toNat_add, UInt32.toNat_ofNat', UInt32.toNat_ofNat']
    omega
  rw [Player.getItemTypeCount_eq howned, Player.getItemTypeCount_eq h, hcarried]
  simp only [hid]
  rw [← Finset.add_sum_erase _ _ hmem, ← Finset.add_sum_erase _ _ hmem, hsum, ← hleft]
  grind

/-- Of stacks exactly the amount is removed. -/
theorem removeStacks_removes (hstack : (cfg.items itemId).stackable = true) : ∀ {l : List Ref} {s : State}
    {amount : UInt32}, Owned s p → l.Nodup → (∀ x ∈ l, CarriedOfType canRemove s p itemId x ∧ other x = false) →
      amount.toNat ≤ (l.map fun x => (s.item x).count).sum →
        Spares other s (removeStacks cfg canRemove s amount l) ∧
          Player.getItemTypeCount cfg (removeStacks cfg canRemove s amount l) p itemId (-1) + amount =
            Player.getItemTypeCount cfg s p itemId (-1)
  | [], s, amount, _, _, _, hle => by
    have hzero : amount = 0 := UInt32.toNat_inj.1 (Nat.le_zero.1 hle)
    rw [hzero]
    exact ⟨.refl s, UInt32.add_zero _⟩
  | r :: l, s, amount, h, hnodup, hl, hle => by
    obtain ⟨hr, hother⟩ := hl r List.mem_cons_self
    obtain ⟨hnot, hnodup⟩ := List.nodup_cons.1 hnodup
    have hbyte := hr.byte
    have hcount : (UInt32.ofNat (s.item r).count).toNat = (s.item r).count := by
      rw [UInt32.toNat_ofNat', Nat.mod_eq_of_lt (by omega)]
    unfold removeStacks
    split
    · next hlt => exact hr.part h hother hstack hlt
    · next hge =>
      obtain ⟨howned, hspares, htotal, hkept⟩ := hr.whole cfg h hother
      have hrest {x : Ref} (hx : x ∈ l) : x ≠ r := by
        rintro rfl
        exact hnot hx
      have hcounts : (l.map fun x => ((internalRemoveItem cfg canRemove s r (-1)).2.item x).count) =
          l.map fun x => (s.item x).count := List.map_congr_left fun x hx =>
        (hkept x (hrest hx) (hl x (List.mem_cons_of_mem r hx)).1).1
      have hamount : (amount - .ofNat (s.item r).count).toNat = amount.toNat - (s.item r).count := by
        rw [UInt32.toNat_sub_of_le _ _ (UInt32.not_lt.1 hge), hcount]
      have hleft : (amount - .ofNat (s.item r).count).toNat ≤
          (l.map fun x => ((internalRemoveItem cfg canRemove s r (-1)).2.item x).count).sum := by
        rw [List.map_cons, List.sum_cons] at hle
        rw [hcounts, hamount]
        omega
      obtain ⟨hspares', htotal'⟩ := removeStacks_removes hstack howned hnodup (fun x hx =>
        ⟨(hkept x (hrest hx) (hl x (List.mem_cons_of_mem r hx)).1).2, (hl x (List.mem_cons_of_mem r hx)).2⟩) hleft
      refine ⟨hspares.trans hspares', ?_⟩
      rw [← htotal, ← htotal']
      grind

/-- Of other items all are removed. -/
theorem foldl_removes : ∀ {l : List Ref} {s : State}, Owned s p → l.Nodup →
    (∀ x ∈ l, CarriedOfType canRemove s p itemId x ∧ other x = false) →
      Spares other s (l.foldl (fun s item => (internalRemoveItem cfg canRemove s item (-1)).2) s) ∧
        Player.getItemTypeCount cfg (l.foldl (fun s item => (internalRemoveItem cfg canRemove s item (-1)).2) s) p
            itemId (-1) + (l.map fun x => UInt32.ofNat (s.item x).count).sum =
          Player.getItemTypeCount cfg s p itemId (-1)
  | [], s, _, _, _ => ⟨.refl s, UInt32.add_zero _⟩
  | r :: l, s, h, hnodup, hl => by
    obtain ⟨hr, hother⟩ := hl r List.mem_cons_self
    obtain ⟨hnot, hnodup⟩ := List.nodup_cons.1 hnodup
    obtain ⟨howned, hspares, htotal, hkept⟩ := hr.whole cfg h hother
    have hrest {x : Ref} (hx : x ∈ l) : x ≠ r := by
      rintro rfl
      exact hnot hx
    have hcounts : (l.map fun x => UInt32.ofNat ((internalRemoveItem cfg canRemove s r (-1)).2.item x).count) =
        l.map fun x => UInt32.ofNat (s.item x).count := List.map_congr_left fun x hx =>
      congrArg _ (hkept x (hrest hx) (hl x (List.mem_cons_of_mem r hx)).1).1
    obtain ⟨hspares', htotal'⟩ := foldl_removes howned hnodup fun x hx =>
      ⟨(hkept x (hrest hx) (hl x (List.mem_cons_of_mem r hx)).1).2, (hl x (List.mem_cons_of_mem r hx)).2⟩
    rw [List.foldl_cons, List.map_cons, List.sum_cons]
    refine ⟨hspares.trans hspares', ?_⟩
    rw [← htotal, ← htotal', hcounts]
    grind

end Removed

/-! ### Exactly what is asked for -/

section Exact

variable (cfg : Config) (s : State) (p : CreatureId) (itemId : UInt16) (amount : UInt32)

/-- `removeItemOfType` returns whether there is enough; then the count falls by the
amount and nothing happens to other items, and else nothing happens. -/
structure RemovesExactly (result : Bool × State) : Prop where
  enough : result.1 = true ↔ amount ≤ Player.getItemTypeCount cfg s p itemId (-1)
  removed : result.1 = true →
    (Player.getItemTypeCount cfg result.2 p itemId (-1)).toNat + amount.toNat =
        (Player.getItemTypeCount cfg s p itemId (-1)).toNat ∧
      Spares (fun x => (s.item x).id ≠ itemId) s result.2
  unchanged : result.1 = false → result.2 = s

/-- Where the count of the first items of the type, in the order of the slots and
the iterators, is enough for the first time, that of all is enough, and the type
is stackable or there is no item too many. -/
def CountsExactly : Prop :=
  let count := countOf cfg s (slots.flatMap (Player.itemsOfType s p itemId false)) (-1)
  ∀ k, amount ≤ count k → (∀ j < k, count j < amount) →
    amount ≤ Player.getItemTypeCount cfg s p itemId (-1) ∧ ((cfg.items itemId).stackable = true ∨ count k = amount)

variable {cfg s p itemId amount} {canRemove : Ref → Bool}

/-- All items of the type together. -/
theorem countOf_length (h : Owned s p) (hplain : ∀ r, (s.item r).id = itemId → s.isContainer r = false) :
    countOf cfg s (slots.flatMap (Player.itemsOfType s p itemId false)) (-1)
        (slots.flatMap (Player.itemsOfType s p itemId false)).length =
      Player.getItemTypeCount cfg s p itemId (-1) := by
  have hcoe := Player.coe_itemsOfType h hplain
  unfold countOf
  rw [List.take_length, Player.getItemTypeCount_eq h, ← Multiset.sum_coe, ← Multiset.map_coe, hcoe]
  rfl

/-- The counts in 32 bits are no more than they are. -/
theorem toNat_sum_le (f : Ref → ℕ) : ∀ l : List Ref,
    (l.map fun x => UInt32.ofNat (f x)).sum.toNat ≤ (l.map f).sum
  | [] => le_rfl
  | x :: l => by
    have ih := toNat_sum_le f l
    rw [List.map_cons, List.map_cons, List.sum_cons, List.sum_cons, UInt32.toNat_add, UInt32.toNat_ofNat']
    have hx := Nat.mod_le (f x) (2 ^ 32)
    have hsum := Nat.mod_le (f x % 2 ^ 32 + (l.map fun x => UInt32.ofNat (f x)).sum.toNat) (2 ^ 32)
    omega

variable (amount) in
/-- The items collected, and what removing them does to the count. -/
theorem collected_removes (h : s.Wf cfg.items) (hplain : ∀ r, (s.item r).id = itemId → s.isContainer r = false)
    (hremove : ∀ r, (s.item r).id = itemId → canRemove r = true) {k : ℕ} :
    let l := slots.flatMap (Player.itemsOfType s p itemId false)
    let itemList := (l.take k).filter fun x => countByType cfg s x (-1) ≠ 0
    let s' := internalRemoveItems cfg canRemove s itemList amount (cfg.items itemId).stackable
    amount ≤ countOf cfg s l (-1) k →
      Spares (fun x => (s.item x).id ≠ itemId) s s' ∧
        Player.getItemTypeCount cfg s' p itemId (-1) +
            (if (cfg.items itemId).stackable then amount else countOf cfg s l (-1) k) =
          Player.getItemTypeCount cfg s p itemId (-1) := by
  intro l itemList s' hk
  have howned := h.owned p
  have hcoe : (l : Multiset Ref) = ((s.carried p).filter fun x => (s.item x).id = itemId).val :=
    Player.coe_itemsOfType howned hplain
  have hsub : itemList.Sublist l := List.filter_sublist.trans (List.take_sublist k l)
  have hnodup : l.Nodup := by
    rw [← Multiset.coe_nodup, hcoe]
    exact Finset.nodup _
  have hcount (x : Ref) : countByType cfg s x (-1) = .ofNat (s.item x).count := if_pos (.inl rfl)
  have hremovable : ∀ x ∈ itemList, CarriedOfType canRemove s p itemId x ∧ decide ((s.item x).id ≠ itemId) = false := by
    intro x hx
    have hxF : x ∈ (s.carried p).filter fun x => (s.item x).id = itemId := by
      rw [← Finset.mem_val, ← hcoe]
      exact hsub.subset hx
    obtain ⟨hcarried, hid⟩ := Finset.mem_filter.1 hxF
    have hpos : countByType cfg s x (-1) ≠ 0 := by simpa using (List.mem_filter.1 hx).2
    refine ⟨⟨hcarried, hid, hplain x hid, hremove x hid, fun he => hpos ?_, h.count x⟩, by simpa using hid⟩
    rw [hcount, he]
    rfl
  have hcounted : (itemList.map fun x => UInt32.ofNat (s.item x).count).sum = countOf cfg s l (-1) k := by
    rw [show (fun x => UInt32.ofNat (s.item x).count) = fun x => countByType cfg s x (-1) from
      funext fun x => (hcount x).symm]
    exact BreadthFirst.sum_filter_opens fun x hx => by simpa using hx
  have hnodup' : itemList.Nodup := hnodup.sublist hsub
  cases hstack : (cfg.items itemId).stackable with
  | true =>
    have hs' : s' = removeStacks cfg canRemove s amount itemList := if_pos hstack
    have hle : amount.toNat ≤ (itemList.map fun x => (s.item x).count).sum := by
      rw [← hcounted, UInt32.le_iff_toNat_le] at hk
      exact hk.trans (toNat_sum_le _ itemList)
    rw [hs', if_pos rfl]
    exact removeStacks_removes hstack howned hnodup' hremovable hle
  | false =>
    have hs' : s' = itemList.foldl (fun s item => (internalRemoveItem cfg canRemove s item (-1)).2) s :=
      if_neg (by rw [hstack]; exact Bool.false_ne_true)
    rw [hs', if_neg Bool.false_ne_true, ← hcounted]
    exact foldl_removes howned hnodup' hremovable

/-- When so much is removed. -/
theorem removesExactly_of_removed {s' : State} {removed : UInt32}
    (hspares : Spares (fun x => (s.item x).id ≠ itemId) s s')
    (hremoved : Player.getItemTypeCount cfg s' p itemId (-1) + removed = Player.getItemTypeCount cfg s p itemId (-1)) :
    RemovesExactly cfg s p itemId amount (true, s') ↔
      amount ≤ Player.getItemTypeCount cfg s p itemId (-1) ∧ removed = amount := by
  constructor
  · rintro ⟨henough, hexact, -⟩
    have hsum : Player.getItemTypeCount cfg s' p itemId (-1) + amount =
        Player.getItemTypeCount cfg s p itemId (-1) := by
      have hnat : (Player.getItemTypeCount cfg s' p itemId (-1)).toNat + amount.toNat =
          (Player.getItemTypeCount cfg s p itemId (-1)).toNat := (hexact rfl).1
      have hlt := (Player.getItemTypeCount cfg s p itemId (-1)).toNat_lt
      rw [← UInt32.toNat_inj, UInt32.toNat_add, Nat.mod_eq_of_lt (by omega)]
      exact hnat
    refine ⟨henough.1 rfl, ?_⟩
    rw [← hsum] at hremoved
    grind
  · rintro ⟨hle, rfl⟩
    refine ⟨iff_of_true rfl hle, fun _ => ⟨?_, hspares⟩, fun e => nomatch e⟩
    have hleft : Player.getItemTypeCount cfg s' p itemId (-1) =
        Player.getItemTypeCount cfg s p itemId (-1) - removed := by
      rw [← hremoved]
      grind
    rw [hleft, UInt32.toNat_sub_of_le _ _ hle]
    exact Nat.sub_add_cancel (UInt32.le_iff_toNat_le.1 hle)

/-- What `removeItemOfType` does is exact if and only if the items collected
count exactly the amount, or are of a stackable type. -/
theorem removesExactly_iff (h : s.Wf cfg.items) (hplain : ∀ r, (s.item r).id = itemId → s.isContainer r = false)
    (hremove : ∀ r, (s.item r).id = itemId → canRemove r = true) (hamount : amount ≠ 0) :
    RemovesExactly cfg s p itemId amount (Player.removeItemOfType cfg canRemove s p itemId amount (-1) false) ↔
      CountsExactly cfg s p itemId amount := by
  let l := slots.flatMap (Player.itemsOfType s p itemId false)
  have htotal : countOf cfg s l (-1) l.length = Player.getItemTypeCount cfg s p itemId (-1) :=
    countOf_length (h.owned p) hplain
  have hpos : (0 : UInt32) < amount := UInt32.pos_iff_ne_zero.2 hamount
  have hzero (k : ℕ) : 0 + countOf cfg s l (-1) k = countOf cfg s l (-1) k := UInt32.zero_add _
  have hcollects : Player.Collects cfg s amount (-1) l [] 0 (Player.collect cfg s amount (-1) l [] 0) :=
    Player.collects hpos
  unfold Player.removeItemOfType
  rw [if_neg hamount]
  rcases hcollects with ⟨k, hk, hfirst, hsome⟩ | ⟨hnone, hless⟩
  · simp only [hzero] at hk hfirst
    change RemovesExactly cfg s p itemId amount (match Player.collect cfg s amount (-1) l [] 0 with
      | some _ => _ | none => _) ↔ _
    rw [hsome]
    obtain ⟨hspares, hremoved⟩ := collected_removes amount h hplain hremove hk
    refine (removesExactly_of_removed hspares hremoved).trans ?_
    constructor
    · rintro ⟨hle, hexact⟩ j hj hbefore
      -- there is one first place
      have hjk : j = k := by
        rcases lt_trichotomy j k with hlt | he | hlt
        · exact absurd (hfirst j hlt) (UInt32.not_lt.2 hj)
        · exact he
        · exact absurd (hbefore k hlt) (UInt32.not_lt.2 hk)
      subst hjk
      refine ⟨hle, ?_⟩
      cases hstack : (cfg.items itemId).stackable with
      | true => exact .inl rfl
      | false =>
        rw [hstack, if_neg Bool.false_ne_true] at hexact
        exact .inr hexact
    · intro hcounts
      obtain ⟨hle, hexact⟩ := hcounts k hk hfirst
      refine ⟨hle, ?_⟩
      split
      · rfl
      · next hstack => exact hexact.resolve_left hstack
  · change RemovesExactly cfg s p itemId amount (match Player.collect cfg s amount (-1) l [] 0 with
      | some _ => _ | none => _) ↔ _
    rw [hnone]
    refine iff_of_true ⟨?_, (fun e => nomatch e), fun _ => rfl⟩ fun k hk => ?_
    · refine iff_of_false Bool.false_ne_true fun hle => ?_
      rw [← htotal, ← hzero] at hle
      exact absurd (hless l.length) (UInt32.not_lt.2 hle)
    · rw [← hzero] at hk
      exact absurd (hless k) (UInt32.not_lt.2 hk)

/-- Bags, arrows, and torches that are no stacks. -/
def satchelTypes (id : UInt16) : ItemType :=
  { id, group := if id = 1 then .container else .none, stackable := id = 2, weight := 10 }

def satchelConfig : Config := { items := satchelTypes }

/-- A player has a bag with five arrows and with a torch that was made from a
stack of five. -/
def satchel : State where
  things
    | 0 => { item := ⟨.container, 1, 1, none, (0, 0, 0), 0, 0, 0⟩, parent := some (.player 0), maxSize := 8,
             itemlist := [1, 2], totalWeight := 60 }
    | 1 => { item := ⟨.item, 2, 5, none, (0, 0, 0), 0, 0, 0⟩, parent := some (.container 0) }
    | 2 => { item := ⟨.item, 3, 5, none, (0, 0, 0), 0, 0, 0⟩, parent := some (.container 0) }
    | _ => { item := ⟨.item, 0, 1, none, (0, 0, 0), 0, 0, 0⟩ }
  players
    | 0 => { inventory := fun i => if i = 3 then some 0 else none, tile := ⟨0, 0, 7⟩ }
    | _ => { tile := ⟨0, 0, 7⟩ }
  next := 3

theorem satchel_wf : satchel.Wf satchelTypes := by
  apply Wf.of_placed (fun r => if r = 0 then 0 else 1) [.player 0, .container 0]
  · intro c hc
    simp only [List.mem_cons, List.not_mem_nil, or_false, not_or] at hc
    cases c with
    | container q =>
      match q, hc.2 with
      | 0, hq => exact absurd rfl hq
      | 1, _ | 2, _ | _ + 3, _ => rfl
    | player p =>
      match p, hc.1 with
      | 0, hp => exact absurd rfl hp
      | _ + 1, _ => rfl
    | tile t => rfl
    | device r => rfl
  · decide
  · exact fun t => ⟨[], [], rfl, by decide, fun g hg => (nomatch hg), fun l hl => (nomatch hl), by decide⟩
  · decide
  · intro r hr
    match r, hr with
    | 0, hr | 1, hr | 2, hr => exact absurd hr (by decide)
    | n + 3, _ => exact ⟨rfl, rfl⟩

theorem satchel_plain {itemId : UInt16} (hid : itemId ≠ 1) (r : Ref) (hr : (satchel.item r).id = itemId) :
    satchel.isContainer r = false := by
  match r with
  | 0 => exact absurd hr.symm hid
  | 1 | 2 | n + 3 => rfl

/-- Three of the arrows are removed. -/
theorem removesExactly_iff_satchel : RemovesExactly satchelConfig satchel 0 2 3
    (Player.removeItemOfType satchelConfig (fun _ => true) satchel 0 2 3 (-1) false) := by
  refine (removesExactly_iff satchel_wf (satchel_plain (by decide)) (fun _ _ => rfl) (by decide)).2 ?_
  exact fun k _ _ => ⟨by decide, .inl rfl⟩

/-- One torch is asked for, and all five that are counted are gone. -/
theorem not_removesExactly : ¬ ∀ (cfg : Config) (canRemove : Ref → Bool) (s : State) (p : CreatureId)
    (itemId : UInt16) (amount : UInt32), s.Wf cfg.items →
      (∀ r, (s.item r).id = itemId → s.isContainer r = false) →
        (∀ r, (s.item r).id = itemId → canRemove r = true) → amount ≠ 0 →
          RemovesExactly cfg s p itemId amount
            (Player.removeItemOfType cfg canRemove s p itemId amount (-1) false) := by
  intro hall
  have hexact := hall satchelConfig (fun _ => true) satchel 0 3 1 satchel_wf (satchel_plain (by decide))
    (fun _ _ => rfl) (by decide)
  exact absurd (hexact.removed (by decide)).1 (by decide)

end Exact

end Inventory
end ForgottenServer
