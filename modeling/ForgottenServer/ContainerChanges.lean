/-
# Runs of changes in containers

Things are put into containers in front, at the back or in the place of others,
changed, and taken out in part or whole, container trees as well as single
items. New objects may be created in between.

Key definitions: `addItemBack`, `internalAddThing`, `replaceThing`, `Change`,
`change`, `Allowed`, `Run`.
Key theorems: `change_weighed`, `weighed_of_run`.
-/
import ForgottenServer.ContainerWeight

namespace ForgottenServer
namespace Inventory

open Ancestry Nesting Relation State Sum32

section Code

variable (cfg : Config)

/-- A new object. -/
def State.create (s : State) (item : Item) (maxSize : UInt16) : State :=
  { s.setThing s.next { item, maxSize } with next := s.next + 1 }

/-- `Container::addItemBack` -/
def addItemBack (s : State) (q r : Ref) : State :=
  let s := (s.setItemlist q ((s.things q).itemlist ++ [r])).setParent r (some (.container q))
  s.updateItemWeight q (s.getWeight cfg.items r)

/-- `Container::internalAddThing` -/
def internalAddThing (s : State) (q r : Ref) : State :=
  let s := s.setParent r (some (.container q))
  let s := s.setItemlist q (r :: (s.things q).itemlist)
  s.updateItemWeight q (s.getWeight cfg.items r)

/-- `Container::replaceThing` -/
def replaceThing (s : State) (q : Ref) (index : ℕ) (r : Ref) : State :=
  match s.getItemByIndex q index with
  | none => s
  | some replacedItem =>
    let s := (s.setItemlist q ((s.things q).itemlist.set index r)).setParent r (some (.container q))
    let s := s.updateItemWeight q (-s.getWeight cfg.items replacedItem + s.getWeight cfg.items r)
    s.setParent replacedItem none

/-- A call on a container, or a new object. -/
inductive Change
  | create (item : Item) (maxSize : UInt16)
  | addThing (q : Ref) (index : ℤ) (r : Ref)
  | addItemBack (q r : Ref)
  | internalAddThing (q r : Ref)
  | updateThing (q r : Ref) (itemId : UInt16) (count : ℕ)
  | replaceThing (q : Ref) (index : ℕ) (r : Ref)
  | removeThing (q r : Ref) (count : ℕ)

def change (s : State) : Change → Option State
  | .create item maxSize => some (s.create item maxSize)
  | .addThing q index r => addThing cfg s index r (.container q)
  | .addItemBack q r => some (addItemBack cfg s q r)
  | .internalAddThing q r => some (internalAddThing cfg s q r)
  | .updateThing q r itemId count => some (updateThing cfg s r itemId count (.container q))
  | .replaceThing q index r => some (replaceThing cfg s q index r)
  | .removeThing q r count => some (removeThing cfg s r count (.container q))

/-- What is put into a container does not lie in one, and is not one that the
container lies in. -/
def Allowed (s : State) : Change → Prop
  | .addThing q _ r | .addItemBack q r | .internalAddThing q r | .replaceThing q _ r => s.Fits q r
  | _ => True

/-- A run of allowed changes. -/
inductive Run (s : State) : State → Prop
  | start : Run s s
  | step {s' s'' : State} {a : Change} (h : Run s s') (hallowed : Allowed s' a)
      (hchange : change cfg s' a = some s'') : Run s s''

end Code

section Steps

variable {cfg : Config} {s s' : State} {q r x y : Ref} {index : ℤ} {l : List Ref} {count : ℕ}

theorem eq_add_sub (a b : UInt32) : b = a + (b - a) := by grind

theorem put_setItemlist (hl : l.Perm (r :: (s.things q).itemlist)) :
    Put s ((s.setItemlist q l).setParent r (some (.container q))) q r where
  parent := by
    funext x
    rw [parent_setParent, parent_setItemlist, Function.update_apply]
  perm := by
    rw [itemlist_setParent, itemlist_setItemlist, if_pos rfl]
    exact hl
  itemlist y hy := by rw [itemlist_setParent, itemlist_setItemlist, if_neg hy]
  item := by rw [item_setParent, item_setItemlist]
  totalWeight y := by rw [totalWeight_setParent, totalWeight_setItemlist]
  next := rfl

theorem put_setParent :
    Put s ((s.setParent r (some (.container q))).setItemlist q (r :: (s.things q).itemlist)) q r where
  parent := by
    funext x
    rw [parent_setItemlist, parent_setParent, Function.update_apply]
  perm := by rw [itemlist_setItemlist, if_pos rfl]
  itemlist y hy := by rw [itemlist_setItemlist, if_neg hy, itemlist_setParent]
  item := by rw [item_setItemlist, item_setParent]
  totalWeight y := by rw [totalWeight_setItemlist, totalWeight_setParent]
  next := rfl

theorem taken_setParent (hl : (r :: l).Perm (s.things q).itemlist) :
    Taken s ((s.setParent r none).setItemlist q l) q r where
  parent := by
    funext x
    rw [parent_setItemlist, parent_setParent, Function.update_apply]
  perm := by
    rw [itemlist_setItemlist, if_pos rfl]
    exact hl
  itemlist y hy := by rw [itemlist_setItemlist, if_neg hy, itemlist_setParent]
  item := by rw [item_setItemlist, item_setParent]
  totalWeight y := by rw [totalWeight_setItemlist, totalWeight_setParent]
  next := rfl

theorem addThing_weighed (hf : s.Forest) (hw : s.Weighed cfg.items) (hr : s.Fits q r)
    (h : addThing cfg s index r (.container q) = some s') : s'.Forest ∧ s'.Weighed cfg.items := by
  unfold addThing at h
  dsimp only at h
  split at h
  · exact Option.some.inj h ▸ ⟨hf, hw⟩
  · rw [itemlist_setParent] at h
    exact Option.some.inj h ▸ hw.put hf hr put_setParent

theorem addItemBack_weighed (hf : s.Forest) (hw : s.Weighed cfg.items) (hr : s.Fits q r) :
    (addItemBack cfg s q r).Forest ∧ (addItemBack cfg s q r).Weighed cfg.items :=
  hw.put hf hr (put_setItemlist (List.perm_append_singleton r _))

theorem internalAddThing_weighed (hf : s.Forest) (hw : s.Weighed cfg.items) (hr : s.Fits q r) :
    (internalAddThing cfg s q r).Forest ∧ (internalAddThing cfg s q r).Weighed cfg.items := by
  unfold internalAddThing
  dsimp only
  rw [itemlist_setParent]
  exact hw.put hf hr put_setParent

theorem updateThing_weighed (hf : s.Forest) (hw : s.Weighed cfg.items) {itemId : UInt16} :
    (updateThing cfg s r itemId count (.container q)).Forest ∧
      (updateThing cfg s r itemId count (.container q)).Weighed cfg.items := by
  unfold updateThing
  split
  · exact ⟨hf, hw⟩
  next hidx =>
  have hr : r ∈ (s.things q).itemlist := by
    by_contra hr
    have hc : Carries (.container q) := trivial
    exact hidx ((getThingIndex_eq_neg_one hc).2 hr)
  dsimp only
  refine hw.change hf hr ?_ ?_
  · rw [Item.setSubType_cls, Item.setID_cls]
  · exact eq_add_sub _ _

theorem removeThing_weighed (hf : s.Forest) (hw : s.Weighed cfg.items) :
    (removeThing cfg s r count (.container q)).Forest ∧
      (removeThing cfg s r count (.container q)).Weighed cfg.items := by
  unfold removeThing
  dsimp only
  split
  · exact ⟨hf, hw⟩
  next hidx =>
  have hr : r ∈ (s.things q).itemlist := by
    by_contra hr
    have hc : Carries (.container q) := trivial
    exact hidx ((getThingIndex_eq_neg_one hc).2 hr)
  split
  · refine hw.take hf (taken_setParent ?_)
    have hlist : ((s.updateItemWeight q (-s.getWeight cfg.items r)).things q).itemlist = (s.things q).itemlist :=
      congr_bare (f := fun s => (s.things q).itemlist) (fun _ => rfl) (bare_updateItemWeight s q _)
    rw [hlist, getThingIndex_container hr, Int.toNat_natCast, List.eraseIdx_idxOf_eq_erase]
    exact (List.perm_cons_erase hr).symm
  · have hcls (n : ℕ) : ((s.item r).setItemCount n).cls = (s.item r).cls := rfl
    exact hw.change hf hr (hcls _) (eq_add_sub _ _)

/-- Without the weights the old item is taken out and the new one put in. -/
theorem forest_replaced (hf : s.Forest) (hr : s.Fits q r) {old : Ref} {rest : List Ref}
    (hold : (old :: rest).Perm (s.things q).itemlist) (hnew : l.Perm (r :: rest)) :
    (((s.setItemlist q l).setParent r (some (.container q))).setParent old none).Forest := by
  have hne : r ≠ old := by
    rintro rfl
    exact nomatch hr.free.symm.trans ((hf.mem_iff_holder q r).1 (hold.mem_iff.1 List.mem_cons_self))
  have htaken : Taken s ((s.setParent old none).setItemlist q rest) q old := taken_setParent hold
  have hsub (y x : Ref) (hx : ((s.setParent old none).setItemlist q rest).holder x = some y) :
      s.holder x = some y := by
    rw [holder_eq_some, htaken.parent, Function.update_apply] at hx
    split at hx
    · exact nomatch hx
    · exact holder_eq_some.2 hx
  have hfits : ((s.setParent old none).setItemlist q rest).Fits q r := by
    refine ⟨isContainer_congr htaken.item ▸ hr.isContainer, hr.container_lt, hr.item_lt, ?_, fun hw => ?_⟩
    · by_contra hsome
      obtain ⟨y, hy⟩ := Option.ne_none_iff_exists'.1 hsome
      exact nomatch hr.free.symm.trans (hsub y r hy)
    · exact hr.not_within (hw.lift id fun x y => hsub y x)
  refine (hf.take htaken).put hfits ⟨?_, ?_, fun y hy => ?_, ?_, fun y => ?_, rfl⟩
  · funext x
    rw [parent_setParent, parent_setParent, parent_setItemlist, Function.update_apply, parent_setItemlist,
      parent_setParent]
    by_cases hx : x = old
    · rw [if_pos hx, if_neg (hx ▸ hne.symm), if_pos hx]
    · rw [if_neg hx, if_neg hx]
  · rw [itemlist_setParent, itemlist_setParent, itemlist_setItemlist, if_pos rfl, itemlist_setItemlist, if_pos rfl]
    exact hnew
  · rw [itemlist_setParent, itemlist_setParent, itemlist_setItemlist, if_neg hy, itemlist_setItemlist, if_neg hy,
      itemlist_setParent]
  · rw [item_setParent, item_setParent, item_setItemlist, item_setItemlist, item_setParent]
  · rw [totalWeight_setParent, totalWeight_setParent, totalWeight_setItemlist, totalWeight_setItemlist,
      totalWeight_setParent]

/-- The item at an index is replaced, and the difference of the weights added
while both have the container as their parent. -/
theorem replaceThing_weighed (hf : s.Forest) (hw : s.Weighed cfg.items) (hr : s.Fits q r) {index : ℕ} :
    (replaceThing cfg s q index r).Forest ∧ (replaceThing cfg s q index r).Weighed cfg.items := by
  unfold replaceThing
  split
  · exact ⟨hf, hw⟩
  next old hold =>
  have hget : (s.things q).itemlist[index]? = some old := by
    unfold getItemByIndex at hold
    rwa [if_neg (by omega), Int.toNat_natCast] at hold
  obtain ⟨hlt, rfl⟩ := List.getElem?_eq_some_iff.1 hget
  generalize hl : (s.things q).itemlist.set index r = l
  generalize hrest : (s.things q).itemlist.eraseIdx index = rest
  have hold : ((s.things q).itemlist[index] :: rest).Perm (s.things q).itemlist :=
    hrest ▸ List.getElem_cons_eraseIdx_perm hlt
  have hnew : l.Perm (r :: rest) := hl ▸ hrest ▸ List.set_perm_cons_eraseIdx hlt r
  generalize (s.things q).itemlist[index] = old at hold ⊢
  dsimp only
  let t := (s.setItemlist q l).setParent r (some (.container q))
  let d := -t.getWeight cfg.items old + t.getWeight cfg.items r
  let s' := (t.updateItemWeight q d).setParent old none
  change s'.Forest ∧ s'.Weighed cfg.items
  have hbare : s'.bare = (t.setParent old none).bare := by
    rw [bare_setParent, bare_setParent, bare_updateItemWeight]
  have hf' : s'.Forest := (forest_replaced hf hr hold hnew).of_bare hbare
  have hparent : t.holder = Function.update s.holder r (some q) := by
    apply holder_of_parent
    funext x
    rw [parent_setParent, parent_setItemlist, Function.update_apply]
  have hnested : Nested (Finset.range t.next) t.holder := by
    rw [hparent]
    exact hf.nested.update_some (Finset.mem_range.2 hr.container_lt) (Finset.mem_range.2 hr.item_lt) hr.not_within
  have hitem : s'.item = s.item := by
    have h : s'.item = (t.setParent old none).item := congr_bare (f := State.item) (fun _ => rfl) hbare
    rw [h, item_setParent, item_setParent, item_setItemlist]
  have hlist (y : Ref) : (s'.things y).itemlist = if y = q then l else (s.things y).itemlist := by
    have h : (s'.things y).itemlist = ((t.setParent old none).things y).itemlist :=
      congr_bare (f := fun s => (s.things y).itemlist) (fun _ => rfl) hbare
    rw [h, itemlist_setParent, itemlist_setParent, itemlist_setItemlist]
  have htotal : (fun y => (t.things y).totalWeight) = fun y => (s.things y).totalWeight := by
    funext y
    rw [totalWeight_setParent, totalWeight_setItemlist]
  have hweight (x : Ref) : t.getWeight cfg.items x = s.getWeight cfg.items x := by
    have hitem : t.item = s.item := by rw [item_setParent, item_setItemlist]
    have hx : (t.things x).totalWeight = (s.things x).totalWeight := congrFun htotal x
    unfold getWeight
    rw [isContainer_congr hitem, hitem, hx]
  refine ⟨hf', hw.of_spread hf hf' hr.isContainer hnested (d := d) (fun y hy x => ?_) (isContainer_congr hitem) ?_
    (fun y hy => (hlist y).trans (if_neg hy)) (fun _ _ x _ => congrFun hitem x) (fun x hx => ?_) ?_⟩
  · rw [hparent, Function.update_apply]
    split
    · next hx =>
      rw [hx, hr.free]
      exact iff_of_false (fun e => hy (Option.some.inj e).symm) (fun e => nomatch e)
    · rfl
  · have hkeep : (fun y => (s'.things y).totalWeight) = fun y => ((t.updateItemWeight q d).things y).totalWeight :=
      funext fun y => totalWeight_setParent _ y none
    rw [hkeep, totalWeight_updateItemWeight hnested, htotal]
  · -- what is in the container now has it as its parent
    rw [hlist, if_pos rfl, hnew.mem_iff, List.mem_cons] at hx
    have hxq : t.holder x = some q := by
      rw [hparent, Function.update_apply]
      split
      · rfl
      · next hne =>
        exact (hf.mem_iff_holder q x).1 (hold.mem_iff.1 (List.mem_cons_of_mem _ (hx.resolve_left hne)))
    exact fun hqx => hnested.acyclic q (.tail' hqx hxq)
  · have hsame : (l.map fun x => s'.ownWeight cfg.items x + s.heldWeight x) = l.map (s.getWeight cfg.items) := by
      refine List.map_congr_left fun x _ => ?_
      rw [getWeight_eq cfg.items s x]
      unfold ownWeight
      rw [hitem]
    rw [hlist, if_pos rfl, hsame, (hnew.map _).sum_eq, ← (hold.map _).sum_eq, List.map_cons, List.map_cons,
      List.sum_cons, List.sum_cons]
    change _ = _ + (-t.getWeight cfg.items old + t.getWeight cfg.items r)
    rw [hweight, hweight]
    generalize (rest.map (s.getWeight cfg.items)).sum = b
    grind

theorem things_create (s : State) (it : Item) (n : UInt16) :
    (s.create it n).things x = if x = s.next then { item := it, maxSize := n } else s.things x :=
  s.things_setThing s.next x _

theorem holder_next (h : s.Forest) : s.holder s.next = none := by
  by_contra hne
  obtain ⟨q, hq⟩ := Option.ne_none_iff_exists'.1 hne
  exact absurd (Finset.mem_range.1 (h.nested.mem hq).2) (lt_irrefl _)

/-- The new object is held by nothing. -/
theorem holder_create (h : s.Forest) (it : Item) (n : UInt16) : (s.create it n).holder = s.holder := by
  funext x
  by_cases hx : x = s.next
  · rw [hx, holder_next h]
    unfold State.holder State.parent
    rw [things_create, if_pos rfl]
  · unfold State.holder State.parent
    rw [things_create, if_neg hx]

/-- The new object holds nothing. -/
theorem itemlist_create (h : s.Forest) (it : Item) (n : UInt16) :
    ((s.create it n).things q).itemlist = (s.things q).itemlist := by
  rw [things_create]
  split
  · next hq =>
    refine (List.eq_nil_iff_forall_not_mem.2 fun x hx => ?_).symm
    have hmem := (h.nested.mem ((h.mem_iff_holder q x).1 hx)).1
    exact absurd (Finset.mem_range.1 hmem) (hq ▸ lt_irrefl _)
  · rfl

theorem create_forest (h : s.Forest) (it : Item) (n : UInt16) : (s.create it n).Forest where
  mem_itemlist y x := by
    rw [itemlist_create h, ← holder_eq_some, holder_create h, holder_eq_some]
    exact h.mem_itemlist y x
  nodup y := by
    rw [itemlist_create h]
    exact h.nodup y
  isContainer y x hx := by
    rw [← holder_eq_some, holder_create h] at hx
    have hlt := Finset.mem_range.1 (h.nested.mem hx).1
    unfold isContainer State.item
    rw [things_create, if_neg hlt.ne]
    exact h.isContainer y x (holder_eq_some.1 hx)
  nested := by
    rw [holder_create h]
    refine ⟨fun {y x} hx => ?_, h.nested.acyclic⟩
    obtain ⟨hy, hx⟩ := h.nested.mem hx
    exact ⟨Finset.range_subset_range.2 s.next.le_succ hy, Finset.range_subset_range.2 s.next.le_succ hx⟩

theorem create_weighed (hf : s.Forest) (hw : s.Weighed cfg.items) (item : Item) (maxSize : UInt16) :
    (s.create item maxSize).Forest ∧ (s.create item maxSize).Weighed cfg.items := by
  refine ⟨create_forest hf item maxSize, fun y hy => ?_⟩
  rw [itemlist_create hf]
  by_cases he : y = s.next
  · have hnil : (s.things s.next).itemlist = [] := by
      rw [← itemlist_create hf item maxSize, things_create, if_pos rfl]
    rw [he, hnil, things_create, if_pos rfl]
    rfl
  · have hold {x : Ref} (hx : x ≠ s.next) : (s.create item maxSize).things x = s.things x := by
      rw [things_create, if_neg hx]
    unfold isContainer State.item at hy
    rw [hold he] at hy
    rw [hold he, hw y hy]
    refine congrArg List.sum (List.map_congr_left fun x hx => ?_)
    have hlt := Finset.mem_range.1 (hf.nested.mem ((hf.mem_iff_holder y x).1 hx)).2
    unfold getWeight isContainer State.item
    rw [hold hlt.ne]

/-- What one change preserves. -/
theorem change_weighed (hf : s.Forest) (hw : s.Weighed cfg.items) {a : Change} (ha : Allowed s a)
    (h : change cfg s a = some s') : s'.Forest ∧ s'.Weighed cfg.items := by
  cases a with
  | create item maxSize => exact Option.some.inj h ▸ create_weighed hf hw item maxSize
  | addThing q index r => exact addThing_weighed hf hw ha h
  | addItemBack q r => exact Option.some.inj h ▸ addItemBack_weighed hf hw ha
  | internalAddThing q r => exact Option.some.inj h ▸ internalAddThing_weighed hf hw ha
  | updateThing q r itemId count => exact Option.some.inj h ▸ updateThing_weighed hf hw
  | replaceThing q index r => exact Option.some.inj h ▸ replaceThing_weighed hf hw ha
  | removeThing q r count => exact Option.some.inj h ▸ removeThing_weighed hf hw

end Steps

/-! ### Whole runs -/

section Runs

variable {cfg : Config} {s s' : State}

theorem Run.weighed (h : Run cfg s s') (hf : s.Forest) (hw : s.Weighed cfg.items) :
    s'.Forest ∧ s'.Weighed cfg.items := by
  induction h with
  | start => exact ⟨hf, hw⟩
  | step _ hallowed hchange ih => exact change_weighed ih.1 ih.2 hallowed hchange

/-- A container weighs what it weighs itself and all that lies inside. -/
theorem getWeight_eq_sum (hf : s.Forest) (hw : s.Weighed cfg.items) (q : Ref) :
    s.getWeight cfg.items q =
      s.ownWeight cfg.items q + ∑ r ∈ inside (Finset.range s.next) s.holder q, s.ownWeight cfg.items r := by
  rw [getWeight_eq, ← (hf.weighed_iff.1 hw).total_eq hf.nested hf.mem_iff_holder hf.nodup]

theorem toNat_sum_ownWeight (S : Finset Ref) (f : Ref → UInt32) :
    (∑ r ∈ S, f r).toNat = (∑ r ∈ S, (f r).toNat) % 2 ^ 32 := by
  induction S using Finset.induction_on with
  | empty => rfl
  | insert r S hr ih =>
    rw [Finset.sum_insert hr, Finset.sum_insert hr]
    change (f r + ∑ r ∈ S, f r).toNat = _
    rw [UInt32.toNat_add, ih, Nat.add_mod_mod]

/-- In every state of a run the total weights are the sums of the weights of
what lies directly in the containers, and a container weighs, in 32 bits, what
it weighs itself and everything inside at any depth; an item has nothing inside. -/
theorem weighed_of_run (hf : s.Forest) (hw : s.Weighed cfg.items) (h : Run cfg s s') :
    s'.Weighed cfg.items ∧ ∀ q,
      (s'.getWeight cfg.items q).toNat = ((s'.ownWeight cfg.items q).toNat +
        ∑ r ∈ inside (Finset.range s'.next) s'.holder q, (s'.ownWeight cfg.items r).toNat) % 2 ^ 32 := by
  obtain ⟨hf', hw'⟩ := h.weighed hf hw
  refine ⟨hw', fun q => ?_⟩
  rw [getWeight_eq_sum hf' hw' q, UInt32.toNat_add, toNat_sum_ownWeight, Nat.add_mod_mod]

end Runs

/-! ### A bag -/

/-- Bags and fruits. -/
def bagItems (id : UInt16) : ItemType := { id, group := if id = 1 then .container else .none, weight := 800 }

def bagConfig : Config := { items := bagItems }

/-- No object yet. -/
def bagStart : State where
  things _ := { item := { cls := .item, id := 0, count := 1, attributes := none } }
  players _ := { tile := ⟨0, 0, 7⟩ }
  next := 0

/-- A fruit is put into a bag. -/
theorem weighed_of_run_bag : ∃ s', Run bagConfig bagStart s' ∧ (s'.things 0).itemlist = [1] ∧
    s'.Weighed bagItems := by
  have hf : bagStart.Forest := by
    refine ⟨fun q r => iff_of_false List.not_mem_nil (fun e => nomatch e), fun q => List.nodup_nil,
      fun q r hr => (nomatch hr), fun {q r} hr => (nomatch hr), fun r hr => ?_⟩
    obtain ⟨y, hy, -⟩ := TransGen.head'_iff.1 hr
    exact nomatch hy
  have hw : bagStart.Weighed bagItems := fun q hq => nomatch hq
  let bag : Change := .create { cls := .container, id := 1, count := 1, attributes := none } 8
  let fruit : Change := .create { cls := .item, id := 2, count := 1, attributes := none } 0
  let s₂ := (bagStart.create { cls := .container, id := 1, count := 1, attributes := none } 8).create
    { cls := .item, id := 2, count := 1, attributes := none } 0
  have hrun : Run bagConfig bagStart s₂ := .step (a := fruit) (.step (a := bag) .start trivial rfl) trivial rfl
  have hfits : s₂.Fits 0 1 := by
    refine ⟨rfl, by decide, by decide, rfl, fun hw => ?_⟩
    rcases ReflTransGen.cases_head hw with he | ⟨y, hy, -⟩
    · exact nomatch he
    · exact nomatch hy
  have hadd : Run bagConfig bagStart _ := .step (a := .addThing 0 0 1) hrun hfits rfl
  exact ⟨_, hadd, rfl, (weighed_of_run hf hw hadd).1⟩

end Inventory
end ForgottenServer
