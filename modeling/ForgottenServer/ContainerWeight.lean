/-
# The weight of a container

A container keeps the weight of all that lies in it at any depth. Every change
in a container adds the difference to its total weight and to those of the
containers it lies in, up the parents as they are at that moment.

Over any run of such changes every total weight stays the sum of the weights of
the items that lie directly in the container, so the weight of a container is
its own and that of everything inside.

Key definitions: `State.Forest`, `State.Weighed`, `Change`, `Allowed`, `Run`.
Key theorems: `totalWeight_updateItemWeight`, `Weighed.of_spread`,
`weighed_of_run`.
-/
import ForgottenServer.Lib.Nesting
import ForgottenServer.InventoryPlaces

namespace ForgottenServer

namespace Item

theorem removeAttribute_cls (it : Item) (t : ItemAttr) : (it.removeAttribute t).cls = it.cls := rfl

theorem setID_cls (items : UInt16 → ItemType) (it : Item) (newid : UInt16) :
    (it.setID items newid).cls = it.cls := by
  unfold setID
  dsimp only
  split <;> split <;> simp only [setDuration, setIntAttr_cls, removeAttribute_cls]

theorem setSubType_cls (items : UInt16 → ItemType) (it : Item) (n : ℕ) : (it.setSubType items n).cls = it.cls := by
  unfold setSubType
  split
  · rfl
  split
  · rfl
  split <;> rfl

end Item

namespace Inventory

namespace Sum32

/-- Sums in 32 bits. -/
scoped instance addCommMonoid : AddCommMonoid UInt32 where
  add_assoc := UInt32.add_assoc
  zero_add := UInt32.zero_add
  add_zero := UInt32.add_zero
  add_comm := UInt32.add_comm
  nsmul := nsmulRec

end Sum32

open Ancestry Nesting Relation Sum32

namespace State

/-- The container that holds an item. -/
def holder (s : State) (r : Ref) : Option Ref :=
  match s.parent r with
  | some (.container q) => some q
  | _ => none

/-- The containers hold the items whose parents they are, and none holds itself. -/
structure Forest (s : State) : Prop where
  mem_itemlist : ∀ q r, r ∈ (s.things q).itemlist ↔ s.parent r = some (.container q)
  nodup : ∀ q, (s.things q).itemlist.Nodup
  isContainer : ∀ q r, s.parent r = some (.container q) → s.isContainer q = true
  nested : Nested (Finset.range s.next) s.holder

section Weights

variable (items : UInt16 → ItemType) (s : State)

/-- The weight of an item without what lies in it. -/
def ownWeight (r : Ref) : UInt32 := (s.item r).getWeight items

/-- The weight of what lies in it, for a container. -/
def heldWeight (r : Ref) : UInt32 := if s.isContainer r then (s.things r).totalWeight else 0

/-- Every total weight is the sum of the weights of the items that lie directly
in the container. -/
def Weighed : Prop :=
  ∀ q, s.isContainer q = true → (s.things q).totalWeight = ((s.things q).itemlist.map (s.getWeight items)).sum

end Weights

variable {items : UInt16 → ItemType} {s s' : State} {q r x y : Ref} {H : Ref → Option Ref} {d : UInt32}
  {S : Finset Ref}

theorem holder_eq_some : s.holder r = some q ↔ s.parent r = some (.container q) := by
  unfold holder
  split
  · next q' h => rw [h, Option.some.injEq, Option.some.injEq, Cylinder.container.injEq]
  · next h => exact iff_of_false (fun e => nomatch e) (h q)

theorem getWeight_eq (items : UInt16 → ItemType) (s : State) (r : Ref) :
    s.getWeight items r = s.ownWeight items r + s.heldWeight r := by
  unfold getWeight ownWeight heldWeight
  split
  · rfl
  · exact (UInt32.add_zero _).symm

theorem Forest.mem_iff_holder (h : s.Forest) (q r : Ref) : r ∈ (s.things q).itemlist ↔ s.holder r = some q :=
  (h.mem_itemlist q r).trans holder_eq_some.symm

theorem Forest.itemlist_of_not_container (h : s.Forest) (hq : s.isContainer q = false) :
    (s.things q).itemlist = [] := by
  refine List.eq_nil_iff_forall_not_mem.2 fun r hr => ?_
  have hcont := h.isContainer q r ((h.mem_itemlist q r).1 hr)
  exact Bool.false_ne_true (hq.symm.trans hcont)

/-- In these words the total weights are balanced. -/
theorem Forest.weighed_iff (h : s.Forest) :
    s.Weighed items ↔ Totals (fun q => (s.things q).itemlist) (s.ownWeight items) s.heldWeight := by
  have hsum (q : Ref) : ((s.things q).itemlist.map fun r => s.ownWeight items r + s.heldWeight r).sum =
      ((s.things q).itemlist.map (s.getWeight items)).sum :=
    congrArg List.sum (List.map_congr_left fun r _ => (s.getWeight_eq items r).symm)
  constructor
  · intro hw q
    rw [hsum]
    unfold heldWeight
    split
    · next hq => exact hw q hq
    · next hq =>
      rw [h.itemlist_of_not_container (by simpa using hq)]
      rfl
  · intro hb q hq
    have hbq := hb q
    rw [hsum] at hbq
    unfold heldWeight at hbq
    rwa [if_pos hq] at hbq

theorem holder_congr (h : s'.bare = s.bare) : s'.holder = s.holder :=
  congr_bare (f := State.holder) (fun _ => rfl) h

/-- The loop comes to the containers above `q`, each once. -/
theorem totalWeight_updateItemWeightUp_eq (h : Nested S s.holder) : ∀ {n : ℕ} {t : State} {q : Ref},
    t.holder = s.holder → h.depth q < n →
      (fun y => ((updateItemWeightUp n q d t).things y).totalWeight) =
        Nesting.spread s.holder q d fun y => (t.things y).totalWeight
  | 0, _, _, _, hn => absurd hn (Nat.not_lt_zero _)
  | n + 1, t, q, ht, hn => by
    let t₁ := t.setThing q { t.things q with totalWeight := (t.things q).totalWeight + d }
    have hbare : t₁.bare = t.bare := (t.bare_setThing q _).trans (t.bare.setThing_things q)
    have ht₁ : t₁.holder = s.holder := (holder_congr hbare).trans ht
    have hself : (t₁.things q).totalWeight = (t.things q).totalWeight + d := by
      rw [things_setThing, if_pos rfl]
    have hother {y : Ref} (hy : y ≠ q) : (t₁.things y).totalWeight = (t.things y).totalWeight := by
      rw [things_setThing, if_neg hy]
    unfold updateItemWeightUp
    dsimp only
    split
    · next p hp =>
      have hqp : s.holder q = some p := ht₁ ▸ holder_eq_some.2 hp
      have hlt := h.depth_lt hqp
      rw [totalWeight_updateItemWeightUp_eq h ht₁ (by omega)]
      funext y
      by_cases hy : y = q
      · -- the way up from the parent does not come back
        subst hy
        have hnot : ¬ ReflTransGen (Parent s.holder) p y := fun hw => h.acyclic y (.head' hqp hw)
        rw [spread_of_not_holds hnot, spread_of_holds .refl, hself]
      · by_cases hw : ReflTransGen (Parent s.holder) p y
        · rw [spread_of_holds hw, spread_of_holds (.head hqp hw), hother hy]
        · have hnot : ¬ ReflTransGen (Parent s.holder) q y := by
            intro hqy
            rcases ReflTransGen.cases_head hqy with he | ⟨p', hp', hw'⟩
            · exact hy he.symm
            · obtain rfl := Option.some.inj (hqp.symm.trans hp')
              exact hw hw'
          rw [spread_of_not_holds hw, spread_of_not_holds hnot, hother hy]
    · next hp =>
      funext y
      by_cases hy : y = q
      · subst hy
        rw [spread_of_holds .refl]
        exact hself
      · have hnot : ¬ ReflTransGen (Parent s.holder) q y := by
          intro hqy
          rcases ReflTransGen.cases_head hqy with he | ⟨p', hp', -⟩
          · exact hy he.symm
          · exact hp p' (holder_eq_some.1 (ht₁ ▸ hp'))
        rw [spread_of_not_holds hnot]
        exact hother hy

theorem totalWeight_updateItemWeight (h : Nested (Finset.range s.next) s.holder) (q : Ref) (d : UInt32) :
    (fun y => ((s.updateItemWeight q d).things y).totalWeight) =
      Nesting.spread s.holder q d fun y => (s.things y).totalWeight := by
  have hdepth := h.depth_le q
  rw [Finset.card_range] at hdepth
  exact totalWeight_updateItemWeightUp_eq h rfl (Nat.lt_succ_of_le hdepth)

/-- A change of what lies directly in `q`, with the difference added to the
containers above it. -/
theorem Weighed.of_spread (hw : s.Weighed items) (hf : s.Forest) (hf' : s'.Forest) (hq : s.isContainer q = true)
    (hH : Nested S H) (hmem : ∀ y, y ≠ q → ∀ r, H r = some y ↔ s.holder r = some y)
    (hcont : s'.isContainer = s.isContainer)
    (htotal : (fun y => (s'.things y).totalWeight) = Nesting.spread H q d fun y => (s.things y).totalWeight)
    (hlist : ∀ y, y ≠ q → (s'.things y).itemlist = (s.things y).itemlist)
    (hitem : ∀ y, y ≠ q → ∀ x ∈ (s.things y).itemlist, s'.item x = s.item x)
    (hout : ∀ x ∈ (s'.things q).itemlist, ¬ ReflTransGen (Parent H) q x)
    (hsum : (((s'.things q).itemlist).map fun x => s'.ownWeight items x + s.heldWeight x).sum =
      ((s.things q).itemlist.map (s.getWeight items)).sum + d) : s'.Weighed items := by
  have hheld : s'.heldWeight = Nesting.spread H q d s.heldWeight := by
    funext y
    have hy := congrFun htotal y
    unfold heldWeight
    rw [hcont]
    by_cases hqy : ReflTransGen (Parent H) q y
    · have hcy : s.isContainer y = true := by
        by_cases he : y = q
        · rwa [he]
        · rcases ReflTransGen.cases_tail hqy with he' | ⟨z, -, hz⟩
          · exact absurd he' he
          · exact hf.isContainer y z (holder_eq_some.1 ((hmem y he z).1 hz))
      rw [spread_of_holds hqy] at hy ⊢
      rw [if_pos hcy, if_pos hcy]
      exact hy
    · rw [spread_of_not_holds hqy] at hy ⊢
      split
      · exact hy
      · rfl
  rw [hf'.weighed_iff, hheld]
  refine (hf.weighed_iff.1 hw).spread hH (fun y hy r => ?_) hf.nodup hlist (fun y hy x hx => ?_) hout ?_
  · rw [hf.mem_iff_holder, hmem y hy]
  · unfold ownWeight
    rw [hitem y hy x hx]
  · rw [hsum]
    congr 1
    exact congrArg List.sum (List.map_congr_left fun x _ => s.getWeight_eq items x)

/-- Nothing but the holders and the lists matters for the forest. -/
theorem Forest.of_bare (h : s.Forest) (hbare : s'.bare = s.bare) : s'.Forest where
  mem_itemlist q r := by
    have hl : (s'.things q).itemlist = (s.things q).itemlist :=
      congr_bare (f := fun s => (s.things q).itemlist) (fun _ => rfl) hbare
    have hp : s'.parent = s.parent := congr_bare (f := State.parent) (fun _ => rfl) hbare
    rw [hl, hp]
    exact h.mem_itemlist q r
  nodup q := by
    have hl : (s'.things q).itemlist = (s.things q).itemlist :=
      congr_bare (f := fun s => (s.things q).itemlist) (fun _ => rfl) hbare
    rw [hl]
    exact h.nodup q
  isContainer q r hr := by
    have hp : s'.parent = s.parent := congr_bare (f := State.parent) (fun _ => rfl) hbare
    have hc : s'.isContainer = s.isContainer := congr_bare (f := State.isContainer) (fun _ => rfl) hbare
    rw [hp] at hr
    rw [hc]
    exact h.isContainer q r hr
  nested := by
    have hn : s'.next = s.next := congr_bare (f := State.next) (fun _ => rfl) hbare
    rw [hn, holder_congr hbare]
    exact h.nested

/-- An item that lies in no container can be put into `q`: the two are objects,
`q` is a container and does not lie in the item. -/
structure Fits (s : State) (q r : Ref) : Prop where
  isContainer : s.isContainer q = true
  container_lt : q < s.next
  item_lt : r < s.next
  free : s.holder r = none
  not_within : ¬ ReflTransGen (Parent s.holder) q r

/-- `t` is `s` with an item put somewhere into `q`, before the weights change. -/
structure Put (s t : State) (q r : Ref) : Prop where
  parent : t.parent = Function.update s.parent r (some (.container q))
  perm : (t.things q).itemlist.Perm (r :: (s.things q).itemlist)
  itemlist : ∀ y, y ≠ q → (t.things y).itemlist = (s.things y).itemlist
  item : t.item = s.item
  totalWeight : ∀ y, (t.things y).totalWeight = (s.things y).totalWeight
  next : t.next = s.next

/-- `t` is `s` with an item taken out of `q`, before or after the weights change. -/
structure Taken (s t : State) (q r : Ref) : Prop where
  parent : t.parent = Function.update s.parent r none
  perm : (r :: (t.things q).itemlist).Perm (s.things q).itemlist
  itemlist : ∀ y, y ≠ q → (t.things y).itemlist = (s.things y).itemlist
  item : t.item = s.item
  totalWeight : ∀ y, (t.things y).totalWeight = (s.things y).totalWeight
  next : t.next = s.next

theorem isContainer_congr (h : s'.item = s.item) : s'.isContainer = s.isContainer := by
  funext x
  unfold isContainer
  rw [h]

/-- The players do not matter for the forest. -/
theorem Forest.of_things (h : s.Forest) (hthings : s'.things = s.things) (hnext : s'.next = s.next) : s'.Forest := by
  have hp : s'.parent = s.parent := by
    unfold State.parent
    rw [hthings]
  have hc : s'.isContainer = s.isContainer := isContainer_congr (by
    unfold State.item
    rw [hthings])
  have hh : s'.holder = s.holder := by
    unfold State.holder
    rw [hp]
  refine ⟨fun q r => ?_, fun q => ?_, fun q r hr => ?_, ?_⟩
  · rw [hthings, hp]
    exact h.mem_itemlist q r
  · rw [hthings]
    exact h.nodup q
  · rw [hp] at hr
    rw [hc]
    exact h.isContainer q r hr
  · rw [hnext, hh]
    exact h.nested

theorem holder_of_parent (h : s'.parent = Function.update s.parent r (some (.container q))) :
    s'.holder = Function.update s.holder r (some q) := by
  funext x
  unfold State.holder
  by_cases hx : x = r
  · subst hx
    rw [h, Function.update_self, Function.update_self]
  · rw [h, Function.update_of_ne hx, Function.update_of_ne hx]

/-- The forest with an item put into `q`. -/
theorem Forest.put (h : s.Forest) (hr : s.Fits q r) (hput : Put s s' q r) : s'.Forest := by
  have hnot (y : Ref) : r ∉ (s.things y).itemlist := fun hy =>
    nomatch hr.free.symm.trans ((h.mem_iff_holder y r).1 hy)
  have hholder := holder_of_parent hput.parent
  refine ⟨fun y x => ?_, fun y => ?_, fun y x hx => ?_, ?_⟩
  · rw [hput.parent]
    by_cases hy : y = q
    · subst hy
      rw [hput.perm.mem_iff, List.mem_cons, h.mem_itemlist]
      by_cases hx : x = r
      · subst hx
        simp
      · simp [hx]
    · rw [hput.itemlist y hy, h.mem_itemlist]
      by_cases hx : x = r
      · subst hx
        rw [Function.update_self, ← h.mem_itemlist]
        refine iff_of_false (hnot y) fun e => hy ?_
        exact (Cylinder.container.inj (Option.some.inj e)).symm
      · rw [Function.update_of_ne hx]
  · by_cases hy : y = q
    · subst hy
      rw [hput.perm.nodup_iff, List.nodup_cons]
      exact ⟨hnot y, h.nodup y⟩
    · rw [hput.itemlist y hy]
      exact h.nodup y
  · rw [isContainer_congr hput.item]
    rw [hput.parent] at hx
    by_cases he : x = r
    · subst he
      rw [Function.update_self] at hx
      obtain rfl := Cylinder.container.inj (Option.some.inj hx)
      exact hr.isContainer
    · rw [Function.update_of_ne he] at hx
      exact h.isContainer y x hx
  · rw [hholder, hput.next]
    exact h.nested.update_some (Finset.mem_range.2 hr.container_lt) (Finset.mem_range.2 hr.item_lt) hr.not_within

/-- The forest with an item taken out of `q`. -/
theorem Forest.take (h : s.Forest) (htaken : Taken s s' q r) : s'.Forest := by
  have hr : s.parent r = some (.container q) :=
    (h.mem_itemlist q r).1 (htaken.perm.mem_iff.1 List.mem_cons_self)
  have hnodup := htaken.perm.nodup_iff.2 (h.nodup q)
  have hsub (y x : Ref) (hx : s'.holder x = some y) : s.holder x = some y := by
    rw [holder_eq_some, htaken.parent] at hx
    by_cases he : x = r
    · subst he
      rw [Function.update_self] at hx
      exact nomatch hx
    · rw [Function.update_of_ne he] at hx
      exact holder_eq_some.2 hx
  refine ⟨fun y x => ?_, fun y => ?_, fun y x hx => ?_, ?_⟩
  · rw [htaken.parent]
    by_cases hx : x = r
    · subst hx
      rw [Function.update_self]
      refine iff_of_false (fun hy => ?_) (fun e => nomatch e)
      by_cases he : y = q
      · subst he
        exact (List.nodup_cons.1 hnodup).1 hy
      · rw [htaken.itemlist y he, h.mem_itemlist, hr] at hy
        exact he (Cylinder.container.inj (Option.some.inj hy)).symm
    · rw [Function.update_of_ne hx, ← h.mem_itemlist]
      by_cases he : y = q
      · subst he
        rw [← htaken.perm.mem_iff, List.mem_cons]
        exact ⟨.inr, fun h => h.resolve_left hx⟩
      · rw [htaken.itemlist y he]
  · by_cases he : y = q
    · subst he
      exact (List.nodup_cons.1 hnodup).2
    · rw [htaken.itemlist y he]
      exact h.nodup y
  · rw [isContainer_congr htaken.item]
    exact h.isContainer y x (holder_eq_some.1 (hsub y x (holder_eq_some.2 hx)))
  · rw [htaken.next]
    exact h.nested.mono hsub

/-- An item in `q` does not hold `q`. -/
theorem Forest.not_holds (h : s.Forest) (hr : r ∈ (s.things q).itemlist) : ¬ ReflTransGen (Parent s.holder) q r :=
  fun hqr => h.nested.acyclic q (.tail' hqr ((h.mem_iff_holder q r).1 hr))

/-- An item is put into `q` and its weight added. -/
theorem Weighed.put (hw : s.Weighed items) (hf : s.Forest) (hr : s.Fits q r) {t : State} (hput : Put s t q r) :
    (t.updateItemWeight q (t.getWeight items r)).Forest ∧
      (t.updateItemWeight q (t.getWeight items r)).Weighed items := by
  have ht : t.Forest := hf.put hr hput
  have hbare := t.bare_updateItemWeight q (t.getWeight items r)
  have hitem : (t.updateItemWeight q (t.getWeight items r)).item = s.item :=
    (congr_bare (f := State.item) (fun _ => rfl) hbare).trans hput.item
  have hlist (y : Ref) : ((t.updateItemWeight q (t.getWeight items r)).things y).itemlist = (t.things y).itemlist :=
    congr_bare (f := fun s => (s.things y).itemlist) (fun _ => rfl) hbare
  have htotal : (fun y => (t.things y).totalWeight) = fun y => (s.things y).totalWeight := funext hput.totalWeight
  have hheld : t.heldWeight = s.heldWeight := by
    funext y
    unfold heldWeight
    rw [isContainer_congr hput.item, hput.totalWeight]
  have hown : (t.updateItemWeight q (t.getWeight items r)).ownWeight items = s.ownWeight items := by
    funext y
    unfold ownWeight
    rw [hitem]
  refine ⟨ht.of_bare hbare, hw.of_spread hf (ht.of_bare hbare) hr.isContainer ht.nested (d := t.getWeight items r)
    (fun y hy x => ?_) (isContainer_congr hitem) ?_ (fun y hy => (hlist y).trans (hput.itemlist y hy))
    (fun _ _ x _ => congrFun hitem x) (fun x hx => ?_) ?_⟩
  · rw [holder_of_parent hput.parent]
    by_cases hx : x = r
    · subst hx
      rw [Function.update_self, hr.free]
      exact iff_of_false (fun e => hy (Option.some.inj e).symm) (fun e => nomatch e)
    · rw [Function.update_of_ne hx]
  · have hnested := ht.nested
    rw [totalWeight_updateItemWeight hnested, htotal]
  · rw [hlist] at hx
    exact ht.not_holds hx
  · have hown' : t.ownWeight items = s.ownWeight items := by
      funext y
      unfold ownWeight
      rw [hput.item]
    rw [hlist, hown, (hput.perm.map _).sum_eq, List.map_cons, List.sum_cons, getWeight_eq items t r, hown', hheld,
      add_comm]
    congr 1
    exact congrArg List.sum (List.map_congr_left fun x _ => (s.getWeight_eq items x).symm)

/-- The weight of an item is subtracted and the item taken out of `q`. -/
theorem Weighed.take (hw : s.Weighed items) (hf : s.Forest)
    (htaken : Taken (s.updateItemWeight q (-s.getWeight items r)) s' q r) : s'.Forest ∧ s'.Weighed items := by
  have hbare := s.bare_updateItemWeight q (-s.getWeight items r)
  have hf₁ : (s.updateItemWeight q (-s.getWeight items r)).Forest := hf.of_bare hbare
  have hf' := hf₁.take htaken
  have hitem : s'.item = s.item :=
    htaken.item.trans (congr_bare (f := State.item) (fun _ => rfl) hbare)
  have hlist (y : Ref) : ((s.updateItemWeight q (-s.getWeight items r)).things y).itemlist = (s.things y).itemlist :=
    congr_bare (f := fun s => (s.things y).itemlist) (fun _ => rfl) hbare
  have hperm : (r :: (s'.things q).itemlist).Perm (s.things q).itemlist := hlist q ▸ htaken.perm
  have hr : r ∈ (s.things q).itemlist := hperm.mem_iff.1 List.mem_cons_self
  have htotal : (fun y => (s'.things y).totalWeight) =
      fun y => ((s.updateItemWeight q (-s.getWeight items r)).things y).totalWeight := funext htaken.totalWeight
  refine ⟨hf', hw.of_spread hf hf' (hf.isContainer q r ((hf.mem_itemlist q r).1 hr)) hf.nested
    (d := -s.getWeight items r) (fun _ _ _ => Iff.rfl) (isContainer_congr hitem) ?_
    (fun y hy => (htaken.itemlist y hy).trans (hlist y)) (fun _ _ x _ => congrFun hitem x) (fun x hx => ?_) ?_⟩
  · rw [htotal, totalWeight_updateItemWeight hf.nested]
  · exact hf.not_holds (hperm.mem_iff.1 (List.mem_cons_of_mem r hx))
  · have hsame : ((s'.things q).itemlist.map fun x => s'.ownWeight items x + s.heldWeight x) =
        (s'.things q).itemlist.map (s.getWeight items) := by
      refine List.map_congr_left fun x _ => ?_
      rw [getWeight_eq items s x]
      unfold ownWeight
      rw [hitem]
    rw [hsame, ← (hperm.map _).sum_eq, List.map_cons, List.sum_cons, add_comm (s.getWeight items r), add_assoc,
      UInt32.add_right_neg, add_zero]

theorem holder_setItem (s : State) (r : Ref) (it : Item) : (s.setItem r it).holder = s.holder := by
  funext x
  unfold holder
  rw [parent_setItem]

theorem isContainer_setItem {it : Item} (hcls : it.cls = (s.item r).cls) :
    (s.setItem r it).isContainer = s.isContainer := by
  funext x
  unfold isContainer
  rw [item_setItem]
  split
  · next h => rw [h, hcls]
  · rfl

theorem Forest.setItem (h : s.Forest) {it : Item} (hcls : it.cls = (s.item r).cls) : (s.setItem r it).Forest where
  mem_itemlist q x := by
    rw [itemlist_setItem, parent_setItem]
    exact h.mem_itemlist q x
  nodup q := by
    rw [itemlist_setItem]
    exact h.nodup q
  isContainer q x hx := by
    rw [parent_setItem] at hx
    rw [isContainer_setItem hcls]
    exact h.isContainer q x hx
  nested := by
    rw [holder_setItem]
    exact h.nested

/-- An item in no container comes to lie elsewhere, but in none. -/
theorem holder_setParent_root (hr : s.holder r = none) {c : Option Cylinder} (hc : ∀ q, c ≠ some (.container q)) :
    (s.setParent r c).holder = s.holder := by
  funext x
  by_cases hx : x = r
  · subst hx
    rw [hr]
    by_contra hne
    obtain ⟨q, hq⟩ := Option.ne_none_iff_exists'.1 hne
    rw [holder_eq_some, parent_setParent, if_pos rfl] at hq
    exact hc q hq
  · unfold holder
    rw [parent_setParent, if_neg hx]

theorem Forest.setParent_root (h : s.Forest) (hr : s.holder r = none) {c : Option Cylinder}
    (hc : ∀ q, c ≠ some (.container q)) : (s.setParent r c).Forest where
  mem_itemlist q x := by
    rw [itemlist_setParent, ← holder_eq_some, holder_setParent_root hr hc, holder_eq_some]
    exact h.mem_itemlist q x
  nodup q := by
    rw [itemlist_setParent]
    exact h.nodup q
  isContainer q x hx := by
    rw [← holder_eq_some, holder_setParent_root hr hc, holder_eq_some] at hx
    rw [isContainer_congr (s.item_setParent r c)]
    exact h.isContainer q x hx
  nested := by
    rw [holder_setParent_root hr hc]
    exact h.nested

/-- An item in `q` is changed, but not its class, and the difference of its
weight added. -/
theorem Weighed.change (hw : s.Weighed items) (hf : s.Forest) (hr : r ∈ (s.things q).itemlist) {it : Item}
    (hcls : it.cls = (s.item r).cls) {diff : UInt32}
    (hdiff : (s.setItem r it).getWeight items r = s.getWeight items r + diff) :
    ((s.setItem r it).updateItemWeight q diff).Forest ∧ ((s.setItem r it).updateItemWeight q diff).Weighed items := by
  have hf₁ : (s.setItem r it).Forest := hf.setItem hcls
  have hbare := (s.setItem r it).bare_updateItemWeight q diff
  have hf' := hf₁.of_bare hbare
  have hitem : ((s.setItem r it).updateItemWeight q diff).item = (s.setItem r it).item :=
    congr_bare (f := State.item) (fun _ => rfl) hbare
  have hlist (y : Ref) : (((s.setItem r it).updateItemWeight q diff).things y).itemlist = (s.things y).itemlist :=
    (congr_bare (f := fun s => (s.things y).itemlist) (fun _ => rfl) hbare).trans (s.itemlist_setItem r y it)
  have hholder : (s.setItem r it).holder = s.holder := s.holder_setItem r it
  have htotal : (fun y => ((s.setItem r it).things y).totalWeight) = fun y => (s.things y).totalWeight :=
    funext fun y => s.totalWeight_setItem y it
  have hrq : s.parent r = some (.container q) := (hf.mem_itemlist q r).1 hr
  refine ⟨hf', hw.of_spread hf hf' (hf.isContainer q r hrq) hf.nested (d := diff) (fun _ _ _ => Iff.rfl)
    ((isContainer_congr hitem).trans (isContainer_setItem hcls)) ?_ (fun y _ => hlist y) (fun y hy x hx => ?_)
    (fun x hx => hf.not_holds (hlist q ▸ hx)) ?_⟩
  · rw [totalWeight_updateItemWeight hf₁.nested, hholder, htotal]
  · -- the changed item lies in `q`
    have hne : x ≠ r := by
      rintro rfl
      have he := hrq.symm.trans ((hf.mem_itemlist y x).1 hx)
      exact hy (Cylinder.container.inj (Option.some.inj he)).symm
    rw [hitem, item_setItem, if_neg hne]
  · have hperm := List.perm_cons_erase hr
    have hrest : ∀ x ∈ (s.things q).itemlist.erase r,
        ((s.setItem r it).updateItemWeight q diff).ownWeight items x + s.heldWeight x = s.getWeight items x := by
      intro x hx
      have hne : x ≠ r := by
        rintro rfl
        exact (hf.nodup q).not_mem_erase hx
      rw [getWeight_eq items s x]
      unfold ownWeight
      rw [hitem, item_setItem, if_neg hne]
    have hself : ((s.setItem r it).updateItemWeight q diff).ownWeight items r + s.heldWeight r =
        s.getWeight items r + diff := by
      rw [← hdiff, getWeight_eq items (s.setItem r it) r]
      unfold ownWeight heldWeight
      rw [hitem, isContainer_setItem hcls, totalWeight_setItem]
    rw [hlist, (hperm.map _).sum_eq, ((hperm.map (s.getWeight items))).sum_eq, List.map_cons, List.map_cons,
      List.sum_cons, List.sum_cons, hself, List.map_congr_left hrest, add_right_comm]

end State
end Inventory
end ForgottenServer
