/-
# What cylinders hold

The items that lie in some cylinders at any depth, and how many of a class they
are. Each item lies in the one place that its parent says (`State.Tidy`). An item
that goes from one of the cylinders to another, or into a stack there, is held
by them before and after.

Key definitions: `State.Inside`, `State.amount`, `State.Tidy`, `Leaves`, `Comes`,
`Alters`.
Key theorems: `removeThing_leaves`, `addThing_comes`, `updateThing_alters`,
`amount_moved`, `amount_leaves`, `amount_comes`, `amount_alters`.
-/
import ForgottenServer.Lib.Placement
import ForgottenServer.Carried

namespace ForgottenServer
namespace Inventory

open State

/-! ### The items at any depth -/

namespace State

/-- The item lies in one of the cylinders, or in a container that does. -/
def Inside (s : State) (cs : List Cylinder) (r : Ref) : Prop := Placement.Inside s.parent .container cs r

/-- The items in the cylinders at any depth. -/
noncomputable def held (s : State) (cs : List Cylinder) : Finset Ref :=
  Placement.held (Finset.range s.next) s.parent .container cs

open scoped Classical in
/-- The count of an item, if it is of the class. -/
noncomputable def countOf (s : State) (K : Item → Prop) (r : Ref) : ℕ :=
  if K (s.item r) then (s.item r).count else 0

/-- The sum of the counts of the items of a class, in the cylinders at any depth. -/
noncomputable def amount (s : State) (K : Item → Prop) (cs : List Cylinder) : ℕ := ∑ r ∈ s.held cs, s.countOf K r

/-- The items lie where their parents say, each in one place and once, and
what holds one is an object, and no stack. -/
structure Tidy (items : UInt16 → ItemType) (s : State) : Prop where
  mem_contents : ∀ c r, r ∈ s.contents c ↔ s.parent r = some c
  nodup : ∀ c, (s.contents c).Nodup
  fresh : ∀ r, s.parent r ≠ none → r < s.next
  leaf : ∀ r x, (items (s.item r).id).stackable = true → s.parent x ≠ some (.container r)
  holder : ∀ q x, s.parent x = some (.container q) → q < s.next

variable {items : UInt16 → ItemType} {s s' s'' : State} {r x y q : Ref} {p : CreatureId} {c d : Cylinder}
  {cs : List Cylinder} {K : Item → Prop}

/-- A container is no stack. -/
theorem Wf.not_stackable (h : s.Wf items) (hq : s.isContainer q = true) :
    (items (s.item q).id).stackable = false := by
  by_contra hstack
  have hnone := h.plain q (Bool.of_not_eq_false hstack)
  unfold asCylinder at hnone
  rw [if_pos hq] at hnone
  exact nomatch hnone

theorem Wf.tidy (h : s.Wf items) : s.Tidy items where
  mem_contents := h.mem_contents
  nodup := h.nodup
  fresh := h.fresh
  leaf r x hs hx := Bool.false_ne_true ((h.not_stackable (h.container r x hx).1).symm.trans hs)
  holder q x hx := (h.container q x hx).2

theorem Tidy.mem_held (h : s.Tidy items) : r ∈ s.held cs ↔ s.Inside cs r := by
  unfold held
  rw [Placement.mem_held, Finset.mem_range]
  exact and_iff_right_of_imp fun hr => h.fresh r hr.place_ne_none

theorem Tidy.inside_of_mem (h : s.Tidy items) (hr : r ∈ s.contents c) (hc : c ∈ cs) : s.Inside cs r :=
  .here ((h.mem_contents c r).1 hr) hc

theorem countOf_congr (h : s'.item r = s.item r) : s'.countOf K r = s.countOf K r := by
  unfold countOf
  rw [h]

/-! ### Without the weights -/

theorem Tidy.of_bare (h : s.Tidy items) (hbare : s'.bare = s.bare) : s'.Tidy items := by
  have hcontents : s'.contents = s.contents := congr_bare (f := State.contents) contents_bare hbare
  have hparent : s'.parent = s.parent := congr_bare (f := State.parent) parent_bare hbare
  have hitem : s'.item = s.item := congr_bare (f := State.item) item_bare hbare
  have hnext : s'.next = s.next := congr_bare (f := State.next) next_bare hbare
  refine ⟨?_, ?_, ?_, ?_, ?_⟩
  · rw [hcontents, hparent]
    exact h.mem_contents
  · rw [hcontents]
    exact h.nodup
  · rw [hparent, hnext]
    exact h.fresh
  · rw [hitem, hparent]
    exact h.leaf
  · rw [hparent, hnext]
    exact h.holder

end State

/-! ### Taking out, putting in and changing -/

/-- An item is taken out of a cylinder. -/
structure Leaves (s s' : State) (r : Ref) (c : Cylinder) : Prop where
  parent : s'.parent = Function.update s.parent r none
  perm : (s.contents c).Perm (r :: s'.contents c)
  other : ∀ c', c' ≠ c → s'.contents c' = s.contents c'
  item : s'.item = s.item
  next : s'.next = s.next

/-- An item that lies nowhere is put into a cylinder. -/
structure Comes (s s' : State) (r : Ref) (c : Cylinder) : Prop where
  parent : s'.parent = Function.update s.parent r (some c)
  perm : (s'.contents c).Perm (r :: s.contents c)
  other : ∀ c', c' ≠ c → s'.contents c' = s.contents c'
  item : s'.item = s.item
  next : s'.next = s.next

/-- An item becomes another. -/
structure Alters (s s' : State) (r : Ref) (it : Item) : Prop where
  parent : s'.parent = s.parent
  contents : s'.contents = s.contents
  item : s'.item = Function.update s.item r it
  next : s'.next = s.next

section Changes

variable {items : UInt16 → ItemType} {s s' s'' : State} {r x y q : Ref} {p : CreatureId} {c d : Cylinder}
  {cs : List Cylinder} {K : Item → Prop} {index : ℤ} {it : Item}

theorem State.Tidy.leaves (h : s.Tidy items) (hl : Leaves s s' r c) : s'.Tidy items := by
  have hr : s.parent r = some c := (h.mem_contents c r).1 (hl.perm.mem_iff.2 List.mem_cons_self)
  have hnodup := List.nodup_cons.1 (hl.perm.nodup_iff.1 (h.nodup c))
  have hsub {x : Ref} {d : Cylinder} (hx : s'.parent x = some d) : s.parent x = some d := by
    rw [hl.parent, Function.update_apply] at hx
    split at hx
    · exact nomatch hx
    · exact hx
  refine ⟨fun d x => ?_, fun d => ?_, fun x hx => ?_, fun x y hs hy => ?_, fun q x hx => ?_⟩
  · rw [hl.parent, Function.update_apply]
    by_cases hd : d = c
    · subst hd
      split
      · next hx => exact iff_of_false (fun hm => hnodup.1 (hx ▸ hm)) (fun e => nomatch e)
      · next hx =>
        rw [← h.mem_contents, hl.perm.mem_iff, List.mem_cons]
        exact (or_iff_right hx).symm
    · rw [hl.other d hd, h.mem_contents]
      split
      · next hx =>
        refine iff_of_false (fun hm => hd ?_) (fun e => nomatch e)
        exact Option.some.inj ((hx ▸ hm).symm.trans hr)
      · rfl
  · by_cases hd : d = c
    · exact hd ▸ hnodup.2
    · rw [hl.other d hd]
      exact h.nodup d
  · obtain ⟨d, hd⟩ := Option.ne_none_iff_exists'.1 hx
    rw [hl.next]
    exact h.fresh x fun e => nomatch (hsub hd).symm.trans e
  · rw [hl.item] at hs
    exact h.leaf x y hs (hsub hy)
  · rw [hl.next]
    exact h.holder q x (hsub hx)

theorem State.Tidy.comes (h : s.Tidy items) (hr : s.parent r = none) (hlt : r < s.next)
    (hc : ∀ q, c = .container q → (items (s.item q).id).stackable = false ∧ q < s.next) (hcomes : Comes s s' r c) :
    s'.Tidy items := by
  have hout (d : Cylinder) : r ∉ s.contents d := fun hm => nomatch hr.symm.trans ((h.mem_contents d r).1 hm)
  have hparent {x : Ref} {d : Cylinder} (hx : s'.parent x = some d) : d = c ∨ s.parent x = some d := by
    rw [hcomes.parent, Function.update_apply] at hx
    split at hx
    · exact .inl (Option.some.inj hx).symm
    · exact .inr hx
  refine ⟨fun d x => ?_, fun d => ?_, fun x hx => ?_, fun x y hs hy => ?_, fun q x hx => ?_⟩
  · rw [hcomes.parent, Function.update_apply]
    by_cases hd : d = c
    · subst hd
      rw [hcomes.perm.mem_iff, List.mem_cons]
      split
      · next hx => exact iff_of_true (.inl hx) rfl
      · next hx => rw [or_iff_right hx, h.mem_contents]
    · rw [hcomes.other d hd]
      split
      · next hx => exact iff_of_false (hx ▸ hout d) fun e => hd (Option.some.inj e).symm
      · exact h.mem_contents d x
  · by_cases hd : d = c
    · subst hd
      rw [hcomes.perm.nodup_iff, List.nodup_cons]
      exact ⟨hout d, h.nodup d⟩
    · rw [hcomes.other d hd]
      exact h.nodup d
  · rw [hcomes.next]
    rw [hcomes.parent, Function.update_apply] at hx
    split at hx
    · next he => exact he ▸ hlt
    · exact h.fresh x hx
  · rw [hcomes.item] at hs
    rcases hparent hy with he | he
    · exact Bool.false_ne_true ((hc x he.symm).1.symm.trans hs)
    · exact h.leaf x y hs he
  · rw [hcomes.next]
    rcases hparent hx with he | he
    · exact (hc q he.symm).2
    · exact h.holder q x he

theorem State.Tidy.alters (h : s.Tidy items) (hid : it.id = (s.item r).id) (ha : Alters s s' r it) :
    s'.Tidy items := by
  refine ⟨?_, ?_, ?_, fun x y hs => ?_, ?_⟩
  · rw [ha.contents, ha.parent]
    exact h.mem_contents
  · rw [ha.contents]
    exact h.nodup
  · rw [ha.parent, ha.next]
    exact h.fresh
  · rw [ha.parent]
    refine h.leaf x y ?_
    rw [ha.item, Function.update_apply] at hs
    split at hs
    · next hx => rwa [hx, ← hid]
    · exact hs
  · rw [ha.parent, ha.next]
    exact h.holder

/-- The copy of a stack lies nowhere. -/
theorem State.Tidy.clone (h : s.Tidy items) (r : Ref) (n : ℕ) :
    (s.clone r n).Tidy items ∧ (s.clone r n).parent = s.parent := by
  have hnone : s.parent s.next = none := by
    by_contra hne
    exact lt_irrefl _ (h.fresh s.next hne)
  have hparent : (s.clone r n).parent = s.parent := by
    funext x
    unfold parent State.clone
    dsimp only
    rw [things_setThing]
    split
    · next hx => exact hx ▸ hnone.symm
    · rfl
  have hcontents : (s.clone r n).contents = s.contents := by
    funext d
    cases d with
    | container q =>
      unfold contents
      dsimp only
      rw [itemlist_clone]
      split
      · next hq =>
        refine (List.eq_nil_iff_forall_not_mem.2 fun x hx => ?_).symm
        exact lt_irrefl _ (h.holder s.next x ((h.mem_contents (.container s.next) x).1 (hq ▸ hx)))
      · rfl
    | player p => rfl
    | tile t => rfl
    | device x => rfl
  refine ⟨⟨?_, ?_, fun x hx => ?_, fun x y hs => ?_, fun q x hx => ?_⟩, hparent⟩
  · rw [hcontents, hparent]
    exact h.mem_contents
  · rw [hcontents]
    exact h.nodup
  · rw [hparent] at hx
    exact (h.fresh x hx).trans (Nat.lt_succ_self _)
  · rw [hparent]
    rw [item_clone] at hs
    split at hs
    · next hx => exact fun hy => lt_irrefl _ (h.holder s.next y (hx ▸ hy))
    · exact h.leaf x y hs
  · rw [hparent] at hx
    exact (h.holder q x hx).trans (Nat.lt_succ_self _)

/-- The item is taken out of a container or a slot. -/
theorem detach_leaves (hc : Carries c) (hr : r ∈ s.contents c) : Leaves s (s.detach r c) r c := by
  cases c with
  | container q =>
    have htaken : Taken s (s.detach r (.container q)) q r := taken_setParent (List.perm_cons_erase hr).symm
    refine ⟨htaken.parent, htaken.perm.symm, fun c' hc' => ?_, htaken.item, htaken.next⟩
    cases c' with
    | container q' => exact htaken.itemlist q' fun e => hc' (e ▸ rfl)
    | player p => rfl
    | tile t => rfl
    | device d => rfl
  | player p =>
    obtain ⟨i, -, -, hdetach⟩ := detach_player hr
    refine ⟨?_, perm_contents_detach hr, fun c' hc' => ?_, s.item_detach r _, s.next_detach r _⟩
    · funext x
      have hx : (s.detach r (.player p)).parent x = (s.setParent r none).parent x := by
        rw [hdetach]
        rfl
      rw [hx, parent_setParent, Function.update_apply]
    · rw [hdetach]
      cases c' with
      | container q => exact s.itemlist_setParent r q none
      | player p' =>
        have hp : p' ≠ p := fun e => hc' (e ▸ rfl)
        unfold contents setSlot setPlayer
        dsimp only
        rw [Function.update_of_ne hp]
        rfl
      | tile t => rfl
      | device d => rfl
  | tile t => exact hc.elim
  | device d => exact hc.elim

/-- The item is put in front of a container, or into a slot that is free. -/
theorem attach_comes (haccepts : s.Accepts index c)
    (hfree : ∀ p, c = .player p → (s.players p).inventory index.toNat = none) :
    Comes s (s.attach index r c) r c := by
  cases c with
  | container q =>
    have hput : Put s (s.attach index r (.container q)) q r := put_setParent
    refine ⟨hput.parent, hput.perm, fun c' hc' => ?_, hput.item, hput.next⟩
    cases c' with
    | container q' => exact hput.itemlist q' fun e => hc' (e ▸ rfl)
    | player p => rfl
    | tile t => rfl
    | device d => rfl
  | player p =>
    have hidx : 1 ≤ index ∧ index ≤ 10 := haccepts
    have hslot : index.toNat ∈ slots := by
      rw [mem_slots]
      omega
    refine ⟨?_, ?_, fun c' hc' => ?_, s.item_attach index r _, rfl⟩
    · funext x
      have hx : (s.attach index r (.player p)).parent x = (s.setParent r (some (.player p))).parent x := rfl
      rw [hx, parent_setParent, Function.update_apply]
    · have hcontents : (s.attach index r (.player p)).contents (.player p) =
          slots.filterMap (Function.update (s.players p).inventory index.toNat (some r)) := by
        unfold attach contents setSlot setPlayer
        dsimp only
        rw [Function.update_self]
        rfl
      have hold : Function.update (Function.update (s.players p).inventory index.toNat (some r)) index.toNat none =
          (s.players p).inventory := by
        rw [Function.update_idem, ← hfree p rfl, Function.update_eq_self]
      have hsome : Function.update (s.players p).inventory index.toNat (some r) index.toNat = some r :=
        Function.update_self ..
      have hperm := perm_filterMap_update hsome (List.nodup_range' ..) hslot
      rw [hold] at hperm
      rw [hcontents]
      exact hperm
    · cases c' with
      | container q => exact s.itemlist_setParent r q _
      | player p' =>
        have hp : p' ≠ p := fun e => hc' (e ▸ rfl)
        unfold attach contents setSlot setPlayer
        dsimp only
        rw [Function.update_of_ne hp]
        rfl
      | tile t => rfl
      | device d => rfl
  | tile t => exact haccepts.elim
  | device d => exact haccepts.elim

/-! ### The operations -/

theorem Leaves.of_bare (h : Leaves s s' r c) (hbare : s''.bare = s'.bare) : Leaves s s'' r c := by
  have hcontents : s''.contents = s'.contents := congr_bare (f := State.contents) contents_bare hbare
  refine ⟨?_, ?_, ?_, ?_, ?_⟩
  · rw [congr_bare (f := State.parent) parent_bare hbare, h.parent]
  · rw [hcontents]
    exact h.perm
  · rw [hcontents]
    exact h.other
  · rw [congr_bare (f := State.item) item_bare hbare, h.item]
  · rw [congr_bare (f := State.next) next_bare hbare, h.next]

theorem Comes.of_bare (h : Comes s s' r c) (hbare : s''.bare = s'.bare) : Comes s s'' r c := by
  have hcontents : s''.contents = s'.contents := congr_bare (f := State.contents) contents_bare hbare
  refine ⟨?_, ?_, ?_, ?_, ?_⟩
  · rw [congr_bare (f := State.parent) parent_bare hbare, h.parent]
  · rw [hcontents]
    exact h.perm
  · rw [hcontents]
    exact h.other
  · rw [congr_bare (f := State.item) item_bare hbare, h.item]
  · rw [congr_bare (f := State.next) next_bare hbare, h.next]

theorem setItem_alters (hbare : s'.bare = (s.setItem r it).bare) : Alters s s' r it := by
  have hnext : s'.next = (s.setItem r it).next := congr_bare (f := State.next) next_bare hbare
  refine ⟨?_, ?_, ?_, hnext⟩
  · rw [congr_bare (f := State.parent) parent_bare hbare, parent_setItem]
  · rw [congr_bare (f := State.contents) contents_bare hbare]
    funext d
    cases d with
    | container q => exact s.itemlist_setItem r q it
    | player p => rfl
    | tile t => rfl
    | device x => rfl
  · rw [congr_bare (f := State.item) item_bare hbare]
    funext x
    rw [item_setItem, Function.update_apply]

section Operations

variable {cfg : Config} {m n : ℕ} {itemId : UInt16}

theorem removeThing_leaves (hc : Carries c) (hr : r ∈ s.contents c)
    (hw : (s.type cfg r).stackable = false ∨ m = (s.item r).count) : Leaves s (removeThing cfg s r m c) r c :=
  (detach_leaves hc hr).of_bare (bare_removeThing_whole hc hr hw)

/-- A part of a stack is taken away. -/
theorem removeThing_alters (hc : Carries c) (hr : r ∈ s.contents c) (hs : (s.type cfg r).stackable = true)
    (hlt : m < (s.item r).count) (hcount : (s.item r).count < 256) :
    Alters s (removeThing cfg s r m c) r ((s.item r).setItemCount ((s.item r).count - m)) := by
  have hrest : uint 1 (max 0 (int32 (((s.item r).count : ℤ) - m))) = (s.item r).count - m := by
    unfold uint int32
    omega
  have hbare : (removeThing cfg s r m c).bare = _ := bare_removeThing_part hc hr hs hlt.ne
  rw [hrest] at hbare
  exact setItem_alters hbare

theorem updateThing_alters (hc : Carries c) (hr : r ∈ s.contents c) :
    Alters s (updateThing cfg s r itemId n c) r
      (((s.item r).setID cfg.items itemId).setSubType cfg.items (n % 2 ^ 16)) :=
  setItem_alters (bare_updateThing hc hr)

theorem addThing_comes (haccepts : s.Accepts index c)
    (hfree : ∀ p, c = .player p → (s.players p).inventory index.toNat = none) :
    ∃ s', addThing cfg s index r c = some s' ∧ Comes s s' r c := by
  obtain ⟨s', hs', hbare⟩ : ∃ s', addThing cfg s index r c = some s' ∧ s'.bare = (s.attach index r c).bare :=
    addThing_of_accepts haccepts
  exact ⟨s', hs', (attach_comes haccepts hfree).of_bare hbare⟩

end Operations

/-! ### What is held then -/

theorem inside_of_bare (hbare : s'.bare = s.bare) : s'.Inside cs x ↔ s.Inside cs x := by
  unfold State.Inside
  rw [congr_bare (f := State.parent) parent_bare hbare]

theorem amount_of_bare (hbare : s'.bare = s.bare) : s'.amount K cs = s.amount K cs :=
  congr_bare (f := fun s => s.amount K cs) (fun _ => rfl) hbare

theorem Alters.inside (ha : Alters s s' r it) : s'.Inside cs x ↔ s.Inside cs x := by
  unfold State.Inside
  rw [ha.parent]

theorem Alters.countOf (ha : Alters s s' r it) (hx : x ≠ r) : s'.countOf K x = s.countOf K x :=
  countOf_congr (by rw [ha.item, Function.update_of_ne hx])

theorem amount_alters (h : s.Tidy items) (hr : s.Inside cs r) (ha : Alters s s' r it) :
    s'.amount K cs + s.countOf K r = s.amount K cs + s'.countOf K r := by
  refine Placement.sum_held_change (fun x => ?_) (h.mem_held.2 hr) fun x hx => ha.countOf hx
  rw [ha.parent, ha.next]

/-- An item that goes from one of the cylinders to another is held as before,
with all that lies in it. -/
theorem inside_moved {s₁ : State} (hr : s.parent r = some c) (hc : c ∈ cs) (hd : d ∈ cs) (hl : Leaves s s₁ r c)
    (hcomes : Comes s₁ s' r d) : s'.Inside cs x ↔ s.Inside cs x := by
  unfold State.Inside
  rw [hcomes.parent, hl.parent, Function.update_idem]
  exact Placement.inside_update_some hr hc hd

theorem amount_moved {s₁ : State} (hr : s.parent r = some c) (hc : c ∈ cs) (hd : d ∈ cs) (hl : Leaves s s₁ r c)
    (hcomes : Comes s₁ s' r d) : s'.amount K cs = s.amount K cs := by
  have hitem : s'.item = s.item := hcomes.item.trans hl.item
  have hheld : s'.held cs = s.held cs := by
    ext x
    unfold held
    rw [Placement.mem_held, Placement.mem_held, hcomes.next, hl.next]
    exact and_congr_right fun _ => inside_moved hr hc hd hl hcomes
  unfold amount
  rw [hheld]
  exact Finset.sum_congr rfl fun x _ => countOf_congr (congrFun hitem x)

/-- A stack goes. -/
theorem inside_leaves (hleaf : ∀ x, s.parent x ≠ some (.container r)) (hl : Leaves s s' r c) :
    s'.Inside cs x ↔ x ≠ r ∧ s.Inside cs x := by
  unfold State.Inside
  rw [hl.parent]
  exact Placement.inside_update_none hleaf

theorem amount_leaves (h : s.Tidy items) (hc : c ∈ cs) (hleaf : ∀ x, s.parent x ≠ some (.container r))
    (hl : Leaves s s' r c) : s'.amount K cs + s.countOf K r = s.amount K cs := by
  have hr : r ∈ s.contents c := hl.perm.mem_iff.2 List.mem_cons_self
  have hinside : s.Inside cs r := h.inside_of_mem hr hc
  have hout : r ∉ s'.held cs := by
    rw [(h.leaves hl).mem_held, inside_leaves hleaf hl]
    exact fun hx => hx.1 rfl
  refine (Placement.sum_held_new (fun x => ?_) hout fun x _ => countOf_congr (congrFun hl.item x).symm).symm
  rw [← held, ← held, h.mem_held, (h.leaves hl).mem_held, inside_leaves hleaf hl]
  constructor
  · intro hx
    by_cases hxr : x = r
    · exact .inl hxr
    · exact .inr ⟨hxr, hx⟩
  · rintro (rfl | hx)
    · exact hinside
    · exact hx.2

/-- A stack comes from nowhere. -/
theorem inside_comes (hr : s.parent r = none) (hleaf : ∀ x, s.parent x ≠ some (.container r)) (hd : d ∈ cs)
    (hcomes : Comes s s' r d) : s'.Inside cs x ↔ x = r ∨ s.Inside cs x := by
  unfold State.Inside
  rw [hcomes.parent]
  exact Placement.inside_update_new hr hleaf hd

theorem amount_comes (h : s.Tidy items) (h' : s'.Tidy items) (hr : s.parent r = none)
    (hleaf : ∀ x, s.parent x ≠ some (.container r)) (hd : d ∈ cs) (hcomes : Comes s s' r d) :
    s'.amount K cs = s.amount K cs + s'.countOf K r := by
  have hout : r ∉ s.held cs := fun hx => (h.mem_held.1 hx).place_ne_none hr
  refine Placement.sum_held_new (fun x => ?_) hout fun x _ => countOf_congr (congrFun hcomes.item x)
  rw [← held, ← held, h.mem_held, h'.mem_held, inside_comes hr hleaf hd hcomes]

end Changes

end Inventory
end ForgottenServer
