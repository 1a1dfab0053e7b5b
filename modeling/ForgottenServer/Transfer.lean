/-
# What a transfer keeps

A transfer takes a count out of a stack, puts a part of it on another and makes
a new stack of the rest. The counts of a class of equal items (`Kind`) add up to
the same before and after, over all that lies in the cylinders, and what is no
stack is there as before.

Key definitions: `Keeps`, `Kind`, `Reduced`, `Raised`, `Conserves`.
Key theorems: `reduced_removeThing`, `raised_updateThing`, `addThing_new`,
`transfer_conserves`.
-/
import ForgottenServer.MoveTarget

namespace ForgottenServer
namespace Inventory

open Ancestry Relation State

section Steps

variable {cfg : Config} {s s' s₁ s₂ : State} {r x y q item : Ref} {p : CreatureId} {c d fromCylinder : Cylinder}
  {cs : List Cylinder} {index : ℤ} {m n k : ℕ} {K : Item → Prop} {itemId : UInt16} {it : Item}

/-! ### Room for a new item -/

theorem Room.carries (h : Room cfg s c index) : Carries c := by
  cases c with
  | container q => trivial
  | player p => trivial
  | tile t => exact h.accepts.elim
  | device x => exact h.accepts.elim

theorem Room.of_bare (h : Room cfg s c index) (hbare : s'.bare = s.bare) : Room cfg s' c index where
  accepts := by
    have haccepts : s'.Accepts index c = s.Accepts index c :=
      congr_bare (f := fun s => s.Accepts index c) (fun _ => by cases c <;> rfl) hbare
    exact haccepts ▸ h.accepts
  free p hp := by
    have hinventory : (s'.players p).inventory = (s.players p).inventory :=
      congr_bare (f := fun s => (s.players p).inventory) (fun s => s.inventory_bare p) hbare
    rw [hinventory]
    exact h.free p hp
  bag q hq := by
    have hitem : s'.item = s.item := congr_bare (f := State.item) item_bare hbare
    have hnext : s'.next = s.next := congr_bare (f := State.next) next_bare hbare
    unfold State.type
    rw [hitem, hnext]
    exact h.bag q hq

theorem maxSize_setThing {t : Thing} (ht : t.maxSize = (s.things r).maxSize) :
    ((s.setThing r t).things q).maxSize = (s.things q).maxSize := by
  rw [things_setThing]
  split
  · next h => rw [ht, h]
  · rfl

theorem maxSize_detach : ((s.detach r d).things q).maxSize = (s.things q).maxSize := by
  cases d with
  | container q' =>
    have hparent : ((s.setParent r none).things q).maxSize = (s.things q).maxSize := maxSize_setThing rfl
    have hlist (l : List Ref) : (((s.setParent r none).setItemlist q' l).things q).maxSize =
        ((s.setParent r none).things q).maxSize := maxSize_setThing rfl
    exact (hlist _).trans hparent
  | player p =>
    unfold detach
    dsimp only
    split
    · exact maxSize_setThing rfl
    · rfl
  | tile t => rfl
  | device x => rfl

theorem inventory_detach {i : ℕ} (h : (s.players p).inventory i = none) :
    ((s.detach r d).players p).inventory i = none := by
  cases d with
  | player p' =>
    unfold detach
    dsimp only
    split
    · rw [inventory_setSlot]
      split
      · rfl
      · exact h
    · exact h
  | container q => exact h
  | tile t => exact h
  | device x => exact h

theorem Room.detach (h : Room cfg s c index) : Room cfg (s.detach r d) c index where
  accepts := by
    cases c with
    | container q =>
      have haccepts : index < (s.things q).maxSize.toNat := h.accepts
      unfold Accepts
      dsimp only
      rw [maxSize_detach]
      exact haccepts
    | player p => exact h.accepts
    | tile t => exact h.accepts.elim
    | device x => exact h.accepts.elim
  free p hp := inventory_detach (h.free p hp)
  bag q hq := by
    unfold State.type
    rw [item_detach, next_detach]
    exact h.bag q hq

theorem Room.setItem (h : Room cfg s c index) (hid : it.id = (s.item r).id) : Room cfg (s.setItem r it) c index where
  accepts := by
    cases c with
    | container q =>
      have haccepts : index < (s.things q).maxSize.toNat := h.accepts
      have hsize : ((s.setItem r it).things q).maxSize = (s.things q).maxSize := maxSize_setThing rfl
      unfold Accepts
      dsimp only
      rw [hsize]
      exact haccepts
    | player p => exact h.accepts
    | tile t => exact h.accepts.elim
    | device x => exact h.accepts.elim
  free p hp := h.free p hp
  bag q hq := by
    have hsame : ((s.setItem r it).item q).id = (s.item q).id := by
      rw [item_setItem]
      split
      · next h => rw [hid, h]
      · rfl
    unfold State.type
    rw [hsame]
    exact h.bag q hq

theorem Room.clone (h : Room cfg s c index) (r : Ref) (n : ℕ) : Room cfg (s.clone r n) c index where
  accepts := by
    cases c with
    | container q =>
      have haccepts : index < (s.things q).maxSize.toNat := h.accepts
      have hne : q ≠ s.next := (h.bag q rfl).2.ne
      unfold Accepts State.clone
      dsimp only
      rw [things_setThing, if_neg hne]
      exact haccepts
    | player p => exact h.accepts
    | tile t => exact h.accepts.elim
    | device x => exact h.accepts.elim
  free p hp := h.free p hp
  bag q hq := by
    obtain ⟨hstack, hlt⟩ := h.bag q hq
    unfold State.type
    rw [item_clone, if_neg hlt.ne]
    exact ⟨hstack, hlt.trans (Nat.lt_succ_self _)⟩

/-! ### What a step keeps -/

/-- The items but `r` lie where they lay, and those in the cylinders are in them still. -/
structure Keeps (items : UInt16 → ItemType) (s s' : State) (cs : List Cylinder) (r : Ref) : Prop where
  tidy : s'.Tidy items
  stays : ∀ y, y ≠ r → ∀ c, s.parent y = some c → s'.parent y = some c
  inside : ∀ y, y ≠ r → s.Inside cs y → s'.Inside cs y

variable {items : UInt16 → ItemType}

theorem Keeps.trans (h : Keeps items s s₁ cs r) (h' : Keeps items s₁ s' cs r) : Keeps items s s' cs r where
  tidy := h'.tidy
  stays y hy c hc := h'.stays y hy c (h.stays y hy c hc)
  inside y hy hin := h'.inside y hy (h.inside y hy hin)

theorem Keeps.of_bare (h : Keeps items s s₁ cs r) (hbare : s'.bare = s₁.bare) : Keeps items s s' cs r where
  tidy := h.tidy.of_bare hbare
  stays y hy c hc := by
    rw [congr_bare (f := State.parent) parent_bare hbare]
    exact h.stays y hy c hc
  inside y hy hin := (inside_of_bare hbare).2 (h.inside y hy hin)

theorem Alters.keeps (hs : s.Tidy items) (hid : it.id = (s.item x).id) (h : Alters s s' x it) (r : Ref) :
    Keeps items s s' cs r where
  tidy := hs.alters hid h
  stays y _ c hc := by
    rw [h.parent]
    exact hc
  inside y _ hin := h.inside.2 hin

theorem Leaves.keeps (hs : s.Tidy items) (hstack : (items (s.item r).id).stackable = true) (h : Leaves s s' r c) :
    Keeps items s s' cs r where
  tidy := hs.leaves h
  stays y hy d hd := by
    rw [h.parent, Function.update_of_ne hy]
    exact hd
  inside y hy hin := (inside_leaves (fun x => hs.leaf r x hstack) h).2 ⟨hy, hin⟩

/-- A new stack is made and put into one of the cylinders. -/
theorem Comes.keeps (hs : s.Tidy items) (hr : s.parent y = none) (hlt : y < s.next)
    (hbag : ∀ q, c = .container q → (items (s.item q).id).stackable = false ∧ q < s.next)
    (hleaf : ∀ x, s.parent x ≠ some (.container y)) (hc : c ∈ cs) (h : Comes s s' y c) (r : Ref) :
    Keeps items s s' cs r where
  tidy := hs.comes hr hlt hbag h
  stays x _ d hd := by
    have hne : x ≠ y := by
      rintro rfl
      exact nomatch hr.symm.trans hd
    rw [h.parent, Function.update_of_ne hne]
    exact hd
  inside x _ hin := (inside_comes hr hleaf hc h).2 (.inr hin)

/-! ### The counts of a class -/

/-- A class of equal items, which an item that is a stack stays in when its id is
set again. -/
structure Kind (items : UInt16 → ItemType) (s : State) (K : Item → Prop) : Prop where
  equals : ∀ a b : Item, a.equals b = true → (K a ↔ K b)
  setID : ∀ x, (items (s.item x).id).stackable = true →
    (K ((s.item x).setID items (s.item x).id) ↔ K (s.item x))

open scoped Classical in
/-- What a count of an item adds to the sum of a class. -/
noncomputable def share (K : Item → Prop) (it : Item) (n : ℕ) : ℕ := if K it then n else 0

theorem countOf_eq_share : s.countOf K r = share K (s.item r) (s.item r).count := rfl

theorem share_congr {a b : Item} (h : K a ↔ K b) : share K a n = share K b n := by
  unfold share
  by_cases hb : K b
  · rw [if_pos (h.2 hb), if_pos hb]
  · rw [if_neg fun ha => hb (h.1 ha), if_neg hb]

theorem share_add (K : Item → Prop) (it : Item) (m n : ℕ) : share K it (m + n) = share K it m + share K it n := by
  unfold share
  split <;> rfl

theorem Kind.setItemCount (hK : ∀ a b : Item, a.equals b = true → (K a ↔ K b)) (it : Item) (n : ℕ) :
    K (it.setItemCount n) ↔ K it :=
  hK _ _ (Item.equals_iff.2 ⟨rfl, rfl⟩)

/-- A count is taken out of a stack: what stays is equal to what was there. -/
structure Reduced (cfg : Config) (s s₁ : State) (cs : List Cylinder) (item : Ref) (m : ℕ) : Prop where
  keeps : Keeps cfg.items s s₁ cs item
  item_of_ne : ∀ x, x ≠ item → s₁.item x = s.item x
  equals : (s₁.item item).equals (s.item item) = true
  next : s₁.next = s.next
  room : ∀ {c index}, Room cfg s c index → Room cfg s₁ c index
  amount : ∀ K : Item → Prop, (∀ a b : Item, a.equals b = true → (K a ↔ K b)) →
    s₁.amount K cs + share K (s.item item) m = s.amount K cs

theorem reduced_removeThing (hs : s.Tidy cfg.items) (hfrom : Carries fromCylinder)
    (hitem : item ∈ s.contents fromCylinder) (hcs : fromCylinder ∈ cs) (hstack : (s.type cfg item).stackable = true)
    (hcount : (s.item item).count < 256) (hm : m ≤ (s.item item).count) :
    Reduced cfg s (removeThing cfg s item m fromCylinder) cs item m := by
  rcases hm.eq_or_lt with rfl | hlt
  · have hl : Leaves s (removeThing cfg s item (s.item item).count fromCylinder) item fromCylinder :=
      removeThing_leaves hfrom hitem (.inr rfl)
    refine ⟨hl.keeps hs hstack, fun x _ => by rw [hl.item], ?_, hl.next, fun hroom => ?_, fun K _ => ?_⟩
    · rw [hl.item]
      exact Item.equals_iff.2 ⟨rfl, rfl⟩
    · exact hroom.detach.of_bare (bare_removeThing_whole hfrom hitem (.inr rfl))
    · exact amount_leaves hs hcs (fun x => hs.leaf item x hstack) hl
  · have ha : Alters s (removeThing cfg s item m fromCylinder) item _ :=
      removeThing_alters hfrom hitem hstack hlt hcount
    have hself : (removeThing cfg s item m fromCylinder).item item =
        (s.item item).setItemCount ((s.item item).count - m) := by
      rw [ha.item, Function.update_self]
    refine ⟨ha.keeps hs (by rfl) item, fun x hx => ?_, ?_, ha.next, fun hroom => ?_, fun K hK => ?_⟩
    · rw [ha.item, Function.update_of_ne hx]
    · rw [hself]
      exact Item.equals_iff.2 ⟨rfl, rfl⟩
    · exact (hroom.setItem (by rfl)).of_bare (bare_removeThing_part hfrom hitem hstack hlt.ne)
    · have hamount := amount_alters (K := K) hs (hs.inside_of_mem hitem hcs) ha
      have hrest : ((s.item item).count - m) % 256 = (s.item item).count - m := by omega
      have hsplit : share K (s.item item) (s.item item).count =
          share K (s.item item) ((s.item item).count - m) + share K (s.item item) m := by
        rw [← share_add, Nat.sub_add_cancel hm]
      rw [countOf_eq_share, countOf_eq_share, hself, share_congr (Kind.setItemCount hK _ _), hsplit] at hamount
      unfold Item.setItemCount at hamount
      dsimp only at hamount
      rw [hrest] at hamount
      omega

theorem updated_of_stackable (it : Item) (hstack : (items it.id).stackable = true)
    (hsolid : ((items it.id).isFluidContainer || (items it.id).isSplash) = false) (n : ℕ) :
    updated items it it.id n = (it.setID items it.id).setItemCount (n % 2 ^ 16) := by
  unfold updated Item.setSubType
  rw [TileItems.State.setID_id, hsolid, if_neg Bool.false_ne_true, if_pos hstack]

/-- A count is put on a stack. -/
structure Raised (cfg : Config) (s s₁ : State) (cs : List Cylinder) (x : Ref) (n : ℕ) : Prop where
  keeps : ∀ r, Keeps cfg.items s s₁ cs r
  item_of_ne : ∀ y, y ≠ x → s₁.item y = s.item y
  room : ∀ {c index}, Room cfg s c index → Room cfg s₁ c index
  amount : ∀ K : Item → Prop, (∀ a b : Item, a.equals b = true → (K a ↔ K b)) →
    (K ((s.item x).setID cfg.items (s.item x).id) ↔ K (s.item x)) →
    s₁.amount K cs = s.amount K cs + share K (s.item x) n

theorem raised_updateThing (hs : s.Tidy cfg.items) (hc : Carries c) (hx : x ∈ s.contents c) (hcs : c ∈ cs)
    (hstack : (s.type cfg x).stackable = true)
    (hsolid : ((s.type cfg x).isFluidContainer || (s.type cfg x).isSplash) = false)
    (hle : (s.item x).count + n ≤ 100) :
    Raised cfg s (updateThing cfg s x (s.item x).id ((s.item x).count + n) c) cs x n := by
  have ha : Alters s (updateThing cfg s x (s.item x).id ((s.item x).count + n) c) x
      (updated cfg.items (s.item x) (s.item x).id ((s.item x).count + n)) := updateThing_alters hc hx
  have hid : (updated cfg.items (s.item x) (s.item x).id ((s.item x).count + n)).id = (s.item x).id := by
    unfold updated
    rw [TileItems.State.setSubType_id, TileItems.State.setID_id]
  refine ⟨ha.keeps hs hid, fun y hy => ?_, fun hroom => ?_, fun K hequals hset => ?_⟩
  · rw [ha.item, Function.update_of_ne hy]
  · exact (hroom.setItem hid).of_bare (bare_updateThing hc hx)
  · have hamount : _ + s.countOf K x = _ := amount_alters hs (hs.inside_of_mem hx hcs) ha
    have hself : (updateThing cfg s x (s.item x).id ((s.item x).count + n) c).item x =
        ((s.item x).setID cfg.items (s.item x).id).setItemCount (((s.item x).count + n) % 2 ^ 16) := by
      rw [ha.item, Function.update_self, updated_of_stackable _ hstack hsolid]
    have hcount : ((s.item x).count + n) % 2 ^ 16 % 256 = (s.item x).count + n := by omega
    rw [countOf_eq_share, countOf_eq_share, hself,
      share_congr ((Kind.setItemCount hequals _ _).trans hset)] at hamount
    unfold Item.setItemCount at hamount
    dsimp only at hamount
    rw [hcount, share_add] at hamount
    omega

theorem amount_clone (hs : s.Tidy items) (r : Ref) (n : ℕ) : (s.clone r n).amount K cs = s.amount K cs := by
  obtain ⟨hclone, hparent⟩ := hs.clone r n
  have hheld : (s.clone r n).held cs = s.held cs := by
    ext x
    rw [hclone.mem_held, hs.mem_held]
    unfold Inside
    rw [hparent]
  unfold amount
  rw [hheld]
  refine Finset.sum_congr rfl fun x hx => countOf_congr ?_
  have hne : x ≠ s.next := (hs.fresh x (hs.mem_held.1 hx).place_ne_none).ne
  rw [item_clone, if_neg hne]

theorem keeps_clone (hs : s.Tidy items) (r : Ref) (n : ℕ) (y : Ref) : Keeps items s (s.clone r n) cs y := by
  obtain ⟨hclone, hparent⟩ := hs.clone r n
  refine ⟨hclone, fun x _ d hd => ?_, fun x _ hin => ?_⟩
  · rw [hparent]
    exact hd
  · unfold Inside
    rw [hparent]
    exact hin

/-- A new stack is made of an item and put where there is room for it. -/
theorem addThing_new (hs : s.Tidy cfg.items) (hroom : Room cfg s c index) (hcs : c ∈ cs) (r : Ref) (hk : k < 256) :
    ∃ s', addThing cfg (s.clone r k) index s.next c = some s' ∧ (∀ y, Keeps cfg.items s s' cs y) ∧
      ∀ K : Item → Prop, (∀ a b : Item, a.equals b = true → (K a ↔ K b)) →
        s'.amount K cs = s.amount K cs + share K (s.item r) k := by
  obtain ⟨hclone, hparent⟩ := hs.clone r k
  have hroom' := hroom.clone r k
  have hnone : (s.clone r k).parent s.next = none := by
    rw [hparent]
    by_contra hne
    exact lt_irrefl _ (hs.fresh s.next hne)
  have hleaf (x : Ref) : (s.clone r k).parent x ≠ some (.container s.next) := by
    rw [hparent]
    exact fun hx => lt_irrefl _ (hs.holder s.next x hx)
  obtain ⟨s', hs', hcomes⟩ : ∃ s', addThing cfg (s.clone r k) index s.next c = some s' ∧
      Comes (s.clone r k) s' s.next c := addThing_comes hroom'.accepts hroom'.free
  have hkeeps (y : Ref) : Keeps cfg.items (s.clone r k) s' cs y :=
    hcomes.keeps hclone hnone (Nat.lt_succ_self _) hroom'.bag hleaf hcs y
  refine ⟨s', hs', fun y => (keeps_clone hs r k y).trans (hkeeps y), fun K hK => ?_⟩
  · have hself : s'.item s.next = (s.item r).setItemCount k := by
      rw [hcomes.item, item_clone, if_pos rfl]
    have hcount : ((s.item r).setItemCount k).count = k := Nat.mod_eq_of_lt hk
    rw [amount_comes hclone (hkeeps 0).tidy hnone hleaf hcs hcomes, amount_clone hs, countOf_eq_share, hself, hcount,
      share_congr (Kind.setItemCount hK _ _)]

/-! ### The course of a transfer -/

variable {toItem moveItem : Option Ref}

/-- No stack there takes a part of the count. -/
theorem transfer_of_not_merges (hc : Carries c) (hs₁ : s₁ = removeThing cfg s item m fromCylinder)
    (hmerges : mergesWith cfg s₁ item toItem = none) (hadd : addRest cfg s₁ c index item m = some (s₂, moveItem)) :
    ∃ s', transfer cfg s fromCylinder c index item toItem m = some s' ∧ s'.bare = s₂.bare := by
  have hzero : (if (s₁.type cfg item).stackable = true then mergeCount cfg s₁ item toItem m else 0) = 0 := by
    split
    · next hstack =>
      unfold mergesWith at hmerges
      unfold mergeCount
      cases toItem with
      | none => rfl
      | some x =>
        rw [hstack, Bool.true_and] at hmerges
        dsimp only
        split
        · next hequals =>
          rw [if_pos hequals] at hmerges
          exact nomatch hmerges
        · rfl
    · rfl
  unfold mergesWith at hmerges
  unfold transfer
  dsimp only
  rw [← hs₁, hmerges, hzero, Nat.sub_zero, hadd]
  refine ⟨_, rfl, ?_⟩
  rw [bare_notifyAdded hc, bare_notifyAdded hc, bare_notifyRemoved]

/-- A stack there takes a part of the count. -/
theorem transfer_of_merges (hc : Carries c) (hs₁ : s₁ = removeThing cfg s item m fromCylinder)
    (hmerges : mergesWith cfg s₁ item toItem = some x) (hn : n = mergedCount s₁ x m)
    (hadd : addRest cfg (updateThing cfg s₁ x (s₁.item x).id ((s₁.item x).count + n) c) c index item (m - n) =
      some (s₂, moveItem)) :
    ∃ s', transfer cfg s fromCylinder c index item toItem m = some s' ∧ s'.bare = s₂.bare := by
  obtain rfl := (mergesWith_eq_some hmerges).1
  have hcount : (if (s₁.type cfg item).stackable = true then mergeCount cfg s₁ item (some x) m else 0) = n := by
    have hcond := hmerges
    unfold mergesWith at hcond
    split at hcond
    · next hall =>
      rw [Bool.and_assoc, Bool.and_eq_true] at hall
      unfold mergeCount
      dsimp only
      rw [if_pos hall.1, if_pos hall.2, hn]
      rfl
    · exact nomatch hcond
  unfold mergesWith at hmerges
  unfold transfer
  dsimp only
  rw [← hs₁, hmerges, hcount]
  dsimp only
  rw [hadd]
  refine ⟨_, rfl, ?_⟩
  rw [bare_notifyAdded hc, bare_notifyAdded hc, bare_notifyRemoved]

/-- The rest of a count is put where there is room for it. -/
theorem addRest_stack (hs : s.Tidy cfg.items) (hstack : (s.type cfg item).stackable = true) (hcs : c ∈ cs)
    (hroom : 0 < k → Room cfg s c index) (hk : k < 256) :
    ∃ s' moveItem, addRest cfg s c index item k = some (s', moveItem) ∧ Keeps cfg.items s s' cs item ∧
      ∀ K : Item → Prop, (∀ a b : Item, a.equals b = true → (K a ↔ K b)) →
        s'.amount K cs = s.amount K cs + share K (s.item item) k := by
  unfold addRest
  rw [if_pos hstack]
  by_cases hpos : 0 < k
  · rw [if_pos hpos]
    obtain ⟨s', hs', hkeeps, hamount⟩ := addThing_new hs (hroom hpos) hcs item hk
    rw [hs']
    exact ⟨s', some s.next, rfl, hkeeps item, hamount⟩
  · rw [if_neg hpos]
    refine ⟨s, none, rfl, ⟨hs, fun _ _ _ h => h, fun _ _ h => h⟩, fun K _ => ?_⟩
    rw [Nat.eq_zero_of_not_pos hpos]
    unfold share
    rw [ite_self, Nat.add_zero]

/-- What is left is a new stack of the destination. -/
theorem transfer_beside (hs₁ : s₁ = removeThing cfg s item m fromCylinder) (hred : Reduced cfg s s₁ cs item m)
    (hc : Carries c) (hcs : c ∈ cs) (hstack : (s₁.type cfg item).stackable = true) (hm : m < 256)
    (hroom : Room cfg s c index) (hmerges : mergesWith cfg s₁ item toItem = none) :
    ∃ s', transfer cfg s fromCylinder c index item toItem m = some s' ∧ Keeps cfg.items s s' cs item ∧
      ∀ K, Kind cfg.items s K → s'.amount K cs = s.amount K cs := by
  obtain ⟨s₂, moveItem, hadd, hkeeps, hamount⟩ :=
    addRest_stack hred.keeps.tidy hstack hcs (fun _ => hred.room hroom) hm
  obtain ⟨s', hs', hbare⟩ := transfer_of_not_merges hc hs₁ hmerges hadd
  refine ⟨s', hs', (hred.keeps.trans hkeeps).of_bare hbare, fun K hK => ?_⟩
  have htaken := hred.amount K hK.equals
  have hput := hamount K hK.equals
  rw [share_congr (hK.equals _ _ hred.equals)] at hput
  rw [amount_of_bare hbare]
  omega

/-- A part is put on a stack of the destination. -/
theorem transfer_onto (hs : s.Tidy cfg.items)
    (hsmall : ∀ r, (s.type cfg r).stackable = true → (s.item r).count ≤ 100)
    (hsolid : ∀ id, (cfg.items id).stackable = true →
      ((cfg.items id).isFluidContainer || (cfg.items id).isSplash) = false)
    (hs₁ : s₁ = removeThing cfg s item m fromCylinder) (hred : Reduced cfg s s₁ cs item m)
    (hc : Carries c) (hcs : c ∈ cs) (hstack : (s₁.type cfg item).stackable = true) (hm : m < 256)
    (hx : x ≠ item) (hthere : x ∈ s.contents c) (hmerges : mergesWith cfg s₁ item toItem = some x)
    (hroom : m ≤ 100 - (s.item x).count ∨ Room cfg s c index) :
    ∃ s', transfer cfg s fromCylinder c index item toItem m = some s' ∧ Keeps cfg.items s s' cs item ∧
      ∀ K, Kind cfg.items s K → s'.amount K cs = s.amount K cs := by
  have hitem := hred.item_of_ne x hx
  have hequals := (mergesWith_eq_some hmerges).2
  have hstackx : (s₁.type cfg x).stackable = true := by
    unfold State.type
    rw [id_of_mergesWith hmerges]
    exact hstack
  have hstackx' : (s.type cfg x).stackable = true := by
    unfold State.type
    rw [← hitem]
    exact hstackx
  have hthere₁ : x ∈ s₁.contents c :=
    (hred.keeps.tidy.mem_contents c x).2 (hred.keeps.stays x hx c ((hs.mem_contents c x).1 hthere))
  have hsmallx : (s₁.item x).count ≤ 100 := by
    rw [hitem]
    exact hsmall x hstackx'
  have hall : m ≤ 100 - (s.item x).count → mergedCount s₁ x m = m := by
    unfold mergedCount uint
    rw [hitem] at hsmallx ⊢
    omega
  obtain ⟨hfull, hn, -⟩ := mergedCount_le hsmallx m
  generalize hn' : mergedCount s₁ x m = n at hfull hn hall
  have hraised : Raised cfg s₁ (updateThing cfg s₁ x (s₁.item x).id ((s₁.item x).count + n) c) cs x n :=
    raised_updateThing hred.keeps.tidy hc hthere₁ hcs hstackx (hsolid _ hstackx) hfull
  generalize hs₂ : updateThing cfg s₁ x (s₁.item x).id ((s₁.item x).count + n) c = s₂ at hraised
  have hitem₂ := hraised.item_of_ne item hx.symm
  have hstack₂ : (s₂.type cfg item).stackable = true := by
    unfold State.type
    rw [hitem₂]
    exact hstack
  have hroom₂ (hpos : 0 < m - n) : Room cfg s₂ c index := by
    rcases hroom with hroom | hroom
    · have hsame := hall hroom
      omega
    · exact hraised.room (hred.room hroom)
  obtain ⟨s₃, moveItem, hadd, hkeeps, hamount⟩ :=
    addRest_stack (hraised.keeps item).tidy hstack₂ hcs hroom₂ (by omega : m - n < 256)
  obtain ⟨s', hs', hbare⟩ := transfer_of_merges hc hs₁ hmerges hn'.symm (hs₂ ▸ hadd)
  refine ⟨s', hs', ((hred.keeps.trans (hraised.keeps item)).trans hkeeps).of_bare hbare, fun K hK => ?_⟩
  have hset : K ((s₁.item x).setID cfg.items (s₁.item x).id) ↔ K (s₁.item x) := by
    rw [hitem]
    exact hK.setID x hstackx'
  have htaken := hred.amount K hK.equals
  have hmerged := hraised.amount K hK.equals hset
  have hput := hamount K hK.equals
  have hclass := hK.equals _ _ hred.equals
  have hsplit : share K (s.item item) m = share K (s.item item) n + share K (s.item item) (m - n) := by
    rw [← share_add, Nat.add_sub_cancel' hn]
  rw [share_congr ((hK.equals _ _ hequals).trans hclass)] at hmerged
  rw [hitem₂, share_congr hclass] at hput
  rw [amount_of_bare hbare]
  omega

/-- **What a transfer does to stacks.** -/
theorem transfer_stack (hs : s.Tidy cfg.items)
    (hsmall : ∀ r, (s.type cfg r).stackable = true → (s.item r).count ≤ 100)
    (hsolid : ∀ id, (cfg.items id).stackable = true →
      ((cfg.items id).isFluidContainer || (cfg.items id).isSplash) = false)
    (hfrom : Carries fromCylinder) (hitem : item ∈ s.contents fromCylinder) (hcsfrom : fromCylinder ∈ cs)
    (hc : Carries c) (hcs : c ∈ cs) (hstack : (s.type cfg item).stackable = true) (hm : m ≤ (s.item item).count)
    (hlands : Lands cfg s item m c index toItem) (hne : toItem ≠ some item) :
    ∃ s', transfer cfg s fromCylinder c index item toItem m = some s' ∧ Keeps cfg.items s s' cs item ∧
      ∀ K, Kind cfg.items s K → s'.amount K cs = s.amount K cs := by
  have hle := hsmall item hstack
  have hred : Reduced cfg s (removeThing cfg s item m fromCylinder) cs item m :=
    reduced_removeThing hs hfrom hitem hcsfrom hstack (by omega) hm
  generalize hs₁ : removeThing cfg s item m fromCylinder = s₁ at hred
  have hid : (s₁.item item).id = (s.item item).id := (Item.equals_iff.1 hred.equals).1
  have htype : s₁.type cfg item = s.type cfg item := by
    unfold State.type
    rw [hid]
  have hstack₁ : (s₁.type cfg item).stackable = true := by rw [htype, hstack]
  have hm' : m < 256 := by omega
  cases hlands with
  | room hroom there =>
    cases hmerges : mergesWith cfg s₁ item toItem with
    | none => exact transfer_beside hs₁.symm hred hc hcs hstack₁ hm' hroom hmerges
    | some x =>
      obtain ⟨rfl, -⟩ := mergesWith_eq_some hmerges
      exact transfer_onto hs hsmall hsolid hs₁.symm hred hc hcs hstack₁ hm' (fun e => hne (e ▸ rfl)) (there x rfl)
        hmerges (.inr hroom)
  | @stack x there stackable notRune equals room =>
    have hx : x ≠ item := fun e => hne (e ▸ rfl)
    have hequals : s₁.equals item (some x) = true := by
      unfold State.equals
      dsimp only
      rw [hred.item_of_ne x hx]
      exact Item.equals_iff.2 ⟨hid.trans (Item.equals_iff.1 equals).1,
        (Item.equals_iff.1 hred.equals).2.trans (Item.equals_iff.1 equals).2⟩
    have hmerges : mergesWith cfg s₁ item (some x) = some x := by
      unfold mergesWith
      rw [htype, stackable, notRune, hequals]
      rfl
    exact transfer_onto hs hsmall hsolid hs₁.symm hred hc hcs hstack₁ hm' hx there hmerges (.inl room)

/-- What is no stack is in the cylinders still, and the counts of each class add
up to the same. -/
structure Conserves (items : UInt16 → ItemType) (s s' : State) (cs : List Cylinder) : Prop where
  tidy : s'.Tidy items
  inside : ∀ x, (items (s.item x).id).stackable = false → s.Inside cs x → s'.Inside cs x
  amount : ∀ K, Kind items s K → s'.amount K cs = s.amount K cs

theorem Conserves.refl (hs : s.Tidy items) : Conserves items s s cs :=
  ⟨hs, fun _ _ h => h, fun _ _ => rfl⟩

theorem Conserves.trans (h : Conserves items s s₁ cs) (h' : Conserves items s₁ s' cs) (hitem : s₁.item = s.item) :
    Conserves items s s' cs where
  tidy := h'.tidy
  inside x hx hin := h'.inside x (by rwa [hitem]) (h.inside x hx hin)
  amount K hK := by
    have hK₁ : Kind items s₁ K := ⟨hK.equals, by
      rw [hitem]
      exact hK.setID⟩
    rw [h'.amount K hK₁, h.amount K hK]

/-- What is no stack is taken from one cylinder to another. -/
theorem transfer_single (toItem : Option Ref) (m : ℕ) (hs : s.Tidy cfg.items) (hfrom : Carries fromCylinder)
    (hitem : item ∈ s.contents fromCylinder) (hcsfrom : fromCylinder ∈ cs) (hcs : c ∈ cs)
    (hstack : (s.type cfg item).stackable = false) (hroom : Room cfg s c index) :
    ∃ s', transfer cfg s fromCylinder c index item toItem m = some s' ∧ s'.Tidy cfg.items ∧
      (∀ y, y ≠ item → ∀ d, s.parent y = some d → s'.parent y = some d) ∧
      (∀ x, s'.Inside cs x ↔ s.Inside cs x) ∧ ∀ K, s'.amount K cs = s.amount K cs := by
  have hparent := (hs.mem_contents fromCylinder item).1 hitem
  have hl : Leaves s (removeThing cfg s item m fromCylinder) item fromCylinder :=
    removeThing_leaves hfrom hitem (.inl hstack)
  have hroom₁ : Room cfg (removeThing cfg s item m fromCylinder) c index :=
    hroom.detach.of_bare (bare_removeThing_whole hfrom hitem (.inl hstack))
  generalize hs₁ : removeThing cfg s item m fromCylinder = s₁ at hl hroom₁
  have htidy := hs.leaves hl
  have hstack₁ : (s₁.type cfg item).stackable = false := by
    unfold State.type
    rw [hl.item]
    exact hstack
  have hmerges : mergesWith cfg s₁ item toItem = none := by
    unfold mergesWith
    rw [hstack₁]
    rfl
  obtain ⟨s₂, hs₂, hcomes⟩ : ∃ s₂, addThing cfg s₁ index item c = some s₂ ∧ Comes s₁ s₂ item c :=
    addThing_comes hroom₁.accepts hroom₁.free
  have hadd : addRest cfg s₁ c index item m = some (s₂, some item) := by
    unfold addRest
    rw [hstack₁, if_neg Bool.false_ne_true, hs₂]
    rfl
  obtain ⟨s', hs', hbare⟩ := transfer_of_not_merges hroom.carries hs₁.symm hmerges hadd
  have hnone : s₁.parent item = none := by
    rw [hl.parent, Function.update_self]
  have hlt : item < s₁.next := by
    rw [hl.next]
    exact hs.fresh item fun e => nomatch hparent.symm.trans e
  refine ⟨s', hs', (htidy.comes hnone hlt hroom₁.bag hcomes).of_bare hbare, fun y hy d hd => ?_, fun x => ?_, fun K => ?_⟩
  · rw [congr_bare (f := State.parent) parent_bare hbare, hcomes.parent, Function.update_of_ne hy, hl.parent,
      Function.update_of_ne hy]
    exact hd
  · exact (inside_of_bare hbare).trans (inside_moved hparent hcsfrom hcs hl hcomes)
  · exact (amount_of_bare hbare).trans (amount_moved hparent hcsfrom hcs hl hcomes)

/-- **A transfer conserves the items** of the cylinders. -/
theorem transfer_conserves (hs : s.Tidy cfg.items)
    (hsmall : ∀ r, (s.type cfg r).stackable = true → (s.item r).count ≤ 100)
    (hsolid : ∀ id, (cfg.items id).stackable = true →
      ((cfg.items id).isFluidContainer || (cfg.items id).isSplash) = false)
    (hfrom : Carries fromCylinder) (hitem : item ∈ s.contents fromCylinder) (hcsfrom : fromCylinder ∈ cs)
    (hc : Carries c) (hcs : c ∈ cs) (hm : (s.type cfg item).stackable = true → m ≤ (s.item item).count)
    (hlands : Lands cfg s item m c index toItem) (hne : toItem ≠ some item) :
    ∃ s', transfer cfg s fromCylinder c index item toItem m = some s' ∧
      (∀ y, y ≠ item → ∀ d, s.parent y = some d → s'.parent y = some d) ∧ Conserves cfg.items s s' cs := by
  cases hstack : (s.type cfg item).stackable with
  | true =>
    obtain ⟨s', hs', hkeeps, hamount⟩ :=
      transfer_stack hs hsmall hsolid hfrom hitem hcsfrom hc hcs hstack (hm hstack) hlands hne
    refine ⟨s', hs', hkeeps.stays, hkeeps.tidy, fun x hx => hkeeps.inside x ?_, hamount⟩
    rintro rfl
    exact Bool.false_ne_true (hx.symm.trans hstack)
  | false =>
    have hroom : Room cfg s c index := by
      cases hlands with
      | room h _ => exact h
      | stack _ stackable => exact absurd (hstack.symm.trans stackable) Bool.false_ne_true
    obtain ⟨s', hs', htidy, hstays, hinside, hamount⟩ :=
      transfer_single toItem m hs hfrom hitem hcsfrom hcs hstack hroom
    exact ⟨s', hs', hstays, htidy, fun x _ => (hinside x).2, fun K _ => hamount K⟩

end Steps

end Inventory
end ForgottenServer
