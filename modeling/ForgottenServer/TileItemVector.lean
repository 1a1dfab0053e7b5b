/-
# The item vector over runs

The parts of a tile's vector are those of the types of its items (`Holds`), as
long as an item is changed or replaced only within its class. Each call keeps
this and says how the parts come out: `addThing` erases an old splash or old
fields before it inserts, `removeThing` erases one item or takes from its count.

Key definitions: `Holds`, `Added`, `Legal`, `ItemVector`.
Key theorems: `removeThing_holds`, `addThing_holds`, `addThing_isSome`, `step_holds`,
`itemVector_run`.
-/
import ForgottenServer.TileItems

namespace ForgottenServer
namespace TileItems

open TileStack (TileItemVector Thing)

section Lists

variable {α : Type*} {q : α → Prop} {l l' : List α} {a : α}

/-- No two elements of the list have the property. -/
def AtMostOne (q : α → Prop) (l : List α) : Prop := ∀ j ∈ l, ∀ k ∈ l, q j → q k → j = k

theorem AtMostOne.sublist (h : AtMostOne q l) (hl : l'.Sublist l) : AtMostOne q l' :=
  fun j hj k hk => h j (hl.subset hj) k (hl.subset hk)

theorem AtMostOne.cons (h : AtMostOne q l) (ha : q a → ∀ j ∈ l, ¬ q j) : AtMostOne q (a :: l) := by
  intro j hj k hk hqj hqk
  rcases List.mem_cons.1 hj with hja | hj
  · subst hja
    rcases List.mem_cons.1 hk with hka | hk
    · exact hka.symm
    · exact absurd hqk (ha hqj k hk)
  · rcases List.mem_cons.1 hk with hka | hk
    · subst hka
      exact absurd hqj (ha hqk j ‹_›)
    · exact h j hj k hk hqj hqk

theorem AtMostOne.perm (h : AtMostOne q l) (hl : l'.Perm l) : AtMostOne q l' :=
  fun j hj k hk => h j (hl.mem_iff.1 hj) k (hl.mem_iff.1 hk)

theorem AtMostOne.congr {q' : α → Prop} (h : AtMostOne q l) (hq : ∀ j ∈ l, q' j ↔ q j) :
    AtMostOne q' l :=
  fun j hj k hk hqj hqk => h j hj k hk ((hq j hj).1 hqj) ((hq k hk).1 hqk)

end Lists

variable {ι κ : Type*}

namespace State

/-- The vector of the tile has these parts, by the types of the items. -/
structure Holds (items : UInt16 → ItemType) (s : State ι κ) (D T : List ι) : Prop
    extends Shape s.tile D T where
  down : ∀ i ∈ D, s.isAlwaysOnTop items i = false
  top : ∀ i ∈ T, s.isAlwaysOnTop items i = true

section Frame

variable {items : UInt16 → ItemType} {s : State ι κ} {D T : List ι}

theorem Holds.ok (h : Holds items s D T) : s.tile.Ok (s.isAlwaysOnTop items) :=
  h.toShape.ok h.down h.top

theorem Holds.setTileFlags (h : Holds items s D T) (i : ι) :
    Holds items (s.setTileFlags items i) D T :=
  ⟨h.toShape, h.down, h.top⟩

theorem Holds.withGround (h : Holds items s D T) {g : Option ι} (hg : ∀ i, g = some i → i ∉ D ++ T) :
    Holds items { s with tile := { s.tile with ground := g } } D T :=
  ⟨h.toShape.withGround hg, h.down, h.top⟩

theorem Holds.withCreatures (h : Holds items s D T) {l : Option (List κ)}
    (hl : ∀ l', l = some l' → l'.Nodup) :
    Holds items { s with tile := { s.tile with creatures := l } } D T :=
  ⟨h.toShape.withCreatures hl, h.down, h.top⟩

theorem Holds.sublist (h : Holds items s D T) {D' T' : List ι} (hD : D'.Sublist D)
    (hT : T'.Sublist T) : Holds items (s.setItemList (ofParts D' T')) D' T' :=
  ⟨h.toShape.sublist hD hT, fun i hi => h.down i (hD.subset hi), fun i hi => h.top i (hT.subset hi)⟩

variable [DecidableEq ι]

theorem Holds.resetTileFlags (h : Holds items s D T) (i : ι) :
    Holds items (s.resetTileFlags items i) D T :=
  ⟨h.toShape, h.down, h.top⟩

theorem Holds.setParent (h : Holds items s D T) (i : ι) (here : Bool) :
    Holds items (s.setParent i here) D T :=
  ⟨h.toShape, h.down, h.top⟩

/-- An item becomes one of the same class of types, or any if it is elsewhere. -/
theorem Holds.setItem (h : Holds items s D T) {i : ι} {item : Item}
    (hi : i ∈ D ++ T → (items item.id).alwaysOnTop = s.isAlwaysOnTop items i) :
    Holds items (s.setItem i item) D T := by
  have hsame : ∀ j ∈ D ++ T, (s.setItem i item).isAlwaysOnTop items j = s.isAlwaysOnTop items j := by
    intro j hj
    by_cases hji : j = i
    · subst hji
      exact (congrArg (fun it : Item => (items it.id).alwaysOnTop) (setItem_item_self ..)).trans (hi hj)
    · exact congrArg (fun it : Item => (items it.id).alwaysOnTop) (setItem_item_of_ne _ hji _)
  refine ⟨h.toShape, fun j hj => ?_, fun j hj => ?_⟩
  · exact (hsame j (List.mem_append_left _ hj)).trans (h.down j hj)
  · exact (hsame j (List.mem_append_right _ hj)).trans (h.top j hj)

end Frame

/-! ### What the operations keep -/

section Operations

variable [DecidableEq ι] [DecidableEq κ] {items : UInt16 → ItemType} {s : State ι κ} {D T : List ι}

theorem removeThing_top (h : Holds items s D T) {i : ι} (hi : i ∈ T) (count : UInt32) :
    s.removeThing items (.item i) count =
      ((s.setParent i false).setItemList (ofParts D (T.erase i))).resetTileFlags items i := by
  obtain ⟨-, -, hdisj⟩ := List.nodup_append'.1 h.nodup
  rcases removeThing_cases items h.toShape i count with ⟨hno, -⟩ | ⟨hg, -⟩ | ⟨-, -, he⟩ | ⟨hD, -⟩ | ⟨hD, -⟩
  · refine absurd (.inr ?_) hno
    rw [h.top i hi]
    exact hi
  · exact absurd (List.mem_append_right _ hi) (h.ground i hg)
  · exact he
  · exact absurd hi (hdisj hD)
  · exact absurd hi (hdisj hD)

theorem removeThing_down (h : Holds items s D T) {i : ι} (hi : i ∈ D) (count : UInt32) :
    (((s.type items i).stackable ∧ count.toNat ≠ (s.item i).count) ∧
      s.removeThing items (.item i) count = s.setItem i ((s.item i).setItemCount
        (uint 1 (max 0 (int32 (((s.item i).count : ℤ) - count.toNat)))))) ∨
    s.removeThing items (.item i) count =
      ((s.setParent i false).setItemList (ofParts (D.erase i) T)).resetTileFlags items i := by
  obtain ⟨-, -, hdisj⟩ := List.nodup_append'.1 h.nodup
  rcases removeThing_cases items h.toShape i count with
    ⟨hno, -⟩ | ⟨hg, -⟩ | ⟨hT, -⟩ | ⟨-, -, hc, he⟩ | ⟨-, -, -, he⟩
  · refine absurd (.inr ?_) hno
    rw [h.down i hi]
    exact hi
  · exact absurd (List.mem_append_left _ hi) (h.ground i hg)
  · exact absurd hT (hdisj hi)
  · exact .inl ⟨hc, he⟩
  · exact .inr he

/-- Nothing on the tile has changed its id, its class or its parent. -/
structure Keeps (s s' : State ι κ) (l : List ι) : Prop where
  id : ∀ j, (s'.item j).id = (s.item j).id
  cls : ∀ j, (s'.item j).cls = (s.item j).cls
  parent : ∀ j ∈ l, s'.parentIsTile j = s.parentIsTile j

/-- The tile after `removeThing`: some of its items. -/
theorem removeThing_holds (h : Holds items s D T) (t : Thing ι κ) (count : UInt32) :
    ∃ D' T', Holds items (s.removeThing items t count) D' T' ∧ D'.Sublist D ∧ T'.Sublist T ∧
      Keeps s (s.removeThing items t count) (D' ++ T') := by
  cases t with
  | creature c =>
    refine ⟨D, T, h.withCreatures fun l hl => ?_, .refl D, .refl T, ⟨fun _ => rfl, fun _ => rfl, fun _ _ => rfl⟩⟩
    obtain ⟨l', hl', rfl⟩ := Option.map_eq_some_iff.1 hl
    exact (h.creatures l' hl').erase c
  | item i =>
    rcases removeThing_cases items h.toShape i count with
      ⟨-, he⟩ | ⟨hg, he⟩ | ⟨hi, -, he⟩ | ⟨hi, -, -, he⟩ | ⟨hi, -, -, he⟩
    · rw [he]
      exact ⟨D, T, h, .refl D, .refl T, ⟨fun _ => rfl, fun _ => rfl, fun _ _ => rfl⟩⟩
    · rw [he]
      have h1 := (h.setParent i false).withGround (g := none) fun _ hn => nomatch hn
      exact ⟨D, T, h1.resetTileFlags i, .refl D, .refl T,
        ⟨fun _ => rfl, fun _ => rfl, s.setParent_of_not_mem (h.ground i hg) false⟩⟩
    · rw [he]
      have h1 := (h.setParent i false).sublist (.refl D) (List.erase_sublist (a := i) (l := T))
      exact ⟨D, T.erase i, h1.resetTileFlags i, .refl D, List.erase_sublist,
        ⟨fun _ => rfl, fun _ => rfl, s.setParent_of_not_mem (h.toShape.erase_top hi) false⟩⟩
    · rw [he]
      exact ⟨D, T, h.setItem fun _ => rfl, .refl D, .refl T,
        ⟨fun j => s.setItemCount_id i j _, fun j => s.setItemCount_cls i j _, fun _ _ => rfl⟩⟩
    · rw [he]
      have h1 := (h.setParent i false).sublist (List.erase_sublist (a := i) (l := D)) (.refl T)
      exact ⟨D.erase i, T, h1.resetTileFlags i, List.erase_sublist, .refl T,
        ⟨fun _ => rfl, fun _ => rfl, s.setParent_of_not_mem (h.toShape.erase_down hi) false⟩⟩

/-- The tile after the old splash is gone. -/
theorem removeSplash_holds (h : Holds items s D T) :
    ∃ T', Holds items (s.removeSplash items) D T' ∧ T'.Sublist T ∧
      Keeps s (s.removeSplash items) (D ++ T') ∧ (s.removeSplash items).tile.ground = s.tile.ground ∧
      (AtMostOne (fun j => (s.type items j).isSplash) T → ∀ j ∈ T', ¬ (s.type items j).isSplash) := by
  unfold removeSplash
  rw [h.topItems_eq]
  cases hfind : T.find? fun j => (s.type items j).isSplash with
  | none =>
    refine ⟨T, h, .refl T, ⟨fun _ => rfl, fun _ => rfl, fun _ _ => rfl⟩, rfl, fun _ j hj => ?_⟩
    exact List.find?_eq_none.1 hfind j hj
  | some old =>
    obtain ⟨hT, hsplash⟩ := mem_of_find? hfind
    have hnot := h.erase_top hT
    dsimp only
    rw [removeThing_top h hT]
    have h1 := (h.setParent old false).sublist (.refl D) (List.erase_sublist (a := old) (l := T))
    refine ⟨T.erase old, (h1.resetTileFlags old).setParent old false, List.erase_sublist,
      ⟨fun _ => rfl, fun _ => rfl, fun j hj => ?_⟩, rfl, fun hone j hj hs => ?_⟩
    · exact (setParent_of_not_mem _ hnot false j hj).trans (s.setParent_of_not_mem hnot false j hj)
    · have hne : j ≠ old := by
        rintro rfl
        exact hnot (List.mem_append_right _ hj)
      exact hne (hone j (List.mem_of_mem_erase hj) old hT hs hsplash)

theorem removeSplash_parent (h : Holds items s D T) {i : ι} (hi : i ∉ D ++ T) :
    (s.removeSplash items).parentIsTile i = s.parentIsTile i := by
  unfold removeSplash
  rw [h.topItems_eq]
  cases hfind : T.find? fun j => (s.type items j).isSplash with
  | none => rfl
  | some old =>
    obtain ⟨hT, -⟩ := mem_of_find? hfind
    have hne : i ≠ old := fun e => hi (e ▸ List.mem_append_right D hT)
    refine (setParent_of_ne _ hne false).trans ?_
    rw [removeThing_top h hT]
    exact setParent_of_ne s hne false

/-- A state inside the loop over the fields that began at `s₀`. An item whose
parent is gone is the field the loop is at. -/
structure Replacing (items : UInt16 → ItemType) (s₀ s : State ι κ) (D₀ D T : List ι) : Prop where
  holds : Holds items s D T
  sublist : D.Sublist D₀
  id : ∀ j, (s.item j).id = (s₀.item j).id
  cls : ∀ j, (s.item j).cls = (s₀.item j).cls
  ground : s.tile.ground = s₀.tile.ground
  other : ∀ j ∉ D₀, s.parentIsTile j = s₀.parentIsTile j
  parent : ∀ j ∈ D ++ T, s.parentIsTile j = false →
    D.find? (fun k => (s.item k).cls = .magicField) = some j ∧ s.isReplaceable items j

/-- One round of the loop takes a field away, or some of its count. -/
theorem Replacing.round {s₀ : State ι κ} {D₀ : List ι} (h : Replacing items s₀ s D₀ D T) {old : ι}
    (hfind : s.tile.downItems.find? (fun j => (s.item j).cls = .magicField) = some old)
    (hrep : s.isReplaceable items old) :
    ∃ D', Replacing items s₀ ((s.removeThing items (.item old) 1).setParent old false) D₀ D' T := by
  rw [h.holds.downItems_eq] at hfind
  obtain ⟨hD, -⟩ := mem_of_find? hfind
  have hnot := h.holds.erase_down hD
  rcases removeThing_down h.holds hD 1 with ⟨-, he⟩ | he
  · rw [he]
    set it := (s.item old).setItemCount (uint 1 (max 0 (int32 (((s.item old).count : ℤ) -
      (1 : UInt32).toNat)))) with hit
    have hsame : ∀ j, ((s.setItem old it).item j).id = (s.item j).id ∧
        ((s.setItem old it).item j).cls = (s.item j).cls :=
      fun j => ⟨s.setItemCount_id old j _, s.setItemCount_cls old j _⟩
    have hfield : (fun k => decide (((s.setItem old it).item k).cls = .magicField)) =
        fun k => decide ((s.item k).cls = .magicField) := by
      funext k
      rw [(hsame k).2]
    have h1 : Holds items (s.setItem old it) D T := h.holds.setItem fun _ => rfl
    refine ⟨D, h1.setParent old false, h.sublist,
      fun j => (hsame j).1.trans (h.id j), fun j => (hsame j).2.trans (h.cls j), h.ground, ?_, ?_⟩
    · intro j hj
      have hne : j ≠ old := fun e => hj (e ▸ h.sublist.subset hD)
      exact (setParent_of_ne _ hne false).trans (h.other j hj)
    · intro j hj hp
      have hj' : j = old := by
        by_contra hne
        rw [setParent_of_ne _ hne] at hp
        exact hne (Option.some.inj ((h.parent j hj hp).1.symm.trans hfind))
      subst hj'
      refine ⟨(congrArg (D.find? ·) hfield).trans hfind, ?_⟩
      have hid := (hsame j).1
      change (items ((s.setItem j it).item j).id).replaceable = true
      rw [hid]
      exact hrep
  · rw [he]
    have h1 := (h.holds.setParent old false).sublist (List.erase_sublist (a := old) (l := D)) (.refl T)
    refine ⟨D.erase old, (h1.resetTileFlags old).setParent old false,
      List.erase_sublist.trans h.sublist, h.id, h.cls, h.ground, ?_, ?_⟩
    · intro j hj
      have hne : j ≠ old := fun e => hj (e ▸ h.sublist.subset hD)
      exact ((setParent_of_ne _ hne false).trans (setParent_of_ne s hne false)).trans (h.other j hj)
    · intro j hj hp
      have hne : j ≠ old := fun e => hnot (e ▸ hj)
      rw [setParent_of_ne _ hne] at hp
      have hp' : s.parentIsTile j = false := (setParent_of_ne s hne false).symm.trans hp
      have hj' : j ∈ D ++ T := (List.erase_sublist.append (.refl T)).subset hj
      exact absurd (Option.some.inj ((h.parent j hj' hp').1.symm.trans hfind)) hne

/-- The tile after the old fields are gone, or after one has stayed. -/
theorem removeFields_holds (h : Holds items s D T) (ho : ∀ j ∈ D ++ T, s.parentIsTile j = true)
    (fuel : ℕ) {s' : State ι κ} {replaced : Bool}
    (hs : removeFields items fuel s = some (s', replaced)) :
    ∃ D', Replacing items s s' D D' T ∧ (∀ j ∈ D' ++ T, s'.parentIsTile j = true) ∧
      (replaced = true → ∀ j ∈ D', (s'.item j).cls ≠ .magicField) := by
  have h0 : ∃ D', Replacing items s s D D' T := by
    refine ⟨D, h, .refl D, fun _ => rfl, fun _ => rfl, rfl, fun _ _ => rfl, fun j hj hp => ?_⟩
    rw [ho j hj] at hp
    exact nomatch hp
  obtain ⟨⟨D', hr⟩, hend⟩ := removeFields_induct (P := fun s₁ => ∃ D', Replacing items s s₁ D D' T)
    (fun s₁ old ⟨D₁, h1⟩ hfind hrep => h1.round hfind hrep) fuel h0 hs
  have hfinds : s'.tile.downItems.find? (fun j => (s'.item j).cls = .magicField) =
      D'.find? fun j => (s'.item j).cls = .magicField := by
    rw [hr.holds.downItems_eq]
  rw [hfinds] at hend
  refine ⟨D', hr, fun j hj => ?_, fun htrue => ?_⟩
  · by_contra hp
    obtain ⟨hfind, hrep⟩ := hr.parent j hj (Bool.not_eq_true _ ▸ hp)
    rw [hfind] at hend
    exact hend.2 hrep
  · cases hfind : D'.find? fun j => (s'.item j).cls = .magicField with
    | none => exact fun j hj hc => List.find?_eq_none.1 hfind j hj (decide_eq_true hc)
    | some j =>
      rw [hfind] at hend
      exact absurd (hend.1.symm.trans htrue) Bool.false_ne_true

omit [DecidableEq ι] [DecidableEq κ] in
theorem Holds.insertTop (h : Holds items s D T) {i : ι} (hi : ¬ s.tile.Has (.item i))
    (hsize : (D ++ T).length < 0xFFFF) (htop : s.isAlwaysOnTop items i = true)
    (before : ItemType → Bool) : Holds items (s.insertTop items before i) D
      (insertBefore (fun j => before (s.type items j)) i T) := by
  rw [insertTop_eq h.toShape]
  refine ⟨h.toShape.insert (insertBefore_parts ..) hi hsize, h.down, fun j hj => ?_⟩
  rcases List.mem_cons.1 ((Tile.insertBefore_perm T).mem_iff.1 hj) with rfl | hj
  · exact htop
  · exact h.top j hj

omit [DecidableEq ι] [DecidableEq κ] in
theorem Holds.insertDown (h : Holds items s D T) {i : ι} (hi : ¬ s.tile.Has (.item i))
    (hsize : (D ++ T).length < 0xFFFF) (hdown : s.isAlwaysOnTop items i = false) :
    Holds items (s.insertDown i) (i :: D) T := by
  rw [insertDown_eq h.toShape hsize]
  refine ⟨h.toShape.insert (.refl _) hi hsize, fun j hj => ?_, h.top⟩
  rcases List.mem_cons.1 hj with rfl | hj
  · exact hdown
  · exact h.down j hj

/-- How the two parts of the vector come out of `addThing`, for an item of the
type `it`. -/
inductive Added (items : UInt16 → ItemType) (s : State ι κ) (i : ι) (D T : List ι) :
    List ι → List ι → Prop
  | rest {D'} : D'.Sublist D → Added items s i D T D' T
  | top {T₁} : T₁.Sublist T →
      ((s.type items i).isSplash → AtMostOne (fun j => (s.type items j).isSplash) T →
        ∀ j ∈ T₁, ¬ (s.type items j).isSplash) →
      Added items s i D T D (insertBefore (fun j =>
        (s.type items i).alwaysOnTopOrder ≤ (s.type items j).alwaysOnTopOrder) i T₁)
  | down {D₁} : D₁.Sublist D →
      ((s.type items i).isMagicField → ∀ j ∈ D₁, (s.item j).cls ≠ .magicField) →
      Added items s i D T (i :: D₁) T

omit [DecidableEq κ] in
theorem addGround_holds (h : Holds items s D T) {i : ι} (hi : ¬ s.tile.Has (.item i)) : Holds items (s.addGround items i) D T ∧
      Keeps s (s.addGround items i) (D ++ T) := by
  have hmem := h.not_mem hi
  have hnew := h.withGround (g := some i) fun j hj => Option.some.inj hj ▸ hmem
  unfold addGround
  cases hg : s.tile.ground with
  | none => exact ⟨hnew.setTileFlags i, ⟨fun _ => rfl, fun _ => rfl, fun _ _ => rfl⟩⟩
  | some old =>
    refine ⟨((hnew.setParent old false).resetTileFlags old).setTileFlags i,
      ⟨fun _ => rfl, fun _ => rfl, ?_⟩⟩
    exact setParent_of_not_mem _ (h.ground old hg) false

/-- The tile after `addThing` of an item that was not on it. -/
theorem addThing_holds (h : Holds items s D T) (ho : ∀ j ∈ D ++ T, s.parentIsTile j = true) {i : ι}
    (hi : ¬ s.tile.Has (.item i)) {s' : State ι κ} (hs : s.addThing items (.item i) = some s') :
    ∃ D' T', Holds items s' D' T' ∧ Added items s i D T D' T' ∧
      (∀ j, (s'.item j).id = (s.item j).id) ∧ (∀ j, (s'.item j).cls = (s.item j).cls) ∧
      ∀ j ∈ D' ++ T', s'.parentIsTile j = true := by
  have hmem := h.not_mem hi
  unfold addThing at hs
  dsimp only at hs
  split at hs
  · cases hs
    exact ⟨D, T, h, .rest (.refl D), fun _ => rfl, fun _ => rfl, ho⟩
  next hfull =>
  have hsize : (D ++ T).length < 0xFFFF := by
    rcases h.items_eq with he | ⟨-, rfl, rfl⟩
    · rw [he] at hfull
      simpa [ofParts] using hfull
    · exact Nat.zero_lt_succ _
  have h1 := h.setParent i true
  have ho1 : ∀ j ∈ D ++ T, (s.setParent i true).parentIsTile j = true := fun j hj =>
    (s.setParent_of_not_mem hmem true j hj).trans (ho j hj)
  split at hs
  · cases hs
    obtain ⟨hg, hk⟩ := addGround_holds h1 hi
    exact ⟨D, T, hg, .rest (.refl D), hk.id, hk.cls, fun j hj => (hk.parent j hj).trans (ho1 j hj)⟩
  split at hs
  · next htop =>
    simp only [Option.some.injEq] at hs
    obtain ⟨s₁, hs₁⟩ : ∃ s₁, (if ((s.setParent i true).type items i).isSplash then
      (s.setParent i true).removeSplash items else s.setParent i true) = s₁ := ⟨_, rfl⟩
    rw [hs₁] at hs
    -- with or without an old splash
    have hsplash : ∃ T₁, Holds items s₁ D T₁ ∧ T₁.Sublist T ∧ Keeps (s.setParent i true) s₁ (D ++ T₁) ∧
        s₁.tile.ground = s.tile.ground ∧ s₁.parentIsTile i = true ∧ ((s.type items i).isSplash →
          AtMostOne (fun j => (s.type items j).isSplash) T → ∀ j ∈ T₁, ¬ (s.type items j).isSplash) := by
      subst hs₁
      split
      · obtain ⟨T₁, hT₁, hsub, hk, hg, hone⟩ := removeSplash_holds h1
        exact ⟨T₁, hT₁, hsub, hk, hg, (removeSplash_parent h1 hmem).trans (setParent_self s i true),
          fun _ => hone⟩
      · next hno =>
        exact ⟨T, h1, .refl T, ⟨fun _ => rfl, fun _ => rfl, fun _ _ => rfl⟩, rfl, setParent_self s i true,
          fun hf => absurd hf hno⟩
    obtain ⟨T₁, hT₁, hsub, hk, hg, hpi, hone⟩ := hsplash
    have hsub' := (List.Sublist.refl D).append hsub
    have htype : ∀ j, s₁.type items j = s.type items j := fun j => congrArg items (hk.id j)
    have hi₁ : ¬ s₁.tile.Has (.item i) := by
      rw [hT₁.has_iff, hg]
      rintro (hg | hm)
      · exact hi (.inl hg)
      · exact hmem (hsub'.subset hm)
    have htop₁ : s₁.isAlwaysOnTop items i = true := by
      unfold State.isAlwaysOnTop
      rw [htype]
      exact htop
    have hins := hT₁.insertTop hi₁ (hsub'.length_le.trans_lt hsize) htop₁
      fun it => (s.type items i).alwaysOnTopOrder ≤ it.alwaysOnTopOrder
    simp only [htype] at hins
    subst hs
    refine ⟨D, _, hins.setTileFlags i, .top hsub hone, hk.id, hk.cls, fun j hj => ?_⟩
    rcases List.mem_append.1 hj with hj | hj
    · exact (hk.parent j (List.mem_append_left _ hj)).trans (ho1 j (List.mem_append_left _ hj))
    · rcases List.mem_cons.1 ((Tile.insertBefore_perm T₁).mem_iff.1 hj) with rfl | hj
      · exact hpi
      · have hj' := List.mem_append_right D hj
        exact (hk.parent j hj').trans (ho1 j (hsub'.subset hj'))
  · next htop =>
    have hdown : (s.setParent i true).isAlwaysOnTop items i = false := Bool.not_eq_true _ ▸ htop
    split at hs
    · next hfield =>
      obtain ⟨⟨s₁, replaced⟩, hr, rfl⟩ := Option.map_eq_some_iff.1 hs
      obtain ⟨D₁, hrep, ho₁, hnone⟩ := removeFields_holds h1 ho1 _ hr
      have hsub := hrep.sublist.append (List.Sublist.refl T)
      have hmem₁ : i ∉ D₁ ++ T := fun hm => hmem (hsub.subset hm)
      have hi₁ : ¬ s₁.tile.Has (.item i) := by
        rw [hrep.holds.has_iff, hrep.ground]
        rintro (hg | hm)
        · exact hi (.inl hg)
        · exact hmem₁ hm
      cases replaced with
      | false =>
        refine ⟨D₁, T, hrep.holds.setParent i false, .rest hrep.sublist, hrep.id, hrep.cls, fun j hj => ?_⟩
        exact (setParent_of_not_mem s₁ hmem₁ false j hj).trans (ho₁ j hj)
      | true =>
        have hd₁ : s₁.isAlwaysOnTop items i = false := by
          unfold State.isAlwaysOnTop State.type
          rw [hrep.id i]
          exact hdown
        have hsize₁ := hsub.length_le.trans_lt hsize
        refine ⟨i :: D₁, T, (hrep.holds.insertDown hi₁ hsize₁ hd₁).setTileFlags i,
          .down hrep.sublist fun _ j hj => ?_, hrep.id, hrep.cls, fun j hj => ?_⟩
        · exact (hrep.cls j) ▸ hnone rfl j hj
        · rcases List.mem_cons.1 hj with rfl | hj
          · exact (hrep.other j fun hm => hmem (List.mem_append_left _ hm)).trans (setParent_self s j true)
          · exact ho₁ j hj
    · next hfield =>
      cases hs
      refine ⟨i :: D, T, (h1.insertDown hi hsize hdown).setTileFlags i,
        .down (.refl D) fun hf => absurd hf hfield, fun _ => rfl, fun _ => rfl, fun j hj => ?_⟩
      rcases List.mem_cons.1 hj with rfl | hj
      · exact setParent_self s j true
      · exact ho1 j hj

/-- What the loop over the fields can still take away. -/
def left (s : State ι κ) (D : List ι) : ℕ := (D.map fun j => (s.item j).count + 1).sum

omit [DecidableEq ι] [DecidableEq κ] in
theorem left_le (hcount : ∀ j ∈ D, (s.item j).count < 256) : left s D ≤ 256 * D.length := by
  have hle : ∀ x ∈ D.map fun j => (s.item j).count + 1, x ≤ 256 := by
    intro x hx
    obtain ⟨j, hj, rfl⟩ := List.mem_map.1 hx
    exact hcount j hj
  calc left s D ≤ (D.map fun j => (s.item j).count + 1).length • 256 := List.sum_le_card_nsmul _ _ hle
    _ = 256 * D.length := by rw [List.length_map, smul_eq_mul, mul_comm]

/-- Taking one from a count, a byte. -/
theorem takeOne {c : ℕ} (hc : c < 256) :
    uint 1 (max 0 (int32 ((c : ℤ) - (1 : UInt32).toNat))) % 256 = c - 1 := by
  have h1 : ((1 : UInt32).toNat : ℤ) = 1 := rfl
  rw [h1]
  unfold uint int32
  split_ifs <;> omega

/-- With enough rounds the loop over the fields ends, unless a stack of none is
a field. -/
theorem removeFields_isSome : ∀ (fuel : ℕ) {s : State ι κ} {D : List ι}, Holds items s D T →
    (∀ j ∈ D, (s.item j).count < 256) →
    (∀ j ∈ D, (s.item j).cls = .magicField → (s.type items j).stackable → (s.item j).count ≠ 0) →
    left s D < fuel → (removeFields items fuel s).isSome
  | 0, _, _, _, _, _, hfuel => absurd hfuel (Nat.not_lt_zero _)
  | fuel + 1, s, D, h, hcount, hnone, hfuel => by
    unfold removeFields
    rw [h.downItems_eq]
    cases hfind : D.find? fun j => (s.item j).cls = .magicField with
    | none => rfl
    | some old =>
      obtain ⟨hD, hcls⟩ := mem_of_find? hfind
      have hcls := of_decide_eq_true hcls
      dsimp only
      split
      case isFalse => rfl
      rcases removeThing_down h hD 1 with ⟨⟨hs, hne⟩, he⟩ | he
      · rw [he]
        have h0 := hnone old hD hcls hs
        have htake := takeOne (hcount old hD)
        set it := (s.item old).setItemCount (uint 1 (max 0 (int32 (((s.item old).count : ℤ) -
          (1 : UInt32).toNat)))) with hit
        have hitc : it.count = (s.item old).count - 1 := htake
        have hne1 : (s.item old).count ≠ 1 := fun e => hne e.symm
        have h1 : Holds items (s.setItem old it) D T := h.setItem fun _ => rfl
        refine removeFields_isSome fuel (h1.setParent old false) (fun j hj => ?_) (fun j hj hc hst => ?_) ?_
        · by_cases hjo : j = old
          · subst hjo
            change ((s.setItem j it).item j).count < 256
            rw [setItem_item_self, hitc]
            have := hcount j hj
            omega
          · change ((s.setItem old it).item j).count < 256
            rw [setItem_item_of_ne _ hjo]
            exact hcount j hj
        · by_cases hjo : j = old
          · subst hjo
            change ((s.setItem j it).item j).count ≠ 0
            rw [setItem_item_self, hitc]
            omega
          · change ((s.setItem old it).item j).count ≠ 0
            change ((s.setItem old it).item j).cls = .magicField at hc
            change (items ((s.setItem old it).item j).id).stackable at hst
            rw [setItem_item_of_ne _ hjo] at hc hst ⊢
            exact hnone j hj hc hst
        · have hlt : left (s.setItem old it) D < left s D := by
            refine List.sum_lt_sum _ _ (fun j hj => ?_) ⟨old, hD, ?_⟩
            · by_cases hjo : j = old
              · subst hjo
                rw [setItem_item_self, hitc]
                omega
              · rw [setItem_item_of_ne _ hjo]
            · rw [setItem_item_self, hitc]
              omega
          exact Nat.lt_of_lt_of_le hlt (Nat.le_of_lt_succ hfuel)
      · rw [he]
        have h1 := (h.setParent old false).sublist (List.erase_sublist (a := old) (l := D)) (.refl T)
        refine removeFields_isSome fuel ((h1.resetTileFlags old).setParent old false)
          (fun j hj => hcount j (List.mem_of_mem_erase hj))
          (fun j hj => hnone j (List.mem_of_mem_erase hj)) ?_
        have hperm := ((List.perm_cons_erase hD).map fun j => (s.item j).count + 1).sum_eq
        rw [List.map_cons, List.sum_cons] at hperm
        unfold left at hfuel ⊢
        change ((D.erase old).map fun j => (s.item j).count + 1).sum < fuel
        omega

/-- `addThing` returns, unless a magic field on the tile is a stack of none. -/
theorem addThing_isSome (h : Holds items s D T) (hcount : ∀ j ∈ D, (s.item j).count < 256)
    (hnone : ∀ j ∈ D, (s.item j).cls = .magicField → (s.type items j).stackable →
      (s.item j).count ≠ 0) (t : Thing ι κ) : (s.addThing items t).isSome := by
  unfold addThing
  cases t with
  | creature c => rfl
  | item i =>
    dsimp only
    split
    · rfl
    split
    · rfl
    split
    · rfl
    split
    · rw [Option.isSome_map]
      apply removeFields_isSome _ (h.setParent i true) hcount hnone
      have hlen : (s.setParent i true).tile.downItems = D := h.downItems_eq
      rw [hlen]
      exact Nat.lt_succ_of_le (left_le (s := s) hcount)
    · rfl

omit [DecidableEq κ] in
/-- The tile after `internalAddThing` of an item that was not on it. -/
theorem internalAddThing_holds (h : Holds items s D T) (ho : ∀ j ∈ D ++ T, s.parentIsTile j = true)
    {i : ι} (hi : ¬ s.tile.Has (.item i)) :
    ∃ D' T', Holds items (s.internalAddThing items (.item i)) D' T' ∧
      (∀ j ∈ D' ++ T', (s.internalAddThing items (.item i)).parentIsTile j = true) ∧
      (∀ j, ((s.internalAddThing items (.item i)).item j).id = (s.item j).id) ∧
      (T' = T ∨ T' = insertBefore (fun j =>
        (s.type items i).alwaysOnTopOrder < (s.type items j).alwaysOnTopOrder) i T) := by
  have hmem := h.not_mem hi
  have h1 := h.setParent i true
  have ho1 : ∀ j ∈ D ++ T, (s.setParent i true).parentIsTile j = true := fun j hj =>
    (s.setParent_of_not_mem hmem true j hj).trans (ho j hj)
  have hpi := setParent_self s i true
  unfold internalAddThing
  dsimp only
  split
  · split
    · refine ⟨D, T, (h1.withGround fun g hg => ?_).setTileFlags i, ho1, fun _ => rfl, .inl rfl⟩
      exact Option.some.inj hg ▸ hmem
    · exact ⟨D, T, h1, ho1, fun _ => rfl, .inl rfl⟩
  -- the list exists now
  have h2 : Holds items ((s.setParent i true).setItemList (s.setParent i true).makeItemList) D T := by
    have hv : (s.setParent i true).makeItemList = ofParts D T := h1.vector
    rw [hv]
    exact h1.sublist (.refl D) (.refl T)
  have hi2 : ¬ ((s.setParent i true).setItemList (s.setParent i true).makeItemList).tile.Has (.item i) := by
    rw [h2.has_iff]
    rintro (hg | hm)
    · exact hi (.inl hg)
    · exact hmem hm
  split
  · exact ⟨D, T, h2, ho1, fun _ => rfl, .inl rfl⟩
  next hfull =>
  have hsize : (D ++ T).length < 0xFFFF := by
    have hv : ((s.setParent i true).setItemList (s.setParent i true).makeItemList).makeItemList =
      ofParts D T := h2.vector
    rw [hv] at hfull
    exact Nat.lt_of_not_le hfull
  split
  · next htop =>
    refine ⟨D, _, (h2.insertTop hi2 hsize htop _).setTileFlags i, fun j hj => ?_, fun _ => rfl, .inr rfl⟩
    rcases List.mem_append.1 hj with hj | hj
    · exact ho1 j (List.mem_append_left _ hj)
    · rcases List.mem_cons.1 ((Tile.insertBefore_perm T).mem_iff.1 hj) with rfl | hj
      · exact hpi
      · exact ho1 j (List.mem_append_right _ hj)
  · next htop =>
    refine ⟨i :: D, T, (h2.insertDown hi2 hsize (Bool.not_eq_true _ ▸ htop)).setTileFlags i, fun j hj => ?_,
      fun _ => rfl, .inl rfl⟩
    rcases List.mem_cons.1 hj with rfl | hj
    · exact hpi
    · exact ho1 j hj

theorem updateThing_holds (h : Holds items s D T) (t : Thing ι κ) {itemId : UInt16} (count : UInt32)
    (hclass : ∀ i, t = .item i → (items itemId).alwaysOnTop = s.isAlwaysOnTop items i) :
    Holds items (s.updateThing items t itemId count) D T ∧
      (s.updateThing items t itemId count).parentIsTile = s.parentIsTile := by
  unfold updateThing
  cases t with
  | creature c => exact ⟨h, rfl⟩
  | item i =>
    dsimp only
    split
    · exact ⟨h, rfl⟩
    · refine ⟨((h.resetTileFlags i).setItem fun _ => ?_).setTileFlags i, rfl⟩
      rw [setSubType_id, setID_id]
      exact hclass i rfl

omit [DecidableEq κ] in
/-- The tile after `replaceThing` by an item that was not on it, of the class
of the one it replaces. -/
theorem replaceThing_holds (h : Holds items s D T) (ho : ∀ j ∈ D ++ T, s.parentIsTile j = true)
    (index : ℕ) {i : ι} (hi : ¬ s.tile.Has (.item i))
    (hclass : ∀ old, s.tile.getThing index = some (.item old) →
      s.isAlwaysOnTop items i = s.isAlwaysOnTop items old) :
    ∃ D' T', Holds items (s.replaceThing items index (.item i)) D' T' ∧
      ∀ j ∈ D' ++ T', (s.replaceThing items index (.item i)).parentIsTile j = true := by
  unfold replaceThing
  dsimp only
  cases hold : oldItem s.tile index with
  | none => exact ⟨D, T, h, ho⟩
  | some old =>
    have hget := oldItem_eq_some.1 hold
    have hc := hclass old hget
    rw [TileStack.Tile.getThing_eq] at hget
    have hmem := h.not_mem hi
    have hne : old ≠ i := by
      rintro rfl
      exact hi ((TileStack.Tile.mem_things _).1 (List.mem_of_getElem? hget))
    -- the new item has the tile as parent, the old one has not
    have hparent : ∀ {l : List ι}, (∀ j ∈ l, j = i ∨ j ∈ D ++ T) → old ∉ l → ∀ j ∈ l,
        ((s.setParent i true).setParent old false).parentIsTile j = true := by
      intro l hl hold j hj
      rw [setParent_of_not_mem _ hold false j hj]
      by_cases hji : j = i
      · rw [hji, setParent_self]
      · rw [setParent_of_ne s hji]
        exact ho j ((hl j hj).resolve_left hji)
    obtain ⟨-, -, hdisj⟩ := List.nodup_append'.1 h.nodup
    have hD := (List.nodup_append'.1 h.nodup).1
    have hT := (List.nodup_append'.1 h.nodup).2.1
    rcases replaced_cases h.toShape hget i with ⟨hg, he⟩ | ⟨k, hk, he⟩ | ⟨k, hk, he⟩
    · dsimp only
      rw [he]
      have h1 := h.withGround (g := some i) fun j hj => Option.some.inj hj ▸ hmem
      exact ⟨D, T, (((h1.setParent i true).resetTileFlags old).setTileFlags i).setParent old false,
        hparent (fun j hj => .inr hj) (h.ground old hg)⟩
    · dsimp only
      rw [he]
      have h1 : Holds items { s with tile := { s.tile with items := some (ofParts D (T.set k i)) } }
          D (T.set k i) := by
        refine ⟨h.toShape.set (append_set_top D k i) hi, h.down, fun j hj => ?_⟩
        rcases List.mem_or_eq_of_mem_set hj with hj | rfl
        · exact h.top j hj
        · exact hc.trans (h.top old (List.mem_of_getElem? hk))
      refine ⟨D, T.set k i, (((h1.setParent i true).resetTileFlags old).setTileFlags i).setParent old false,
        hparent (fun j hj => ?_) fun hm => ?_⟩
      · rcases List.mem_append.1 hj with hj | hj
        · exact .inr (List.mem_append_left _ hj)
        · exact (List.mem_or_eq_of_mem_set hj).symm.imp_right (List.mem_append_right _)
      · rcases List.mem_append.1 hm with hm | hm
        · exact hdisj hm (List.mem_of_getElem? hk)
        · exact not_mem_set hT hk hne hm
    · dsimp only
      rw [he]
      have h1 : Holds items { s with tile := { s.tile with items := some (ofParts (D.set k i) T) } }
          (D.set k i) T := by
        have hlt := (List.getElem?_eq_some_iff.1 hk).1
        refine ⟨h.toShape.set (append_set_down T hlt i) hi, fun j hj => ?_, h.top⟩
        rcases List.mem_or_eq_of_mem_set hj with hj | rfl
        · exact h.down j hj
        · exact hc.trans (h.down old (List.mem_of_getElem? hk))
      refine ⟨D.set k i, T, (((h1.setParent i true).resetTileFlags old).setTileFlags i).setParent old false,
        hparent (fun j hj => ?_) fun hm => ?_⟩
      · rcases List.mem_append.1 hj with hj | hj
        · exact (List.mem_or_eq_of_mem_set hj).symm.imp_right (List.mem_append_left _)
        · exact .inr (List.mem_append_right _ hj)
      · rcases List.mem_append.1 hm with hm | hm
        · exact not_mem_set hD hk hne hm
        · exact hdisj (List.mem_of_getElem? hk) hm

end Operations

end State

/-! ### Runs -/

open State Run

section Runs

variable [DecidableEq ι] [DecidableEq κ] (items : UInt16 → ItemType)

/-- What the callers see to: a thing that is added was not on the tile, and a
type takes the place of one of the same class. An index comes from
`getThingIndex`, an `int32_t`. -/
def Legal (s : State ι κ) : Action ι κ → Prop
  | .addThing t => ¬ s.tile.Has t
  | .internalAddThing t => ¬ s.tile.Has t
  | .removeThing _ _ => True
  | .updateThing t itemId _ =>
    ∀ i, t = .item i → (items itemId).alwaysOnTop = s.isAlwaysOnTop items i
  | .replaceThing index t => index < 2 ^ 31 ∧ ¬ s.tile.Has t ∧ ∀ i old, t = .item i →
    s.tile.getThing index = some (.item old) → s.isAlwaysOnTop items i = s.isAlwaysOnTop items old
  | .elsewhere i _ => ¬ s.tile.Has (.item i)

/-- The calls of the clause about splashes and fields. -/
def Action.AddsOrRemoves : Action ι κ → Prop
  | .addThing _ | .removeThing _ _ | .elsewhere _ _ => True
  | _ => False

/-- The calls of the clause about the order of the top items. -/
def Action.KeepsTypes : Action ι κ → Prop
  | .addThing _ | .internalAddThing _ | .removeThing _ _ | .elsewhere _ _ => True
  | _ => False

/-- A magic field, of the class and of the type that `CreateItem` joins. -/
def IsField (s : State ι κ) (i : ι) : Prop :=
  (s.item i).cls = .magicField ∧ (s.type items i).isMagicField

variable {items} {s : State ι κ} {D T : List ι}

/-- One order of the top items. -/
def Sorted (items : UInt16 → ItemType) (s : State ι κ) (T : List ι) : Prop :=
  T.Pairwise fun j k => (s.type items j).alwaysOnTopOrder ≤ (s.type items k).alwaysOnTopOrder

/-- One splash among the top items, one field among the down items. -/
def Single (items : UInt16 → ItemType) (s : State ι κ) (D T : List ι) : Prop :=
  AtMostOne (fun j => (s.type items j).isSplash) T ∧ AtMostOne (IsField items s) D

section Kinds

variable {s' : State ι κ} {D' T' : List ι}

omit [DecidableEq ι] [DecidableEq κ] in
theorem Sorted.congr (h : Sorted items s T) (hid : ∀ j ∈ T, (s'.item j).id = (s.item j).id) :
    Sorted items s' T := by
  refine h.imp_of_mem fun {j k} hj hk hjk => ?_
  unfold State.type
  rw [hid j hj, hid k hk]
  exact hjk

omit [DecidableEq ι] [DecidableEq κ] in
theorem Single.congr (h : Single items s D T) (hid : ∀ j ∈ D ++ T, (s'.item j).id = (s.item j).id)
    (hcls : ∀ j ∈ D ++ T, (s'.item j).cls = (s.item j).cls) : Single items s' D T := by
  refine ⟨h.1.congr fun j hj => ?_, h.2.congr fun j hj => ?_⟩
  · unfold State.type
    rw [hid j (List.mem_append_right _ hj)]
  · unfold IsField State.type
    rw [hid j (List.mem_append_left _ hj), hcls j (List.mem_append_left _ hj)]

omit [DecidableEq ι] [DecidableEq κ] in
/-- An item added keeps one splash and one field. -/
theorem Single.added {i : ι} (h : Single items s D T) (ha : Added items s i D T D' T') :
    Single items s D' T' := by
  cases ha with
  | rest hD => exact ⟨h.1, h.2.sublist hD⟩
  | top hT hone =>
    refine ⟨?_, h.2⟩
    exact ((h.1.sublist hT).cons fun hs => hone hs h.1).perm (Tile.insertBefore_perm _)
  | down hD hnone =>
    refine ⟨h.1, (h.2.sublist hD).cons fun hf j hj hfj => ?_⟩
    exact hnone hf.2 j hj hfj.1

omit [DecidableEq ι] [DecidableEq κ] in
/-- A top item inserted before the first that may stand behind it. -/
theorem Sorted.insertBefore (h : Sorted items s T) {i : ι} {p : ι → Bool}
    (hp : ∀ j, p j → (s.type items i).alwaysOnTopOrder ≤ (s.type items j).alwaysOnTopOrder)
    (hn : ∀ j, ¬ p j → (s.type items j).alwaysOnTopOrder ≤ (s.type items i).alwaysOnTopOrder) :
    Sorted items s (insertBefore p i T) := by
  unfold Sorted
  apply Tile.insertBefore_pairwise _ h
  · exact fun j _ => hp j
  · exact fun j _ => hn j
  · exact fun _ _ _ => le_trans

omit [DecidableEq ι] [DecidableEq κ] in
theorem Sorted.added {i : ι} (h : Sorted items s T) (ha : Added items s i D T D' T') :
    Sorted items s T' := by
  cases ha with
  | rest hD => exact h
  | top hT hone =>
    apply Sorted.insertBefore (h.sublist hT)
    · exact fun j hj => of_decide_eq_true hj
    · exact fun j hj => le_of_not_ge (mt decide_eq_true hj)
  | down hD hnone => exact h

end Kinds

/-- What a call keeps, for the kinds of calls that keep it. -/
theorem step_holds (h : Holds items s D T) (ho : ∀ j ∈ D ++ T, s.parentIsTile j = true)
    {a : Action ι κ} (ha : Legal items s a) {s' : State ι κ} (hs : step items (some s) a = some s') :
    ∃ D' T', Holds items s' D' T' ∧ (∀ j ∈ D' ++ T', s'.parentIsTile j = true) ∧
      (a.AddsOrRemoves → Single items s D T → Single items s' D' T') ∧
      (a.KeepsTypes → Sorted items s T → Sorted items s' T') := by
  cases a with
  | addThing t =>
    replace hs : s.addThing items t = some s' := hs
    cases t with
    | creature c =>
      cases hs
      refine ⟨D, T, h.withCreatures fun l hl => ?_, ho, fun _ hk => hk, fun _ hk => hk⟩
      cases hl
      exact creatures_append_nodup h.creatures ha
    | item i =>
      obtain ⟨D', T', h', hadd, hid, hcls, ho'⟩ := addThing_holds h ho ha hs
      exact ⟨D', T', h', ho', fun _ hk => (hk.added hadd).congr (fun j _ => hid j) fun j _ => hcls j,
        fun _ hk => (hk.added hadd).congr fun j _ => hid j⟩
  | internalAddThing t =>
    cases hs
    cases t with
    | creature c =>
      refine ⟨D, T, h.withCreatures fun l hl => ?_, ho, fun _ hk => hk, fun _ hk => hk⟩
      cases hl
      exact creatures_append_nodup h.creatures ha
    | item i =>
      obtain ⟨D', T', h', ho', hid, hT⟩ := internalAddThing_holds h ho ha
      refine ⟨D', T', h', ho', fun hk => hk.elim, fun _ hk => Sorted.congr ?_ fun j _ => hid j⟩
      rcases hT with rfl | rfl
      · exact hk
      · apply hk.insertBefore
        · exact fun j hj => (of_decide_eq_true hj).le
        · exact fun j hj => le_of_not_gt (mt decide_eq_true hj)
  | removeThing t count =>
    cases hs
    obtain ⟨D', T', h', hD, hT, hk⟩ := removeThing_holds h t count
    refine ⟨D', T', h', fun j hj => ?_, fun _ hone => ?_, fun _ hsort => ?_⟩
    · exact (hk.parent j hj).trans (ho j ((hD.append hT).subset hj))
    · exact Single.congr ⟨hone.1.sublist hT, hone.2.sublist hD⟩ (fun j _ => hk.id j) fun j _ => hk.cls j
    · exact Sorted.congr (s := s) (hsort.sublist hT) fun j _ => hk.id j
  | updateThing t itemId count =>
    cases hs
    obtain ⟨h', hp⟩ := updateThing_holds h t count ha
    exact ⟨D, T, h', fun j hj => (congrFun hp j).trans (ho j hj), fun hk => hk.elim, fun hk => hk.elim⟩
  | replaceThing index t =>
    cases hs
    cases t with
    | creature c => exact ⟨D, T, h, ho, fun hk => hk.elim, fun hk => hk.elim⟩
    | item i =>
      obtain ⟨D', T', h', ho'⟩ := replaceThing_holds h ho index ha.2.1 fun old hold => ha.2.2 i old rfl hold
      exact ⟨D', T', h', ho', fun hk => hk.elim, fun hk => hk.elim⟩
  | elsewhere i item =>
    cases hs
    have hi : i ∉ D ++ T := fun hm => ha ((h.has_iff i).2 (.inr hm))
    have hitem : ∀ j ∈ D ++ T, (s.setItem i item).item j = s.item j := by
      intro j hj
      apply setItem_item_of_ne
      rintro rfl
      exact hi hj
    refine ⟨D, T, h.setItem fun hm => absurd hm hi, ho, fun _ hone => ?_, fun _ hsort => ?_⟩
    · exact hone.congr (fun j hj => congrArg Item.id (hitem j hj)) fun j hj => congrArg Item.cls (hitem j hj)
    · exact hsort.congr fun j hj => congrArg Item.id (hitem j (List.mem_append_right _ hj))

/-- The item vector of a tile: the down items, as many as the counter says,
before the top items, no item twice or also the ground, and the tile the parent
of all of them. -/
structure ItemVector (items : UInt16 → ItemType) (s : State ι κ) : Prop where
  count : s.makeItemList.downItemCount =
    s.makeItemList.items.countP fun i => !s.isAlwaysOnTop items i
  order : s.makeItemList.items.Pairwise fun i j =>
    s.isAlwaysOnTop items i = true → s.isAlwaysOnTop items j = true
  nodup : s.makeItemList.items.Nodup
  ground : ∀ g, s.tile.ground = some g → g ∉ s.makeItemList.items
  parent : ∀ i ∈ s.makeItemList.items, s.parentIsTile i = true

omit [DecidableEq ι] [DecidableEq κ] in
theorem ItemVector.of_holds (h : Holds items s D T) (ho : ∀ j ∈ D ++ T, s.parentIsTile j = true) :
    ItemVector items s := by
  have hvector : s.makeItemList = ofParts D T := h.vector
  have hv : s.makeItemList.items = D ++ T := congrArg TileItemVector.items hvector
  constructor
  · have hD : D.countP (fun i => !s.isAlwaysOnTop items i) = D.length :=
      List.countP_eq_length.2 fun i hi => by rw [h.down i hi]; rfl
    have hT : T.countP (fun i => !s.isAlwaysOnTop items i) = 0 :=
      List.countP_eq_zero.2 fun i hi => by rw [h.top i hi]; exact Bool.false_ne_true
    rw [hv, List.countP_append, hD, hT]
    exact congrArg TileItemVector.downItemCount hvector
  · rw [hv, List.pairwise_append]
    refine ⟨List.pairwise_of_forall_mem_list ?_, List.pairwise_of_forall_mem_list ?_, ?_⟩
    · intro i hi j _ hon
      rw [h.down i hi] at hon
      exact nomatch hon
    · exact fun _ _ j hj _ => h.top j hj
    · exact fun _ _ j hj _ => h.top j hj
  · rw [hv]
    exact h.nodup
  · rw [hv]
    exact h.ground
  · rw [hv]
    exact ho

omit [DecidableEq ι] [DecidableEq κ] in
theorem Empty.holds (h : Empty s) : Holds items s [] [] :=
  ⟨h.shape, (fun _ hi => nomatch hi), fun _ hi => nomatch hi⟩

/-- A condition on the parts of the vector, when there is a state. -/
def Parts (items : UInt16 → ItemType) (Q : State ι κ → List ι → List ι → Prop)
    (o : Option (State ι κ)) : Prop :=
  ∀ s, o = some s → ∃ D T, Holds items s D T ∧ (∀ j ∈ D ++ T, s.parentIsTile j = true) ∧ Q s D T

/-- What the calls of a kind keep of the parts of the vector holds at the end
of their runs. -/
theorem parts_run (kind : Action ι κ → Prop) (Q : State ι κ → List ι → List ι → Prop)
    (hQ : ∀ {s s' : State ι κ} {D T : List ι} {a : Action ι κ}, Holds items s D T →
      (∀ j ∈ D ++ T, s.parentIsTile j = true) → Q s D T → Legal items s a → kind a →
      step items (some s) a = some s' →
      ∃ D' T', Holds items s' D' T' ∧ (∀ j ∈ D' ++ T', s'.parentIsTile j = true) ∧ Q s' D' T')
    (hs : Empty s) (h0 : Q s [] []) (as : List (Action ι κ)) (hkind : ∀ a ∈ as, kind a)
    (hlegal : Along (step items) (fun o a => ∀ s, o = some s → Legal items s a) (some s) as) :
    Parts items Q (run (step items) (some s) as) := by
  refine run_inv (I := Parts items Q) ?_ as ?_ (hlegal.and hkind)
  · intro o a h ⟨hl, hk⟩ s' hs'
    cases o with
    | none => exact nomatch hs'
    | some s₁ =>
      obtain ⟨D, T, hH, ho, hq⟩ := h s₁ rfl
      exact hQ hH ho hq (hl s₁ rfl) hk hs'
  · rintro s' ⟨rfl⟩
    exact ⟨[], [], hs.holds, (fun _ hj => nomatch hj), h0⟩

/-- Along every run of calls from an empty tile the vector keeps its shape; it
has one splash and one magic field as long as things are only added and
removed, and its top items are in order as long as no item is changed in place. -/
theorem itemVector_run (items : UInt16 → ItemType) (s : State ι κ) (hs : Empty s)
    (as : List (Action ι κ))
    (hlegal : Along (step items) (fun o a => ∀ s, o = some s → Legal items s a) (some s) as)
    (s' : State ι κ) (hrun : run (step items) (some s) as = some s') :
    ItemVector items s' ∧
    ((∀ a ∈ as, a.AddsOrRemoves) →
      AtMostOne (fun j => (s'.type items j).isSplash) s'.tile.topItems ∧
      AtMostOne (IsField items s') s'.tile.downItems) ∧
    ((∀ a ∈ as, a.KeepsTypes) → s'.tile.topItems.Pairwise fun j k =>
      (s'.type items j).alwaysOnTopOrder ≤ (s'.type items k).alwaysOnTopOrder) := by
  refine ⟨?_, fun hkind => ?_, fun hkind => ?_⟩
  · obtain ⟨D, T, hH, ho, -⟩ := parts_run (fun _ => True) (fun _ _ _ => True)
      (fun h ho _ hl _ hst => by
        obtain ⟨D', T', h', ho', -⟩ := step_holds h ho hl hst
        exact ⟨D', T', h', ho', trivial⟩)
      hs trivial as (fun _ _ => trivial) hlegal s' hrun
    exact .of_holds hH ho
  · obtain ⟨D, T, hH, -, hone⟩ := parts_run _ (Single items)
      (fun h ho hq hl hk hst => by
        obtain ⟨D', T', h', ho', hone, -⟩ := step_holds h ho hl hst
        exact ⟨D', T', h', ho', hone hk hq⟩)
      hs ⟨fun _ hj => (nomatch hj), fun _ hj => nomatch hj⟩ as hkind hlegal s' hrun
    rw [hH.topItems_eq, hH.downItems_eq]
    exact hone
  · obtain ⟨D, T, hH, -, hsort⟩ := parts_run _ (fun s _ T => Sorted items s T)
      (fun h ho hq hl hk hst => by
        obtain ⟨D', T', h', ho', -, hsort⟩ := step_holds h ho hl hst
        exact ⟨D', T', h', ho', hsort hk hq⟩)
      hs List.Pairwise.nil as hkind hlegal s' hrun
    rw [hH.topItems_eq]
    exact hsort

/-- A table with a splash, 7, and a magic field, 8, among plain items. -/
def someTypes (id : UInt16) : ItemType :=
  if id = 7 then { id, group := .splash, alwaysOnTop := true, alwaysOnTopOrder := 2 }
  else if id = 8 then { id, type := .magicField } else { id }

/-- An empty tile, a plain item, 1, and splashes elsewhere. -/
def splashes : State ℕ ℕ where
  item i := { cls := .item, id := if i = 1 then 1 else 7, count := 1, attributes := none }

/-- The second splash replaces the first one, on a tile with an item. -/
theorem itemVector_splash : ∃ s', run (step someTypes) (some splashes)
      [.addThing (.item 0), .addThing (.item 1), .addThing (.item 2)] = some s' ∧
    s'.tile.topItems = [2] ∧ s'.tile.downItems = [1] ∧
    ItemVector someTypes s' ∧ AtMostOne (fun j => (s'.type someTypes j).isSplash) s'.tile.topItems := by
  have hlegal : Along (step someTypes) (fun o a => ∀ s, o = some s → Legal someTypes s a)
      (some splashes) [.addThing (.item 0), .addThing (.item 1), .addThing (.item 2)] := by
    refine ⟨fun s hs => ?_, fun s hs => ?_, fun s hs => ?_, trivial⟩
    · cases hs
      rintro (h | ⟨v, h, -⟩)
      · exact nomatch h
      · exact nomatch h
    · cases hs
      rintro (h | ⟨v, h, hm⟩)
      · exact nomatch h
      · cases h
        exact absurd hm (by decide)
    · cases hs
      rintro (h | ⟨v, h, hm⟩)
      · exact nomatch h
      · cases h
        exact absurd hm (by decide)
  have h := itemVector_run someTypes splashes ⟨rfl, rfl, rfl⟩ _ hlegal _ rfl
  exact ⟨_, rfl, rfl, rfl, h.1, (h.2.1 (by simp [Action.AddsOrRemoves])).1⟩

end Runs

end TileItems
end ForgottenServer
