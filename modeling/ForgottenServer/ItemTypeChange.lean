/-
# House items whose types changed since the last save

The rows of the house items outlive the type table that they were written
under: an id may be unknown or deprecated when they are read, or no longer
moveable. A record should then be skipped as a whole. It is when the type
lost its moveability and nothing on the tile takes its place: the attributes
and the content are read into a dummy. It is not when `Item::CreateItem` gives
no item: only the id is taken off the stream, and what follows is read as the
next record. The record of a depot locker cannot be read either, since its
`readAttr` does not know the content's tag.

Key definitions: `Changed`, `survivors`, `place`, `Loadable`.
Key theorems: `loadLoop_changed`, `records_skipped_iff`.
-/
import ForgottenServer.IOMapSerialize

namespace ForgottenServer
namespace IOMapSerialize

open PropWriteStream Item

/-- The same type, or one that differs in not being moveable any more. -/
def Alike (a b : ItemType) : Prop := b = a ∨ b = { a with moveable := false }

/-- What a saved type `a` may be when the row is read: the same, not moveable
any more, or impossible to create. -/
def Changed (a b : ItemType) : Prop := Alike a b ∨ b.group = .deprecated ∨ b.id = 0

/-- An item that was created under the saving table, with what it holds. -/
structure Written (items : UInt16 → ItemType) (it : Item) (content : Forest Item) : Prop where
  cls : it.cls = classOf (items it.id)
  holds : it.isContainer ∨ content = .nil
  size : content.length < 2 ^ 32

/-! ### What a row should restore -/

/-- The item `i` after the attributes `a` were read into it. -/
def reread (E : Env) (i : Item) (a : Bytes) : Item := (unserializeAttr E ⟨i, a, 0⟩).2.item

/-- `Item::CreateItem` gives an item for the id of a saved one. -/
def creatable (E : Env) (it : Item) : Bool := (createItem E.items it.id 0).isSome

/-- A new item in place of a saved one, with its attributes. -/
def reloaded (E : Env) (items : UInt16 → ItemType) (it : Item) : Item :=
  reread E ((createItem E.items it.id 0).getD it) (it.serializeAttr items)

/-- The items that can still be created, with their own attributes; the others
are missing with all that they hold. -/
def survivors (E : Env) (items : UInt16 → ItemType) (f : Forest Item) : Forest Item :=
  (f.prune (creatable E)).map (reloaded E items)

/-- A tile after the record of `x` alone: a moveable item is added, a stationary
one takes up the attributes and the content, and what is neither leaves it as
it is. -/
def place (E : Env) (items : UInt16 → ItemType) (x : Tree) (t : Tile) : Tile :=
  if (E.items x.1.id).moveable then
    if creatable E x.1 then t.internalAddThing E.items (reloaded E items x.1, survivors E items x.2)
    else t
  else
    match t.find (isSaved E.items x.1.id) with
    | none => t
    | some k =>
      t.transformItem E.items { k with
        tree := (reread E k.tree.1 (x.1.serializeAttr items), survivors E items x.2 ++ k.tree.2) }
        x.1.id

/-- In a container, the record of an item is read to its end and puts what
survives of the item in front. -/
def LoadsInContainer (E : Env) (items : UInt16 → ItemType) (it : Item) (content : Forest Item) :
    Prop :=
  ∀ d, (Forest.cons it content .nil).depth ≤ d → ∀ (c : Forest Item) (s : Bytes),
    loadItem E d c (saveTree items (it, content) ++ s) =
      (true, survivors E items (.cons it content .nil) ++ c, s)

/-- On a tile, the record of an item is read to its end and does what it should.
The stationary item that is there for it, if any, is of its class. -/
def LoadsOnTile (E : Env) (items : UInt16 → ItemType) (x : Tree) : Prop :=
  ∀ t : Tile, (¬ (E.items x.1.id).moveable → ∀ k, t.find (isSaved E.items x.1.id) = some k →
    k.tree.1.cls = x.1.cls) → ∀ s,
    loadTileItem E t (saveTree items x ++ s) = (true, place E items x t, s)

/-- An item whose record can be read to its end. -/
def Loadable (E : Env) (it : Item) (_ : Forest Item) : Prop :=
  Known E.items it.id ∧ it.cls ≠ .depotLocker

/-! ### Records of items that can be created -/

variable {E : Env} {items : UInt16 → ItemType}

/-- Any item of the class of the saved one takes up its attributes. -/
theorem reread_saved (items : UInt16 → ItemType) {it i : Item} (hi : i.cls = it.cls) :
    SameKind i (reread E i (it.serializeAttr items)) ∧ ∀ s n,
      unserializeAttr E ⟨i, it.serializeAttr items ++ s, n⟩ =
        unserializeAttr E ⟨reread E i (it.serializeAttr items), s, n⟩ := by
  obtain ⟨i', h1, h2, h3⟩ := reads_serializeAttr items it i hi
  have heq : reread E i (it.serializeAttr items) = i' := by
    have := h3 [] 0
    rw [List.append_nil, unserializeAttr_nil] at this
    unfold reread
    rw [this]
  rw [heq]
  exact ⟨⟨h1, h2⟩, h3⟩

/-- The survivors of a forest whose first root can be created. -/
theorem survivors_cons {it i : Item} (hi : createItem E.items it.id 0 = some i)
    (content rest : Forest Item) : survivors E items (.cons it content rest) =
      .cons (reloaded E items it) (survivors E items content) (survivors E items rest) := by
  have hc : creatable E it := by simp only [creatable, hi, Option.isSome_some]
  simp only [survivors, Forest.prune, if_pos hc, Forest.map]

/-- A type that can be created is the saved one up to its moveability. -/
theorem Changed.alike {a b : ItemType} (h : Changed a b) (hg : b.group ≠ .deprecated)
    (hi : b.id ≠ 0) : Alike a b := by
  rcases h with h | h | h
  · exact h
  · exact absurd h hg
  · exact absurd h hi

theorem Changed.classOf {a b : ItemType} (h : Changed a b) (hg : b.group ≠ .deprecated)
    (hi : b.id ≠ 0) : classOf b = classOf a := by
  rcases h.alike hg hi with rfl | rfl
  · rfl
  · rfl

/-- The conditions on a saved item under which its record is read to the end. -/
structure Fine (E : Env) (items : UInt16 → ItemType) (it : Item) (content : Forest Item) : Prop
    extends Written items it content where
  changed : Changed (items it.id) (E.items it.id)
  loadable : Loadable E it content

theorem Fine.created {it : Item} {content : Forest Item} (h : Fine E items it content) :
    ∃ i, createItem E.items it.id 0 = some i ∧ i.cls = it.cls := by
  obtain ⟨i, h1, h2⟩ := createItem_known E.items h.loadable.1 0
  exact ⟨i, h1, by rw [h2, h.changed.classOf h.loadable.1.group h.loadable.1.id_ne, h.cls]⟩

theorem Fine.container {it i : Item} {content : Forest Item} (h : Fine E items it content)
    (hi : i.cls = it.cls) (hc : i.isContainer) : i.cls = .container := by
  have hor : i.cls = .container ∨ i.cls = .depotLocker := by simpa [isContainer] using hc
  exact hor.resolve_right (hi ▸ h.loadable.2)

theorem isContainer_congr {i j : Item} (h : i.cls = j.cls) : i.isContainer = j.isContainer := by
  simp only [isContainer, h]

/-- A new item takes up a record whose content is read. -/
theorem createAndLoad_fine {it : Item} {content : Forest Item} (h : Fine E items it content)
    {load : Forest Item → Bytes → Bool × Forest Item × Bytes}
    (hload : it.isContainer → ∀ s,
      loadLoop load content.length .nil (saveItems items content ++ s) =
        (true, survivors E items content, s)) (s : Bytes) {i : Item}
    (hi : createItem E.items it.id 0 = some i) (hcls : i.cls = it.cls) :
    createAndLoad E load it.id (it.serializeAttr items ++
      ((if it.isContainer then
        writeAttr .containerItems (write 4 content.length) ++ saveItems items content else []) ++
        (write 1 0 ++ s))) =
      (true, some (reloaded E items it, survivors E items content), s) := by
  obtain ⟨⟨-, hcls'⟩, hread⟩ := reread_saved (E := E) items hcls
  replace hcls' := hcls'.trans hcls
  rw [reloaded, hi, Option.getD_some]
  rw [← isContainer_congr hcls'] at hload ⊢
  refine createAndLoad_record hi hread (fun hc => h.container hcls' hc) h.size ?_ hload s
  rw [isContainer_congr hcls']
  refine h.holds.imp id fun hnil => ?_
  rw [hnil]
  rfl

/-- The records of a forest, all of whose items can be created, restore it in
front of what the container holds. -/
theorem loadLoop_changed : ∀ {f : Forest Item}, f.All (Fine E items) → ∀ {d : ℕ}, f.depth ≤ d →
    ∀ (c : Forest Item) (s : Bytes), loadLoop (loadItem E d) f.length c (saveItems items f ++ s) =
      (true, survivors E items f ++ c, s)
  | .nil, _, _, _, c, s => by simp [saveItems, Forest.length, loadLoop, survivors, Forest.prune, Forest.map]
  | .cons it inner rest, ⟨h1, h2, h3⟩, d, hd, c, s => by
    simp only [Forest.depth, sup_le_iff] at hd
    obtain ⟨d, rfl⟩ := Nat.exists_eq_add_of_le' (show 1 ≤ d by omega)
    rw [saveItems, List.append_assoc, Forest.length, loadLoop_succ _ _ _ _
      (loadLoop_changed h3 hd.2 c _)]
    obtain ⟨i, hi, hcls⟩ := h1.created
    unfold loadItem saveItem
    simp only [List.append_assoc, get_write]
    have hid : uint 2 (it.id.toNat : ℤ) = it.id.toNat := uint_natCast it.id.toNat_lt
    rw [hid, UInt16.ofNat_toNat, createAndLoad_fine h1
      (fun _ s => by rw [loadLoop_changed h2 (by omega) .nil s, Forest.append_nil]) s hi hcls]
    rw [survivors_cons hi]
    rfl

theorem loadContainer_changed {f : Forest Item} (hf : f.All (Fine E items)) {d : ℕ} (hd : f.depth ≤ d)
    (c : Forest Item) (s : Bytes) :
    loadContainer (loadItem E d) f.length c (saveItems items f ++ (write 1 0 ++ s)) =
      (true, survivors E items f ++ c, s) := by
  unfold loadContainer
  rw [loadLoop_changed hf hd]
  simp only [get_write]
  rfl

theorem loadsInContainer {it : Item} {content : Forest Item} (h : Fine E items it content)
    (hc : content.All (Fine E items)) : LoadsInContainer E items it content := fun d hd c s => by
  have hloop := loadLoop_changed (f := .cons it content .nil) ⟨h, hc, trivial⟩ hd c s
  have hone : loadLoop (loadItem E d) 1 c (saveTree items (it, content) ++ s) =
      loadItem E d c (saveTree items (it, content) ++ s) := loadLoop_succ _ 0 c _ rfl
  exact hone.symm.trans hloop

theorem all_loadsInContainer : ∀ {f : Forest Item}, f.All (Fine E items) →
    f.All (LoadsInContainer E items)
  | .nil, _ => trivial
  | .cons _ _ _, ⟨h, hc, hr⟩ =>
    ⟨loadsInContainer h hc, all_loadsInContainer hc, all_loadsInContainer hr⟩

theorem loadsOnTile {x : Tree} (h : Fine E items x.1 x.2) (hc : x.2.All (Fine E items)) :
    LoadsOnTile E items x := fun t ht s => by
  have hdepth := depth_le_length items (hc.imp fun _ _ h => h.holds)
  have hid : uint 2 (x.1.id.toNat : ℤ) = x.1.id.toNat := uint_natCast x.1.id.toNat_lt
  have hlen : x.1.isContainer → x.2.depth ≤ (x.1.serializeAttr items ++
      ((if x.1.isContainer then
        writeAttr .containerItems (write 4 x.2.length) ++ saveItems items x.2 else []) ++
        (write 1 0 ++ s))).length := fun hk => by
    rw [if_pos hk]
    simp only [List.length_append]
    omega
  obtain ⟨i, hi, hcls⟩ := h.created
  unfold loadTileItem saveTree saveItem place
  simp only [List.append_assoc, get_write]
  rw [hid, UInt16.ofNat_toNat]
  by_cases hm : (E.items x.1.id).moveable
  · simp only [if_pos hm]
    rw [createAndLoad_fine h (fun hk s => by
      rw [loadLoop_changed hc (hlen hk), Forest.append_nil]) s hi hcls]
    have hc : creatable E x.1 := by simp only [creatable, hi, Option.isSome_some]
    simp only [if_pos hc]
  · simp only [if_neg hm]
    cases hfind : t.find (isSaved E.items x.1.id) with
    | none =>
      obtain ⟨⟨-, hcls'⟩, hread⟩ := reread_saved (E := E) items hcls
      replace hcls' := hcls'.trans hcls
      simp only [hi]
      rw [← isContainer_congr hcls'] at hlen ⊢
      rw [unserializeAttr_record hread (fun hk => h.container hcls' hk) h.size]
      by_cases hk : (reread E i (x.1.serializeAttr items)).isContainer
      · have hd := hlen hk
        simp only [if_pos hk] at hd ⊢
        rw [loadContainer_changed hc hd]
      · simp only [if_neg hk]
    | some k =>
      obtain ⟨⟨-, hcls'⟩, hread⟩ := reread_saved (E := E) items (ht hm k hfind)
      replace hcls' := hcls'.trans (ht hm k hfind)
      simp only []
      rw [← isContainer_congr hcls'] at hlen ⊢
      rw [unserializeAttr_record hread (fun hk => h.container hcls' hk) h.size]
      by_cases hk : (reread E k.tree.1 (x.1.serializeAttr items)).isContainer
      · have hd := hlen hk
        simp only [if_pos hk] at hd ⊢
        rw [loadContainer_changed hc hd]
      · have hnil : x.2 = .nil := h.holds.resolve_left fun hc => hk (isContainer_congr hcls' ▸ hc)
        simp only [if_neg hk, hnil]
        rfl

/-! ### Records that are not read to their end -/

theorem createItem_eq_none {items : UInt16 → ItemType} {id : UInt16} (h : ¬ Known items id) :
    createItem items id 0 = none := by
  unfold createItem
  by_cases hg : (items id).group = .deprecated
  · simp only [if_pos hg]
  · have hi : ¬ (items id).id ≠ 0 := fun hi => h ⟨hg, hi⟩
    simp only [if_neg hg, if_neg hi]

/-- A depot locker stops at the tag of its content. -/
theorem unserializeAttr_locker {i : Item} (hi : i.cls = .depotLocker) (a s : Bytes) (n : ℕ) :
    unserializeAttr E ⟨i, writeAttr .containerItems a ++ s, n⟩ = (false, ⟨i, a ++ s, n⟩) := by
  rw [writeAttr, List.append_assoc, unserializeAttr_tag]
  simp only [readAttr, hi, baseReadAttr]

/-- The attributes of a depot locker are read, but not its content. -/
theorem unserializeAttr_record_locker (items : UInt16 → ItemType) {it i : Item} (hi : i.cls = it.cls)
    (hl : it.cls = .depotLocker) (n : ℕ) (body s : Bytes) : ∃ i', i'.isContainer ∧
    unserializeAttr E ⟨i, it.serializeAttr items ++ ((if it.isContainer then
      writeAttr .containerItems (write 4 n) ++ body else []) ++ (write 1 0 ++ s)), 0⟩ =
      (false, ⟨i', write 4 n ++ (body ++ (write 1 0 ++ s)), 0⟩) := by
  obtain ⟨⟨-, hcls⟩, hread⟩ := reread_saved (E := E) items hi
  have hcls' := hcls.trans (hi.trans hl)
  have hk : it.isContainer := by simp only [isContainer, hl]; decide
  refine ⟨reread E i (it.serializeAttr items), by simp only [isContainer, hcls']; decide, ?_⟩
  rw [hread, if_pos hk, List.append_assoc, unserializeAttr_locker hcls']

/-- The new item for a depot locker is one. -/
theorem created_locker {it : Item} {content : Forest Item} (hw : Written items it content)
    (hch : Changed (items it.id) (E.items it.id)) (hk : Known E.items it.id) :
    ∃ i, createItem E.items it.id 0 = some i ∧ i.cls = it.cls := by
  obtain ⟨i, h1, h2⟩ := createItem_known E.items hk 0
  exact ⟨i, h1, by rw [h2, hch.classOf hk.group hk.id_ne, hw.cls]⟩

/-- A container without items takes one byte at most. -/
theorem le_length_loadContainer (load : Forest Item → Bytes → Bool × Forest Item × Bytes)
    (c : Forest Item) (s : Bytes) : s.length ≤ (loadContainer load 0 c s).2.2.length + 1 := by
  unfold loadContainer loadLoop
  split
  · next h =>
    cases h
    split
    · next h => exact (Bytes.get_length h).le.trans (Nat.add_comm _ _).le
    · next h => exact (Bytes.get_length h).le.trans (Nat.add_comm _ _).le
    · exact Nat.le_succ _
  · next h => cases h

theorem loadable_of_loadsInContainer {it : Item} {content : Forest Item}
    (hw : Written items it content) (hch : Changed (items it.id) (E.items it.id))
    (h : LoadsInContainer E items it content) : Loadable E it content := by
  have hone := h _ le_rfl .nil []
  obtain ⟨d, hd⟩ := Nat.exists_eq_add_of_le' (show 1 ≤ (Forest.cons it content .nil).depth by
    simp only [Forest.depth]; omega)
  have hid : uint 2 (it.id.toNat : ℤ) = it.id.toNat := uint_natCast it.id.toNat_lt
  rw [hd] at hone
  unfold loadItem saveTree saveItem at hone
  simp only [List.append_assoc, get_write] at hone
  rw [hid, UInt16.ofNat_toNat] at hone
  by_cases hk : Known E.items it.id
  · refine ⟨hk, fun hl => ?_⟩
    obtain ⟨i, hi, hcls⟩ := created_locker hw hch hk
    obtain ⟨i', -, hread⟩ := unserializeAttr_record_locker (E := E) items hcls hl
      content.length (saveItems items content) []
    simp only [createAndLoad, hi, hread, Prod.mk.injEq, Bool.false_eq_true, false_and] at hone
  · -- nothing after the id is read
    simp only [createAndLoad, createItem_eq_none hk, Prod.mk.injEq, List.append_eq_nil_iff] at hone
    have := length_write 1 0
    rw [hone.2.2.2.2.1] at this
    simp at this

theorem loadable_of_loadsOnTile {x : Tree} (hw : Written items x.1 x.2)
    (hch : Changed (items x.1.id) (E.items x.1.id)) (h : LoadsOnTile E items x) :
    Loadable E x.1 x.2 := by
  -- on an empty tile nothing stands for the item
  have hone := congrArg (fun r => (r.1, r.2.2)) (h {} (fun _ k hk => by cases hk) [])
  have hid : uint 2 (x.1.id.toNat : ℤ) = x.1.id.toNat := uint_natCast x.1.id.toNat_lt
  have hfind : ({} : Tile).find (isSaved E.items x.1.id) = none := rfl
  unfold loadTileItem saveTree saveItem at hone
  simp only [List.append_assoc, get_write] at hone
  rw [hid, UInt16.ofNat_toNat] at hone
  by_cases hk : Known E.items x.1.id
  · refine ⟨hk, fun hl => ?_⟩
    obtain ⟨i, hi, hcls⟩ := created_locker hw hch hk
    obtain ⟨i', hi', hread⟩ := unserializeAttr_record_locker (E := E) items hcls hl
      x.2.length (saveItems items x.2) []
    by_cases hm : (E.items x.1.id).moveable
    · simp only [if_pos hm, createAndLoad, hi, hread, Prod.mk.injEq, Bool.false_eq_true,
        false_and] at hone
    · simp only [if_neg hm, hfind, hi, hread, if_pos hi', Prod.mk.injEq] at hone
      have hlen := le_length_loadContainer (loadItem E (x.1.serializeAttr items ++
        ((if x.1.isContainer then writeAttr .containerItems (write 4 x.2.length) ++
          saveItems items x.2 else []) ++ (write 1 0 ++ []))).length) .nil
        (write 4 x.2.length ++ (saveItems items x.2 ++ (write 1 0 ++ [])))
      rw [hone.2] at hlen
      simp only [List.length_append, length_write, List.length_nil] at hlen
      omega
  · have hlen := length_write 1 0
    by_cases hm : (E.items x.1.id).moveable
    · simp only [if_pos hm, createAndLoad, createItem_eq_none hk, Prod.mk.injEq,
        List.append_eq_nil_iff] at hone
      rw [hone.2.2.2.1] at hlen
      simp at hlen
    · simp only [if_neg hm, hfind, createItem_eq_none hk, Prod.mk.injEq,
        List.append_eq_nil_iff] at hone
      rw [hone.2.2.2.1] at hlen
      simp at hlen

/-! ### Items that come back as they were -/

theorem setSubType_alike {i : Item} (h : Alike (items i.id) (E.items i.id)) (n : ℕ) :
    i.setSubType E.items n = i.setSubType items n := by
  unfold setSubType
  rcases h with h | h
  · rw [h]
  · rw [h]
    rfl

theorem baseReadAttr_alike {r : Reader} (h : Alike (items r.item.id) (E.items r.item.id))
    (attr : Option AttrTypes) :
    baseReadAttr E attr r = baseReadAttr { E with items := items } attr r := by
  have hread : ∀ w, (r.read w fun n r => r.set (·.setSubType E.items n)) =
      r.read w fun n r => r.set (·.setSubType items n) := fun w => by
    unfold Reader.read Reader.set
    split
    · simp only [setSubType_alike h]
    · rfl
  unfold baseReadAttr
  split
  all_goals first
    | exact hread _
    | rfl

/-- The stream is read alike under two tables that agree on the item's type. -/
theorem unserializeLoop_alike : ∀ (n : ℕ) {r : Reader},
    Alike (items r.item.id) (E.items r.item.id) →
    unserializeLoop E n r = unserializeLoop { E with items := items } n r
  | 0, _, _ => rfl
  | n + 1, r, h => by
    have hstep : ∀ attr s, readAttr E attr { r with stream := s } =
        readAttr { E with items := items } attr { r with stream := s } := fun attr s => by
      unfold readAttr
      split
      all_goals first
        | exact baseReadAttr_alike (r := { r with stream := s }) h _
        | rfl
    unfold unserializeLoop
    split
    · rfl
    · next attr s _ =>
      split
      · rfl
      · have hk := readAttr_kind (E := E) (i := r.item) (r := { r with stream := s })
          (AttrTypes.ofCode attr) ⟨rfl, rfl⟩
        rw [← hstep]
        split
        · rfl
        · rfl
        · next r' h' =>
          rw [h'] at hk
          exact unserializeLoop_alike n (by rwa [hk.1])

theorem built_alike {id : UInt16} (h : Alike (items id) (E.items id)) (n : ℕ) :
    built E.items id n = built items id n := by
  have hdefault : ∀ i : Item, i.id = id →
      i.setDefaultDuration E.items = i.setDefaultDuration items := fun i hi => by
    unfold setDefaultDuration getDefaultDuration
    rw [hi]
    rcases h with h | h
    · rw [h]
    · rw [h]
  have hconstruct : ∀ c m, construct E.items c id m = construct items c id m := fun c m => by
    unfold construct
    simp only []
    rw [hdefault]
    · rcases h with h | h
      · rw [h]
      · rw [h]
        rfl
    · simp only [apply_ite Item.id, setFluidType, setCharges, setItemCount, setIntAttr_id, ite_self]
  unfold built
  rw [hconstruct]
  rcases h with h | h
  · rw [h]
  · rw [h]
    rfl

/-- An item that fits the format comes back with its own attributes. -/
theorem reloaded_eq {it : Item} (h : it.Saveable items)
    (ha : Alike (items it.id) (E.items it.id)) (hb : Buildable E.items it.id) :
    reloaded E items it = rebuild items it := by
  have hnew : createItem E.items it.id 0 = some (built items it.id 0) := by
    rw [createItem_eq hb, built_alike ha]
  have hcls : (built items it.id 0).cls = it.cls := (built_cls items).trans h.cls.symm
  unfold reloaded rebuild reread unserializeAttr
  rw [hnew, Option.getD_some, unserializeLoop_alike _ (by rw [built_id]; exact ha)]
  have := writes_serializeAttr (E := { E with items := items }) h.short h.plain.1 h.plain.2.1 hcls
    [] 0
  rw [List.append_nil, unserializeAttr_nil] at this
  exact congrArg (fun r => r.2.item) this

theorem creatable_iff {it : Item} : creatable E it ↔ Known E.items it.id := by
  constructor
  · intro h
    by_contra hk
    simp only [creatable, createItem_eq_none hk, Option.isSome_none, Bool.false_eq_true] at h
  · intro h
    obtain ⟨i, hi, -⟩ := createItem_known E.items h 0
    simp only [creatable, hi, Option.isSome_some]

theorem Alike.buildable {id : UInt16} (h : Alike (items id) (E.items id)) (hk : Known E.items id)
    (hb : Buildable items id) : Buildable E.items id := by
  refine ⟨hk, ?_⟩
  have hkept := hb.kept
  rcases h with h | h
  · rwa [h]
  · rw [h]
    exact hkept

/-! ### Tiles -/

/-- The tree `r` is what survives of the tree `x`, every item restored. -/
def RestoredSurvivors (E : Env) (items : UInt16 → ItemType) (x r : Tree) : Prop :=
  Restored items x.1 r.1 ∧ (x.2.prune (creatable E)).Rel (Restored items) r.2

/-- The saved items of a list that a tile should have back: they can be moved
and created. -/
def back (E : Env) (items : UInt16 → ItemType) (l : List Tree) : List Tree :=
  (Tile.moveables E.items (l.filter (kept items))).filter fun x => creatable E x.1

/-- The row of `t` gives a tile that is ready for it the items that can still be
moved and created, in the order of the stack. -/
def RestoresTile (E : Env) (items : UInt16 → ItemType) (t : Tile) : Prop :=
  Tile.DoorTypes E.items → SaveableTile items t → ∀ (pos : Position) (m : Position → Option Tile) t0,
    m pos = some t0 → ReadyFor E.items t t0 → saveTile items pos t ≠ [] →
    ∃ t', loadRow E m (saveTile items pos t) = Function.update m pos (some t') ∧
      List.Forall₂ (RestoredSurvivors E items) (back E items t.down)
        (Tile.moveables E.items t'.down) ∧
      List.Forall₂ (RestoredSurvivors E items) (back E items t.top)
        (Tile.moveables E.items t'.top)

theorem Fine.alike {it : Item} {content : Forest Item} (h : Fine E items it content) :
    Alike (items it.id) (E.items it.id) :=
  h.changed.alike h.loadable.1.group h.loadable.1.id_ne

/-- A type that can still be moved is the saved one. -/
theorem Fine.same {it : Item} {content : Forest Item} (h : Fine E items it content)
    (hm : (E.items it.id).moveable) : E.items it.id = items it.id := by
  rcases h.alike with ha | ha
  · exact ha
  · rw [ha] at hm
    simp at hm

/-- A saved item fits its part under the new table. -/
theorem Fine.fits {x : Tree} (h : Fine E items x.1 x.2) {b : Bool} (hf : Tile.Fits items b x) :
    Tile.Fits E.items b x := by
  refine ⟨?_, ?_, fun hm => hf.plain (by rwa [← h.same hm])⟩
  · rcases h.alike with ha | ha
    · rw [ha]
      exact hf.part
    · rw [ha]
      exact hf.part
  · rw [h.changed.classOf h.loadable.1.group h.loadable.1.id_ne]
    exact hf.cls

theorem survivors_eq : ∀ {f : Forest Item}, SaveableForest items f → f.All (Fine E items) →
    survivors E items f = f.map (rebuild items)
  | .nil, _, _ => rfl
  | .cons it content rest, ⟨⟨hs, _⟩, hs1, hs2⟩, ⟨h, h1, h2⟩ => by
    obtain ⟨i, hi, -⟩ := h.created
    rw [survivors_cons hi, reloaded_eq hs h.alike (h.alike.buildable h.loadable.1 hs.buildable),
      survivors_eq hs1 h1, survivors_eq hs2 h2]
    rfl

/-- What the record of a kept item does under the new table. -/
theorem record_fine (hT : Tile.DoorTypes E.items) {t : Tile} (h : SaveableTile items t) {x : Tree}
    (hx : x ∈ t.items) (hf : (Forest.cons x.1 x.2 .nil).All (Fine E items)) {b : Bool}
    (hfit : Tile.Fits items b x) : Record E b (saveTree items) (rebuildTree items) x := by
  obtain ⟨h1, h2, -⟩ := hf
  refine ⟨h1.fits hfit, fun hm => ?_, fun hm t ht hsize s => ?_⟩
  · have hsame := h1.same hm
    obtain ⟨⟨⟨hs, _⟩, hs', -⟩, hg⟩ := h.moveable x hx (hsame ▸ hm)
    have hid : (rebuildTree items x).1.id = x.1.id :=
      rebuildTree_id (E := { E with items := items }) x
    have hback : Tile.Fits items b (rebuildTree items x) :=
      fits_rebuildTree (E := { E with items := items }) hfit
    have hsame' : E.items (rebuildTree items x).1.id = items (rebuildTree items x).1.id := by
      rw [hid, hsame]
    refine ⟨by rwa [hsame], ⟨?_, ?_, fun hm' => hback.plain (hsame' ▸ hm')⟩, hid, fun t s => ?_⟩
    · rw [hsame']
      exact hback.part
    · rw [hsame']
      exact hback.cls
    · rw [loadsOnTile h1 h2 t (fun hn => absurd hm hn) s]
      unfold place
      rw [if_pos hm, if_pos (creatable_iff.2 h1.loadable.1),
        reloaded_eq hs h1.alike (h1.alike.buildable h1.loadable.1 hs.buildable), survivors_eq hs' h2]
      rfl
  · have hcls : ∀ k, t.find (isSaved E.items x.1.id) = some k → k.tree.1.cls = x.1.cls :=
      fun k hfind => (found_cls hT ht hfind).trans (h1.fits hfit).cls.symm
    refine ⟨place E items x t, loadsOnTile h1 h2 t (fun _ => hcls) s, ?_⟩
    unfold place
    rw [if_neg hm]
    split
    · exact ⟨ht, rfl, rfl, rfl⟩
    · next k hfind =>
      exact transformItem_found hT ht hsize hm hfind (reread_saved items (hcls k hfind)).1 _

/-- The moveable items of a part, all of which can be created, come back. -/
theorem forall₂_back {l : List Tree} (hf : ∀ x ∈ l, kept items x →
      (Forest.cons x.1 x.2 .nil).All (Fine E items))
    (hs : ∀ x ∈ l, (items x.1.id).moveable → SaveableForest items (.cons x.1 x.2 .nil)) :
    List.Forall₂ (RestoredSurvivors E items) (back E items l)
      ((Tile.moveables E.items (l.filter (kept items))).map (rebuildTree items)) := by
  have hmem : ∀ x ∈ Tile.moveables E.items (l.filter (kept items)),
      x ∈ l ∧ kept items x ∧ (E.items x.1.id).moveable := fun x hx => by
    obtain ⟨hx, hm⟩ := List.mem_filter.1 hx
    obtain ⟨hx, hk⟩ := List.mem_filter.1 hx
    exact ⟨hx, hk, hm⟩
  have hback : back E items l = Tile.moveables E.items (l.filter (kept items)) :=
    List.filter_eq_self.2 fun x hx => by
      obtain ⟨hx, hk, -⟩ := hmem x hx
      exact creatable_iff.2 (hf x hx hk).1.loadable.1
  rw [hback, List.forall₂_map_right_iff, List.forall₂_same]
  intro x hx
  obtain ⟨hx, hk, hm⟩ := hmem x hx
  obtain ⟨h1, h2, -⟩ := hf x hx hk
  obtain ⟨⟨hs1, -⟩, hs2, -⟩ := hs x hx (h1.same hm ▸ hm)
  refine ⟨restored_restore hs1 rfl, ?_⟩
  rw [Forest.prune_of_all (p := creatable E) (h2.imp fun _ _ h => creatable_iff.2 h.loadable.1)]
  exact Forest.rel_map (fun _ _ h => restored_restore h.1 rfl) hs2

theorem restoresTile {t : Tile} (hf : ∀ x ∈ t.items, kept items x →
    (Forest.cons x.1 x.2 .nil).All (Fine E items)) : RestoresTile E items t := by
  intro hT h pos m t0 hm h0 hne
  have hrec : ∀ {b : Bool} {l : List Tree}, (∀ x ∈ l, x ∈ t.items ∧ Tile.Fits items b x) →
      ∀ x ∈ l.filter (kept items), Record E b (saveTree items) (rebuildTree items) x :=
    fun hl x hx => by
      obtain ⟨hx, hk⟩ := List.mem_filter.1 hx
      obtain ⟨hx, hfit⟩ := hl x hx
      exact record_fine hT h hx (hf x hx hk) hfit
  have hdown : ∀ x ∈ t.down, x ∈ t.items := fun x hx => List.mem_append_left _ hx
  have htop : ∀ x ∈ t.top, x ∈ t.items := fun x hx => List.mem_append_right _ hx
  -- what can be moved on top now could be moved before, in the same order
  have hord : (Tile.moveables E.items (t.top.filter (kept items))).Pairwise fun x y =>
      (E.items x.1.id).alwaysOnTopOrder < (E.items y.1.id).alwaysOnTopOrder := by
    have hsame : ∀ x ∈ t.top.filter (kept items), (E.items x.1.id).moveable →
        E.items x.1.id = items x.1.id := fun x hx hm => by
      obtain ⟨hx, hk⟩ := List.mem_filter.1 hx
      exact (hf x (htop x hx) hk).1.same hm
    have heq : Tile.moveables E.items (t.top.filter (kept items)) =
        Tile.moveables E.items (Tile.moveables items (t.top.filter (kept items))) := by
      unfold Tile.moveables
      refine Eq.trans (List.filter_congr fun x hx => ?_) List.filter_filter.symm
      cases hm : (E.items x.1.id).moveable with
      | true => rw [← hsame x hx hm, hm]; rfl
      | false => rfl
    have hsub : (Tile.moveables E.items (t.top.filter (kept items))).Sublist
        (Tile.moveables items t.top) := by
      rw [heq]
      exact List.filter_sublist.trans (List.filter_sublist.filter _)
    refine (h.ordered.sublist hsub).imp_of_mem fun {x y} hx hy hlt => ?_
    obtain ⟨hx, hmx⟩ := List.mem_filter.1 hx
    obtain ⟨hy, hmy⟩ := List.mem_filter.1 hy
    rw [hsame x hx hmx, hsame y hy hmy]
    exact hlt
  have hroom : t0.items.length + (Tile.moveables E.items
      (t.down.filter (kept items) ++ t.top.filter (kept items))).length ≤ 0xFFFF := by
    rw [← List.filter_append]
    have := ((List.filter_sublist (p := kept items) (l := t.items)).filter
      fun x => (E.items x.1.id).moveable).length_le
    exact (Nat.add_le_add_left this _).trans h0.room
  obtain ⟨t', h1, h2, h3⟩ := loadTileItems_parts
    (hrec fun x hx => ⟨hdown x hx, h.laid.down x hx⟩) (hrec fun x hx => ⟨htop x hx, h.laid.top x hx⟩)
    hord h0.laid h0.down h0.top hroom []
  rw [← List.filter_append] at h1
  refine ⟨t', ?_, ?_, ?_⟩
  · rw [loadRow_row items h.count hm hne]
    exact congrArg (fun r : Tile × Bytes => Function.update m pos (some r.1)) h1
  · rw [h2]
    exact forall₂_back (fun x hx => hf x (hdown x hx)) fun x hx hm =>
      (h.moveable x (hdown x hx) hm).1
  · rw [h3]
    exact forall₂_back (fun x hx => hf x (htop x hx)) fun x hx hm =>
      (h.moveable x (htop x hx) hm).1

/-! ### When records are skipped as a whole -/

/-- Every record of a tile's row, and every one nested in it, is read exactly to
its end and the rest is restored, for all saved items and types changed as
described, if and only if every saved item can still be created and none is a
depot locker. -/
theorem records_skipped_iff {t : Tile} (hw : ∀ x ∈ t.items, kept items x →
    (Forest.cons x.1 x.2 .nil).All fun it content =>
      Written items it content ∧ Changed (items it.id) (E.items it.id)) :
    ((∀ x ∈ t.items, kept items x →
        LoadsOnTile E items x ∧ x.2.All (LoadsInContainer E items)) ∧ RestoresTile E items t) ↔
      ∀ x ∈ t.items, kept items x → (Forest.cons x.1 x.2 .nil).All (Loadable E) := by
  constructor
  · rintro ⟨h, -⟩ x hx hk
    obtain ⟨⟨hw1, hc1⟩, hw2, -⟩ := hw x hx hk
    obtain ⟨h1, h2⟩ := h x hx hk
    exact ⟨loadable_of_loadsOnTile hw1 hc1 h1, (hw2.and h2).imp fun _ _ ⟨⟨hw, hc⟩, h⟩ =>
      loadable_of_loadsInContainer hw hc h, trivial⟩
  · intro h
    have hf : ∀ x ∈ t.items, kept items x → (Forest.cons x.1 x.2 .nil).All (Fine E items) :=
      fun x hx hk => ((hw x hx hk).and (h x hx hk)).imp fun _ _ ⟨⟨hw, hc⟩, hl⟩ => ⟨hw, hc, hl⟩
    refine ⟨fun x hx hk => ?_, restoresTile hf⟩
    obtain ⟨h1, h2, -⟩ := hf x hx hk
    exact ⟨loadsOnTile h1 h2, all_loadsInContainer h2⟩

/-- A table in which nothing can be moved any more. -/
def nailedHouse : Env :=
  { fruitHouse with items := fun id => { fruitHouse.items id with moveable := false } }

/-- A bag that cannot be moved any more and is not on the tile is skipped with
the apples in it. -/
theorem records_skipped_iff_nailed : LoadsOnTile nailedHouse fruitHouse.items bagOfApples := by
  have hch : ∀ id, Changed (fruitHouse.items id) (nailedHouse.items id) := fun id => .inl (.inr rfl)
  have hw : ∀ x ∈ ({ down := [bagOfApples] } : Tile).items, kept fruitHouse.items x →
      (Forest.cons x.1 x.2 .nil).All fun it content =>
        Written fruitHouse.items it content ∧
          Changed (fruitHouse.items it.id) (nailedHouse.items it.id) := by
    simp only [Tile.items, List.append_nil, List.mem_singleton, forall_eq]
    exact fun _ => ⟨⟨⟨rfl, .inl rfl, by decide⟩, hch _⟩,
      ⟨⟨⟨rfl, .inr rfl, by decide⟩, hch _⟩, trivial, trivial⟩, trivial⟩
  have hl : ∀ x ∈ ({ down := [bagOfApples] } : Tile).items, kept fruitHouse.items x →
      (Forest.cons x.1 x.2 .nil).All (Loadable nailedHouse) := by
    simp only [Tile.items, List.append_nil, List.mem_singleton, forall_eq]
    exact fun _ => ⟨⟨⟨by decide, by decide⟩, by decide⟩,
      ⟨⟨⟨by decide, by decide⟩, by decide⟩, trivial, trivial⟩, trivial⟩
  exact (((records_skipped_iff hw).2 hl).1 bagOfApples (List.mem_singleton_self _) rfl).1

/-- A table without swords (2400). -/
def swordlessHouse : Env :=
  { fruitHouse with
    items := fun id => if id = 2400 then { group := .deprecated, id } else fruitHouse.items id }

def sword : Tree := ({ cls := .item, id := 2400, count := 1, attributes := none }, .nil)

def apple : Tree := ({ cls := .item, id := 2674, count := 3, attributes := none }, .nil)

/-- Of the sword's record only the id is read; instead of the apple an item of
another type, 271, comes back. -/
theorem sword_spoils_apple :
    (∀ id, Changed (fruitHouse.items id) (swordlessHouse.items id)) ∧
    ¬ LoadsOnTile swordlessHouse fruitHouse.items sword ∧
    (loadRow swordlessHouse (fun _ => some {})
      (saveTile fruitHouse.items (100, 100, 7) { down := [apple, sword] }) (100, 100, 7)).map
      (fun t => t.items.map fun x => x.1.id) = some [271] := by
  refine ⟨fun id => ?_, fun h => ?_, by decide +kernel⟩
  · by_cases hid : id = 2400
    · exact .inr (.inl (by simp only [swordlessHouse, if_pos hid]))
    · exact .inl (.inl (by simp only [swordlessHouse, if_neg hid]))
  · have hrest := congrArg (fun r => r.2.2) (h {} (fun _ k hk => by cases hk) [])
    revert hrest
    decide +kernel

end IOMapSerialize
end ForgottenServer
