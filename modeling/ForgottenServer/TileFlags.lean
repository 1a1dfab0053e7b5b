/-
# The flags of a tile

A tile keeps flags that say what is on it, so that walking and path finding
need not look at its items. `setTileFlags` and `resetTileFlags` treat them in
three ways: those of the blocking properties are looked up again when an item
goes, those of classes of items, of the hooks and of the floor change are
cleared with any item that has the property, and nothing sets
`TILESTATE_IMMOVABLEBLOCKPATH`. A tile is here a `Summary` of its items, and
each call a change of it, some items going and at most one coming.

Key definitions: `Bit`, `property`, `Mirrors`, `leaving`, `coming`, `Fits`.
Key theorems: `isSet_set`, `isSet_reset`, `removeFields_drops`, `step_change`, `mirrors_iff_fits`.
-/
import ForgottenServer.Lib.Summary
import ForgottenServer.TileItems

namespace ForgottenServer
namespace TileFlags

open Run Summaries TileItems TileItems.State
open TileStack (Thing TileItemVector)

/-- The flags of a tile that come from its items. -/
inductive Bit
  | flag (f : TileFlag)
  | floorChange
  deriving DecidableEq

/-- How the source keeps a flag. -/
def upkeep : Bit → Upkeep
  | .floorChange => .cleared
  | .flag .teleport | .flag .magicField | .flag .mailbox | .flag .trashHolder | .flag .bed
  | .flag .depot | .flag .supportsHangable => .cleared
  | .flag .blockSolid | .flag .blockPath | .flag .immovableBlockSolid | .flag .noFieldBlockPath
  | .flag .immovableNoFieldBlockPath => .recomputed
  | .flag .immovableBlockPath => .ignored

variable {ι κ : Type*} (items : UInt16 → ItemType)

/-- The property that a flag is about. -/
def property (item : Item) : Bit → Bool
  | .floorChange => (items item.id).floorChange ≠ 0
  | .flag .teleport => item.cls = .teleport
  | .flag .magicField => item.cls = .magicField
  | .flag .mailbox => item.cls = .mailbox
  | .flag .trashHolder => item.cls = .trashHolder
  | .flag .bed => item.cls = .bed
  | .flag .depot => item.cls = .depotLocker
  | .flag .blockSolid => item.hasProperty items .blockSolid
  | .flag .blockPath => item.hasProperty items .blockPath
  | .flag .immovableBlockSolid => item.hasProperty items .immovableBlockSolid
  | .flag .immovableBlockPath => item.hasProperty items .immovableBlockPath
  | .flag .noFieldBlockPath => item.hasProperty items .noFieldBlockPath
  | .flag .immovableNoFieldBlockPath => item.hasProperty items .immovableNoFieldBlockPath
  | .flag .supportsHangable => item.hasProperty items .supportHangable

/-- `Tile::hasFlag`, of the floor change for the whole group. -/
def isSet (s : State ι κ) : Bit → Bool
  | .flag f => s.flag f
  | .floorChange => s.floorChange ≠ 0

/-- Each flag is set if and only if the ground or some item on the tile has the property. -/
def Mirrors (s : State ι κ) : Prop :=
  ∀ b, isSet s b = true ↔ ∃ i, s.tile.Has (.item i) ∧ property items (s.item i) b = true

/-- The ground and the items of the vector. -/
def listed (s : State ι κ) : List ι := s.tile.ground.toList ++ s.makeItemList.items

/-- The tile as a collection of items with bits. -/
def summary (s : State ι κ) : Summary Bit where
  members := ((listed s).map fun i => property items (s.item i) : List (Bit → Bool))
  bits := isSet s

variable {items} {s s' : State ι κ} {D T : List ι} {i : ι}

theorem listed_eq (h : Shape s.tile D T) : listed s = s.tile.ground.toList ++ (D ++ T) :=
  congrArg (fun v : TileItemVector ι => s.tile.ground.toList ++ v.items) h.vector

theorem mem_listed (h : Shape s.tile D T) : i ∈ listed s ↔ s.tile.Has (.item i) := by
  rw [listed_eq h, h.has_iff, List.mem_append (s := s.tile.ground.toList), Option.mem_toList]

theorem listed_nodup (h : Shape s.tile D T) : (listed s).Nodup := by
  rw [listed_eq h]
  cases hg : s.tile.ground with
  | none => exact h.nodup
  | some g => exact List.nodup_cons.2 ⟨h.ground g hg, h.nodup⟩

theorem has_members (l : List ι) (f : ι → Bit → Bool) (b : Bit) :
    Has ((l.map f : List (Bit → Bool)) : Multiset (Bit → Bool)) b ↔ ∃ i ∈ l, f i b = true := by
  constructor
  · intro ⟨p, hp, hb⟩
    obtain ⟨i, hi, rfl⟩ := List.mem_map.1 (Multiset.mem_coe.1 hp)
    exact ⟨i, hi, hb⟩
  · intro ⟨i, hi, hb⟩
    exact ⟨f i, Multiset.mem_coe.2 (List.mem_map.2 ⟨i, hi, rfl⟩), hb⟩

/-- The tile mirrors its items if the summary mirrors its members. -/
theorem mirrors_iff (h : Shape s.tile D T) :
    Mirrors items s ↔ ∀ b, Mirrored (summary items s) b := by
  refine forall_congr' fun b => iff_congr Iff.rfl ?_
  unfold summary
  rw [has_members]
  simp only [mem_listed h]

/-! ### Setting and resetting -/

section Flags

variable [DecidableEq ι]

variable (items) in
omit [DecidableEq ι] in
theorem isSet_set (s : State ι κ) (i : ι) (b : Bit) : isSet (s.setTileFlags items i) b = true ↔
    isSet s b = true ∨ upkeep b ≠ .ignored ∧ property items (s.item i) b = true := by
  cases b with
  | floorChange =>
    have hu : upkeep .floorChange ≠ .ignored := by decide
    have hset : ∀ a b : BitVec 7, decide ((if a = 0 ∧ b ≠ 0 then b else a) ≠ 0) = true ↔
        decide (a ≠ 0) = true ∨ decide (b ≠ 0) = true := by
      intro a b
      simp only [decide_eq_true_eq]
      split_ifs with h
      · exact iff_of_true h.2 (.inr h.2)
      · constructor
        · exact .inl
        · rintro (ha | hb)
          · exact ha
          · exact fun ha => h ⟨ha, hb⟩
    refine (hset s.floorChange (items (s.item i).id).floorChange).trans (or_congr_right ?_)
    exact (and_iff_right hu).symm
  | flag f =>
    simp only [isSet, setTileFlags, Bool.or_eq_true]
    cases f <;> simp [upkeep, property, setsFlag]

/-- Whether the tile has a property besides an item. -/
theorem hasProperty_iff (h : Shape s.tile D T) (i : ι) (prop : ItemProperty) :
    s.hasProperty items i prop = true ↔
      ∃ j ∈ listed s, j ≠ i ∧ (s.item j).hasProperty items prop = true := by
  have hitems : (s.tile.items.any fun v => v.items.any fun j =>
      decide (j ≠ i) && (s.item j).hasProperty items prop) = true ↔
      ∃ j ∈ D ++ T, j ≠ i ∧ (s.item j).hasProperty items prop = true := by
    rcases h.items_eq with he | ⟨he, rfl, rfl⟩
    · rw [he]
      simp [ofParts, or_and_right, exists_or]
    · rw [he]
      simp
  unfold hasProperty
  rw [Bool.or_eq_true, hitems, listed_eq h]
  cases s.tile.ground with
  | none => simp
  | some g =>
    rw [Option.toList_some, List.singleton_append]
    simp only [Option.any_some, Bool.and_eq_true, decide_eq_true_eq, List.mem_cons, exists_eq_or_imp,
      ne_comm (a := i)]

variable (items) in
theorem isSet_reset (h : Shape s.tile D T) (i : ι) (b : Bit) :
    isSet (s.resetTileFlags items i) b = true ↔ isSet s b = true ∧
      ¬ (property items (s.item i) b = true ∧ (upkeep b = .cleared ∨
        ¬ ∃ j ∈ listed s, j ≠ i ∧ property items (s.item j) b = true)) := by
  cases b with
  | floorChange =>
    have hreset : ∀ a b : BitVec 7, decide ((if b ≠ 0 then 0 else a) ≠ 0) = true ↔
        decide (a ≠ 0) = true ∧ ¬ decide (b ≠ 0) = true := by
      intro a b
      simp only [decide_eq_true_eq]
      split_ifs with hb
      · exact iff_of_false (fun h => h rfl) fun h => h.2 hb
      · exact (and_iff_left hb).symm
    refine (hreset s.floorChange (items (s.item i).id).floorChange).trans (and_congr_right fun _ => ?_)
    exact not_congr (and_iff_left (.inl rfl)).symm
  | flag f =>
    simp only [isSet, resetTileFlags, Bool.and_eq_true, Bool.not_eq_true']
    cases f <;> simp [upkeep, property, resetsFlag, ← hasProperty_iff h]

omit [DecidableEq ι] in
/-- An item has come onto the tile. -/
theorem pushed_of {s s₁ : State ι κ} (hl : (listed s₁).Perm (i :: listed s))
    (hitem : ∀ j, property items (s₁.item j) = property items (s.item j)) (hset : isSet s₁ = isSet s) :
    Pushed upkeep (summary items s) (property items (s.item i))
      (summary items (s₁.setTileFlags items i)) where
  members := by
    have hp : ((listed s₁).map fun j => property items (s₁.item j)).Perm
        (property items (s.item i) :: (listed s).map fun j => property items (s.item j)) := by
      simp only [hitem]
      exact hl.map _
    exact Multiset.coe_eq_coe.2 hp
  bits b := by
    have h := isSet_set items s₁ i b
    rw [hset, hitem] at h
    exact h

/-- An item has gone from the tile. -/
theorem dropped_of {s s₁ : State ι κ} (h : Shape s₁.tile D T) (hl : (listed s).Perm (i :: listed s₁))
    (hi : i ∉ listed s₁) (hitem : ∀ j, property items (s₁.item j) = property items (s.item j))
    (hset : isSet s₁ = isSet s) :
    Dropped upkeep (summary items s) (property items (s.item i))
      (summary items (s₁.resetTileFlags items i)) where
  members := by
    have hp : ((listed s).map fun j => property items (s.item j)).Perm
        (property items (s.item i) :: (listed s₁).map fun j => property items (s₁.item j)) := by
      simp only [hitem]
      exact hl.map _
    exact Multiset.coe_eq_coe.2 hp
  bits b := by
    have hb := isSet_reset items h i b
    have hothers : (∃ j ∈ listed s₁, j ≠ i ∧ property items (s₁.item j) b = true) ↔
        Has (summary items (s₁.resetTileFlags items i)).members b := by
      refine Iff.trans ?_ (has_members (listed s₁) (fun j => property items (s₁.item j)) b).symm
      constructor
      · exact fun ⟨j, hj, _, hp⟩ => ⟨j, hj, hp⟩
      · exact fun ⟨j, hj, hp⟩ => ⟨j, hj, fun e => hi (e ▸ hj), hp⟩
    rw [hset, hitem, hothers] at hb
    exact hb

/-- An item has taken the place of another. -/
theorem replaced_of {s s₁ : State ι κ} {old : ι} {rest : List ι} (h : Shape s₁.tile D T)
    (hl : (listed s).Perm (old :: rest)) (hl₁ : (listed s₁).Perm (i :: rest))
    (hold : old ∉ listed s₁) (hitem : s₁.item = s.item) (hset : isSet s₁ = isSet s) :
    Replaced upkeep (summary items s) (property items (s.item old)) (property items (s.item i))
      ((rest.map fun j => property items (s.item j) : List (Bit → Bool)) : Multiset (Bit → Bool))
      (summary items ((s₁.resetTileFlags items old).setTileFlags items i)) where
  before := Multiset.coe_eq_coe.2 (hl.map fun j => property items (s.item j))
  after := by
    have hp : ((listed s₁).map fun j => property items (s₁.item j)).Perm
        ((i :: rest).map fun j => property items (s.item j)) := by
      rw [hitem]
      exact hl₁.map _
    exact Multiset.coe_eq_coe.2 hp
  bits b := by
    have hb := isSet_set items (s₁.resetTileFlags items old) i b
    have hothers : (∃ j ∈ listed s₁, j ≠ old ∧ property items (s₁.item j) b = true) ↔
        Has (property items (s.item i) ::ₘ
          ((rest.map fun j => property items (s.item j) : List (Bit → Bool)) : Multiset (Bit → Bool))) b := by
      rw [hitem]
      refine Iff.trans ?_ (has_members (i :: rest) (fun j => property items (s.item j)) b).symm
      constructor
      · exact fun ⟨j, hj, _, hp⟩ => ⟨j, hl₁.mem_iff.1 hj, hp⟩
      · exact fun ⟨j, hj, hp⟩ => ⟨j, hl₁.mem_iff.2 hj, fun e => hold (e ▸ hl₁.mem_iff.2 hj), hp⟩
    rw [isSet_reset items h, hset, hothers] at hb
    have hprop : property items ((s₁.resetTileFlags items old).item i) = property items (s.item i) :=
      congrArg (fun f : ι → Item => property items (f i)) hitem
    have hpropOld : property items (s₁.item old) = property items (s.item old) :=
      congrArg (fun f : ι → Item => property items (f old)) hitem
    rw [hprop, hpropOld] at hb
    exact hb

end Flags

/-! ### Items that go -/

section Going

variable [DecidableEq ι] [DecidableEq κ]

/-- The items `L` have gone from the tile, the others have kept their properties. -/
structure Gone (items : UInt16 → ItemType) (s s' : State ι κ) (D T L : List ι) : Prop where
  shape : ∃ D' T', Shape s'.tile D' T' ∧ D'.Sublist D ∧ T'.Sublist T
  property : ∀ j, property items (s'.item j) = property items (s.item j)
  perm : (listed s).Perm (L ++ listed s')
  drops : Drops upkeep (summary items s) (L.map fun j => TileFlags.property items (s.item j))
    (summary items s')

omit [DecidableEq ι] [DecidableEq κ] in
theorem Gone.refl (h : Shape s.tile D T) : Gone items s s D T [] where
  shape := ⟨D, T, h, .refl D, .refl T⟩
  property _ := rfl
  perm := .refl _
  drops := .nil _

omit [DecidableEq κ] in
theorem Gone.setParent {L : List ι} (h : Gone items s s' D T L) (j : ι) (here : Bool) :
    Gone items s (s'.setParent j here) D T L :=
  ⟨h.shape, h.property, h.perm, h.drops⟩

omit [DecidableEq κ] in
theorem Gone.of_setParent {L : List ι} {j : ι} {here : Bool} (h : Gone items (s.setParent j here) s' D T L) :
    Gone items s s' D T L :=
  ⟨h.shape, h.property, h.perm, h.drops⟩

omit [DecidableEq ι] [DecidableEq κ] in
/-- A state that differs in creatures, counts and parents only. -/
theorem Gone.same (h : Shape s'.tile D T) (hl : listed s' = listed s)
    (hprop : ∀ j, TileFlags.property items (s'.item j) = TileFlags.property items (s.item j))
    (hset : isSet s' = isSet s) : Gone items s s' D T [] := by
  have hsum : summary items s' = summary items s := by
    unfold summary
    simp only [hl, hprop, hset]
  refine ⟨⟨D, T, h, .refl D, .refl T⟩, hprop, hl ▸ .refl _, ?_⟩
  rw [hsum]
  exact .nil _

omit [DecidableEq κ] in
/-- The count of an item is no property. -/
theorem property_setItemCount (s : State ι κ) (i j : ι) (n : ℕ) :
    property items ((s.setItem i ((s.item i).setItemCount n)).item j) = property items (s.item j) := by
  by_cases hj : j = i
  · subst hj
    rw [setItem_item_self]
    rfl
  · rw [setItem_item_of_ne _ hj]

omit [DecidableEq ι] [DecidableEq κ] in
theorem Gone.trans {s₁ : State ι κ} {D₁ T₁ L L' : List ι} (h : Gone items s s₁ D T L)
    (hD : D₁.Sublist D) (hT : T₁.Sublist T) (h' : Gone items s₁ s' D₁ T₁ L') :
    Gone items s s' D T (L ++ L') where
  shape := by
    obtain ⟨D', T', hs, hD', hT'⟩ := h'.shape
    exact ⟨D', T', hs, hD'.trans hD, hT'.trans hT⟩
  property j := (h'.property j).trans (h.property j)
  perm := by
    rw [List.append_assoc]
    exact h.perm.trans (h'.perm.append_left L)
  drops := by
    rw [List.map_append]
    refine h.drops.append ?_
    have hd := h'.drops
    simp only [h.property] at hd
    exact hd

variable (items) in
/-- What `removeThing` takes from the tile: nothing if it does not find the item
or only lowers its count. -/
def removed (s : State ι κ) (i : ι) (count : UInt32) : List ι :=
  if s.getThingIndex items (.item i) = -1 then []
  else if s.tile.ground ≠ some i ∧ ¬ s.isAlwaysOnTop items i ∧
    (s.type items i).stackable ∧ count.toNat ≠ (s.item i).count then []
  else [i]

variable (items) in
theorem removeThing_gone (h : Shape s.tile D T) (i : ι) (count : UInt32) :
    Gone items s (s.removeThing items (.item i) count) D T (removed items s i count) := by
  unfold removed
  rcases removeThing_cases items h i count with
    ⟨hno, he⟩ | ⟨hg, he⟩ | ⟨hi, htop, he⟩ | ⟨hi, htop, hc, he⟩ | ⟨hi, htop, hc, he⟩
  · rw [he, if_pos ((h.index_eq_iff i).2 hno)]
    exact .refl h
  · have hfound : ¬ s.getThingIndex items (.item i) = -1 := fun e =>
      (h.index_eq_iff i).1 e (.inl hg)
    rw [he, if_neg hfound, if_neg fun hc => hc.1 hg]
    have hs : Shape { s.tile with ground := none } D T := h.withGround fun _ hn => nomatch hn
    have hl : (listed s).Perm (i :: listed { s.setParent i false with tile := { s.tile with ground := none } }) := by
      rw [listed_eq h, hg, listed_eq hs]
      exact .refl _
    refine ⟨⟨D, T, hs, .refl D, .refl T⟩, fun _ => rfl, hl, .single ?_⟩
    refine dropped_of hs hl ?_ (fun _ => rfl) rfl
    rw [listed_eq hs]
    exact h.ground i hg
  · have hfound : ¬ s.getThingIndex items (.item i) = -1 := by
      rw [h.index_eq_iff, not_not]
      refine .inr ?_
      rw [htop]
      exact hi
    rw [he, if_neg hfound, if_neg fun hc => hc.2.1 htop]
    have hs : Shape { s.tile with items := some (ofParts D (T.erase i)) } D (T.erase i) :=
      h.sublist (.refl D) List.erase_sublist
    have hl : (listed s).Perm (i :: listed ((s.setParent i false).setItemList (ofParts D (T.erase i)))) := by
      rw [listed_eq h, listed_eq hs]
      have hp : (D ++ T).Perm (i :: (D ++ T.erase i)) :=
        ((List.perm_cons_erase hi).append_left D).trans List.perm_middle
      exact (hp.append_left _).trans List.perm_middle
    refine ⟨⟨D, T.erase i, hs, .refl D, List.erase_sublist⟩, fun _ => rfl, hl, .single ?_⟩
    refine dropped_of hs hl ?_ (fun _ => rfl) rfl
    exact (List.nodup_cons.1 (hl.nodup_iff.1 (listed_nodup h))).1
  · have hfound : ¬ s.getThingIndex items (.item i) = -1 := by
      rw [h.index_eq_iff, not_not]
      refine .inr ?_
      rw [htop]
      exact hi
    have hg : s.tile.ground ≠ some i := fun hg => h.ground i hg (List.mem_append_left _ hi)
    rw [he, if_neg hfound, if_pos ⟨hg, by rw [htop]; exact Bool.false_ne_true, hc⟩]
    have hs : ∀ n, Shape (s.setItem i ((s.item i).setItemCount n)).tile D T := fun _ => h
    exact .same (hs _) rfl (fun j => property_setItemCount s i j _) rfl
  · have hfound : ¬ s.getThingIndex items (.item i) = -1 := by
      rw [h.index_eq_iff, not_not]
      refine .inr ?_
      rw [htop]
      exact hi
    rw [he, if_neg hfound, if_neg fun hp => hc hp.2.2]
    have hs : Shape { s.tile with items := some (ofParts (D.erase i) T) } (D.erase i) T :=
      h.sublist List.erase_sublist (.refl T)
    have hl : (listed s).Perm (i :: listed ((s.setParent i false).setItemList (ofParts (D.erase i) T))) := by
      rw [listed_eq h, listed_eq hs]
      have hp : (D ++ T).Perm (i :: (D.erase i ++ T)) := (List.perm_cons_erase hi).append_right T
      exact (hp.append_left _).trans List.perm_middle
    refine ⟨⟨D.erase i, T, hs, List.erase_sublist, .refl T⟩, fun _ => rfl, hl, .single ?_⟩
    refine dropped_of hs hl ?_ (fun _ => rfl) rfl
    exact (List.nodup_cons.1 (hl.nodup_iff.1 (listed_nodup h))).1

variable (items) in
/-- What the loop over the top items takes away: the first splash, if
`removeThing` finds it. -/
def oldSplash (s : State ι κ) : List ι :=
  match s.tile.topItems.find? fun j => (s.type items j).isSplash with
  | none => []
  | some old => if s.getThingIndex items (.item old) = -1 then [] else [old]

variable (items) in
theorem removeSplash_gone (h : Shape s.tile D T) :
    Gone items s (s.removeSplash items) D T (oldSplash items s) := by
  unfold removeSplash oldSplash
  rw [h.topItems_eq]
  cases hfind : T.find? fun j => (s.type items j).isSplash with
  | none => exact .refl h
  | some old =>
    have hgone := removeThing_gone items h old 1
    have hT := (mem_of_find? hfind).1
    obtain ⟨-, -, hdisj⟩ := List.nodup_append'.1 h.nodup
    have he : removed items s old 1 = if s.getThingIndex items (.item old) = -1 then [] else [old] := by
      unfold removed
      split
      · rfl
      · next hindex =>
        -- a splash that is found is found among the top items
        rw [h.index_eq_iff, not_not] at hindex
        rcases hindex with hg | hpart
        · exact absurd (List.mem_append_right _ hT) (h.ground old hg)
        · split at hpart
          · next htop => exact if_neg fun hc => hc.2.1 htop
          · exact absurd hT (hdisj hpart)
    rw [he] at hgone
    exact hgone.setParent old false

variable (items) in
/-- The fields among the down items, in the order of the loop over them. -/
def oldFields (s : State ι κ) : List ι := s.tile.downItems.filter fun j => (s.item j).cls = .magicField

omit [DecidableEq ι] [DecidableEq κ] in
theorem filter_of_find? [DecidableEq ι] {q : ι → Bool} {old : ι} : ∀ {l : List ι},
    l.find? q = some old → l.filter q = old :: (l.erase old).filter q
  | [], h => nomatch h
  | a :: l, h => by
    by_cases ha : q a = true
    · rw [List.find?_cons_of_pos ha, Option.some.injEq] at h
      subst h
      rw [List.filter_cons_of_pos ha, List.erase_cons_head]
    · rw [List.find?_cons_of_neg ha] at h
      have hne : a ≠ old := fun e => ha (e ▸ List.find?_some h)
      rw [List.filter_cons_of_neg ha, filter_of_find? h, List.erase_cons_tail (by simpa using hne),
        List.filter_cons_of_neg ha]

variable (items) in
/-- The loop over the fields takes away those before the first that cannot be
replaced, and gets to its end if there is none such. -/
theorem removeFields_gone : ∀ (fuel : ℕ) {s s' : State ι κ} {D : List ι} {replaced : Bool},
    Shape s.tile D T → removeFields items fuel s = some (s', replaced) →
    Gone items s s' D T ((oldFields s).takeWhile (s.isReplaceable items)) ∧
      replaced = (oldFields s).all (s.isReplaceable items)
  | 0, _, _, _, _, _, h => nomatch h
  | fuel + 1, s, s', D, replaced, hs, h => by
    unfold removeFields at h
    unfold oldFields
    rw [hs.downItems_eq] at h ⊢
    split at h
    · next hfind =>
      simp only [Option.some.injEq, Prod.mk.injEq] at h
      obtain ⟨rfl, rfl⟩ := h
      rw [List.filter_eq_nil_iff.2 (List.find?_eq_none.1 hfind)]
      exact ⟨.refl hs, rfl⟩
    · next old hfind =>
      have hD := (mem_of_find? hfind).1
      split at h
      · next hrep =>
        obtain ⟨-, -, hdisj⟩ := List.nodup_append'.1 hs.nodup
        -- a round that leaves the field where it is
        have hstay : ∀ {s₁ : State ι κ}, removeFields items fuel s₁ = some (s', replaced) →
            s₁.tile = s.tile → isSet s₁ = isSet s →
            (∀ j, property items (s₁.item j) = property items (s.item j)) →
            (∀ j, (s₁.item j).id = (s.item j).id) → (∀ j, (s₁.item j).cls = (s.item j).cls) →
            Gone items s s' D T ((D.filter fun j => (s.item j).cls = .magicField).takeWhile
              (s.isReplaceable items)) ∧
            replaced = (D.filter fun j => (s.item j).cls = .magicField).all (s.isReplaceable items) := by
          intro s₁ hr htile hset hprop hid hcls
          have hs₁ : Shape s₁.tile D T := htile ▸ hs
          obtain ⟨hgone, hall⟩ := removeFields_gone fuel hs₁ hr
          have hold : oldFields s₁ = D.filter fun j => (s.item j).cls = .magicField := by
            unfold oldFields
            rw [hs₁.downItems_eq]
            simp only [hcls]
          have hrepl : s₁.isReplaceable items = s.isReplaceable items := by
            funext j
            unfold isReplaceable State.type
            rw [hid]
          rw [hold, hrepl] at hgone hall
          have hl : listed s₁ = listed s := congrArg (fun tile : TileStack.Tile ι κ =>
            tile.ground.toList ++ (tile.items.getD {}).items) htile
          exact ⟨(Gone.same hs₁ hl hprop hset).trans (.refl D) (.refl T) hgone, hall⟩
        rcases removeThing_cases items hs old 1 with
          ⟨-, he⟩ | ⟨hg, -⟩ | ⟨hT, -⟩ | ⟨-, -, -, he⟩ | ⟨-, htop, hc, he⟩
        · rw [he] at h
          exact hstay h rfl rfl (fun _ => rfl) (fun _ => rfl) fun _ => rfl
        · exact absurd (List.mem_append_left _ hD) (hs.ground old hg)
        · exact absurd hT (hdisj hD)
        · rw [he] at h
          exact hstay h rfl rfl (fun j => property_setItemCount s old j _)
            (fun j => s.setItemCount_id old j _) fun j => s.setItemCount_cls old j _
        · have hgone := (removeThing_gone items hs old 1).setParent old false
          have hremoved : removed items s old 1 = [old] := by
            have hfound : ¬ s.getThingIndex items (.item old) = -1 := by
              rw [hs.index_eq_iff, not_not]
              refine .inr ?_
              rw [htop]
              exact hD
            unfold removed
            rw [if_neg hfound, if_neg fun hp => hc hp.2.2]
          rw [hremoved] at hgone
          rw [he] at h hgone
          have hs₁ : Shape { s.tile with items := some (ofParts (D.erase old) T) } (D.erase old) T :=
            hs.sublist List.erase_sublist (.refl T)
          obtain ⟨hgone₁, hall⟩ := removeFields_gone fuel hs₁ h
          have hold : oldFields (((((s.setParent old false).setItemList (ofParts (D.erase old) T)).resetTileFlags
              items old).setParent old false)) =
              (D.erase old).filter fun j => (s.item j).cls = .magicField :=
            congrArg (List.filter fun j => decide ((s.item j).cls = .magicField)) hs₁.downItems_eq
          rw [hold] at hgone₁ hall
          rw [filter_of_find? hfind, List.takeWhile_cons_of_pos hrep, List.all_cons, hrep, Bool.true_and]
          exact ⟨hgone.trans List.erase_sublist (.refl T) hgone₁, hall⟩
      · next hrep =>
        simp only [Option.some.injEq, Prod.mk.injEq] at h
        obtain ⟨rfl, rfl⟩ := h
        rw [filter_of_find? hfind, List.takeWhile_cons_of_neg hrep, List.all_cons,
          Bool.eq_false_of_not_eq_true hrep, Bool.false_and]
        exact ⟨.refl hs, rfl⟩

end Going

/-! ### What a call changes -/

section Calls

variable [DecidableEq ι] [DecidableEq κ]

variable (items) in
/-- The items that a call takes away. -/
def leaving (s : State ι κ) : Action ι κ → List ι
  | .addThing (.item i) =>
    if s.tile.items.any fun v => 0xFFFF ≤ v.items.length then []
    else if (s.type items i).isGroundTile then s.tile.ground.toList
    else if (s.type items i).alwaysOnTop then
      if (s.type items i).isSplash then oldSplash items s else []
    else if (s.type items i).isMagicField then (oldFields s).takeWhile (s.isReplaceable items)
    else []
  | .removeThing (.item i) count => removed items s i count
  | .updateThing (.item i) _ _ => if s.getThingIndex items (.item i) = -1 then [] else [i]
  | .replaceThing index (.item _) => (oldItem s.tile index).toList
  | _ => []

variable (items) in
/-- The item that a call brings, as it is then. -/
def coming (s : State ι κ) : Action ι κ → Option Item
  | .addThing (.item i) =>
    if s.tile.items.any fun v => 0xFFFF ≤ v.items.length then none
    else if (s.type items i).isGroundTile then some (s.item i)
    else if (s.type items i).alwaysOnTop then some (s.item i)
    else if (s.type items i).isMagicField then
      if (oldFields s).all (s.isReplaceable items) then some (s.item i) else none
    else some (s.item i)
  | .internalAddThing (.item i) =>
    if (s.type items i).isGroundTile then
      if s.tile.ground = none then some (s.item i) else none
    else if 0xFFFF ≤ s.makeItemList.items.length then none
    else some (s.item i)
  | .updateThing (.item i) itemId count =>
    if s.getThingIndex items (.item i) = -1 then none
    else some (((s.item i).setID items itemId).setSubType items (count.toNat % 2 ^ 16))
  | .replaceThing index (.item i) => (oldItem s.tile index).map fun _ => s.item i
  | _ => none

/-- What the callers see to: a thing that comes was not on the tile. -/
def Fresh (s : State ι κ) : Action ι κ → Prop
  | .addThing t => ¬ s.tile.Has t
  | .internalAddThing t => ¬ s.tile.Has t
  | .replaceThing index t => index < 2 ^ 31 ∧ ¬ s.tile.Has t
  | .elsewhere i _ => ¬ s.tile.Has (.item i)
  | _ => True

/-- A call changes the tile as a collection: `L` goes and `c` comes. -/
def Changes (items : UInt16 → ItemType) (s s' : State ι κ) (L : List ι) (c : Option Item) : Prop :=
  (∃ D T, Shape s'.tile D T) ∧ ∃ rest, (listed s).Perm (L ++ rest) ∧
    Change upkeep (summary items s) (L.map fun j => property items (s.item j))
      ((rest.map fun j => property items (s.item j) : List (Bit → Bool)) : Multiset (Bit → Bool))
      (c.map (property items)) (summary items s')

omit [DecidableEq ι] [DecidableEq κ] in
theorem Gone.members {L : List ι} (h : Gone items s s' D T L) : (summary items s').members =
    (((listed s').map fun j => TileFlags.property items (s.item j) : List (Bit → Bool)) :
      Multiset (Bit → Bool)) := by
  unfold summary
  simp only [h.property]

omit [DecidableEq ι] [DecidableEq κ] in
theorem Gone.changes {L : List ι} (h : Gone items s s' D T L) : Changes items s s' L none := by
  obtain ⟨D', T', hs, -, -⟩ := h.shape
  exact ⟨⟨D', T', hs⟩, listed s', h.perm, .gone h.drops h.members⟩

omit [DecidableEq ι] [DecidableEq κ] in
theorem Gone.come {s₁ : State ι κ} {L : List ι} {c : Item} (h : Gone items s s₁ D T L)
    (hs : ∃ D' T', Shape s'.tile D' T')
    (hp : Pushed upkeep (summary items s₁) (TileFlags.property items c) (summary items s')) :
    Changes items s s' L (some c) :=
  ⟨hs, listed s₁, h.perm, .come h.drops h.members hp⟩

omit [DecidableEq ι] [DecidableEq κ] in
theorem Gone.not_has {s₁ : State ι κ} {L : List ι} (h : Gone items s s₁ D T L) (hs : Shape s.tile D T)
    {D₁ T₁ : List ι} (hs₁ : Shape s₁.tile D₁ T₁) (hi : ¬ s.tile.Has (.item i)) :
    ¬ s₁.tile.Has (.item i) := by
  rw [← mem_listed hs₁]
  intro hm
  exact hi ((mem_listed hs).1 (h.perm.mem_iff.2 (List.mem_append_right L hm)))

variable (items) in
omit [DecidableEq ι] [DecidableEq κ] in
/-- A top item comes. -/
theorem pushed_top (h : Shape s.tile D T) (hi : ¬ s.tile.Has (.item i))
    (hsize : (D ++ T).length < 0xFFFF) (before : ItemType → Bool) :
    (∃ D' T', Shape ((s.insertTop items before i).setTileFlags items i).tile D' T') ∧
      Pushed upkeep (summary items s) (property items (s.item i))
        (summary items ((s.insertTop items before i).setTileFlags items i)) := by
  rw [insertTop_eq h]
  have hperm := insertBefore_parts (fun j => before (s.type items j)) i D T
  have hs := h.insert hperm hi hsize
  refine ⟨⟨_, _, hs⟩, pushed_of ?_ (fun _ => rfl) rfl⟩
  rw [listed_eq h, listed_eq (s := s.setItemList _) hs]
  exact (hperm.append_left _).trans List.perm_middle

variable (items) in
omit [DecidableEq ι] [DecidableEq κ] in
/-- A down item comes. -/
theorem pushed_down (h : Shape s.tile D T) (hi : ¬ s.tile.Has (.item i))
    (hsize : (D ++ T).length < 0xFFFF) :
    (∃ D' T', Shape ((s.insertDown i).setTileFlags items i).tile D' T') ∧
      Pushed upkeep (summary items s) (property items (s.item i))
        (summary items ((s.insertDown i).setTileFlags items i)) := by
  rw [insertDown_eq h hsize]
  have hperm : ((i :: D) ++ T).Perm (i :: (D ++ T)) := .refl _
  have hs := h.insert hperm hi hsize
  refine ⟨⟨_, _, hs⟩, pushed_of ?_ (fun _ => rfl) rfl⟩
  rw [listed_eq h, listed_eq (s := s.setItemList _) hs]
  exact List.perm_middle

variable (items) in
omit [DecidableEq ι] [DecidableEq κ] in
/-- A ground comes where there was none. -/
theorem pushed_ground (h : Shape s.tile D T) (hg : s.tile.ground = none)
    (hi : ¬ s.tile.Has (.item i)) :
    (∃ D' T', Shape { s.tile with ground := some i } D' T') ∧
      Pushed upkeep (summary items s) (property items (s.item i))
        (summary items (State.setTileFlags items { s with tile := { s.tile with ground := some i } } i)) := by
  have hs : Shape { s.tile with ground := some i } D T :=
    h.withGround fun j hj => Option.some.inj hj ▸ h.not_mem hi
  refine ⟨⟨D, T, hs⟩, pushed_of ?_ (fun _ => rfl) rfl⟩
  rw [listed_eq h, listed_eq (s := { s with tile := { s.tile with ground := some i } }) hs, hg]
  exact .refl _

omit [DecidableEq κ] in
/-- An item has taken the place of another, the flags reset and set. -/
theorem changes_replaced {s₁ : State ι κ} {D₁ T₁ : List ι} {old : ι} {rest : List ι}
    (h : Shape s.tile D T) (hs : Shape s₁.tile D₁ T₁) (hsilent : Silent upkeep (summary items s))
    (hl : (listed s).Perm (old :: rest)) (hl₁ : (listed s₁).Perm (i :: rest)) (hne : old ≠ i)
    (hitem : s₁.item = s.item) (hset : isSet s₁ = isSet s) :
    Changes items s ((s₁.resetTileFlags items old).setTileFlags items i) [old] (some (s.item i)) := by
  have hold : old ∉ listed s₁ := by
    rw [hl₁.mem_iff, List.mem_cons, not_or]
    exact ⟨hne, (List.nodup_cons.1 (hl.nodup_iff.1 (listed_nodup h))).1⟩
  exact ⟨⟨D₁, T₁, hs⟩, rest, hl, (replaced_of hs hl hl₁ hold hitem hset).change hsilent⟩

theorem addThing_changes (h : Shape s.tile D T) (hsilent : Silent upkeep (summary items s))
    (hi : ¬ s.tile.Has (.item i)) (hs : s.addThing items (.item i) = some s') :
    Changes items s s' (leaving items s (.addThing (.item i) : Action ι κ))
      (coming items s (.addThing (.item i) : Action ι κ)) := by
  have hmem := h.not_mem hi
  unfold addThing at hs
  unfold leaving coming
  dsimp only at hs ⊢
  split at hs
  · next hfull =>
    cases hs
    rw [if_pos hfull, if_pos hfull]
    exact (Gone.refl h).changes
  next hfull =>
  have hsize : (D ++ T).length < 0xFFFF := by
    rcases h.items_eq with he | ⟨-, rfl, rfl⟩
    · rw [he] at hfull
      simpa [ofParts] using hfull
    · exact Nat.zero_lt_succ _
  rw [if_neg hfull, if_neg hfull]
  -- the parent of the item is no part of the summary
  have h1 : Shape (s.setParent i true).tile D T := h
  have hi1 : ¬ (s.setParent i true).tile.Has (.item i) := hi
  split at hs
  · next hground =>
    replace hground : (s.type items i).isGroundTile = true := hground
    cases hs
    rw [if_pos hground, if_pos hground]
    unfold addGround
    cases hg : s.tile.ground with
    | none =>
      have hg1 : (s.setParent i true).tile.ground = none := hg
      rw [hg1]
      obtain ⟨hs, hp⟩ := pushed_ground items h1 hg1 hi1
      exact (Gone.refl h).come hs hp
    | some old =>
      have hg1 : (s.setParent i true).tile.ground = some old := hg
      rw [hg1]
      have hne : old ≠ i := fun e => hi (.inl (e ▸ hg))
      have hs₁ : Shape { s.tile with ground := some i } D T :=
        h.withGround fun j hj => Option.some.inj hj ▸ hmem
      have hl₁ : listed ({ s.setParent i true with tile := { s.tile with ground := some i } }.setParent
          old false) = i :: (D ++ T) := listed_eq hs₁
      have hl : (listed s).Perm (old :: (D ++ T)) := by
        rw [listed_eq h, hg]
        exact .refl _
      exact changes_replaced h hs₁ hsilent hl (hl₁ ▸ .refl _) hne rfl rfl
  next hground =>
  replace hground : ¬ (s.type items i).isGroundTile = true := hground
  rw [if_neg hground, if_neg hground]
  split at hs
  · next htop =>
    replace htop : (s.type items i).alwaysOnTop = true := htop
    rw [if_pos htop, if_pos htop]
    simp only [Option.some.injEq] at hs
    have hgone : Gone items s (if (s.type items i).isSplash then (s.setParent i true).removeSplash items
        else s.setParent i true) D T (if (s.type items i).isSplash then oldSplash items s else []) := by
      split
      · exact (removeSplash_gone items h1).of_setParent
      · exact (Gone.refl h).setParent i true
    obtain ⟨D₁, T₁, hs₁, hD₁, hT₁⟩ := hgone.shape
    have hsize₁ := (hD₁.append hT₁).length_le.trans_lt hsize
    obtain ⟨hs', hp⟩ := pushed_top items hs₁ (hgone.not_has h hs₁ hi) hsize₁
      fun it => (s.type items i).alwaysOnTopOrder ≤ it.alwaysOnTopOrder
    rw [hgone.property] at hp
    subst hs
    exact hgone.come hs' hp
  next htop =>
  replace htop : ¬ (s.type items i).alwaysOnTop = true := htop
  rw [if_neg htop, if_neg htop]
  split at hs
  · next hfield =>
    replace hfield : (s.type items i).isMagicField = true := hfield
    rw [if_pos hfield, if_pos hfield]
    obtain ⟨⟨s₁, replaced⟩, hr, rfl⟩ := Option.map_eq_some_iff.1 hs
    obtain ⟨hgone, hall⟩ := removeFields_gone items _ h1 hr
    have hgone : Gone items s s₁ D T ((oldFields s).takeWhile (s.isReplaceable items)) :=
      hgone.of_setParent
    have hall : replaced = (oldFields s).all (s.isReplaceable items) := hall
    rw [← hall]
    cases replaced with
    | false => exact (hgone.setParent i false).changes
    | true =>
      obtain ⟨D₁, T₁, hs₁, hD₁, hT₁⟩ := hgone.shape
      have hsize₁ := (hD₁.append hT₁).length_le.trans_lt hsize
      obtain ⟨hs', hp⟩ := pushed_down items hs₁ (hgone.not_has h hs₁ hi) hsize₁
      rw [hgone.property] at hp
      exact hgone.come hs' hp
  · next hfield =>
    replace hfield : ¬ (s.type items i).isMagicField = true := hfield
    cases hs
    rw [if_neg hfield, if_neg hfield]
    obtain ⟨hs', hp⟩ := pushed_down items h1 hi1 hsize
    exact (Gone.refl h).come hs' hp

theorem internalAddThing_changes (h : Shape s.tile D T) (hi : ¬ s.tile.Has (.item i)) :
    Changes items s (s.internalAddThing items (.item i))
      (leaving items s (.internalAddThing (.item i) : Action ι κ))
      (coming items s (.internalAddThing (.item i) : Action ι κ)) := by
  unfold internalAddThing
  unfold leaving coming
  dsimp only
  have h1 : Shape (s.setParent i true).tile D T := h
  have hi1 : ¬ (s.setParent i true).tile.Has (.item i) := hi
  split
  · next hground =>
    replace hground : (s.type items i).isGroundTile = true := hground
    rw [if_pos hground]
    split
    · next hg =>
      replace hg : s.tile.ground = none := hg
      rw [if_pos hg]
      obtain ⟨hs, hp⟩ := pushed_ground items h1 hg hi1
      exact (Gone.refl h).come hs hp
    · next hg =>
      replace hg : ¬ s.tile.ground = none := hg
      rw [if_neg hg]
      exact ((Gone.refl h).setParent i true).changes
  next hground =>
  replace hground : ¬ (s.type items i).isGroundTile = true := hground
  rw [if_neg hground]
  -- the list exists now
  have hv : (s.setParent i true).makeItemList = ofParts D T := h.vector
  have h2 : Shape ((s.setParent i true).setItemList (s.setParent i true).makeItemList).tile D T := by
    rw [hv]
    exact h1.sublist (.refl D) (.refl T)
  have hgone : Gone items s ((s.setParent i true).setItemList (s.setParent i true).makeItemList) D T [] := by
    refine .same h2 ?_ (fun _ => rfl) rfl
    rw [listed_eq h2, listed_eq h]
    rfl
  have hi2 := hgone.not_has h h2 hi
  split
  · next hfull =>
    replace hfull : 0xFFFF ≤ s.makeItemList.items.length := hfull
    rw [if_pos hfull]
    exact hgone.changes
  next hfull =>
  replace hfull : ¬ 0xFFFF ≤ s.makeItemList.items.length := hfull
  rw [if_neg hfull]
  have hsize : (D ++ T).length < 0xFFFF := by
    rw [show s.makeItemList = ofParts D T from hv] at hfull
    exact Nat.lt_of_not_le hfull
  split
  · obtain ⟨hs', hp⟩ := pushed_top items h2 hi2 hsize fun it =>
      (s.type items i).alwaysOnTopOrder < it.alwaysOnTopOrder
    exact hgone.come hs' hp
  · obtain ⟨hs', hp⟩ := pushed_down items h2 hi2 hsize
    exact hgone.come hs' hp

theorem updateThing_changes (h : Shape s.tile D T) (i : ι) (itemId : UInt16) (count : UInt32) :
    Changes items s (s.updateThing items (.item i) itemId count)
      (leaving items s (.updateThing (.item i) itemId count : Action ι κ))
      (coming items s (.updateThing (.item i) itemId count : Action ι κ)) := by
  unfold updateThing leaving coming
  dsimp only
  by_cases hindex : s.getThingIndex items (.item i) = -1
  · rw [if_pos hindex, if_pos hindex, if_pos hindex]
    exact (Gone.refl h).changes
  rw [if_neg hindex, if_neg hindex, if_neg hindex]
  have hhas : i ∈ listed s := by
    rw [mem_listed h, h.has_iff]
    rw [h.index_eq_iff, not_not] at hindex
    refine hindex.imp_right fun hpart => ?_
    split at hpart
    · exact List.mem_append_right _ hpart
    · exact List.mem_append_left _ hpart
  set new := ((s.item i).setID items itemId).setSubType items (count.toNat % 2 ^ 16)
  set rest := (listed s).erase i
  have hl : (listed s).Perm (i :: rest) := List.perm_cons_erase hhas
  have hrest : ∀ j ∈ rest, j ≠ i := by
    rintro j hj rfl
    exact (List.nodup_cons.1 (hl.nodup_iff.1 (listed_nodup h))).1 hj
  -- the flags are reset while the item is there, and set when it has changed
  have hdrop : Dropped upkeep (summary items s) (property items (s.item i))
      ⟨((rest.map fun j => property items (s.item j) : List (Bit → Bool)) : Multiset (Bit → Bool)),
        isSet (s.resetTileFlags items i)⟩ := by
    refine ⟨Multiset.coe_eq_coe.2 (hl.map fun j => property items (s.item j)), fun b => ?_⟩
    have hothers : (∃ j ∈ listed s, j ≠ i ∧ property items (s.item j) b = true) ↔
        Has ((rest.map fun j => property items (s.item j) : List (Bit → Bool)) : Multiset (Bit → Bool)) b := by
      rw [has_members]
      constructor
      · intro ⟨j, hj, hne, hp⟩
        exact ⟨j, (List.mem_cons.1 (hl.mem_iff.1 hj)).resolve_left hne, hp⟩
      · intro ⟨j, hj, hp⟩
        exact ⟨j, hl.mem_iff.2 (List.mem_cons_of_mem _ hj), hrest j hj, hp⟩
    have hb := isSet_reset items h i b
    rw [hothers] at hb
    exact hb
  refine ⟨⟨D, T, h⟩, rest, hl, .come (.single hdrop) rfl ⟨?_, fun b => ?_⟩⟩
  · have hmap : (listed s).map (fun j => property items (((s.resetTileFlags items i).setItem i new).item j)) =
        (listed s).map (Function.update (fun j => property items (s.item j)) i (property items new)) := by
      apply List.map_congr_left
      intro j _
      by_cases hj : j = i
      · subst hj
        rw [setItem_item_self, Function.update_self]
      · rw [setItem_item_of_ne _ hj, Function.update_of_ne hj]
        rfl
    have hmapRest : rest.map (Function.update (fun j => property items (s.item j)) i (property items new)) =
        rest.map fun j => property items (s.item j) :=
      List.map_congr_left fun j hj => Function.update_of_ne (hrest j hj) ..
    have hperm := hl.map (Function.update (fun j => property items (s.item j)) i (property items new))
    rw [List.map_cons, Function.update_self, hmapRest, ← hmap] at hperm
    exact Multiset.coe_eq_coe.2 hperm
  · have hb := isSet_set items ((s.resetTileFlags items i).setItem i new) i b
    rw [setItem_item_self] at hb
    exact hb

theorem replaceThing_changes (h : Shape s.tile D T) (hsilent : Silent upkeep (summary items s))
    (index : ℕ) (hi : ¬ s.tile.Has (.item i)) :
    Changes items s (s.replaceThing items index (.item i))
      (leaving items s (.replaceThing index (.item i) : Action ι κ))
      (coming items s (.replaceThing index (.item i) : Action ι κ)) := by
  have hmem := h.not_mem hi
  unfold replaceThing leaving coming
  dsimp only
  cases hold : oldItem s.tile index with
  | none => exact (Gone.refl h).changes
  | some old =>
    have hget := oldItem_eq_some.1 hold
    rw [TileStack.Tile.getThing_eq] at hget
    have hne : old ≠ i := by
      rintro rfl
      exact hi ((TileStack.Tile.mem_things _).1 (List.mem_of_getElem? hget))
    -- an item of the vector, at some place of it
    have hvector : ∀ {D' T' : List ι} {m : ℕ}, D' ++ T' = (D ++ T).set m i → (D ++ T)[m]? = some old →
        Changes items s (State.setTileFlags items (State.resetTileFlags items
          { s with tile := { s.tile with items := some (ofParts D' T') } } old) i) [old]
          (some (s.item i)) := by
      intro D' T' m hset hm
      obtain ⟨hlt, hel⟩ := List.getElem?_eq_some_iff.1 hm
      have hs := h.set hset hi
      have hl : (D ++ T).Perm (old :: (D ++ T).eraseIdx m) := by
        rw [← hel]
        exact (List.getElem_cons_eraseIdx_perm hlt).symm
      have hl₁ : (D' ++ T').Perm (i :: (D ++ T).eraseIdx m) := by
        rw [hset]
        exact List.set_perm_cons_eraseIdx hlt i
      have hbefore : (listed s).Perm (old :: (s.tile.ground.toList ++ (D ++ T).eraseIdx m)) := by
        rw [listed_eq h]
        exact (hl.append_left _).trans List.perm_middle
      refine changes_replaced h hs hsilent hbefore ?_ hne rfl rfl
      rw [listed_eq (s := { s with tile := { s.tile with items := some (ofParts D' T') } }) hs]
      exact (hl₁.append_left _).trans List.perm_middle
    rcases replaced_cases h hget i with ⟨hg, he⟩ | ⟨k, hk, he⟩ | ⟨k, hk, he⟩
    · rw [he]
      have hs : Shape { s.tile with ground := some i } D T :=
        h.withGround fun j hj => Option.some.inj hj ▸ hmem
      have hl₁ : listed { s with tile := { s.tile with ground := some i } } = i :: (D ++ T) := listed_eq hs
      have hl : (listed s).Perm (old :: (D ++ T)) := by
        rw [listed_eq h, hg]
        exact .refl _
      have hperm : (listed { s with tile := { s.tile with ground := some i } }).Perm (i :: (D ++ T)) :=
        hl₁ ▸ .refl _
      exact changes_replaced h hs hsilent hl hperm hne rfl rfl
    · rw [he]
      refine hvector (append_set_top D k i) ?_
      rw [List.getElem?_append_right (Nat.le_add_right _ _), Nat.add_sub_cancel_left]
      exact hk
    · rw [he]
      have hlt := (List.getElem?_eq_some_iff.1 hk).1
      refine hvector (append_set_down T hlt i) ?_
      rw [List.getElem?_append_left hlt]
      exact hk

omit [DecidableEq ι] [DecidableEq κ] in
/-- Creatures have nothing to do with the flags. -/
theorem changes_creatures (h : Shape s.tile D T) {l : Option (List κ)} (hl : ∀ l', l = some l' → l'.Nodup) :
    Changes items s { s with tile := { s.tile with creatures := l } } [] none := by
  have hgone : Gone items s { s with tile := { s.tile with creatures := l } } D T [] :=
    .same (h.withCreatures hl) rfl (fun _ => rfl) rfl
  exact hgone.changes

/-- What a call that returns does to the tile as a collection. -/
theorem step_changes (h : Shape s.tile D T) (hsilent : Silent upkeep (summary items s))
    {a : Action ι κ} (ha : Fresh s a) (hs : step items (some s) a = some s') :
    Changes items s s' (leaving items s a) (coming items s a) := by
  cases a with
  | addThing t =>
    replace hs : s.addThing items t = some s' := hs
    cases t with
    | creature c =>
      cases hs
      refine changes_creatures h fun l hl => ?_
      cases hl
      exact creatures_append_nodup h.creatures ha
    | item i => exact addThing_changes h hsilent ha hs
  | internalAddThing t =>
    cases hs
    cases t with
    | creature c =>
      refine changes_creatures h fun l hl => ?_
      cases hl
      exact creatures_append_nodup h.creatures ha
    | item i => exact internalAddThing_changes h ha
  | removeThing t count =>
    cases hs
    cases t with
    | creature c =>
      refine changes_creatures h fun l hl => ?_
      obtain ⟨l', hl', rfl⟩ := Option.map_eq_some_iff.1 hl
      exact (h.creatures l' hl').erase c
    | item i => exact (removeThing_gone items h i count).changes
  | updateThing t itemId count =>
    cases hs
    cases t with
    | creature c => exact (Gone.refl h).changes
    | item i => exact updateThing_changes h i itemId count
  | replaceThing index t =>
    cases hs
    cases t with
    | creature c => exact (Gone.refl h).changes
    | item i => exact replaceThing_changes h hsilent index ha.2
  | elsewhere i item =>
    cases hs
    have hi : i ∉ listed s := fun hm => ha ((mem_listed h).1 hm)
    have hsum : summary items (s.setItem i item) = summary items s := by
      have hmap : (listed s).map (fun j => property items ((s.setItem i item).item j)) =
          (listed s).map fun j => property items (s.item j) := by
        apply List.map_congr_left
        intro j hj
        have hne : j ≠ i := by
          rintro rfl
          exact hi hj
        rw [setItem_item_of_ne s hne]
      unfold summary
      exact congrArg (fun l : List (Bit → Bool) => Summary.mk (l : Multiset (Bit → Bool)) (isSet s)) hmap
    refine ⟨⟨D, T, h⟩, listed s, .refl _, .gone ?_ (congrArg Summary.members hsum)⟩
    rw [hsum]
    exact .nil _

variable (items) in
/-- A call keeps the flags right: what goes has no property of a cleared flag
that something on the tile also has, unless what comes has it too, and what
comes has not the property of `TILESTATE_IMMOVABLEBLOCKPATH`. -/
def KeepsFlags (s : State ι κ) (a : Action ι κ) : Prop :=
  (∀ b, upkeep b = .cleared → (∃ i ∈ leaving items s a, property items (s.item i) b = true) →
    (∃ i, s.tile.Has (.item i) ∧ i ∉ leaving items s a ∧ property items (s.item i) b = true) →
    ∃ c, coming items s a = some c ∧ property items c b = true) ∧
  ∀ c, coming items s a = some c → c.hasProperty items .immovableBlockPath = false

/-- One call keeps the flags right exactly under its condition. -/
theorem Changes.mirrors_iff {a : Action ι κ} (h : Shape s.tile D T)
    (hsilent : Silent upkeep (summary items s)) (hm : Mirrors items s)
    (hc : Changes items s s' (leaving items s a) (coming items s a)) :
    Mirrors items s' ↔ KeepsFlags items s a := by
  obtain ⟨⟨D', T', hs'⟩, rest, hl, hchange⟩ := hc
  rw [TileFlags.mirrors_iff hs',
    hchange.mirrored_iff hsilent ((TileFlags.mirrors_iff h).1 hm)]
  have hrest : ∀ j, j ∈ rest ↔ s.tile.Has (.item j) ∧ j ∉ leaving items s a := by
    intro j
    have hdisj := (List.nodup_append'.1 (hl.nodup_iff.1 (listed_nodup h))).2.2
    rw [← mem_listed h, hl.mem_iff, List.mem_append]
    constructor
    · exact fun hj => ⟨.inr hj, fun hj' => hdisj hj' hj⟩
    · exact fun hj => hj.1.resolve_left hj.2
  refine and_congr (forall_congr' fun b => forall_congr' fun _ => ?_) ?_
  · have h1 : (∃ p ∈ (leaving items s a).map fun j => property items (s.item j), p b = true) ↔
        ∃ i ∈ leaving items s a, property items (s.item i) b = true := by
      simp only [List.mem_map, exists_exists_and_eq_and]
    have h2 : Has ((rest.map fun j => property items (s.item j) : List (Bit → Bool)) :
        Multiset (Bit → Bool)) b ↔
        ∃ i, s.tile.Has (.item i) ∧ i ∉ leaving items s a ∧ property items (s.item i) b = true := by
      rw [has_members]
      simp only [hrest, and_assoc]
    have h3 : (∃ q, (coming items s a).map (property items) = some q ∧ q b = true) ↔
        ∃ c, coming items s a = some c ∧ property items c b = true := by
      simp only [Option.map_eq_some_iff, exists_exists_and_eq_and]
    rw [h1, h2, h3]
  · constructor
    · intro hq c hc
      exact hq (.flag .immovableBlockPath) rfl (property items c) (by rw [hc]; rfl)
    · intro hq b hb q hqc
      obtain ⟨c, hc, rfl⟩ := Option.map_eq_some_iff.1 hqc
      have hb' : b = .flag .immovableBlockPath := by
        cases b with
        | floorChange => exact nomatch hb
        | flag f => cases f <;> first | rfl | exact nomatch hb
      subst hb'
      exact hq c hc

/-- Along every run of calls from a new tile: the flags say what is on the tile
after every call exactly when every call that returns keeps them right. -/
theorem mirrors_iff_keepsFlags (items : UInt16 → ItemType) (s : State ι κ) (hempty : Empty s)
    (hfloor : s.floorChange = 0) (hflag : ∀ f, s.flag f = false) (as : List (Action ι κ))
    (hfresh : Along (step items) (fun o a => ∀ s, o = some s → Fresh s a) (some s) as) :
    Along (step items) (fun o a => ∀ s', step items o a = some s' → Mirrors items s') (some s) as ↔
    Along (step items) (fun o a => ∀ s, o = some s → (step items o a).isSome → KeepsFlags items s a)
      (some s) as := by
  have hshape : Shape s.tile [] [] := hempty.shape
  have hlisted : listed s = [] := by
    rw [listed_eq hshape, hempty.ground]
    rfl
  have hunset : ∀ b, isSet s b = false := by
    intro b
    cases b with
    | flag f => exact hflag f
    | floorChange => exact decide_eq_false (not_not_intro hfloor)
  refine hfresh.and_iff.symm.trans (Iff.trans ?_ hfresh.and_iff)
  refine along_congr (I := fun o => ∀ s, o = some s → (∃ D T, Shape s.tile D T) ∧
    Silent upkeep (summary items s) ∧ Mirrors items s) ?_ ?_ as ?_
  · intro o a hI ⟨hf, hm⟩ s' hs'
    cases o with
    | none => exact nomatch hs'
    | some s₁ =>
      obtain ⟨⟨D, T, h⟩, hsilent, -⟩ := hI s₁ rfl
      have hc := step_changes h hsilent (hf s₁ rfl) hs'
      obtain ⟨hshape', rest, -, hchange⟩ := hc
      exact ⟨hshape', hchange.silent hsilent, hm s' hs'⟩
  · intro o a hI
    refine and_congr_right fun hf => ?_
    cases o with
    | none => exact iff_of_true (fun s' hs' => nomatch hs') fun s₁ hs₁ => nomatch hs₁
    | some s₁ =>
      obtain ⟨⟨D, T, h⟩, hsilent, hm⟩ := hI s₁ rfl
      constructor
      · intro hmirrors s₂ hs₂ hret
        cases hs₂
        obtain ⟨s', hs'⟩ := Option.isSome_iff_exists.1 hret
        exact ((step_changes h hsilent (hf s₁ rfl) hs').mirrors_iff h hsilent hm).1 (hmirrors s' hs')
      · intro hkeeps s' hs'
        exact ((step_changes h hsilent (hf s₁ rfl) hs').mirrors_iff h hsilent hm).2
          (hkeeps s₁ rfl (Option.isSome_iff_exists.2 ⟨s', hs'⟩))
  · rintro s' ⟨rfl⟩
    refine ⟨⟨[], [], hshape⟩, fun b _ => hunset b, fun b => ?_⟩
    rw [hunset b]
    refine iff_of_false Bool.false_ne_true fun ⟨i, hi, _⟩ => ?_
    have := (mem_listed hshape).2 hi
    rw [hlisted] at this
    exact nomatch this

/-- An empty tile, and mailboxes elsewhere. -/
def mailboxes : State ℕ ℕ where
  item _ := { cls := .mailbox, id := 2593, count := 1, attributes := none }

/-- Types that block nothing. -/
def plainTypes (id : UInt16) : ItemType := { id }

/-- A mailbox put on an empty tile, and taken away again. -/
theorem mirrors_iff_keepsFlags_mailbox :
    Along (step plainTypes) (fun o a => ∀ s', step plainTypes o a = some s' → Mirrors plainTypes s')
      (some mailboxes) [.addThing (.item 0), .removeThing (.item 0) 1] := by
  refine (mirrors_iff_keepsFlags plainTypes mailboxes ⟨rfl, rfl, rfl⟩ rfl (fun _ => rfl) _ ?_).2 ?_
  · refine ⟨fun s hs => ?_, fun _ _ => trivial, trivial⟩
    cases hs
    rintro (h | ⟨v, h, -⟩)
    · exact nomatch h
    · exact nomatch h
  · refine ⟨fun s hs _ => ?_, fun s hs _ => ?_, trivial⟩
    · cases hs
      refine ⟨fun b _ h => ?_, fun c hc => ?_⟩
      · obtain ⟨i, hi, -⟩ := h
        exact nomatch hi
      · cases hc
        rfl
    · cases hs
      refine ⟨fun b _ _ h => ?_, fun c hc => nomatch hc⟩
      -- nothing but the mailbox itself is on the tile
      obtain ⟨i, hi | ⟨v, hv, hm⟩, hstays, -⟩ := h
      · exact nomatch hi
      · cases hv
        obtain rfl : i = 0 := List.mem_singleton.1 hm
        exact absurd (by decide) hstays

/-- Two mailboxes on a tile: taking one away clears the flag of the other. -/
theorem mailbox_flag_lost :
    Along (step plainTypes) (fun o a => ∀ s, o = some s → Fresh s a) (some mailboxes)
      [.addThing (.item 0), .addThing (.item 1), .removeThing (.item 0) 1] ∧
    ¬ Along (step plainTypes) (fun o a => ∀ s', step plainTypes o a = some s' → Mirrors plainTypes s')
      (some mailboxes) [.addThing (.item 0), .addThing (.item 1), .removeThing (.item 0) 1] := by
  constructor
  · refine ⟨fun s hs => ?_, fun s hs => ?_, fun _ _ => trivial, trivial⟩
    · cases hs
      rintro (h | ⟨v, h, -⟩)
      · exact nomatch h
      · exact nomatch h
    · cases hs
      rintro (h | ⟨v, h, hm⟩)
      · exact nomatch h
      · cases h
        exact absurd hm (by decide)
  · intro ⟨_, _, h, _⟩
    have hm := h _ rfl (.flag .mailbox)
    have hset := hm.2 ⟨1, .inr ⟨_, rfl, by decide⟩, rfl⟩
    exact absurd hset (by decide)

end Calls

end TileFlags
end ForgottenServer
