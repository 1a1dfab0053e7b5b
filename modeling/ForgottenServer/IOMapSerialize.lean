/-
# The house item format

A house tile is stored as its coordinates, a count and one record for each
item: the id, the attributes and, for a container, a marker attribute with the
number of its items and their records inline, last item first, then a zero
byte. The reader creates each item, reads the attributes into it and adds it
in front of what its parent already holds, so that the order comes out right.

Key definitions: `saveItems`, `loadItem`, `SaveableForest`.
Key theorems: `loadItems_saveItems`.
-/
import ForgottenServer.ItemRestore
import ForgottenServer.Tile

namespace ForgottenServer
namespace IOMapSerialize

open PropWriteStream Item

/-! ### Items and containers -/

/-- The record of `IOMapSerialize::saveItem`; `n` and `body` are the number and
the records of the items in it. -/
def saveItem (items : UInt16 → ItemType) (it : Item) (n : ℕ) (body : Bytes) : Bytes :=
  write 2 it.id.toNat ++ it.serializeAttr items ++
  (if it.isContainer then writeAttr .containerItems (write 4 n) ++ body else []) ++
  write 1 0

/-- The records of the items of a container, from the last to the first. -/
def saveItems (items : UInt16 → ItemType) : Forest Item → Bytes
  | .nil => []
  | .cons it content rest =>
    saveItems items rest ++ saveItem items it content.length (saveItems items content)

/-- The loop of `loadContainer`, running `load` for each of `n` items. -/
def loadLoop (load : Forest Item → Bytes → Bool × Forest Item × Bytes) :
    ℕ → Forest Item → Bytes → Bool × Forest Item × Bytes
  | 0, content, s => (true, content, s)
  | n + 1, content, s =>
    match load content s with
    | (true, content, s) => loadLoop load n content s
    | (false, content, s) => (false, content, s)

/-- `IOMapSerialize::loadContainer`: the items, then the end of the attributes. -/
def loadContainer (load : Forest Item → Bytes → Bool × Forest Item × Bytes) (n : ℕ)
    (content : Forest Item) (s : Bytes) : Bool × Forest Item × Bytes :=
  match loadLoop load n content s with
  | (true, content, s) =>
    match Bytes.get 1 s with
    | some (0, s) => (true, content, s)
    | some (_ + 1, s) => (false, content, s)
    | none => (false, content, s)
  | (false, content, s) => (false, content, s)

/-- The branch of `loadItem` that creates a new item: the item, if it was
created, and the rest of the stream; `false` for a failed load. -/
def createAndLoad (E : Env) (load : Forest Item → Bytes → Bool × Forest Item × Bytes) (id : UInt16)
    (s : Bytes) : Bool × Option (Item × Forest Item) × Bytes :=
  match createItem E.items id 0 with
  | none => (true, none, s)
  | some it =>
    match unserializeAttr E ⟨it, s, 0⟩ with
    | (false, r) => (false, none, r.stream)
    | (true, r) =>
      if r.item.isContainer then
        match loadContainer load r.serializationCount .nil r.stream with
        | (true, content, s) => (true, some (r.item, content), s)
        | (false, _, s) => (false, none, s)
      else (true, some (r.item, .nil), r.stream)

/-- `IOMapSerialize::loadItem` into a container that holds `content`, nested at
most `depth` deep. -/
def loadItem (E : Env) : ℕ → Forest Item → Bytes → Bool × Forest Item × Bytes
  | 0, content, s => (false, content, s)
  | depth + 1, content, s =>
    match Bytes.get 2 s with
    | none => (false, content, s)
    | some (type, s) =>
      match createAndLoad E (loadItem E depth) (.ofNat type) s with
      | (b, some (it, inner), s) => (b, .cons it inner content, s)
      | (b, none, s) => (b, content, s)

/-! ### Tiles -/

/-- The items that `saveTile` writes: moveable ones, doors, containers that hold
something, what can be written on and beds. -/
def kept (items : UInt16 → ItemType) (x : Tree) : Bool :=
  (items x.1.id).moveable || x.1.cls = .door || (x.1.isContainer && x.2 ≠ .nil) ||
    (items x.1.id).canWriteText || x.1.cls = .bed

/-- `saveItem` of an item with what it holds. -/
def saveTree (items : UInt16 → ItemType) (x : Tree) : Bytes :=
  saveItem items x.1 x.2.length (saveItems items x.2)

/-- A position on the map. -/
abbrev Position := UInt16 × UInt16 × UInt8

/-- `IOMapSerialize::saveTile`; the 16-bit count is written in four bytes. -/
def saveTile (items : UInt16 → ItemType) (pos : Position) (t : Tile) : Bytes :=
  let l := (t.items.filter (kept items)).reverse
  if l = [] then []
  else
    write 2 pos.1.toNat ++ write 2 pos.2.1.toNat ++ write 1 pos.2.2.toNat ++
    write 4 (l.length % 2 ^ 16 : ℕ) ++ l.flatMap (saveTree items)

/-- The rows of `saveHouseItems`, one for each tile with something to save. -/
def saveHouseItems (items : UInt16 → ItemType) (tiles : List (Position × Tile)) : List Bytes :=
  (tiles.map fun p => saveTile items p.1 p.2).filter (· ≠ [])

/-- The stationary item of a tile that a record of type `id` is for. -/
def isSaved (items : UInt16 → ItemType) (id : UInt16) (x : Tree) : Bool :=
  x.1.id = id || ((items id).isDoor && x.1.cls = .door) || ((items id).isBed && x.1.cls = .bed)

/-- `IOMapSerialize::loadItem` on a tile. Every item takes bytes of the stream,
so its length bounds the nesting. -/
def loadTileItem (E : Env) (t : Tile) (s : Bytes) : Bool × Tile × Bytes :=
  match Bytes.get 2 s with
  | none => (false, t, s)
  | some (type, s) =>
    let id := UInt16.ofNat type
    let load := loadItem E s.length
    if (E.items id).moveable then
      match createAndLoad E load id s with
      | (b, some x, s) => (b, t.internalAddThing E.items x, s)
      | (b, none, s) => (b, t, s)
    else
      -- stationary items like doors, beds, blackboards and bookcases
      match t.find (isSaved E.items id) with
      | some k =>
        match unserializeAttr E ⟨k.tree.1, s, 0⟩ with
        | (false, r) => (true, t.put k [(r.item, k.tree.2)], r.stream)
        | (true, r) =>
          if r.item.isContainer then
            match loadContainer load r.serializationCount k.tree.2 r.stream with
            | (true, content, s) =>
              (true, t.transformItem E.items { k with tree := (r.item, content) } id, s)
            | (false, content, s) => (false, t.put k [(r.item, content)], s)
          else (true, t.transformItem E.items { k with tree := (r.item, k.tree.2) } id, r.stream)
      | none =>
        -- the map changed since the last save, just read the attributes
        match createItem E.items id 0 with
        | none => (true, t, s)
        | some it =>
          let r := (unserializeAttr E ⟨it, s, 0⟩).2
          if r.item.isContainer then
            let (b, _, s) := loadContainer load r.serializationCount .nil r.stream
            (b, t, s)
          else (true, t, r.stream)

/-- The records of a row, whether or not one of them fails. -/
def loadTileItems (E : Env) : ℕ → Tile → Bytes → Tile × Bytes
  | 0, t, s => (t, s)
  | n + 1, t, s =>
    let (_, t, s) := loadTileItem E t s
    loadTileItems E n t s

/-- A row of `loadHouseItems`; rows of missing tiles are skipped. -/
def loadRow (E : Env) (m : Position → Option Tile) (row : Bytes) : Position → Option Tile :=
  match Bytes.get 2 row with
  | none => m
  | some (x, s) =>
    match Bytes.get 2 s with
    | none => m
    | some (y, s) =>
      match Bytes.get 1 s with
      | none => m
      | some (z, s) =>
        let pos : Position := (.ofNat x, .ofNat y, .ofNat z)
        match m pos with
        | none => m
        | some t =>
          match Bytes.get 4 s with
          | none => m
          | some (n, s) => Function.update m pos (some (loadTileItems E n t s).1)

/-- `IOMapSerialize::loadHouseItems` -/
def loadHouseItems (E : Env) (m : Position → Option Tile) (rows : List Bytes) :
    Position → Option Tile :=
  rows.foldl (loadRow E) m

/-! ### Round trip -/

/-- A forest of saveable items: only containers hold items, and their number
fits its field. -/
def SaveableForest (items : UInt16 → ItemType) : Forest Item → Prop :=
  Forest.All fun it content => it.Saveable items ∧ (it.isContainer ∨ content = .nil) ∧
    content.length < 2 ^ 32

/-- The item that is created in place of `it`. -/
def rebuild (items : UInt16 → ItemType) (it : Item) : Item :=
  it.restore items (built items it.id 0)

variable {E : Env}

theorem restored_rebuild {it : Item} (h : it.Saveable E.items) :
    Restored E.items it (rebuild E.items it) :=
  restored_restore h rfl

theorem isContainer_iff {it : Item} (h : it.Saveable E.items) :
    it.isContainer ↔ it.cls = .container := by
  have := h.plain.2.2
  simp [isContainer, this]

theorem loadLoop_succ (load : Forest Item → Bytes → Bool × Forest Item × Bytes) :
    ∀ (n : ℕ) (content : Forest Item) (s : Bytes) {content' : Forest Item} {s' : Bytes},
    loadLoop load n content s = (true, content', s') →
      loadLoop load (n + 1) content s = load content' s'
  | 0, content, s, _, _, h => by
    simp only [loadLoop, Prod.mk.injEq, true_and] at h
    obtain ⟨rfl, rfl⟩ := h
    unfold loadLoop
    rcases load content s with ⟨b, c, t⟩
    cases b <;> rfl
  | n + 1, content, s, _, _, h => by
    unfold loadLoop at h ⊢
    rcases hl : load content s with ⟨b, c, t⟩
    rw [hl] at h
    cases b with
    | false => simp at h
    | true => exact loadLoop_succ load n c t h

/-- The rest of a record after the bytes `a`, which turn the item `i` into `i'`:
the number of items and their records for a container, then the end. -/
theorem unserializeAttr_record {i i' : Item} {a : Bytes} {b : Bool} {n : ℕ}
    (h : ∀ s m, unserializeAttr E ⟨i, a ++ s, m⟩ = unserializeAttr E ⟨i', s, m⟩)
    (hb : b → i'.cls = .container) (hn : n < 2 ^ 32) (body s : Bytes) :
    unserializeAttr E ⟨i, a ++ ((if b then writeAttr .containerItems (write 4 n) ++ body else []) ++
        (write 1 0 ++ s)), 0⟩ =
      (true, ⟨i', if b then body ++ (write 1 0 ++ s) else s, if b then n else 0⟩) := by
  rw [h]
  by_cases hc : b
  · simp only [if_pos hc, List.append_assoc]
    exact unserializeAttr_containerItems (hb hc) hn _ _
  · simp only [if_neg hc, List.nil_append]
    exact unserializeAttr_end _ _ _

/-- The record of an item that is created is read to its end if the records of
its content are. -/
theorem createAndLoad_record {id : UInt16} {i i' : Item} {a body : Bytes} {n : ℕ} {g : Forest Item}
    {load : Forest Item → Bytes → Bool × Forest Item × Bytes}
    (hi : createItem E.items id 0 = some i)
    (h : ∀ s m, unserializeAttr E ⟨i, a ++ s, m⟩ = unserializeAttr E ⟨i', s, m⟩)
    (hc : i'.isContainer → i'.cls = .container) (hn : n < 2 ^ 32) (hg : i'.isContainer ∨ g = .nil)
    (hload : i'.isContainer → ∀ s, loadLoop load n .nil (body ++ s) = (true, g, s)) (s : Bytes) :
    createAndLoad E load id (a ++ ((if i'.isContainer then
        writeAttr .containerItems (write 4 n) ++ body else []) ++ (write 1 0 ++ s))) =
      (true, some (i', g), s) := by
  unfold createAndLoad
  rw [hi]
  simp only [unserializeAttr_record h hc hn]
  by_cases hk : i'.isContainer
  · simp only [if_pos hk, loadContainer, hload hk, get_write]
    rfl
  · simp only [if_neg hk, hg.resolve_left hk]

/-- One item's record is read back as the item, and nothing after it is read. -/
theorem createAndLoad_saveItem {it : Item} (h : it.Saveable E.items)
    (load : Forest Item → Bytes → Bool × Forest Item × Bytes) {content g : Forest Item}
    {body : Bytes} (hn : content.length < 2 ^ 32)
    (hi : g = .nil ∨ it.isContainer)
    (hload : it.isContainer → ∀ s,
      loadLoop load content.length .nil (body ++ s) = (true, g, s)) (s : Bytes) :
    createAndLoad E load it.id (it.serializeAttr E.items ++
      ((if it.isContainer then writeAttr .containerItems (write 4 content.length) ++ body else []) ++
        (write 1 0 ++ s))) = (true, some (rebuild E.items it, g), s) := by
  obtain ⟨-, hcls⟩ := restore_frame E.items it (built E.items it.id 0)
  rw [built_cls, ← h.cls] at hcls
  have hcont : (rebuild E.items it).isContainer = it.isContainer := by
    simp only [isContainer, rebuild, hcls]
  rw [← hcont] at hi hload ⊢
  exact createAndLoad_record (createItem_eq h.buildable 0)
    (fun s m => writes_serializeAttr h.short h.plain.1 h.plain.2.1 (by rw [built_cls, h.cls]) s m)
    (fun hc => hcls.trans ((isContainer_iff h).1 (hcont ▸ hc))) hn hi.symm hload s

/-- The records of a forest are read back as the forest, in order, in front of
what the container holds. -/
theorem loadLoop_saveItems : ∀ {f : Forest Item}, SaveableForest E.items f → ∀ {d : ℕ},
    f.depth ≤ d → ∀ (content : Forest Item) (s : Bytes),
    loadLoop (loadItem E d) f.length content (saveItems E.items f ++ s) =
      (true, f.map (rebuild E.items) ++ content, s)
  | .nil, _, _, _, content, s => by simp [saveItems, Forest.length, loadLoop, Forest.map]
  | .cons it inner rest, ⟨⟨h1, h2, h3⟩, h4, h5⟩, d, hd, content, s => by
    simp only [Forest.depth, sup_le_iff] at hd
    obtain ⟨d, rfl⟩ := Nat.exists_eq_add_of_le' (show 1 ≤ d by omega)
    rw [saveItems, List.append_assoc, Forest.length, loadLoop_succ _ _ _ _
      (loadLoop_saveItems h5 hd.2 content _)]
    unfold loadItem saveItem
    simp only [List.append_assoc, get_write]
    have hid : uint 2 (it.id.toNat : ℤ) = it.id.toNat := uint_natCast it.id.toNat_lt
    rw [hid, UInt16.ofNat_toNat, createAndLoad_saveItem h1 _ h3 (g := inner.map (rebuild E.items))]
    · rfl
    · rcases h2 with h2 | rfl
      · exact .inr h2
      · exact .inl rfl
    · intro _ s
      rw [loadLoop_saveItems h4 (by omega) .nil s, Forest.append_nil]

/-! ### Tiles: one record -/

/-- A saved item that is not moved: its attributes fit their fields and what it
holds is saveable. -/
structure Stationary (items : UInt16 → ItemType) (x : Tree) : Prop where
  buildable : Buildable items x.1.id
  noLocker : x.1.cls ≠ .depotLocker
  short : x.1.ShortStrings
  content : SaveableForest items x.2
  holds : x.1.isContainer ∨ x.2 = .nil
  size : x.2.length < 2 ^ 32

/-- The bytes `a` are taken up by any item of the class `c`, which keeps its
type and class. -/
def Reads (E : Env) (a : Bytes) (c : ItemClass) : Prop :=
  ∀ i : Item, i.cls = c → ∃ i' : Item, i'.id = i.id ∧ i'.cls = i.cls ∧ ∀ s n,
    unserializeAttr E ⟨i, a ++ s, n⟩ = unserializeAttr E ⟨i', s, n⟩

theorem Reads.nil (c : ItemClass) : Reads E [] c := fun i _ => ⟨i, rfl, rfl, fun _ _ => rfl⟩

theorem Reads.append {a b : Bytes} {c : ItemClass} (ha : Reads E a c) (hb : Reads E b c) :
    Reads E (a ++ b) c := fun i hi => by
  obtain ⟨j, h1, h2, h3⟩ := ha i hi
  obtain ⟨k, h4, h5, h6⟩ := hb j (h2.trans hi)
  exact ⟨k, h4.trans h1, h5.trans h2, fun s n => by rw [List.append_assoc, h3, h6]⟩

theorem Reads.ite {a : Bytes} {c : ItemClass} {p : Prop} [Decidable p] (ha : Reads E a c) :
    Reads E (if p then a else []) c := by
  split
  · exact ha
  · exact .nil c

theorem reads_sleeperGuid (v : ℤ) : Reads E (writeAttr .sleeperGuid (write 4 v)) .bed := by
  intro i hi
  by_cases hg : uint 4 v ≠ 0 ∧ E.getNameByGuid (uint 4 v) ≠ []
  · refine ⟨{ i.setStrAttr .description
      (E.getNameByGuid (uint 4 v) ++ " is sleeping there.".toUTF8.toList) with
      sleeperGUID := .ofNat (uint 4 v) }, rfl, rfl, fun s n => ?_⟩
    rw [writeAttr, List.append_assoc, unserializeAttr_tag]
    simp only [readAttr, hi, Reader.read, get_write, if_pos hg, Reader.set]
  · refine ⟨i, rfl, rfl, fun s n => ?_⟩
    rw [writeAttr, List.append_assoc, unserializeAttr_tag]
    simp only [readAttr, hi, Reader.read, get_write, if_neg hg]

theorem reads_sleepStart (v : ℤ) : Reads E (writeAttr .sleepStart (write 4 v)) .bed := by
  intro i hi
  refine ⟨{ i with sleepStart := .ofNat (uint 4 v) }, rfl, rfl, fun s n => ?_⟩
  rw [writeAttr, List.append_assoc, unserializeAttr_tag]
  simp only [readAttr, hi, Reader.read, get_write, Reader.set]

theorem reads_teleDest (d : UInt16 × UInt16 × UInt8) : Reads E (writeAttr .teleDest
    (write 2 d.1.toNat ++ write 2 d.2.1.toNat ++ write 1 d.2.2.toNat)) .teleport :=
  fun i hi => ⟨{ i with destPos := d }, rfl, rfl, fun s n => writes_teleDest hi d s n⟩

theorem Reads.of_writes {a : Bytes} {f : Item → Item} (h : Writes E a f)
    (hf : ∀ i, SameKind i (f i)) (c : ItemClass) : Reads E a c := fun i _ =>
  ⟨f i, (hf i).1, (hf i).2, fun s n => h i s n⟩

theorem reads_num {t : AttrTypes} {w : ℕ} {f : ℕ → Item → Item} (ht : t.isBase)
    (hf : ∀ r, baseReadAttr E (some t) r = r.read w fun n r => r.set (f n))
    (hk : ∀ n i, SameKind i (f n i)) (v : ℤ) (c : ItemClass) : Reads E (writeAttr t (write w v)) c :=
  .of_writes (writes_num ht hf v) (hk _) c

/-- A string that is too long for its field is read as the empty one. -/
theorem reads_str {t : AttrTypes} {f : Bytes → Item → Item} (ht : t.isBase)
    (hf : ∀ r, baseReadAttr E (some t) r = r.readString fun s r => r.set (f s))
    (hk : ∀ s i, SameKind i (f s i)) (v : Bytes) (c : ItemClass) :
    Reads E (writeAttr t (writeString v)) c := by
  by_cases hv : v.length ≤ 65535
  · exact .of_writes (writes_str ht hf hv) (hk _) c
  · have hnil : writeString v = writeString [] := by
      unfold writeString
      rw [if_pos (by omega), if_neg (by simp)]
      rfl
    rw [hnil]
    exact .of_writes (writes_str ht hf (Nat.zero_le _)) (hk _) c

section

variable (items : UInt16 → ItemType) (it : Item) (c : ItemClass)

theorem reads_base : Reads E (it.baseSerializeAttr items) c := by
  have hint : ∀ (t : ItemAttr) (n : ℤ) (i : Item), SameKind i (i.setIntAttr t n) :=
    fun _ _ _ => ⟨rfl, rfl⟩
  have hstr : ∀ (t : ItemAttr) (s : Bytes) (i : Item), SameKind i (i.setStrAttr t s) :=
    fun _ _ _ => ⟨rfl, rfl⟩
  have hsub : ∀ (n : ℕ) (i : Item), SameKind i (i.setSubType E.items n) := fun n _ =>
    Item.setSubType_kind n ⟨rfl, rfl⟩
  have hdecay : Reads E (if it.getDecaying = 1 ∨ it.getDecaying = 2 then
      writeAttr .decayingState (write 1 it.getDecaying) else []) c := by
    by_cases hd : it.getDecaying = 1 ∨ it.getDecaying = 2
    · rw [if_pos hd]
      exact .of_writes (writes_decaying hd) (hint _ _) c
    · rw [if_neg hd]
      exact .nil c
  unfold baseSerializeAttr
  refine .append (.append (.append (.append (.append (.append (.append (.append (.append (.append
    (.append (.append (.append (.append (.append (.append (.append (.append (.ite ?_) (.ite ?_))
    (.ite ?_)) (.ite ?_)) (.ite ?_)) (.ite ?_)) (.ite ?_)) (.ite ?_)) hdecay) (.ite ?_)) (.ite ?_))
    (.ite ?_)) (.ite ?_)) (.ite ?_)) (.ite ?_)) (.ite ?_)) (.ite ?_)) (.ite ?_)) (.ite ?_)
  all_goals first
    | exact reads_num rfl (fun _ => rfl) hsub _ _
    | exact reads_num rfl (fun _ => rfl) (fun _ => hint _ _) _ _
    | exact reads_str rfl (fun _ => rfl) (fun _ => hstr _ _) _ _

end

/-- The bytes of an item, written under any table, are read by any item of its
class. -/
theorem reads_serializeAttr (items : UInt16 → ItemType) (it : Item) :
    Reads E (it.serializeAttr items) it.cls := by
  unfold serializeAttr
  split
  · exact .nil _
  · next h =>
    rw [h]
    exact (Reads.ite (reads_sleeperGuid _)).append (Reads.ite (reads_sleepStart _))
  · next h =>
    rw [h]
    exact (reads_base items it _).append (reads_teleDest _)
  · exact reads_base items it _

/-- A container's records and their end. -/
theorem loadContainer_saveItems {f : Forest Item} (hf : SaveableForest E.items f) {d : ℕ}
    (hd : f.depth ≤ d) (content : Forest Item) (s : Bytes) :
    loadContainer (loadItem E d) f.length content (saveItems E.items f ++ (write 1 0 ++ s)) =
      (true, f.map (rebuild E.items) ++ content, s) := by
  unfold loadContainer
  rw [loadLoop_saveItems hf hd]
  simp only [get_write]
  rfl

theorem depth_le_length (items : UInt16 → ItemType) : ∀ {f : Forest Item},
    (f.All fun it content => it.isContainer ∨ content = .nil) →
    f.depth ≤ (saveItems items f).length
  | .nil, _ => Nat.zero_le _
  | .cons it inner rest, ⟨h1, h2, h3⟩ => by
    have ih1 := depth_le_length items h2
    have ih2 := depth_le_length items h3
    have hlen : inner.depth + 1 ≤
        (saveItem items it inner.length (saveItems items inner)).length := by
      unfold saveItem
      simp only [List.length_append, length_write]
      rcases h1 with h1 | rfl
      · rw [if_pos h1, List.length_append]
        omega
      · simp only [Forest.depth]
        omega
    rw [saveItems, List.length_append, Forest.depth]
    omega

theorem SaveableForest.holds {items : UInt16 → ItemType} {f : Forest Item}
    (h : SaveableForest items f) : f.All fun it content => it.isContainer ∨ content = .nil :=
  h.imp fun _ _ h => h.2.1

/-- What is read back for an item with what it holds. -/
def rebuildTree (items : UInt16 → ItemType) (x : Tree) : Tree :=
  (rebuild items x.1, x.2.map (rebuild items))

/-- A moveable item's record adds it to the tile. -/
theorem loadTileItem_moveable {x : Tree} (hx : SaveableForest E.items (.cons x.1 x.2 .nil))
    (t : Tile) (s : Bytes) : loadTileItem E t (saveTree E.items x ++ s) =
      (true, t.internalAddThing E.items (rebuildTree E.items x), s) := by
  obtain ⟨⟨h1, h2, h3⟩, h4, -⟩ := hx
  have hdepth := depth_le_length E.items (SaveableForest.holds h4)
  unfold loadTileItem saveTree saveItem
  simp only [List.append_assoc, get_write]
  have hid : uint 2 (x.1.id.toNat : ℤ) = x.1.id.toNat := uint_natCast x.1.id.toNat_lt
  rw [hid, UInt16.ofNat_toNat, if_pos h1.moveable,
    createAndLoad_saveItem h1 _ h3 (g := x.2.map (rebuild E.items))]
  · rfl
  · rcases h2 with h2 | h2
    · exact .inr h2
    · exact .inl (by rw [h2]; rfl)
  · intro hc s'
    rw [loadLoop_saveItems h4, Forest.append_nil]
    rw [if_pos hc]
    simp only [List.length_append]
    omega

/-- An item of the saved class takes up the attributes of a record, up to the
records of its content. -/
theorem reads_record {x : Tree} (hx : Stationary E.items x) {i : Item} (hi : i.cls = x.1.cls)
    (body s : Bytes) : ∃ i', i'.id = i.id ∧ i'.cls = i.cls ∧
      unserializeAttr E ⟨i, x.1.serializeAttr E.items ++
        ((if x.1.isContainer then writeAttr .containerItems (write 4 x.2.length) ++ body else []) ++
          (write 1 0 ++ s)), 0⟩ =
      (true, ⟨i', if x.1.isContainer then body ++ (write 1 0 ++ s) else s,
        if x.1.isContainer then x.2.length else 0⟩) := by
  obtain ⟨i', h1, h2, h3⟩ := reads_serializeAttr E.items x.1 i hi
  refine ⟨i', h1, h2, unserializeAttr_record h3 (fun hc => ?_) hx.size body s⟩
  have hor : x.1.cls = .container ∨ x.1.cls = .depotLocker := by simpa [isContainer] using hc
  rw [h2, hi]
  exact hor.resolve_right hx.noLocker

/-- The item that a record is for is of the class of the record's type. -/
theorem found_cls (hT : Tile.DoorTypes E.items) {t : Tile} (ht : Tile.Laid E.items t) {id : UInt16}
    {k : Tile.Found} (hfind : t.find (isSaved E.items id) = some k) :
    k.tree.1.cls = classOf (E.items id) := by
  obtain ⟨hp, hk⟩ := Tile.find_spec hfind
  simp only [isSaved, Bool.or_eq_true, Bool.and_eq_true, decide_eq_true_eq] at hp
  rcases hp with (hp | ⟨hp, hc⟩) | ⟨hp, hc⟩
  · rw [(ht.found hk).cls, hp]
  · rw [hc, Tile.classOf_door hT hp]
  · rw [hc, Tile.classOf_bed hT hp]

/-- Reading something into that item leaves the moveable items as they are. -/
theorem transformItem_found (hT : Tile.DoorTypes E.items) {t : Tile} (ht : Tile.Laid E.items t)
    (hsize : t.items.length ≤ 0xFFFF) {id : UInt16} (hm : ¬ (E.items id).moveable) {k : Tile.Found}
    (hfind : t.find (isSaved E.items id) = some k) {i : Item} (hi : SameKind k.tree.1 i)
    (content : Forest Item) :
    Tile.Laid E.items (t.transformItem E.items { k with tree := (i, content) } id) ∧
      Tile.SameMoveables E.items t
        (t.transformItem E.items { k with tree := (i, content) } id) := by
  obtain ⟨hp, hk⟩ := Tile.find_spec hfind
  simp only [isSaved, Bool.or_eq_true, Bool.and_eq_true, decide_eq_true_eq] at hp
  exact Tile.transformItem_same hT ht hk hsize hm (by rw [← or_assoc]; exact hp) hi

/-- A stationary item's record leaves the moveable items as they are. -/
theorem loadTileItem_stationary (hT : Tile.DoorTypes E.items) {x : Tree} (hx : Stationary E.items x)
    (hm : ¬ (E.items x.1.id).moveable) (hcls : x.1.cls = classOf (E.items x.1.id)) {t : Tile}
    (ht : Tile.Laid E.items t) (hsize : t.items.length ≤ 0xFFFF) (s : Bytes) :
    ∃ t', loadTileItem E t (saveTree E.items x ++ s) = (true, t', s) ∧ Tile.Laid E.items t' ∧
      Tile.SameMoveables E.items t t' := by
  have hdepth := depth_le_length E.items hx.content.holds
  have hid : uint 2 (x.1.id.toNat : ℤ) = x.1.id.toNat := uint_natCast x.1.id.toNat_lt
  unfold loadTileItem saveTree saveItem
  simp only [List.append_assoc, get_write]
  rw [hid, UInt16.ofNat_toNat, if_neg hm]
  have hsame : Tile.SameMoveables E.items t t := ⟨rfl, rfl, rfl⟩
  cases hfind : t.find (isSaved E.items x.1.id) with
  | none =>
    have hb : (built E.items x.1.id 0).cls = x.1.cls := (built_cls _).trans hcls.symm
    obtain ⟨i', h1, h2, h3⟩ := reads_record hx hb (saveItems E.items x.2) s
    refine ⟨t, ?_, ht, hsame⟩
    simp only [createItem_eq hx.buildable, h3]
    have hi' : i'.isContainer = x.1.isContainer := by simp only [isContainer, h2, hb]
    rw [hi']
    by_cases hc : x.1.isContainer
    · simp only [if_pos hc]
      rw [loadContainer_saveItems hx.content]
      simp only [List.length_append]
      omega
    · simp only [if_neg hc]
  | some k =>
    have hkcls : k.tree.1.cls = x.1.cls := (found_cls hT ht hfind).trans hcls.symm
    obtain ⟨i', h1, h2, h3⟩ := reads_record hx hkcls (saveItems E.items x.2) s
    have hstep := transformItem_found hT ht hsize hm hfind (i := i') ⟨h1, h2⟩
    simp only [h3]
    have hi' : i'.isContainer = x.1.isContainer := by simp only [isContainer, h2, hkcls]
    rw [hi']
    by_cases hc : x.1.isContainer
    · simp only [if_pos hc]
      rw [loadContainer_saveItems hx.content]
      · exact ⟨_, rfl, hstep _⟩
      · simp only [List.length_append]
        omega
    · simp only [if_neg hc]
      exact ⟨_, rfl, hstep _⟩

/-! ### Tiles: all records -/

/-- A tile whose items can be saved: the moveable ones and the stationary ones
that are kept fit the format, and of the moveable items that are always on top
no two have the same order. -/
structure SaveableTile (items : UInt16 → ItemType) (t : Tile) : Prop where
  laid : Tile.Laid items t
  moveable : ∀ x ∈ t.items, (items x.1.id).moveable →
    SaveableForest items (.cons x.1 x.2 .nil) ∧ ¬ (items x.1.id).isGroundTile
  stationary : ∀ x ∈ t.items, ¬ (items x.1.id).moveable → kept items x → Stationary items x
  count : t.items.length ≤ 0xFFFF
  ordered : (Tile.moveables items t.top).Pairwise fun x y =>
    (items x.1.id).alwaysOnTopOrder < (items y.1.id).alwaysOnTopOrder

theorem loadTileItems_add : ∀ (m n : ℕ) (t : Tile) (s : Bytes), loadTileItems E (m + n) t s =
    loadTileItems E n (loadTileItems E m t s).1 (loadTileItems E m t s).2
  | 0, n, t, s => by rw [Nat.zero_add]; rfl
  | m + 1, n, t, s => by
    rw [show m + 1 + n = m + n + 1 by omega]
    exact loadTileItems_add m n _ _

theorem rebuildTree_id (x : Tree) : (rebuildTree E.items x).1.id = x.1.id :=
  (restore_frame _ _ _).1.trans (built_id _)

/-- A rebuilt item fits where the saved one did. -/
theorem fits_rebuildTree {onTop : Bool} {x : Tree} (h : Tile.Fits E.items onTop x) :
    Tile.Fits E.items onTop (rebuildTree E.items x) := by
  have hcls : (rebuildTree E.items x).1.cls = x.1.cls :=
    ((restore_frame _ _ _).2.trans (built_cls _)).trans h.cls.symm
  refine ⟨?_, ?_, fun hm => ?_⟩
  · rw [rebuildTree_id]
    exact h.part
  · rw [rebuildTree_id, hcls]
    exact h.cls
  · rw [rebuildTree_id] at hm
    rw [hcls]
    exact h.plain hm

/-- What the record `rec x` of an item of the part `onTop` does on any tile: it
adds `back x` if the item can be moved, and leaves the moveable items alone if
not. -/
structure Record (E : Env) (onTop : Bool) (rec : Tree → Bytes) (back : Tree → Tree) (x : Tree) :
    Prop where
  fits : Tile.Fits E.items onTop x
  moveable : (E.items x.1.id).moveable → ¬ (E.items x.1.id).isGroundTile ∧
    Tile.Fits E.items onTop (back x) ∧ (back x).1.id = x.1.id ∧ ∀ (t : Tile) (s : Bytes),
      loadTileItem E t (rec x ++ s) = (true, t.internalAddThing E.items (back x), s)
  stationary : ¬ (E.items x.1.id).moveable → ∀ {t : Tile}, Tile.Laid E.items t →
    t.items.length ≤ 0xFFFF → ∀ s, ∃ t', loadTileItem E t (rec x ++ s) = (true, t', s) ∧
      Tile.Laid E.items t' ∧ Tile.SameMoveables E.items t t'

/-- The records of one part of the vector, written from the last to the first,
put its moveable items back in order. -/
theorem loadTileItems_part {b : Bool} {rec : Tree → Bytes} {back : Tree → Tree} :
    ∀ {l : List Tree}, (∀ x ∈ l, Record E b rec back x) →
    (b → (Tile.moveables E.items l).Pairwise fun x y =>
      (E.items x.1.id).alwaysOnTopOrder < (E.items y.1.id).alwaysOnTopOrder) →
    ∀ {t : Tile}, Tile.Laid E.items t → (b → Tile.moveables E.items t.top = []) →
    t.items.length + (Tile.moveables E.items l).length ≤ 0xFFFF → ∀ s, ∃ t',
      loadTileItems E l.length t (l.reverse.flatMap rec ++ s) = (t', s) ∧
      Tile.Grown E.items b ((Tile.moveables E.items l).map back) t t'
  | [], _, _, t, ht, _, _, s => ⟨t, rfl, .refl ht _⟩
  | x :: l, hrec, hord, t, ht, htop, hlen, s => by
    have hsub : ∀ y ∈ l, y ∈ x :: l := fun y hy => List.mem_cons_of_mem _ hy
    have hmono : (Tile.moveables E.items l).Sublist (Tile.moveables E.items (x :: l)) :=
      (List.sublist_cons_self x l).filter _
    have hlen' := hmono.length_le
    obtain ⟨t1, h1, hg⟩ := loadTileItems_part (fun y hy => hrec y (hsub y hy))
      (fun h => (hord h).sublist hmono) ht htop (by omega) (rec x ++ s)
    have hsize := hg.length
    rw [List.length_map] at hsize
    have hflat : (x :: l).reverse.flatMap rec ++ s = l.reverse.flatMap rec ++ (rec x ++ s) := by
      rw [List.reverse_cons, List.flatMap_append, List.append_assoc, List.flatMap_singleton]
    rw [hflat, List.length_cons, loadTileItems_add, h1]
    have hx := hrec x List.mem_cons_self
    by_cases hm : (E.items x.1.id).moveable
    · obtain ⟨hgx, hfr, hid, hload⟩ := hx.moveable hm
      have hcons : Tile.moveables E.items (x :: l) = x :: Tile.moveables E.items l :=
        List.filter_cons_of_pos (p := fun x : Tree => (E.items x.1.id).moveable) hm
      rw [hcons, List.length_cons] at hlen
      refine ⟨t1.internalAddThing E.items (back x), ?_, ?_⟩
      · unfold loadTileItems
        rw [hload]
        rfl
      · have hgrown := Tile.internalAddThing_grown (x := back x) hg.laid (by omega)
          (by rwa [hid]) ⟨rfl, hfr.cls, hfr.plain⟩ (by rwa [hid]) ?_
        · rw [hfr.part] at hgrown
          rw [hcons, List.map_cons]
          exact hg.trans hgrown
        · -- an item on top has an order below those that are back already
          intro hon y hy
          have honTop : b = true := hfr.part.symm.trans hon
          subst honTop
          have hpart : Tile.moveables E.items t1.top = _ := hg.part
          rw [hpart] at hy
          rcases List.mem_append.1 hy with hy | hy
          · obtain ⟨z, hz, rfl⟩ := List.mem_map.1 hy
            obtain ⟨hzl, hmz⟩ := List.mem_filter.1 hz
            have hp := hord rfl
            rw [hcons] at hp
            rw [hid, ((hrec z (hsub z hzl)).moveable hmz).2.2.1]
            exact (List.pairwise_cons.1 hp).1 z hz
          · have hnil : Tile.moveables E.items (t.part true) = [] := htop rfl
            rw [hnil] at hy
            exact absurd hy List.not_mem_nil
    · obtain ⟨t2, h2, hl2, hs2⟩ := hx.stationary hm hg.laid (by omega) s
      refine ⟨t2, ?_, ?_⟩
      · unfold loadTileItems
        rw [h2]
        rfl
      · rw [Tile.moveables_cons_of_not hm]
        exact hg.trans (hs2.grown hl2 b)

/-- The records of down items `d` and of items `u` that are always on top, on a
tile that holds no moveable items. -/
theorem loadTileItems_parts {d u : List Tree} {rec : Tree → Bytes} {back : Tree → Tree} {t0 : Tile}
    (hd : ∀ x ∈ d, Record E false rec back x) (hu : ∀ x ∈ u, Record E true rec back x)
    (hord : (Tile.moveables E.items u).Pairwise fun x y =>
      (E.items x.1.id).alwaysOnTopOrder < (E.items y.1.id).alwaysOnTopOrder)
    (h0 : Tile.Laid E.items t0) (hd0 : Tile.moveables E.items t0.down = [])
    (ht0 : Tile.moveables E.items t0.top = [])
    (hroom : t0.items.length + (Tile.moveables E.items (d ++ u)).length ≤ 0xFFFF) (s : Bytes) :
    ∃ t', loadTileItems E (d ++ u).length t0 ((d ++ u).reverse.flatMap rec ++ s) = (t', s) ∧
      Tile.moveables E.items t'.down = (Tile.moveables E.items d).map back ∧
      Tile.moveables E.items t'.top = (Tile.moveables E.items u).map back := by
  have hsum : (Tile.moveables E.items (d ++ u)).length =
      (Tile.moveables E.items d).length + (Tile.moveables E.items u).length := by
    unfold Tile.moveables
    rw [List.filter_append, List.length_append]
  -- the items on top come first
  obtain ⟨t1, h1, hg1⟩ := loadTileItems_part hu (fun _ => hord) h0 (fun _ => ht0) (by omega)
    (d.reverse.flatMap rec ++ s)
  have hlen := hg1.length
  rw [List.length_map] at hlen
  obtain ⟨t2, h2, hg2⟩ := loadTileItems_part hd (fun h => by simp at h) hg1.laid
    (fun h => by simp at h) (by omega) s
  refine ⟨t2, ?_, ?_, ?_⟩
  · rw [List.length_append, Nat.add_comm, loadTileItems_add, List.reverse_append,
      List.flatMap_append, List.append_assoc, h1]
    exact h2
  · refine hg2.part.trans ?_
    rw [show Tile.moveables E.items (t1.part false) = [] from hg1.other.trans hd0, List.append_nil]
  · refine hg2.other.trans (hg1.part.trans ?_)
    rw [show Tile.moveables E.items (t0.part true) = [] from ht0, List.append_nil]

theorem moveables_kept (l : List Tree) :
    Tile.moveables E.items (l.filter (kept E.items)) = Tile.moveables E.items l := by
  unfold Tile.moveables
  rw [List.filter_filter]
  refine List.filter_congr fun x _ => ?_
  cases hm : (E.items x.1.id).moveable with
  | true => simp only [kept, hm, Bool.true_or, Bool.and_self]
  | false => rfl

/-- A tile of the map that another one's items are loaded to: nothing on it can
be moved, and there is room. -/
structure ReadyFor (items : UInt16 → ItemType) (t t0 : Tile) : Prop where
  laid : Tile.Laid items t0
  down : Tile.moveables items t0.down = []
  top : Tile.moveables items t0.top = []
  room : t0.items.length + (Tile.moveables items t.items).length ≤ 0xFFFF

/-- `t'` has the moveable items of `t`, rebuilt, in their order. -/
def Rebuilt (items : UInt16 → ItemType) (t t' : Tile) : Prop :=
  Tile.moveables items t'.down = (Tile.moveables items t.down).map (rebuildTree items) ∧
    Tile.moveables items t'.top = (Tile.moveables items t.top).map (rebuildTree items)

/-- The records of a tile, read into one without moveable items. -/
theorem loadTileItems_tile (hT : Tile.DoorTypes E.items) {t t0 : Tile}
    (h : SaveableTile E.items t) (h0 : ReadyFor E.items t t0) (s : Bytes) :
    ∃ t', loadTileItems E (t.items.filter (kept E.items)).length t0
        ((t.items.filter (kept E.items)).reverse.flatMap (saveTree E.items) ++ s) = (t', s) ∧
      Rebuilt E.items t t' := by
  have hrec : ∀ {b : Bool}, ∀ x ∈ t.items, Tile.Fits E.items b x → kept E.items x →
      Record E b (saveTree E.items) (rebuildTree E.items) x := fun x hx hfit hk => by
    refine ⟨hfit, fun hm => ?_, fun hm t ht hsize s => ?_⟩
    · obtain ⟨hs, hg⟩ := h.moveable x hx hm
      exact ⟨hg, fits_rebuildTree hfit, rebuildTree_id x, loadTileItem_moveable hs⟩
    · exact loadTileItem_stationary hT (h.stationary x hx hm hk) hm hfit.cls ht hsize s
  have hk : ∀ l : List Tree, Tile.moveables E.items (l.filter (kept E.items)) =
      Tile.moveables E.items l := moveables_kept
  have hparts := loadTileItems_parts (d := t.down.filter (kept E.items))
    (u := t.top.filter (kept E.items))
    (fun x hx => hrec x (List.mem_append_left _ (List.mem_of_mem_filter hx))
      (h.laid.down x (List.mem_of_mem_filter hx)) (List.of_mem_filter hx))
    (fun x hx => hrec x (List.mem_append_right _ (List.mem_of_mem_filter hx))
      (h.laid.top x (List.mem_of_mem_filter hx)) (List.of_mem_filter hx))
    (by rw [hk]; exact h.ordered) h0.laid h0.down h0.top
    (by rw [← List.filter_append, hk]; exact h0.room) s
  rw [hk, hk, ← List.filter_append] at hparts
  exact hparts

/-- The row of a tile changes the tile of its position. -/
theorem loadRow_row (items : UInt16 → ItemType) {t t0 : Tile} {pos : Position}
    {m : Position → Option Tile} (hcount : t.items.length ≤ 0xFFFF) (hm : m pos = some t0)
    (hne : saveTile items pos t ≠ []) : loadRow E m (saveTile items pos t) =
      Function.update m pos (some (loadTileItems E (t.items.filter (kept items)).length t0
        ((t.items.filter (kept items)).reverse.flatMap (saveTree items) ++ [])).1) := by
  have hk : (t.items.filter (kept items)).reverse ≠ [] := fun hk => hne (by rw [saveTile, hk]; rfl)
  have hcount := (List.length_filter_le (kept items) t.items).trans hcount
  have hx : uint 2 (pos.1.toNat : ℤ) = pos.1.toNat := uint_natCast pos.1.toNat_lt
  have hy : uint 2 (pos.2.1.toNat : ℤ) = pos.2.1.toNat := uint_natCast pos.2.1.toNat_lt
  have hz : uint 1 (pos.2.2.toNat : ℤ) = pos.2.2.toNat := uint_natCast pos.2.2.toNat_lt
  have hn : uint 4 (((t.items.filter (kept items)).reverse.length % 2 ^ 16 : ℕ) : ℤ) =
      (t.items.filter (kept items)).length := by
    rw [uint_natCast (by omega), List.length_reverse, Nat.mod_eq_of_lt (by omega)]
  rw [List.append_nil]
  unfold loadRow saveTile
  simp only [if_neg hk, List.append_assoc, get_write, hx, hy, hz, hn, UInt16.ofNat_toNat,
    UInt8.ofNat_toNat, hm]

/-- A row is read back on the tile of its position. -/
theorem loadRow_saveTile (hT : Tile.DoorTypes E.items) {t t0 : Tile} {pos : Position}
    {m : Position → Option Tile} (h : SaveableTile E.items t) (hm : m pos = some t0)
    (h0 : ReadyFor E.items t t0) (hne : saveTile E.items pos t ≠ []) :
    ∃ t', loadRow E m (saveTile E.items pos t) = Function.update m pos (some t') ∧
      Rebuilt E.items t t' := by
  obtain ⟨t', h1, h2⟩ := loadTileItems_tile hT h h0 []
  refine ⟨t', ?_, h2⟩
  rw [loadRow_row E.items h.count hm hne, h1]

theorem rebuilt_of_nothing {t t0 : Tile} (h0 : ReadyFor E.items t t0) {pos : Position}
    (h : saveTile E.items pos t = []) : Rebuilt E.items t t0 := by
  have hk : t.items.filter (kept E.items) = [] := by
    by_contra hk
    have hk' : (t.items.filter (kept E.items)).reverse ≠ [] := by simpa using hk
    unfold saveTile at h
    simp only [if_neg hk', List.append_eq_nil_iff] at h
    have := length_write 2 (pos.1.toNat : ℤ)
    simp [h.1.1.1.1] at this
  have hm : Tile.moveables E.items t.items = [] := by
    rw [← moveables_kept, hk]
    rfl
  have hm' : Tile.moveables E.items t.down ++ Tile.moveables E.items t.top = [] := by
    rw [← hm]
    exact (List.filter_append ..).symm
  obtain ⟨hd, ht⟩ := List.append_eq_nil_iff.1 hm'
  exact ⟨by rw [h0.down, hd]; rfl, by rw [h0.top, ht]; rfl⟩

/-- All tiles of the houses: each gets its moveable items back, and no other
tile changes. -/
theorem loadHouseItems_saveHouseItems (hT : Tile.DoorTypes E.items) :
    ∀ {tiles : List (Position × Tile)} {m : Position → Option Tile},
    (tiles.map Prod.fst).Nodup →
    (∀ p ∈ tiles, SaveableTile E.items p.2 ∧ ∃ t0, m p.1 = some t0 ∧ ReadyFor E.items p.2 t0) →
    (∀ p ∈ tiles, ∃ t', loadHouseItems E m (saveHouseItems E.items tiles) p.1 = some t' ∧
      Rebuilt E.items p.2 t') ∧
    ∀ pos, pos ∉ tiles.map Prod.fst →
      loadHouseItems E m (saveHouseItems E.items tiles) pos = m pos
  | [], m, _, _ => ⟨by simp, fun _ _ => rfl⟩
  | (pos, t) :: tiles, m, hn, h => by
    simp only [List.map_cons, List.nodup_cons] at hn
    obtain ⟨hs, t0, hm, h0⟩ := h _ List.mem_cons_self
    by_cases hne : saveTile E.items pos t = []
    · have hrows : saveHouseItems E.items ((pos, t) :: tiles) = saveHouseItems E.items tiles := by
        simp [saveHouseItems, hne]
      obtain ⟨ih1, ih2⟩ := loadHouseItems_saveHouseItems hT hn.2 fun p hp =>
        h p (List.mem_cons_of_mem _ hp)
      rw [hrows]
      refine ⟨fun p hp => ?_, fun q hq => ih2 q fun hc => hq (List.mem_cons_of_mem _ hc)⟩
      rcases List.mem_cons.1 hp with rfl | hp
      · exact ⟨t0, (ih2 pos hn.1).trans hm, rebuilt_of_nothing h0 hne⟩
      · exact ih1 p hp
    · obtain ⟨t', h1, h2⟩ := loadRow_saveTile hT hs hm h0 hne
      have hrows : saveHouseItems E.items ((pos, t) :: tiles) =
          saveTile E.items pos t :: saveHouseItems E.items tiles := by
        simp [saveHouseItems, hne]
      have hload : loadHouseItems E m (saveHouseItems E.items ((pos, t) :: tiles)) =
          loadHouseItems E (Function.update m pos (some t')) (saveHouseItems E.items tiles) := by
        rw [hrows, ← h1]
        rfl
      have hkeep : ∀ q, q ≠ pos → Function.update m pos (some t') q = m q := fun q hq =>
        Function.update_of_ne hq _ _
      obtain ⟨ih1, ih2⟩ := loadHouseItems_saveHouseItems hT (m := Function.update m pos (some t'))
        hn.2 fun p hp => by
          rw [hkeep p.1 fun hc => hn.1 (hc ▸ List.mem_map_of_mem hp)]
          exact h p (List.mem_cons_of_mem _ hp)
      rw [hload]
      refine ⟨fun p hp => ?_, fun q hq => ?_⟩
      · rcases List.mem_cons.1 hp with rfl | hp
        · exact ⟨t', (ih2 pos hn.1).trans (Function.update_self ..), h2⟩
        · exact ih1 p hp
      · rw [List.map_cons, List.mem_cons, not_or] at hq
        exact (ih2 q hq.2).trans (hkeep q hq.1)

/-! ### The round trip of the house items -/

/-- The tree `r` is the tree `x` with every item restored. -/
def RestoredTree (items : UInt16 → ItemType) (x r : Tree) : Prop :=
  Restored items x.1 r.1 ∧ x.2.Rel (Restored items) r.2

theorem restored_rebuildTree {x : Tree} (hx : SaveableForest E.items (.cons x.1 x.2 .nil)) :
    RestoredTree E.items x (rebuildTree E.items x) :=
  ⟨restored_rebuild hx.1.1, Forest.rel_map (fun _ _ h => restored_rebuild h.1) hx.2.1⟩

theorem restored_moveables {l : List Tree} (hl : ∀ x ∈ Tile.moveables E.items l,
    SaveableForest E.items (.cons x.1 x.2 .nil)) :
    List.Forall₂ (RestoredTree E.items) (Tile.moveables E.items l)
      ((Tile.moveables E.items l).map (rebuildTree E.items)) := by
  rw [List.forall₂_map_right_iff, List.forall₂_same]
  exact fun x hx => restored_rebuildTree (hl x hx)

/-- A saved tree is loaded back, in front of what its parent holds, from exactly
the bytes that were written; saved tiles get back their moveable items in the
order of the stack. -/
theorem house_items_restored :
    (∀ x : Tree, SaveableForest E.items (.cons x.1 x.2 .nil) → ∃ r, RestoredTree E.items x r ∧
      ∀ d, (Forest.cons x.1 x.2 .nil).depth ≤ d → ∀ (content : Forest Item) (s : Bytes),
        loadItem E d content (saveTree E.items x ++ s) = (true, .cons r.1 r.2 content, s)) ∧
    (Tile.DoorTypes E.items → ∀ (tiles : List (Position × Tile)) (m : Position → Option Tile),
      (tiles.map Prod.fst).Nodup →
      (∀ p ∈ tiles, SaveableTile E.items p.2 ∧ ∃ t0, m p.1 = some t0 ∧ ReadyFor E.items p.2 t0) →
      ∀ p ∈ tiles, ∃ t', loadHouseItems E m (saveHouseItems E.items tiles) p.1 = some t' ∧
        List.Forall₂ (RestoredTree E.items) (Tile.moveables E.items p.2.down)
          (Tile.moveables E.items t'.down) ∧
        List.Forall₂ (RestoredTree E.items) (Tile.moveables E.items p.2.top)
          (Tile.moveables E.items t'.top)) := by
  refine ⟨fun x hx => ⟨rebuildTree E.items x, restored_rebuildTree hx, fun d hd content s => ?_⟩,
    fun hT tiles m hn h p hp => ?_⟩
  · have hloop := loadLoop_saveItems hx hd content s
    have hone : loadLoop (loadItem E d) 1 content (saveTree E.items x ++ s) =
        loadItem E d content (saveTree E.items x ++ s) :=
      loadLoop_succ _ 0 content _ rfl
    exact hone.symm.trans hloop
  · obtain ⟨t', h1, h2, h3⟩ := (loadHouseItems_saveHouseItems hT hn h).1 p hp
    have hsave : ∀ x ∈ p.2.items, (E.items x.1.id).moveable →
        SaveableForest E.items (.cons x.1 x.2 .nil) := fun x hx hm =>
      ((h p hp).1.moveable x hx hm).1
    refine ⟨t', h1, ?_, ?_⟩
    · rw [h2]
      refine restored_moveables fun x hx => ?_
      obtain ⟨hx, hm⟩ := List.mem_filter.1 hx
      exact hsave x (List.mem_append_left _ hx) hm
    · rw [h3]
      refine restored_moveables fun x hx => ?_
      obtain ⟨hx, hm⟩ := List.mem_filter.1 hx
      exact hsave x (List.mem_append_right _ hx) hm

/-- A house with bags (1987), doors (1209 closed, 1211 open) and apples. -/
def fruitHouse : Env where
  items id :=
    if id = 1987 then { group := .container, id, moveable := true }
    else if id = 1209 ∨ id = 1211 then { type := .door, id, alwaysOnTop := true }
    else { id, moveable := true, stackable := true }
  getNameByGuid _ := []
  addUniqueItem _ := true

def bagOfApples : Tree :=
  ({ cls := .container, id := 1987, count := 1, attributes := none },
    .cons { cls := .item, id := 2674, count := 3, attributes := none } .nil .nil)

def door (id : UInt16) : Tree := ({ cls := .door, id, count := 1, attributes := none }, .nil)

/-- The bag on the threshold of a door that was saved closed and is open on the
map. -/
theorem house_items_restored_bag :
    (∃ r, RestoredTree fruitHouse.items bagOfApples r ∧
      loadItem fruitHouse 2 .nil (saveTree fruitHouse.items bagOfApples) =
        (true, .cons r.1 r.2 .nil, [])) ∧
    ∃ t', loadHouseItems fruitHouse (fun _ => some { top := [door 1211] })
        (saveHouseItems fruitHouse.items
          [((100, 100, 7), { down := [bagOfApples], top := [door 1209] })]) (100, 100, 7) =
        some t' ∧
      List.Forall₂ (RestoredTree fruitHouse.items) [bagOfApples]
        (Tile.moveables fruitHouse.items t'.down) := by
  have hbag : SaveableForest fruitHouse.items (.cons bagOfApples.1 bagOfApples.2 .nil) := by
    have h1 : bagOfApples.1.Saveable fruitHouse.items := saveable_of_none rfl rfl (by decide)
      (fun h => h.1 rfl) ⟨⟨by decide, by decide⟩, by decide⟩ rfl (by decide) (fun _ => rfl) rfl
    have h2 : Saveable fruitHouse.items { cls := .item, id := 2674, count := 3, attributes := none } :=
      saveable_of_none rfl rfl (by decide) (fun h => h.1 rfl) ⟨⟨by decide, by decide⟩, by decide⟩ rfl
        (by decide) (fun h => absurd rfl h) rfl
    exact ⟨⟨h1, .inl rfl, by decide⟩, ⟨⟨h2, .inr rfl, by decide⟩, trivial, trivial⟩, trivial⟩
  have hT : Tile.DoorTypes fruitHouse.items := by
    intro id h
    unfold fruitHouse at h ⊢
    dsimp only at h ⊢
    split_ifs at h ⊢
    · simp [ItemType.isDoor, ItemType.isBed] at h
    · simp [ItemType.isGroundTile, ItemType.isSplash, ItemType.isContainer]
    · simp [ItemType.isDoor, ItemType.isBed] at h
  have hsaved : SaveableTile fruitHouse.items { down := [bagOfApples], top := [door 1209] } := by
    refine ⟨⟨?_, ?_⟩, ?_, ?_, by decide, ?_⟩
    · simp only [List.mem_singleton, forall_eq]
      exact ⟨rfl, rfl, fun _ => by decide⟩
    · simp only [List.mem_singleton, forall_eq]
      exact ⟨rfl, rfl, fun h => absurd h (by decide)⟩
    · simp only [Tile.items, List.singleton_append, List.mem_cons, List.not_mem_nil, or_false,
        forall_eq_or_imp, forall_eq]
      exact ⟨fun _ => ⟨hbag, by decide⟩, fun h => absurd h (by decide)⟩
    · simp only [Tile.items, List.singleton_append, List.mem_cons, List.not_mem_nil, or_false,
        forall_eq_or_imp, forall_eq]
      refine ⟨fun h => absurd rfl h, fun _ _ => ⟨⟨⟨by decide, by decide⟩, by decide⟩, by decide,
        fun t _ => Nat.zero_le _, trivial, .inr rfl, by decide⟩⟩
    · exact List.Pairwise.nil
  have hready : ReadyFor fruitHouse.items { down := [bagOfApples], top := [door 1209] }
      { top := [door 1211] } := by
    refine ⟨⟨by simp, ?_⟩, rfl, rfl, by decide⟩
    simp only [List.mem_singleton, forall_eq]
    exact ⟨rfl, rfl, fun h => absurd h (by decide)⟩
  obtain ⟨htree, htile⟩ := house_items_restored (E := fruitHouse)
  obtain ⟨r, h1, h2⟩ := htree bagOfApples hbag
  have h3 := h2 2 (by decide) .nil []
  rw [List.append_nil] at h3
  obtain ⟨t', h4, h5, -⟩ := htile hT
    [((100, 100, 7), { down := [bagOfApples], top := [door 1209] })]
    (fun _ => some { top := [door 1211] }) (List.nodup_singleton _)
    (by simpa using ⟨hsaved, hready⟩) _ List.mem_cons_self
  exact ⟨⟨r, h1, h3⟩, t', h4, h5⟩

/-- A ring that is worn. -/
def wornRing : Item := { cls := .item, id := 2210, count := 1, attributes := none }

def rings : Env where
  items id := { id, moveable := true }
  getNameByGuid _ := []
  addUniqueItem _ := true

/-- A worn ring comes back as the ring that is not worn: `Item::CreateItem`
rewrites its id. -/
theorem worn_ring_changes : wornRing.WithinWidths rings.items ∧ ∃ r,
    loadItem rings 1 .nil (saveTree rings.items (wornRing, .nil)) = (true, .cons r .nil .nil, []) ∧
    r.id ≠ wornRing.id :=
  ⟨withinWidths_of_none rfl rfl (by decide) fun h => h.1 rfl, _, rfl, by decide⟩

end IOMapSerialize
end ForgottenServer
