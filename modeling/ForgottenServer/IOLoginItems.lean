/-
# A player's items in the database rows

`IOLoginData::saveItems` writes one row for each item: the roots under the id
of their slot or depot, then the content of every container breadth first
under the row id of the container, with ids running up from 101. `loadItems`
reads the rows into a map by row id and the loop of `loadPlayer` walks the map
from the largest id down and pushes each item to the front of its parent.

Containers are objects with a list of items, a total weight and a parent that
`Container::internalAddThing` updates in place; here they are a heap indexed
by the row ids.

Key definitions: `saveItems`, `loadItems`, `load`, `Holds`.
Key theorems: `load_saveItems`.
-/
import ForgottenServer.ItemRestore
import ForgottenServer.Lib.Forest
import ForgottenServer.Lib.SortedMap

namespace ForgottenServer
namespace IOLoginData

open Item

/-! ### Writing -/

/-- A row of `player_items`, `player_depotitems` or `player_inboxitems`. -/
structure Row where
  pid : ℕ
  sid : ℕ
  itemtype : UInt16
  count : ℕ
  attributes : Bytes
  deriving DecidableEq

/-- An item to save: the id of its parent, the item and what it holds. -/
abbrev ItemBlock := ℕ × Item × Forest Item

/-- The row of an item. -/
def rowOf (items : UInt16 → ItemType) (pid sid : ℕ) (it : Item) : Row :=
  ⟨pid, sid, it.id, it.getSubType items, it.serializeAttr items⟩

/-- The rows of a list of items, numbered from `runningId + 1`. -/
def emit (items : UInt16 → ItemType) : List ItemBlock → ℕ → List Row
  | [], _ => []
  | (pid, it, _) :: l, runningId =>
    rowOf items pid (runningId + 1) it :: emit items l (runningId + 1)

/-- The containers among a list of items, with their row ids. -/
def enqueue : List ItemBlock → ℕ → List (Forest Item × ℕ)
  | [], _ => []
  | (_, it, content) :: l, runningId =>
    if it.isContainer then (content, runningId + 1) :: enqueue l (runningId + 1)
    else enqueue l (runningId + 1)

/-- The items of a container, under its row id. -/
def children (parentId : ℕ) : Forest Item → List ItemBlock
  | .nil => []
  | .cons it content rest => (parentId, it, content) :: children parentId rest

/-- The number of items below a queue, and of the containers in it. -/
def queueSize (q : List (Forest Item × ℕ)) : ℕ := (q.map fun p => p.1.size + 1).sum

theorem queueSize_enqueue (p : ℕ) : ∀ (f : Forest Item) (r : ℕ),
    queueSize (enqueue (children p f) r) ≤ f.size
  | .nil, _ => le_rfl
  | .cons it c s, r => by
    have ih := queueSize_enqueue p s (r + 1)
    unfold children enqueue
    split
    · simp only [queueSize, List.map_cons, List.sum_cons, Forest.size] at ih ⊢
      omega
    · simp only [Forest.size]
      omega

/-- The loop over the queue of `saveItems`. -/
def saveQueue (items : UInt16 → ItemType) : List (Forest Item × ℕ) → ℕ → List Row
  | [], _ => []
  | (content, parentId) :: queue, runningId =>
    emit items (children parentId content) runningId ++
      saveQueue items (queue ++ enqueue (children parentId content) runningId)
        (runningId + content.length)
termination_by queue => queueSize queue
decreasing_by
  have := queueSize_enqueue parentId content runningId
  simp only [queueSize, List.map_append, List.sum_append, List.map_cons, List.sum_cons] at this ⊢
  omega

/-- `IOLoginData::saveItems` -/
def saveItems (items : UInt16 → ItemType) (itemList : List ItemBlock) : List Row :=
  emit items itemList 100 ++
    saveQueue items (enqueue itemList 100) (100 + itemList.length)

/-! ### Reading -/

/-- `ItemMap`: the loaded items by row id, with the ids of their parents. -/
abbrev ItemMap := List (ℕ × (Item × ℕ))

/-- What `loadItems` makes of one row. -/
def entry (E : Env) (row : Row) : Option (ℕ × (Item × ℕ)) :=
  (createItem E.items row.itemtype row.count).map fun it =>
    (row.sid, ((unserializeAttr E ⟨it, row.attributes, 0⟩).2.item, row.pid))

/-- `IOLoginData::loadItems` -/
def loadItems (E : Env) (rows : List Row) : ItemMap := SortedMap.ofList (rows.filterMap (entry E))

/-- What an item can be in: a slot of the player, an item of the map, or the
depot chest or the depot locker of an id. -/
inductive Place
  | slot (n : ℕ)
  | item (sid : ℕ)
  | depot (id : ℕ)
  | locker (id : ℕ)
  deriving DecidableEq

/-- The player's slots and the containers: their items from the first on and
their total weights, and the parent of each item. -/
structure Heap where
  inventory : ℕ → Option ℕ
  itemlist : Place → List ℕ
  totalWeight : Place → UInt32
  parent : ℕ → Option Place

def Heap.empty : Heap := ⟨fun _ => none, fun _ => [], fun _ => 0, fun _ => none⟩

/-- `getWeight` of the item of a row id. -/
def Heap.getWeight (items : UInt16 → ItemType) (m : ItemMap) (h : Heap) (sid : ℕ) : UInt32 :=
  match m.lookup sid with
  | some (it, _) =>
    if it.isContainer then it.getWeight items + h.totalWeight (.item sid) else it.getWeight items
  | none => 0

/-- `Container::updateItemWeight`: up the parents that are containers. -/
def updateItemWeight : ℕ → Heap → Place → UInt32 → Heap
  | 0, h, _, _ => h
  | fuel + 1, h, c, diff =>
    let h := { h with totalWeight := Function.update h.totalWeight c (h.totalWeight c + diff) }
    match c with
    | .item sid =>
      match h.parent sid with
      | none | some (.slot _) => h
      | some c => updateItemWeight fuel h c diff
    | _ => h

/-- `Container::internalAddThing`; no parent chain is longer than the map. -/
def internalAddThing (items : UInt16 → ItemType) (m : ItemMap) (h : Heap) (c : Place) (sid : ℕ) :
    Heap :=
  let h := { h with
    parent := Function.update h.parent sid (some c)
    itemlist := Function.update h.itemlist c (sid :: h.itemlist c) }
  updateItemWeight (m.length + 1) h c (h.getWeight items m sid)

/-- `Player::internalAddThing`: an occupied slot stays as it is. -/
def playerInternalAddThing (h : Heap) (index sid : ℕ) : Heap :=
  if 0 < index ∧ index < 11 then
    if (h.inventory index).isSome then h
    else { h with
      inventory := Function.update h.inventory index (some sid)
      parent := Function.update h.parent sid (some (.slot index)) }
  else h

/-- The tables of items. -/
inductive Table
  | items | depotItems | inboxItems
  deriving DecidableEq

/-- The parent ids that are not row ids. -/
def Table.isRoot : Table → ℕ → Bool
  | .items, pid => 1 ≤ pid && pid ≤ 10
  | .depotItems, pid => pid < 100
  | .inboxItems, pid => pid < 100

/-- The place of a root. -/
def Table.root : Table → ℕ → Place
  | .items, n => .slot n
  | .depotItems, n => .depot n
  | .inboxItems, n => .locker n

/-- The loops of `loadPlayer`, for one pair of the map. -/
def place (T : Table) (items : UInt16 → ItemType) (m : ItemMap) (h : Heap)
    (e : ℕ × (Item × ℕ)) : Heap :=
  if T.isRoot e.2.2 then
    match T with
    | .items => playerInternalAddThing h e.2.2 e.1
    | .depotItems => internalAddThing items m h (.depot e.2.2) e.1
    | .inboxItems => internalAddThing items m h (.locker e.2.2) e.1
  else
    match m.lookup e.2.2 with
    | none => h
    | some (c, _) => if c.isContainer then internalAddThing items m h (.item e.2.2) e.1 else h

/-- The map is walked from its last pair to its first. -/
def load (T : Table) (E : Env) (rows : List Row) : Heap :=
  (loadItems E rows).reverse.foldl (place T E.items (loadItems E rows)) .empty

/-! ### The map is the rows in order -/

/-- Items of the class that `Item::CreateItem` builds for their type; only
containers hold items. -/
def Creatable (items : UInt16 → ItemType) : Forest Item → Prop :=
  Forest.All fun it content => Known items it.id ∧ it.cls = classOf (items it.id) ∧
    (it.isContainer ∨ content = .nil)

/-- `it` after it was written to a row and loaded from it. -/
def reload (E : Env) (it : Item) : Item :=
  match createItem E.items it.id (it.getSubType E.items) with
  | some i => (unserializeAttr E ⟨i, it.serializeAttr E.items, 0⟩).2.item
  | none => it

section Map

variable {E : Env}

theorem reload_cls {it : Item} (hk : Known E.items it.id) (h : it.cls = classOf (E.items it.id)) :
    (reload E it).cls = it.cls := by
  obtain ⟨i, hi, hc⟩ := createItem_known E.items hk (it.getSubType E.items)
  unfold reload
  rw [hi]
  exact (unserializeAttr_kind _).2.trans (hc.trans h.symm)

theorem reload_isContainer {it : Item} (hk : Known E.items it.id)
    (h : it.cls = classOf (E.items it.id)) : (reload E it).isContainer = it.isContainer := by
  unfold isContainer
  rw [reload_cls hk h]

theorem reload_eq {it : Item} (h : Buildable E.items it.id) : reload E it =
    (unserializeAttr E ⟨built E.items it.id (it.getSubType E.items),
      it.serializeAttr E.items, 0⟩).2.item := by
  unfold reload
  rw [createItem_eq h]

theorem reload_id {it : Item} (h : Buildable E.items it.id) : (reload E it).id = it.id := by
  rw [reload_eq h]
  exact (unserializeAttr_kind _).1.trans (built_id _)

/-- A new item of the type that the fields were read into. -/
theorem reload_eq_restore {it : Item} (hb : Buildable E.items it.id) (h : it.cls = classOf (E.items it.id))
    (hs : it.ShortStrings) (h1 : it.cls ≠ .door) (h2 : it.cls ≠ .bed) :
    reload E it = it.restore E.items (built E.items it.id (it.getSubType E.items)) := by
  have hw := writes_serializeAttr (E := E) hs h1 h2
    (by rw [built_cls, h] : (built E.items it.id (it.getSubType E.items)).cls = it.cls) [] 0
  rw [List.append_nil, unserializeAttr_nil] at hw
  rw [reload_eq hb, hw]

/-- What the round trip through a row keeps of an item: always its type and
class, and all that the format holds if its values fit. -/
def Reloaded (items : UInt16 → ItemType) (it r : Item) : Prop :=
  r.id = it.id ∧ r.cls = it.cls ∧ (it.Saveable items → Restored items it r)

theorem reloaded_reload {it : Item} (hb : Buildable E.items it.id)
    (h : it.cls = classOf (E.items it.id)) : Reloaded E.items it (reload E it) := by
  refine ⟨reload_id hb, reload_cls hb.toKnown h, fun hs => ?_⟩
  rw [reload_eq_restore hb h hs.short hs.plain.1 hs.plain.2.1]
  exact restored_restore hs rfl

/-- The pairs of the map for a list of items numbered from `r + 1`. -/
def entries (E : Env) : List ItemBlock → ℕ → ItemMap
  | [], _ => []
  | (pid, it, _) :: l, r => (r + 1, (reload E it, pid)) :: entries E l (r + 1)

/-- The items of a list and all that they hold are creatable. -/
def CreatableBlocks (items : UInt16 → ItemType) (l : List ItemBlock) : Prop :=
  ∀ b ∈ l, Creatable items (.cons b.2.1 b.2.2 .nil)

theorem creatable_children {p : ℕ} : ∀ {f : Forest Item}, Creatable E.items f →
    CreatableBlocks E.items (children p f)
  | .nil, _ => by simp [children, CreatableBlocks]
  | .cons _ _ _, ⟨h1, h2, h3⟩ => by
    intro b hb
    rcases List.mem_cons.1 hb with rfl | hb
    · exact ⟨h1, h2, trivial⟩
    · exact creatable_children h3 b hb

/-- The forests of a queue are creatable. -/
def CreatableQueue (items : UInt16 → ItemType) (q : List (Forest Item × ℕ)) : Prop :=
  ∀ p ∈ q, Creatable items p.1

theorem creatable_enqueue : ∀ {l : List ItemBlock} {r : ℕ}, CreatableBlocks E.items l →
    CreatableQueue E.items (enqueue l r)
  | [], _, _ => by simp [enqueue, CreatableQueue]
  | b :: l, r, h => by
    have hl := creatable_enqueue (r := r + 1) fun b hb => h b (List.mem_cons_of_mem _ hb)
    unfold enqueue
    split
    · intro p hp
      rcases List.mem_cons.1 hp with rfl | hp
      · exact (h b List.mem_cons_self).2.1
      · exact hl p hp
    · exact hl

theorem filterMap_emit : ∀ {l : List ItemBlock} {r : ℕ}, CreatableBlocks E.items l →
    (emit E.items l r).filterMap (entry E) = entries E l r
  | [], _, _ => rfl
  | (pid, it, c) :: l, r, h => by
    have hb := (h _ List.mem_cons_self).1.1
    have he : entry E (rowOf E.items pid (r + 1) it) = some (r + 1, (reload E it, pid)) := by
      obtain ⟨i, hi, -⟩ := createItem_known E.items hb (it.getSubType E.items)
      unfold entry rowOf reload
      simp only [hi, Option.map_some]
    rw [emit, entries, List.filterMap_cons, he,
      filterMap_emit fun b hb => h b (List.mem_cons_of_mem _ hb)]

/-- The pairs of the map for a queue. -/
def queueEntries (E : Env) (q : List (Forest Item × ℕ)) (r : ℕ) : ItemMap :=
  (saveQueue E.items q r).filterMap (entry E)

theorem queueEntries_cons {f : Forest Item} {p r : ℕ} {q : List (Forest Item × ℕ)}
    (h : Creatable E.items f) : queueEntries E ((f, p) :: q) r =
      entries E (children p f) r ++
        queueEntries E (q ++ enqueue (children p f) r) (r + f.length) := by
  rw [queueEntries, saveQueue, List.filterMap_append, filterMap_emit (creatable_children h)]
  rfl

@[simp] theorem length_children (p : ℕ) : ∀ f : Forest Item, (children p f).length = f.length
  | .nil => rfl
  | .cons _ _ s => by simp only [children, List.length_cons, Forest.length, length_children p s]

/-- The ids of a list of items. -/
theorem entries_bounds : ∀ {l : List ItemBlock} {r : ℕ} {e : ℕ × (Item × ℕ)},
    e ∈ entries E l r → r < e.1 ∧ e.1 ≤ r + l.length
  | (pid, it, c) :: l, r, e, h => by
    rcases List.mem_cons.1 h with rfl | h
    · simp only [List.length_cons]
      omega
    · have := entries_bounds h
      simp only [List.length_cons]
      omega

theorem mem_enqueue {pid : ℕ} {it : Item} {c : Forest Item} {l : List ItemBlock} {r : ℕ}
    {p : Forest Item × ℕ} : p ∈ enqueue ((pid, it, c) :: l) r ↔
      it.isContainer = true ∧ p = (c, r + 1) ∨ p ∈ enqueue l (r + 1) := by
  rw [enqueue]
  by_cases hi : it.isContainer
  · simp [hi]
  · simp [hi]

/-- The ids of the containers among a list of items. -/
theorem enqueue_bounds : ∀ {l : List ItemBlock} {r : ℕ} {p : Forest Item × ℕ}, p ∈ enqueue l r →
    r < p.2 ∧ p.2 ≤ r + l.length
  | (pid, it, c) :: l, r, p, h => by
    rw [List.length_cons]
    rcases mem_enqueue.1 h with ⟨-, rfl⟩ | h
    · simp only
      omega
    · have := enqueue_bounds h
      omega

/-- Each of these ids is that of a container of the map. -/
theorem enqueue_entries : ∀ {l : List ItemBlock} {r : ℕ} {p : Forest Item × ℕ}, p ∈ enqueue l r →
    ∃ it pid, (p.2, (reload E it, pid)) ∈ entries E l r ∧ it.isContainer ∧ (pid, it, p.1) ∈ l
  | (pid, it, c) :: l, r, p, h => by
    rcases mem_enqueue.1 h with ⟨hi, rfl⟩ | h
    · exact ⟨it, pid, List.mem_cons_self, hi, List.mem_cons_self⟩
    · obtain ⟨it', pid', h1, h2, h3⟩ := enqueue_entries h
      exact ⟨it', pid', List.mem_cons_of_mem _ h1, h2, List.mem_cons_of_mem _ h3⟩

theorem enqueue_nodup : ∀ (l : List ItemBlock) (r : ℕ), ((enqueue l r).map Prod.snd).Nodup
  | [], _ => List.nodup_nil
  | (pid, it, c) :: l, r => by
    unfold enqueue
    split
    · refine List.nodup_cons.2 ⟨fun hc => ?_, enqueue_nodup l (r + 1)⟩
      obtain ⟨p, hp, hs⟩ := List.mem_map.1 hc
      have := (enqueue_bounds hp).1
      omega
    · exact enqueue_nodup l (r + 1)

theorem entries_sorted : ∀ (l : List ItemBlock) (r : ℕ), SortedMap.Sorted (entries E l r)
  | [], _ => List.Pairwise.nil
  | _ :: l, r => List.pairwise_cons.2 ⟨fun _ he => (entries_bounds he).1, entries_sorted l (r + 1)⟩

/-- The ids run up. -/
theorem queueEntries_sorted : ∀ (q : List (Forest Item × ℕ)) (r : ℕ), CreatableQueue E.items q →
    SortedMap.Sorted (queueEntries E q r) ∧ ∀ e ∈ queueEntries E q r, r < e.1 := by
  intro q r hq
  induction q, r using saveQueue.induct with
  | case1 r => simp [queueEntries, saveQueue, SortedMap.Sorted]
  | case2 f p q r ih =>
    have hf : Creatable E.items f := hq _ List.mem_cons_self
    obtain ⟨ih1, ih2⟩ := ih fun b hb => by
      rcases List.mem_append.1 hb with hb | hb
      · exact hq b (List.mem_cons_of_mem _ hb)
      · exact creatable_enqueue (creatable_children hf) b hb
    rw [queueEntries_cons hf]
    refine ⟨List.pairwise_append.2 ⟨entries_sorted _ _, ih1, fun a ha b hb => ?_⟩, fun e he => ?_⟩
    · have h1 := (entries_bounds ha).2
      have h2 := ih2 b hb
      rw [length_children] at h1
      omega
    · rcases List.mem_append.1 he with he | he
      · exact (entries_bounds he).1
      · have := ih2 e he
        omega

/-- All pairs of the map, in the order of their ids. -/
def allEntries (E : Env) (l : List ItemBlock) : ItemMap :=
  entries E l 100 ++ queueEntries E (enqueue l 100) (100 + l.length)

theorem allEntries_sorted {l : List ItemBlock} (h : CreatableBlocks E.items l) :
    SortedMap.Sorted (allEntries E l) := by
  obtain ⟨h1, h2⟩ := queueEntries_sorted (enqueue l 100) (100 + l.length) (creatable_enqueue h)
  refine List.pairwise_append.2 ⟨entries_sorted _ _, h1, fun a ha b hb => ?_⟩
  have := (entries_bounds ha).2
  have := h2 b hb
  omega

/-- **Row order does not matter.** The rows, read in any order, give the map
of all pairs. -/
theorem loadItems_saveItems {l : List ItemBlock} (h : CreatableBlocks E.items l) {rows : List Row}
    (hrows : rows.Perm (saveItems E.items l)) : loadItems E rows = allEntries E l := by
  refine SortedMap.ofList_eq (allEntries_sorted h) ?_
  have := hrows.filterMap (entry E)
  rwa [saveItems, List.filterMap_append, filterMap_emit h] at this

end Map

/-! ### Placing a list of items -/

section Place

variable {items : UInt16 → ItemType} {m : ItemMap} {h g : Heap}

/-- A container whose parent chain stops at once. -/
def Top (h : Heap) (c : Place) : Prop := ∀ sid, c = .item sid → h.parent sid = none

theorem updateItemWeight_top {n : ℕ} {c : Place} {d : UInt32} (hc : Top h c) :
    updateItemWeight (n + 1) h c d =
      { h with totalWeight := Function.update h.totalWeight c (h.totalWeight c + d) } := by
  cases c with
  | slot k => rfl
  | depot k => rfl
  | locker k => rfl
  | item sid =>
    have hp : h.parent sid = none := hc sid rfl
    simp only [updateItemWeight, hp]

/-- The summed weight of some items. -/
def Heap.weightOf (items : UInt16 → ItemType) (m : ItemMap) (h : Heap) (ids : List ℕ) : UInt32 :=
  ids.foldr (fun sid w => h.getWeight items m sid + w) 0

/-- The ids of the pairs that go to a container. -/
def idsAt (t : ℕ → Place) (c : Place) (es : ItemMap) : List ℕ :=
  (es.filter fun e => t e.2.2 = c).map Prod.fst

theorem idsAt_cons (t : ℕ → Place) (c : Place) (e : ℕ × (Item × ℕ)) (es : ItemMap) :
    idsAt t c (e :: es) = if t e.2.2 = c then e.1 :: idsAt t c es else idsAt t c es := by
  unfold idsAt
  by_cases h : t e.2.2 = c
  · simp [h]
  · simp [h]

/-- Pushing a list of pairs, from the last to the first, each to the front of
its container: the lists of the containers get the new ids in order, their
total weights the weights of the new items, and the new items their parents. -/
theorem foldr_place {F : ℕ × (Item × ℕ) → Heap → Heap} {t : ℕ → Place} : ∀ {es : ItemMap},
    (∀ e ∈ es, ∀ h, F e h = internalAddThing items m h (t e.2.2) e.1) →
    (es.map Prod.fst).Nodup → (∀ e ∈ es, ∀ e' ∈ es, t e.2.2 ≠ .item e'.1) →
    (∀ e ∈ es, Top g (t e.2.2)) →
    (∀ c, (es.foldr F g).itemlist c = idsAt t c es ++ g.itemlist c) ∧
    (∀ c, (es.foldr F g).totalWeight c =
      g.weightOf items m (idsAt t c es) + g.totalWeight c) ∧
    (∀ s, (es.foldr F g).parent s =
      match es.lookup s with | some v => some (t v.2) | none => g.parent s) ∧
    (es.foldr F g).inventory = g.inventory
  | [], _, _, _, _ => by simp [idsAt, Heap.weightOf]
  | e :: es, hF, hn, hne, ht => by
    simp only [List.map_cons, List.nodup_cons] at hn
    obtain ⟨i1, i2, i3, i4⟩ := foldr_place (fun e he => hF e (List.mem_cons_of_mem _ he))
      hn.2 (fun a ha b hb => hne a (List.mem_cons_of_mem _ ha) b (List.mem_cons_of_mem _ hb))
      fun a ha => ht a (List.mem_cons_of_mem _ ha)
    set h1 := es.foldr F g with hh1
    have hself := hne e List.mem_cons_self
    set h2 : Heap := { h1 with
      parent := Function.update h1.parent e.1 (some (t e.2.2))
      itemlist := Function.update h1.itemlist (t e.2.2) (e.1 :: h1.itemlist (t e.2.2)) } with hh2
    -- the container of `e` has no parent container yet
    have htop : Top h2 (t e.2.2) := fun sid hsid => by
      have hs : sid ≠ e.1 := fun hc => hself e List.mem_cons_self (by rw [hsid, hc])
      have hl : es.lookup sid = none := by
        rw [List.lookup_eq_none_iff]
        intro b hb
        rw [bne_iff_ne]
        exact fun hc => hself b (List.mem_cons_of_mem _ hb) (by rw [hsid, hc])
      simp only [hh2, Function.update_of_ne hs, i3, hl]
      exact ht e List.mem_cons_self sid hsid
    -- the weight of `e` has not changed
    have hw : h2.getWeight items m e.1 = g.getWeight items m e.1 := by
      have hl : idsAt t (.item e.1) es = [] := by
        unfold idsAt
        rw [List.map_eq_nil_iff, List.filter_eq_nil_iff]
        intro a ha
        simpa using hne a (List.mem_cons_of_mem _ ha) e List.mem_cons_self
      unfold Heap.getWeight
      rw [hh2, i2, hl]
      simp [Heap.weightOf]
    have hstep : (e :: es).foldr F g = { h2 with
        totalWeight := Function.update h1.totalWeight (t e.2.2)
          (h1.totalWeight (t e.2.2) + g.getWeight items m e.1) } := by
      rw [List.foldr_cons, ← hh1, hF e List.mem_cons_self, internalAddThing]
      exact (updateItemWeight_top htop).trans (by rw [hw])
    rw [hstep, hh2]
    refine ⟨fun c => ?_, fun c => ?_, fun s => ?_, i4⟩
    · by_cases hc : c = t e.2.2
      · subst hc
        rw [idsAt_cons, if_pos rfl]
        simp only [Function.update_self, i1, List.cons_append]
      · rw [idsAt_cons, if_neg (Ne.symm hc)]
        simp only [Function.update_of_ne hc, i1]
    · by_cases hc : c = t e.2.2
      · subst hc
        rw [idsAt_cons, if_pos rfl]
        simp only [Function.update_self, i2, Heap.weightOf, List.foldr_cons]
        rw [UInt32.add_comm, UInt32.add_assoc]
      · rw [idsAt_cons, if_neg (Ne.symm hc)]
        simp only [Function.update_of_ne hc, i2]
    · obtain ⟨sid, v⟩ := e
      by_cases hs : s = sid
      · simp [hs]
      · have hb : (s == sid) = false := by simpa using hs
        simp only [Function.update_of_ne hs, i3, List.lookup_cons, hb]

end Place

/-! ### The containers after the loop -/

/-- What a place shows of its items, from the first on. -/
def Heap.contents (h : Heap) : Place → List ℕ
  | .slot n => (h.inventory n).toList
  | c => h.itemlist c

/-- The ids `ids` are those of items that `R` relates to the roots of the
forest, in order and with `c` as their parent; what each of them has in its
list is what the root holds, and its total weight is the sum of the weights of
the items there. -/
def Holds (R : Item → Item → Prop) (items : UInt16 → ItemType) (m : ItemMap) (h : Heap)
    (c : Place) : List ℕ → Forest Item → Prop
  | ids, .nil => ids = []
  | ids, .cons it content rest => ∃ sid ids', ids = sid :: ids' ∧
      (∃ r pid, m.lookup sid = some (r, pid) ∧ R it r) ∧ h.parent sid = some c ∧
      Holds R items m h (.item sid) (h.itemlist (.item sid)) content ∧
      h.totalWeight (.item sid) = h.weightOf items m (h.itemlist (.item sid)) ∧
      Holds R items m h c ids' rest

/-- The items held are the reloaded ones. -/
abbrev HoldsReload (E : Env) := Holds (fun it r => r = reload E it) E.items

/-- The container of a row id holds the forest. -/
def Full (E : Env) (m : ItemMap) (h : Heap) (sid : ℕ) (f : Forest Item) : Prop :=
  HoldsReload E m h (.item sid) (h.itemlist (.item sid)) f ∧
    h.totalWeight (.item sid) = h.weightOf E.items m (h.itemlist (.item sid))

/-- The roots of a list of items that go to one place. -/
def rootsAt (t : ℕ → Place) (c : Place) : List ItemBlock → Forest Item
  | [] => .nil
  | (pid, it, content) :: l =>
    if t pid = c then .cons it content (rootsAt t c l) else rootsAt t c l

section Holds

variable {E : Env} {m : ItemMap} {h h1 : Heap}

/-- Two heaps are the same above a row id. -/
def AgreeAbove (r : ℕ) (h1 h : Heap) : Prop :=
  ∀ s, r < s → h.itemlist (.item s) = h1.itemlist (.item s) ∧
    h.totalWeight (.item s) = h1.totalWeight (.item s) ∧ h.parent s = h1.parent s

theorem getWeight_congr {items : UInt16 → ItemType} {s : ℕ}
    (hs : h.totalWeight (.item s) = h1.totalWeight (.item s)) :
    h.getWeight items m s = h1.getWeight items m s := by
  unfold Heap.getWeight
  rw [hs]

theorem weightOf_congr {items : UInt16 → ItemType} {ids : List ℕ}
    (hs : ∀ s ∈ ids, h.totalWeight (.item s) = h1.totalWeight (.item s)) :
    h.weightOf items m ids = h1.weightOf items m ids := by
  unfold Heap.weightOf
  induction ids with
  | nil => rfl
  | cons s ids ih =>
    rw [List.foldr_cons, List.foldr_cons, getWeight_congr (hs s List.mem_cons_self),
      ih fun x hx => hs x (List.mem_cons_of_mem _ hx)]

/-- **Frame.** A forest whose ids lie above `r` is still held after a change
below `r`. -/
theorem Holds.frame {R : Item → Item → Prop} {items : UInt16 → ItemType} {r : ℕ} (hl : ∀ s, ∀ x ∈ h1.itemlist (.item s), r < x)
    (ha : AgreeAbove r h1 h) : ∀ {f : Forest Item} {c : Place} {ids : List ℕ},
    (∀ x ∈ ids, r < x) → Holds R items m h1 c ids f → Holds R items m h c ids f
  | .nil, _, _, _, hh => hh
  | .cons it content rest, c, ids, hr, ⟨sid, ids', hids, hlook, hp, hc, hw, hrest⟩ => by
    subst hids
    obtain ⟨a1, a2, a3⟩ := ha sid (hr sid List.mem_cons_self)
    refine ⟨sid, ids', rfl, hlook, a3.trans hp, ?_, ?_,
      Holds.frame hl ha (fun x hx => hr x (List.mem_cons_of_mem _ hx)) hrest⟩
    · rw [a1]
      exact Holds.frame hl ha (hl sid) hc
    · rw [a1, a2, hw]
      exact (weightOf_congr fun s hs => (ha s (hl sid s hs)).2.1).symm

theorem Full.frame {r s : ℕ} {f : Forest Item} (hl : ∀ s, ∀ x ∈ h1.itemlist (.item s), r < x)
    (ha : AgreeAbove r h1 h) (hi : h.itemlist (.item s) = h1.itemlist (.item s))
    (hw : h.totalWeight (.item s) = h1.totalWeight (.item s)) (hf : Full E m h1 s f) :
    Full E m h s f := by
  refine ⟨?_, ?_⟩
  · rw [hi]
    exact hf.1.frame hl ha (hl s)
  · rw [hi, hw, hf.2]
    exact (weightOf_congr fun x hx => (ha x (hl s x hx)).2.1).symm

/-- A numbered list of items, each with its parent and its content in place. -/
theorem holds_entries {t : ℕ → Place} {c : Place} : ∀ {l : List ItemBlock} {r : ℕ},
    CreatableBlocks E.items l → (∀ e ∈ entries E l r, m.lookup e.1 = some e.2) →
    (∀ e ∈ entries E l r, h.parent e.1 = some (t e.2.2)) →
    (∀ p ∈ enqueue l r, Full E m h p.2 p.1) →
    (∀ e ∈ entries E l r, e.1 ∉ (enqueue l r).map Prod.snd → Full E m h e.1 .nil) →
    HoldsReload E m h c (idsAt t c (entries E l r)) (rootsAt t c l)
  | [], _, _, _, _, _, _ => rfl
  | (pid, it, content) :: l, r, hc, hm, hp, hq, hn => by
    have hsub : ∀ p ∈ enqueue l (r + 1), p ∈ enqueue ((pid, it, content) :: l) r :=
      fun p hp => mem_enqueue.2 (.inr hp)
    have hids : ∀ s, r + 1 < s → s ∈ (enqueue ((pid, it, content) :: l) r).map Prod.snd →
        s ∈ (enqueue l (r + 1)).map Prod.snd := by
      intro s hs hmem
      obtain ⟨p, hp, rfl⟩ := List.mem_map.1 hmem
      rcases mem_enqueue.1 hp with ⟨-, rfl⟩ | hp
      · exact absurd hs (lt_irrefl _)
      · exact List.mem_map_of_mem hp
    have ih := holds_entries (t := t) (c := c) (l := l) (r := r + 1)
      (fun b hb => hc b (List.mem_cons_of_mem _ hb)) (fun e he => hm e (List.mem_cons_of_mem _ he))
      (fun e he => hp e (List.mem_cons_of_mem _ he)) (fun p hp => hq p (hsub p hp)) fun e he hne =>
        hn e (List.mem_cons_of_mem _ he) fun hmem => hne (hids _ (entries_bounds he).1 hmem)
    -- the content of the first item: on the queue if it is a container, empty otherwise
    have hfull : Full E m h (r + 1) content := by
      obtain ⟨-, -, hcont⟩ := (hc _ List.mem_cons_self).1
      by_cases hi : it.isContainer
      · exact hq (content, r + 1) (mem_enqueue.2 (.inl ⟨hi, rfl⟩))
      · have hnil : content = .nil := hcont.resolve_left hi
        rw [hnil]
        refine hn (r + 1, _) List.mem_cons_self fun hmem => ?_
        rw [enqueue, if_neg hi] at hmem
        obtain ⟨p, hp, hs⟩ := List.mem_map.1 hmem
        have := (enqueue_bounds hp).1
        omega
    have hlook := hm _ List.mem_cons_self
    have hpar := hp _ List.mem_cons_self
    unfold rootsAt idsAt entries
    by_cases ht : t pid = c
    · rw [if_pos ht, List.filter_cons_of_pos (by simpa using ht), List.map_cons]
      exact ⟨r + 1, _, rfl, ⟨_, pid, hlook, rfl⟩, by rw [hpar, ht], hfull.1, hfull.2, ih⟩
    · rw [if_neg ht, List.filter_cons_of_neg (by simpa using ht)]
      exact ih

/-- A queue whose ids are those of containers of the map, below `r`. -/
structure Queued (E : Env) (m : ItemMap) (q : List (Forest Item × ℕ)) (r : ℕ) : Prop where
  creatable : CreatableQueue E.items q
  nodup : (q.map Prod.snd).Nodup
  bounds : ∀ p ∈ q, 100 < p.2 ∧ p.2 ≤ r
  isContainer : ∀ p ∈ q, ∃ c pid, m.lookup p.2 = some (c, pid) ∧ c.isContainer

/-- The heap when the loop has come down to `r`: the containers of the queue
are full, and nothing else at or below `r` has been touched. -/
structure Loaded (E : Env) (m : ItemMap) (q : List (Forest Item × ℕ)) (r : ℕ) (h : Heap) : Prop where
  full : ∀ p ∈ q, Full E m h p.2 p.1
  empty : ∀ s, s ≤ r → s ∉ q.map Prod.snd →
    h.itemlist (.item s) = [] ∧ h.totalWeight (.item s) = 0
  orphan : ∀ s, s ≤ r → h.parent s = none
  above : ∀ s, ∀ x ∈ h.itemlist (.item s), r < x
  inventory : ∀ n, h.inventory n = none
  outer : ∀ c, (∀ s, c ≠ .item s) → h.itemlist c = [] ∧ h.totalWeight c = 0

theorem Loaded.full_nil {q : List (Forest Item × ℕ)} {r s : ℕ} (hl : Loaded E m q r h) (hs : s ≤ r)
    (hq : s ∉ q.map Prod.snd) : Full E m h s .nil := by
  obtain ⟨h1, h2⟩ := hl.empty s hs hq
  refine ⟨h1, ?_⟩
  rw [h2, h1]
  rfl

theorem entries_children {f : Forest Item} {p r : ℕ} {e : ℕ × (Item × ℕ)}
    (he : e ∈ entries E (children p f) r) : e.2.2 = p := by
  induction f generalizing r with
  | nil => simp [children, entries] at he
  | cons it c s _ ih =>
    rcases List.mem_cons.1 he with rfl | he
    · rfl
    · exact ih he

theorem rootsAt_children (p : ℕ) : ∀ f : Forest Item,
    rootsAt Place.item (.item p) (children p f) = f
  | .nil => rfl
  | .cons it c s => by
    unfold children rootsAt
    rw [if_pos rfl, rootsAt_children p s]

theorem idsAt_eq_nil {t : ℕ → Place} {c : Place} {es : ItemMap}
    (hne : ∀ e ∈ es, t e.2.2 ≠ c) : idsAt t c es = [] := by
  unfold idsAt
  rw [List.map_eq_nil_iff, List.filter_eq_nil_iff]
  intro e he
  simpa using hne e he

theorem mem_idsAt {t : ℕ → Place} {c : Place} {es : ItemMap} {x : ℕ} (hx : x ∈ idsAt t c es) :
    ∃ e ∈ es, e.1 = x := by
  obtain ⟨e, he, rfl⟩ := List.mem_map.1 hx
  exact ⟨e, List.mem_of_mem_filter he, rfl⟩

/-- The items of a numbered list keep what they hold when the list is put in
its place. -/
theorem Loaded.holds {q : List (Forest Item × ℕ)} {l : List ItemBlock} {r : ℕ} {t : ℕ → Place}
    (hl : Loaded E m (q ++ enqueue l r) (r + l.length) h1) (hq : ∀ p ∈ q, p.2 ≤ r)
    (hc : CreatableBlocks E.items l) (hm : ∀ e ∈ entries E l r, m.lookup e.1 = some e.2)
    (hp : ∀ e ∈ entries E l r, h.parent e.1 = some (t e.2.2))
    (ha : AgreeAbove (r + l.length) h1 h)
    (hi : ∀ s, r < s → h.itemlist (.item s) = h1.itemlist (.item s) ∧
      h.totalWeight (.item s) = h1.totalWeight (.item s)) (c : Place) :
    HoldsReload E m h c (idsAt t c (entries E l r)) (rootsAt t c l) := by
  refine holds_entries hc hm hp (fun p hmem => ?_) fun e he hne => ?_
  · obtain ⟨i1, i2⟩ := hi p.2 (enqueue_bounds hmem).1
    exact (hl.full p (List.mem_append_right _ hmem)).frame hl.above ha i1 i2
  · obtain ⟨b1, b2⟩ := entries_bounds he
    obtain ⟨i1, i2⟩ := hi e.1 b1
    refine (hl.full_nil b2 fun hmem => ?_).frame hl.above ha i1 i2
    rw [List.map_append, List.mem_append] at hmem
    rcases hmem with hmem | hmem
    · obtain ⟨p, hp, hs⟩ := List.mem_map.1 hmem
      have := hq p hp
      omega
    · exact hne hmem

/-- One container of the queue. -/
theorem loaded_step {T : Table} {f : Forest Item} {p r : ℕ} {q : List (Forest Item × ℕ)}
    (hq : Queued E m ((f, p) :: q) r)
    (hm : ∀ e ∈ entries E (children p f) r, m.lookup e.1 = some e.2)
    (hl : Loaded E m (q ++ enqueue (children p f) r) (r + f.length) h1) :
    Loaded E m ((f, p) :: q) r
      ((entries E (children p f) r).foldr (fun e h => place T E.items m h e) h1) := by
  obtain ⟨hp100, hpr⟩ := hq.bounds _ List.mem_cons_self
  obtain ⟨ct, pid, hlook, hcont⟩ := hq.isContainer _ List.mem_cons_self
  have hf : Creatable E.items f := hq.creatable _ List.mem_cons_self
  have hsorted := entries_sorted (E := E) (children p f) r
  have hids : ∀ e ∈ entries E (children p f) r, r < e.1 ∧ e.1 ≤ r + f.length := fun e he => by
    have := entries_bounds he
    rwa [length_children] at this
  -- every pair goes to the container `p`
  have hF : ∀ e ∈ entries E (children p f) r, ∀ h,
      place T E.items m h e = internalAddThing E.items m h (.item e.2.2) e.1 := by
    intro e he h
    have hroot : T.isRoot p = false := by
      cases T with
      | items => simp only [Table.isRoot, Bool.and_eq_false_iff, decide_eq_false_iff_not]; omega
      | depotItems => simp only [Table.isRoot, decide_eq_false_iff_not]; omega
      | inboxItems => simp only [Table.isRoot, decide_eq_false_iff_not]; omega
    unfold place
    rw [entries_children he, hroot, hlook]
    simp only [Bool.false_eq_true, ↓reduceIte, hcont]
  have hne : ∀ e ∈ entries E (children p f) r, ∀ e' ∈ entries E (children p f) r,
      Place.item e.2.2 ≠ .item e'.1 := by
    intro e he e' he' heq
    have := hids e' he'
    rw [entries_children he, Place.item.injEq] at heq
    omega
  have htop : ∀ e ∈ entries E (children p f) r, Top h1 (.item e.2.2) := by
    intro e he sid hsid
    rw [entries_children he, Place.item.injEq] at hsid
    exact hl.orphan sid (by omega)
  obtain ⟨k1, k2, k3, k4⟩ := foldr_place (t := Place.item) hF hsorted.nodup_keys hne htop
  set h := (entries E (children p f) r).foldr (fun e h => place T E.items m h e) h1 with hh
  have hother : ∀ c, c ≠ .item p → idsAt Place.item c (entries E (children p f) r) = [] :=
    fun c hc => idsAt_eq_nil fun e he heq => hc (by rw [← heq, entries_children he])
  have hsame : ∀ c, c ≠ .item p → h.itemlist c = h1.itemlist c ∧ h.totalWeight c = h1.totalWeight c := by
    intro c hc
    rw [k1, k2, hother c hc]
    exact ⟨rfl, UInt32.zero_add _⟩
  have hitem : ∀ s, s ≠ p → h.itemlist (.item s) = h1.itemlist (.item s) ∧
      h.totalWeight (.item s) = h1.totalWeight (.item s) :=
    fun s hs => hsame _ fun heq => hs (Place.item.inj heq)
  have hpar : ∀ e ∈ entries E (children p f) r, h.parent e.1 = some (.item e.2.2) := by
    intro e he
    rw [k3, SortedMap.lookup_eq hsorted he]
  have hold : ∀ s, (∀ e ∈ entries E (children p f) r, e.1 ≠ s) → h.parent s = h1.parent s := by
    intro s hs
    rw [k3, SortedMap.lookup_eq_none hs]
  have hagree : AgreeAbove (r + f.length) h1 h := fun s hs => by
    obtain ⟨i1, i2⟩ := hitem s (by omega)
    refine ⟨i1, i2, hold s fun e he => ?_⟩
    have := hids e he
    omega
  have hqb : ∀ b ∈ q, b.2 ≤ r := fun b hb => (hq.bounds b (List.mem_cons_of_mem _ hb)).2
  have hnodup := List.nodup_cons.1 hq.nodup
  have hnew : ∀ s, s ≤ r → s ∉ q.map Prod.snd →
      s ∉ (q ++ enqueue (children p f) r).map Prod.snd := by
    intro s hs hsq hmem
    rw [List.map_append, List.mem_append] at hmem
    refine hmem.elim hsq fun hmem => ?_
    obtain ⟨b, hb, rfl⟩ := List.mem_map.1 hmem
    have := (enqueue_bounds hb).1
    omega
  obtain ⟨he1, he2⟩ := hl.empty p (by omega) (hnew p hpr hnodup.1)
  have hlist : h.itemlist (.item p) = idsAt Place.item (.item p) (entries E (children p f) r) := by
    rw [k1, he1, List.append_nil]
  have hholds := Loaded.holds (h := h) (l := children p f) (by rwa [length_children]) hqb
    (creatable_children hf) hm hpar (by rwa [length_children])
    (fun s hs => hitem s (by omega)) (.item p)
  rw [rootsAt_children, ← hlist] at hholds
  refine ⟨fun b hb => ?_, fun s hs hsq => ?_, fun s hs => ?_, fun s x hx => ?_, fun n => ?_,
    fun c hc => ?_⟩
  · rcases List.mem_cons.1 hb with rfl | hb
    · refine ⟨hholds, ?_⟩
      rw [k2, he2, UInt32.add_zero, ← hlist]
      refine (weightOf_congr fun s hs => (hitem s fun hsp => ?_).2).symm
      rw [hlist] at hs
      obtain ⟨e, he, hes⟩ := mem_idsAt hs
      have := hids e he
      omega
    · obtain ⟨i1, i2⟩ := hitem b.2 fun heq => hnodup.1 (List.mem_map.2 ⟨b, hb, heq⟩)
      exact (hl.full b (List.mem_append_left _ hb)).frame hl.above hagree i1 i2
  · simp only [List.map_cons, List.mem_cons, not_or] at hsq
    obtain ⟨i1, i2⟩ := hitem s hsq.1
    rw [i1, i2]
    exact hl.empty s (by omega) (hnew s hs hsq.2)
  · rw [hold s fun e he => by have := hids e he; omega]
    exact hl.orphan s (by omega)
  · by_cases hsp : s = p
    · subst hsp
      rw [hlist] at hx
      obtain ⟨e, he, rfl⟩ := mem_idsAt hx
      exact (hids e he).1
    · rw [(hitem s hsp).1] at hx
      have := hl.above s x hx
      omega
  · rw [k4]
    exact hl.inventory n
  · obtain ⟨i1, i2⟩ := hsame c (hc p)
    rw [i1, i2]
    exact hl.outer c hc

/-- The queue after one of its containers. -/
theorem Queued.step {f : Forest Item} {p r : ℕ} {q : List (Forest Item × ℕ)}
    (hq : Queued E m ((f, p) :: q) r)
    (hm : ∀ e ∈ entries E (children p f) r, m.lookup e.1 = some e.2) :
    Queued E m (q ++ enqueue (children p f) r) (r + f.length) := by
  have hf : Creatable E.items f := hq.creatable _ List.mem_cons_self
  obtain ⟨hp100, hpr⟩ := hq.bounds _ List.mem_cons_self
  refine ⟨fun b hb => ?_, ?_, fun b hb => ?_, fun b hb => ?_⟩
  · rcases List.mem_append.1 hb with hb | hb
    · exact hq.creatable b (List.mem_cons_of_mem _ hb)
    · exact creatable_enqueue (creatable_children hf) b hb
  · rw [List.map_append]
    refine (List.nodup_cons.1 hq.nodup).2.append (enqueue_nodup _ _) ?_
    intro s hs hs'
    obtain ⟨b, hb, rfl⟩ := List.mem_map.1 hs
    obtain ⟨b', hb', hbb⟩ := List.mem_map.1 hs'
    have := (hq.bounds b (List.mem_cons_of_mem _ hb)).2
    have := (enqueue_bounds hb').1
    omega
  · rcases List.mem_append.1 hb with hb | hb
    · have := hq.bounds b (List.mem_cons_of_mem _ hb)
      omega
    · have := enqueue_bounds hb
      rw [length_children] at this
      omega
  · rcases List.mem_append.1 hb with hb | hb
    · exact hq.isContainer b (List.mem_cons_of_mem _ hb)
    · obtain ⟨it, pid, h1, h2, h3⟩ := enqueue_entries (E := E) hb
      refine ⟨_, _, hm _ h1, ?_⟩
      rw [reload_isContainer (creatable_children hf _ h3).1.1 (creatable_children hf _ h3).1.2.1]
      exact h2

/-- **The breadth-first queue.** Down to `r`, the loop fills every container of
the queue. -/
theorem loaded_queue {T : Table} (q : List (Forest Item × ℕ)) (r : ℕ) (hq : Queued E m q r)
    (hm : ∀ e ∈ queueEntries E q r, m.lookup e.1 = some e.2) :
    Loaded E m q r ((queueEntries E q r).foldr (fun e h => place T E.items m h e) .empty) := by
  induction q, r using saveQueue.induct with
  | case1 r =>
    have hnil : queueEntries E [] r = [] := by simp [queueEntries, saveQueue]
    rw [hnil]
    exact ⟨by simp, fun _ _ _ => ⟨rfl, rfl⟩, fun _ _ => rfl, by simp [Heap.empty], fun _ => rfl,
      fun _ _ => ⟨rfl, rfl⟩⟩
  | case2 f p q r ih =>
    have hf : Creatable E.items f := hq.creatable _ List.mem_cons_self
    rw [queueEntries_cons hf] at hm ⊢
    have hm1 := fun e he => hm e (List.mem_append_left _ he)
    rw [List.foldr_append]
    exact loaded_step hq hm1 (ih (hq.step hm1) fun e he => hm e (List.mem_append_right _ he))

/-- The slots of the inventory, filled from a list of pairs with distinct slots. -/
theorem foldr_slots {F : ℕ × (Item × ℕ) → Heap → Heap} : ∀ {es : ItemMap},
    (∀ e ∈ es, ∀ h, F e h = playerInternalAddThing h e.2.2 e.1) →
    (∀ e ∈ es, 0 < e.2.2 ∧ e.2.2 < 11) → (es.map fun e => e.2.2).Nodup →
    (∀ n, h1.inventory n = none) →
    (∀ n, (es.foldr F h1).contents (.slot n) = idsAt Place.slot (.slot n) es) ∧
    (∀ s, (es.foldr F h1).parent s =
      match es.lookup s with | some v => some (.slot v.2) | none => h1.parent s) ∧
    (es.foldr F h1).itemlist = h1.itemlist ∧ (es.foldr F h1).totalWeight = h1.totalWeight
  | [], _, _, _, g => ⟨fun n => by simp [Heap.contents, g n, idsAt], fun _ => rfl, rfl, rfl⟩
  | (sid, it, pid) :: es, hF, hb, hn, g => by
    simp only [List.map_cons, List.nodup_cons] at hn
    obtain ⟨i1, i2, i3, i4⟩ := foldr_slots (fun e he => hF e (List.mem_cons_of_mem _ he))
      (fun e he => hb e (List.mem_cons_of_mem _ he)) hn.2 g
    set h2 := es.foldr F h1 with hh2
    have hempty : idsAt Place.slot (.slot pid) es = [] := idsAt_eq_nil fun e he heq =>
      hn.1 (List.mem_map.2 ⟨e, he, Place.slot.inj heq⟩)
    have hfree : h2.inventory pid = none := by
      have := i1 pid
      rw [hempty] at this
      simpa [Heap.contents] using this
    have hstep : F (sid, it, pid) h2 = { h2 with
        inventory := Function.update h2.inventory pid (some sid)
        parent := Function.update h2.parent sid (some (.slot pid)) } := by
      rw [hF _ List.mem_cons_self, playerInternalAddThing, if_pos (hb _ List.mem_cons_self), hfree]
      rfl
    rw [List.foldr_cons, ← hh2, hstep]
    refine ⟨fun n => ?_, fun s => ?_, i3, i4⟩
    · by_cases hpid : n = pid
      · subst hpid
        rw [idsAt_cons, if_pos rfl, hempty]
        simp only [Heap.contents, Function.update_self, Option.toList_some]
      · rw [idsAt_cons, if_neg fun h => hpid (Place.slot.inj h).symm, ← i1 n]
        simp only [Heap.contents, Function.update_of_ne hpid]
    · by_cases hs : s = sid
      · simp [hs]
      · have hbeq : (s == sid) = false := by simpa using hs
        simp only [Function.update_of_ne hs, i2, List.lookup_cons, hbeq]

end Holds

/-! ### The round trip -/

/-- Root ids as `saveItems` is given them: distinct slots, or depot ids. -/
def Roots (T : Table) (l : List ItemBlock) : Prop :=
  (∀ b ∈ l, T.isRoot b.1) ∧ (T = .items → (l.map Prod.fst).Nodup)

theorem entries_pids {E : Env} : ∀ (l : List ItemBlock) (r : ℕ),
    (entries E l r).map (fun e => e.2.2) = l.map Prod.fst
  | [], _ => rfl
  | (pid, _, _) :: l, r => by simp only [entries, List.map_cons, entries_pids l (r + 1)]

theorem queued_roots {E : Env} {m : ItemMap} {l : List ItemBlock} (hc : CreatableBlocks E.items l)
    (hm : ∀ e ∈ entries E l 100, m.lookup e.1 = some e.2) :
    Queued E m (enqueue l 100) (100 + l.length) := by
  refine ⟨creatable_enqueue hc, enqueue_nodup _ _, fun b hb => enqueue_bounds hb, fun b hb => ?_⟩
  obtain ⟨it, pid, h1, h2, h3⟩ := enqueue_entries (E := E) hb
  refine ⟨_, _, hm _ h1, ?_⟩
  rw [reload_isContainer (hc _ h3).1.1 (hc _ h3).1.2.1]
  exact h2

/-- The loop when only the roots are left: the containers among them are full. -/
theorem load_eq {E : Env} {T : Table} {l : List ItemBlock} {rows : List Row}
    (hc : CreatableBlocks E.items l) (hrows : rows.Perm (saveItems E.items l)) :
    ∃ h1, Loaded E (loadItems E rows) (enqueue l 100) (100 + l.length) h1 ∧
      (∀ e ∈ entries E l 100, (loadItems E rows).lookup e.1 = some e.2) ∧
      load T E rows = (entries E l 100).foldr
        (fun e h => place T E.items (loadItems E rows) h e) h1 := by
  unfold load
  rw [loadItems_saveItems hc hrows, List.foldl_reverse]
  have hsorted := allEntries_sorted hc
  have hm : ∀ e ∈ allEntries E l, (allEntries E l).lookup e.1 = some e.2 :=
    fun e he => SortedMap.lookup_eq hsorted he
  have hm1 : ∀ e ∈ entries E l 100, (allEntries E l).lookup e.1 = some e.2 := fun e he =>
    hm e (List.mem_append_left _ he)
  refine ⟨_, loaded_queue (T := T) _ _ (queued_roots hc hm1) fun e he =>
    hm e (List.mem_append_right _ he), hm1, ?_⟩
  rw [← List.foldr_append]
  rfl

theorem entries_isRoot {E : Env} {T : Table} {l : List ItemBlock} (hr : Roots T l) {r : ℕ}
    {e : ℕ × (Item × ℕ)} (he : e ∈ entries E l r) : T.isRoot e.2.2 := by
  have hmem : e.2.2 ∈ l.map Prod.fst := by
    rw [← entries_pids (E := E) l r]
    exact List.mem_map_of_mem he
  obtain ⟨b, hb, hbe⟩ := List.mem_map.1 hmem
  rw [← hbe]
  exact hr.1 b hb

section Load

variable {E : Env} {l : List ItemBlock} {rows : List Row}

/-- The slots of the player. -/
theorem holds_slots (hc : CreatableBlocks E.items l) (hr : Roots .items l)
    (hrows : rows.Perm (saveItems E.items l)) (n : ℕ) :
    HoldsReload E (loadItems E rows) (load .items E rows) (.slot n)
      ((load .items E rows).contents (.slot n)) (rootsAt Place.slot (.slot n) l) := by
  obtain ⟨h1, hl, hm, hload⟩ := load_eq (T := .items) hc hrows
  have hsorted := entries_sorted (E := E) l 100
  have hslot : ∀ e ∈ entries E l 100, 0 < e.2.2 ∧ e.2.2 < 11 := by
    intro e he
    have := entries_isRoot hr he
    simp only [Table.isRoot, Bool.and_eq_true, decide_eq_true_eq] at this
    omega
  obtain ⟨k1, k2, k3, k4⟩ := foldr_slots
    (F := fun e h => place .items E.items (loadItems E rows) h e)
    (fun e he h => by rw [place, if_pos (entries_isRoot hr he)]) hslot
    (by rw [entries_pids]; exact hr.2 rfl) hl.inventory
  rw [hload, k1]
  refine Loaded.holds (q := []) hl (by simp) hc hm (fun e he => ?_) (fun s hs => ?_)
    (fun s _ => ?_) _
  · rw [k2, SortedMap.lookup_eq hsorted he]
  · refine ⟨by rw [k3], by rw [k4], ?_⟩
    rw [k2, SortedMap.lookup_eq_none fun e he => ?_]
    have := (entries_bounds he).2
    omega
  · exact ⟨by rw [k3], by rw [k4]⟩

/-- The depot chests and lockers of the player: what they hold, and its weight. -/
theorem holds_depots {T : Table} (hT : T ≠ .items) (hc : CreatableBlocks E.items l)
    (hr : Roots T l) (hrows : rows.Perm (saveItems E.items l)) (d : ℕ) :
    HoldsReload E (loadItems E rows) (load T E rows) (T.root d)
      ((load T E rows).contents (T.root d)) (rootsAt T.root (T.root d) l) ∧
    (load T E rows).totalWeight (T.root d) =
      (load T E rows).weightOf E.items (loadItems E rows) ((load T E rows).itemlist (T.root d)) := by
  obtain ⟨h1, hl, hm, hload⟩ := load_eq (T := T) hc hrows
  have hsorted := entries_sorted (E := E) l 100
  have hne : ∀ k s, T.root k ≠ .item s := by
    intro k s
    cases T <;> exact fun h => Place.noConfusion h
  have hcontents : ∀ h : Heap, h.contents (T.root d) = h.itemlist (T.root d) := by
    intro h
    cases T with
    | items => exact absurd rfl hT
    | depotItems => rfl
    | inboxItems => rfl
  have hplace : ∀ e ∈ entries E l 100, ∀ h, place T E.items (loadItems E rows) h e =
      internalAddThing E.items (loadItems E rows) h (T.root e.2.2) e.1 := by
    intro e he h
    cases T with
    | items => exact absurd rfl hT
    | depotItems => rw [place, if_pos (entries_isRoot hr he)]; rfl
    | inboxItems => rw [place, if_pos (entries_isRoot hr he)]; rfl
  obtain ⟨k1, k2, k3, k4⟩ := foldr_place (t := T.root) (g := h1)
    (F := fun e h => place T E.items (loadItems E rows) h e) hplace hsorted.nodup_keys
    (fun e _ e' _ => hne _ _) fun e _ sid h => absurd h (hne _ _)
  rw [hload, hcontents, k2, k1, (hl.outer _ (hne d)).1, (hl.outer _ (hne d)).2, List.append_nil]
  set h := (entries E l 100).foldr (fun e h => place T E.items (loadItems E rows) h e) h1
  have hitem : ∀ s, h.itemlist (.item s) = h1.itemlist (.item s) ∧
      h.totalWeight (.item s) = h1.totalWeight (.item s) := by
    intro s
    have hnil : idsAt T.root (.item s) (entries E l 100) = [] :=
      idsAt_eq_nil fun _ _ h => hne _ _ h
    rw [k1, k2, hnil]
    exact ⟨rfl, UInt32.zero_add _⟩
  refine ⟨?_, ?_⟩
  · refine Loaded.holds (q := []) hl (by simp) hc hm (fun e he => ?_) (fun s hs => ?_)
      (fun s _ => hitem s) _
    · rw [k3, SortedMap.lookup_eq hsorted he]
    · refine ⟨(hitem s).1, (hitem s).2, ?_⟩
      rw [k3, SortedMap.lookup_eq_none fun e he => ?_]
      have := (entries_bounds he).2
      omega
  · rw [UInt32.add_zero]
    exact (weightOf_congr fun s _ => (hitem s).2).symm

end Load

/-- No item of a list or in its containers is of a type whose id is rewritten. -/
def BuildableBlocks (items : UInt16 → ItemType) (l : List ItemBlock) : Prop :=
  ∀ b ∈ l, Forest.All (fun it _ => Buildable items it.id) (.cons b.2.1 b.2.2 .nil)

theorem rootsAt_all {P : Item → Forest Item → Prop} (t : ℕ → Place) (c : Place) :
    ∀ {l : List ItemBlock}, (∀ b ∈ l, Forest.All P (.cons b.2.1 b.2.2 .nil)) →
    (rootsAt t c l).All P
  | [], _ => trivial
  | (pid, it, content) :: l, h => by
    have hb := h _ List.mem_cons_self
    have ih := rootsAt_all t c fun b hb => h b (List.mem_cons_of_mem _ hb)
    unfold rootsAt
    split
    · exact ⟨hb.1, hb.2.1, ih⟩
    · exact ih

theorem Holds.mono {R S : Item → Item → Prop} {items : UInt16 → ItemType} {m : ItemMap} {h : Heap}
    {P : Item → Forest Item → Prop} (hRS : ∀ it r f, P it f → R it r → S it r) :
    ∀ {f : Forest Item} {c : Place} {ids : List ℕ}, f.All P → Holds R items m h c ids f →
      Holds S items m h c ids f
  | .nil, _, _, _, hh => hh
  | .cons _ _ _, _, _, ⟨h1, h2, h3⟩, ⟨sid, ids', hids, ⟨r, pid, hr, hR⟩, hp, hc, hw, hrest⟩ =>
    ⟨sid, ids', hids, ⟨r, pid, hr, hRS _ _ _ h1 hR⟩, hp, hc.mono hRS h2, hw, hrest.mono hRS h3⟩

/-- The rows of a list of items, read in any order, give back at every slot,
depot or locker the roots saved under its id, with everything they hold; what a
depot or locker has from the rows weighs what its items weigh. -/
theorem load_saveItems {E : Env} {T : Table} {l : List ItemBlock} {rows : List Row}
    (hc : CreatableBlocks E.items l) (hb : BuildableBlocks E.items l) (hr : Roots T l)
    (hrows : rows.Perm (saveItems E.items l)) (n : ℕ) :
    Holds (Reloaded E.items) E.items (loadItems E rows) (load T E rows) (T.root n)
      ((load T E rows).contents (T.root n)) (rootsAt T.root (T.root n) l) ∧
    (T ≠ .items → (load T E rows).totalWeight (T.root n) =
      (load T E rows).weightOf E.items (loadItems E rows)
        ((load T E rows).itemlist (T.root n))) := by
  have hall := rootsAt_all T.root (T.root n) fun b hmem => (hc b hmem).and (hb b hmem)
  refine ⟨Holds.mono (fun it r f hP hR => ?_) hall (?_ : HoldsReload E _ _ _ _ _), fun hT =>
    (holds_depots hT hc hr hrows n).2⟩
  · rw [hR]
    exact reloaded_reload hP.2 hP.1.2.1
  · by_cases hT : T = .items
    · subst hT
      exact holds_slots hc hr hrows n
    · exact (holds_depots hT hc hr hrows n).1

/-- A world with bags (1987) and apples (2674). -/
def fruitBag : Env where
  items id := if id = 1987 then { group := .container, id, weight := 800 }
    else { id, weight := 150, stackable := true }
  getNameByGuid _ := []
  addUniqueItem _ := true

/-- A bag on the back with three apples and a bag of one apple in it, and an
apple in the hand. -/
def packed : List ItemBlock :=
  let apples (n : ℕ) : Item := { cls := .item, id := 2674, count := n, attributes := none }
  let bag : Item := { cls := .container, id := 1987, count := 1, attributes := none }
  [(3, bag, .cons (apples 3) .nil (.cons bag (.cons (apples 1) .nil .nil) .nil)),
    (6, apples 1, .nil)]

theorem load_saveItems_packed : ∃ sid,
    (load .items fruitBag (saveItems fruitBag.items packed).reverse).contents (.slot 3) = [sid] ∧
    Holds (Reloaded fruitBag.items) fruitBag.items
      (loadItems fruitBag (saveItems fruitBag.items packed).reverse)
      (load .items fruitBag (saveItems fruitBag.items packed).reverse) (.slot 3) [sid]
      (rootsAt Place.slot (.slot 3) packed) := by
  have hbag : Buildable fruitBag.items 1987 := ⟨⟨by decide, by decide⟩, by decide⟩
  have happle : Buildable fruitBag.items 2674 := ⟨⟨by decide, by decide⟩, by decide⟩
  have hc : CreatableBlocks fruitBag.items packed := by
    intro b hb
    simp only [packed, List.mem_cons, List.not_mem_nil, or_false] at hb
    rcases hb with rfl | rfl
    · exact ⟨⟨hbag.toKnown, rfl, .inl rfl⟩, ⟨⟨happle.toKnown, rfl, .inr rfl⟩, trivial,
        ⟨hbag.toKnown, rfl, .inl rfl⟩, ⟨⟨happle.toKnown, rfl, .inr rfl⟩, trivial, trivial⟩,
        trivial⟩, trivial⟩
    · exact ⟨⟨happle.toKnown, rfl, .inr rfl⟩, trivial, trivial⟩
  have hb : BuildableBlocks fruitBag.items packed := by
    intro b hb
    simp only [packed, List.mem_cons, List.not_mem_nil, or_false] at hb
    rcases hb with rfl | rfl
    · exact ⟨hbag, ⟨happle, trivial, hbag, ⟨happle, trivial, trivial⟩, trivial⟩, trivial⟩
    · exact ⟨happle, trivial, trivial⟩
  have hr : Roots .items packed := ⟨by decide, fun _ => by decide⟩
  have h := (load_saveItems hc hb hr (List.reverse_perm _) 3).1
  -- one root was saved in slot 3
  obtain ⟨sid, ids, hids, h1, h2, h3, h4, rfl⟩ := id h
  exact ⟨sid, hids, by rw [← hids]; exact h⟩

end IOLoginData
end ForgottenServer
