/-
# Saving again what was loaded

`loadPlayer` leaves the items of the rows in the slots of the player, and
`savePlayer` writes them again. The items stand where they stood, so every row
comes back under its own id; only what a row says of its item can change, if
the item that `Item::CreateItem` and `unserializeAttr` make of the row is not
written back as the row was.

Key definitions: `Heap.trees`, `slotBlocks`, `loadInventory`, `Row.resave`.
Key theorems: `trees_eq`, `saveItems_reload`, `saveItems_loadInventory`.
-/
import ForgottenServer.IOLoginItems

namespace ForgottenServer
namespace IOLoginData

open Item

/-! ### The trees of a heap -/

/-- The items of the row ids with all that they hold, `n` levels deep. -/
def Heap.trees (m : ItemMap) (h : Heap) : ℕ → List ℕ → Forest Item
  | 0, _ => .nil
  | n + 1, ids => ids.foldr (fun sid f =>
      match m.lookup sid with
      | some (it, _) => .cons it (h.trees m n (h.itemlist (.item sid))) f
      | none => f) .nil

/-- The items and the trees that `savePlayer` collects from the inventory. -/
def slotBlocks (inventory : ℕ → Option (Item × Forest Item)) : List ItemBlock :=
  (List.range' 1 10).filterMap fun slotId => (inventory slotId).map fun t => (slotId, t)

/-- The inventory that the rows of `player_items` are loaded to. No item is
deeper than there are items. -/
def loadInventory (E : Env) (rows : List Row) (slotId : ℕ) : Option (Item × Forest Item) :=
  let m := loadItems E rows
  let h := load .items E rows
  (h.trees m m.length (h.contents (.slot slotId))).head?

/-- A row after its item was loaded and saved under the same ids. -/
def Row.resave (E : Env) (row : Row) : Row :=
  match createItem E.items row.itemtype row.count with
  | some i => rowOf E.items row.pid row.sid (unserializeAttr E ⟨i, row.attributes, 0⟩).2.item
  | none => row

section Trees

variable {E : Env} {m : ItemMap} {h : Heap}

/-- The trees of a place are those that it holds, with every item reloaded. -/
theorem trees_eq : ∀ {f : Forest Item} {n : ℕ} {c : Place} {ids : List ℕ},
    HoldsReload E m h c ids f → f.depth ≤ n → h.trees m n ids = f.map (reload E)
  | .nil, 0, _, _, _, _ => rfl
  | .nil, n + 1, _, _, hh, _ => by
    have hids : _ = [] := hh
    rw [hids]
    rfl
  | .cons it content rest, n, c, ids, ⟨sid, ids', hids, ⟨r, pid, hm, hr⟩, _, hcont, _, hrest⟩, hd => by
    simp only [Forest.depth] at hd
    obtain ⟨k, rfl⟩ : ∃ k, n = k + 1 := ⟨n - 1, by omega⟩
    have h1 := trees_eq (n := k) hcont (by omega)
    have h2 := trees_eq (n := k + 1) hrest (by omega)
    rw [hids]
    unfold Heap.trees at h2 ⊢
    rw [List.foldr_cons, h2, hm, hr]
    show Forest.cons (reload E it) (h.trees m k _) _ = _
    rw [h1]
    rfl

/-! ### As many items are loaded as were saved -/

/-- The number of items in a list and in its containers. -/
def blocksSize (l : List ItemBlock) : ℕ := (l.map fun b => b.2.2.size + 1).sum

theorem blocksSize_children (p : ℕ) : ∀ f : Forest Item, blocksSize (children p f) = f.size
  | .nil => rfl
  | .cons it c s => by
    have ih := blocksSize_children p s
    unfold blocksSize at ih ⊢
    simp only [children, List.map_cons, List.sum_cons, ih, Forest.size]
    omega

theorem size_enqueue : ∀ {l : List ItemBlock} (r : ℕ), CreatableBlocks E.items l →
    ((enqueue l r).map fun p => p.1.size).sum + l.length = blocksSize l
  | [], _, _ => rfl
  | (pid, it, content) :: l, r, hc => by
    have ih := size_enqueue (r + 1) fun b hb => hc b (List.mem_cons_of_mem _ hb)
    obtain ⟨-, -, hcont⟩ := (hc _ List.mem_cons_self).1
    unfold blocksSize at ih ⊢
    unfold enqueue
    split
    · simp only [List.map_cons, List.sum_cons, List.length_cons]
      omega
    · next hi =>
      have hnil : content = .nil := hcont.resolve_left hi
      simp only [List.map_cons, List.sum_cons, List.length_cons, hnil, Forest.size]
      omega

theorem length_entries : ∀ (l : List ItemBlock) (r : ℕ), (entries E l r).length = l.length
  | [], _ => rfl
  | _ :: l, r => by simp only [entries, List.length_cons, length_entries l (r + 1)]

theorem length_queueEntries (q : List (Forest Item × ℕ)) (r : ℕ) (hq : CreatableQueue E.items q) :
    (queueEntries E q r).length = (q.map fun p => p.1.size).sum := by
  induction q, r using saveQueue.induct with
  | case1 r => simp [queueEntries, saveQueue]
  | case2 f p q r ih =>
    have hf : Creatable E.items f := hq _ List.mem_cons_self
    have ih := ih fun b hb => by
      rcases List.mem_append.1 hb with hb | hb
      · exact hq b (List.mem_cons_of_mem _ hb)
      · exact creatable_enqueue (creatable_children hf) b hb
    have hsize := size_enqueue r (creatable_children (p := p) hf)
    rw [blocksSize_children, length_children] at hsize
    rw [queueEntries_cons hf, List.length_append, length_entries, length_children, ih]
    simp only [List.map_append, List.sum_append, List.map_cons, List.sum_cons]
    omega

theorem length_loadItems {l : List ItemBlock} {rows : List Row} (hc : CreatableBlocks E.items l)
    (hrows : rows.Perm (saveItems E.items l)) : (loadItems E rows).length = blocksSize l := by
  rw [loadItems_saveItems hc hrows, allEntries, List.length_append, length_entries,
    length_queueEntries _ _ (creatable_enqueue hc), ← size_enqueue 100 hc, Nat.add_comm]

theorem size_rootsAt (t : ℕ → Place) (c : Place) : ∀ l : List ItemBlock,
    (rootsAt t c l).size ≤ blocksSize l
  | [] => le_rfl
  | (pid, it, content) :: l => by
    have ih := size_rootsAt t c l
    unfold blocksSize at ih ⊢
    unfold rootsAt
    simp only [List.map_cons, List.sum_cons]
    split
    · simp only [Forest.size]
      omega
    · omega

end Trees

/-! ### Saving reloaded items -/

/-- An item to save, reloaded with all that it holds. -/
def reloadBlock (E : Env) (b : ItemBlock) : ItemBlock :=
  (b.1, reload E b.2.1, b.2.2.map (reload E))

section Save

variable {E : Env}

theorem resave_rowOf {it : Item} (hk : Known E.items it.id) (pid sid : ℕ) :
    (rowOf E.items pid sid it).resave E = rowOf E.items pid sid (reload E it) := by
  obtain ⟨i, hi, -⟩ := createItem_known E.items hk (it.getSubType E.items)
  unfold Row.resave reload
  simp only [rowOf, hi]

theorem emit_reload : ∀ {l : List ItemBlock} (r : ℕ), CreatableBlocks E.items l →
    emit E.items (l.map (reloadBlock E)) r = (emit E.items l r).map (Row.resave E)
  | [], _, _ => rfl
  | (pid, it, c) :: l, r, hc => by
    have hk := (hc _ List.mem_cons_self).1.1
    have ih := emit_reload (r + 1) fun b hb => hc b (List.mem_cons_of_mem _ hb)
    simp only [List.map_cons, reloadBlock, emit] at ih ⊢
    rw [ih, resave_rowOf hk]

theorem enqueue_reload : ∀ {l : List ItemBlock} (r : ℕ), CreatableBlocks E.items l →
    enqueue (l.map (reloadBlock E)) r =
      (enqueue l r).map fun p => (p.1.map (reload E), p.2)
  | [], _, _ => rfl
  | (pid, it, c) :: l, r, hc => by
    obtain ⟨hk, hcls, -⟩ := (hc _ List.mem_cons_self).1
    have ih := enqueue_reload (r + 1) fun b hb => hc b (List.mem_cons_of_mem _ hb)
    have hcont : (reload E it).isContainer = it.isContainer := reload_isContainer hk hcls
    simp only [List.map_cons, reloadBlock, enqueue, hcont] at ih ⊢
    split
    · rw [List.map_cons, ih]
    · exact ih

theorem children_reload (p : ℕ) : ∀ f : Forest Item,
    children p (f.map (reload E)) = (children p f).map (reloadBlock E)
  | .nil => rfl
  | .cons it c s => by
    simp only [Forest.map, children, List.map_cons, children_reload p s]
    rfl

theorem saveQueue_reload (q : List (Forest Item × ℕ)) (r : ℕ) (hq : CreatableQueue E.items q) :
    saveQueue E.items (q.map fun p => (p.1.map (reload E), p.2)) r =
      (saveQueue E.items q r).map (Row.resave E) := by
  induction q, r using saveQueue.induct with
  | case1 r => simp [saveQueue]
  | case2 f p q r ih =>
    have hf : CreatableBlocks E.items (children p f) := creatable_children (hq _ List.mem_cons_self)
    have ih := ih fun b hb => by
      rcases List.mem_append.1 hb with hb | hb
      · exact hq b (List.mem_cons_of_mem _ hb)
      · exact creatable_enqueue hf b hb
    rw [List.map_append] at ih
    rw [List.map_cons, saveQueue, saveQueue, children_reload, emit_reload r hf, enqueue_reload r hf,
      Forest.length_map, ih, List.map_append]

/-- Saving reloaded items writes the rows that saving the items wrote, each
saved again. -/
theorem saveItems_reload {l : List ItemBlock} (hc : CreatableBlocks E.items l) :
    saveItems E.items (l.map (reloadBlock E)) = (saveItems E.items l).map (Row.resave E) := by
  unfold saveItems
  rw [emit_reload 100 hc, enqueue_reload 100 hc, List.length_map,
    saveQueue_reload _ _ (creatable_enqueue hc), List.map_append]

end Save

/-! ### The inventory -/

section Inventory

variable {E : Env} {inventory : ℕ → Option (Item × Forest Item)}

/-- Every item of the inventory is of the class that `Item::CreateItem` builds
for its type, and only containers hold items. -/
def CreatableInventory (items : UInt16 → ItemType) (inventory : ℕ → Option (Item × Forest Item)) :
    Prop := ∀ slotId t, inventory slotId = some t → Creatable items (.cons t.1 t.2 .nil)

theorem creatable_slotBlocks (h : CreatableInventory E.items inventory) :
    CreatableBlocks E.items (slotBlocks inventory) := by
  intro b hb
  obtain ⟨slotId, -, hs⟩ := List.mem_filterMap.1 hb
  obtain ⟨t, ht, rfl⟩ := Option.map_eq_some_iff.1 hs
  exact h slotId t ht

theorem map_fst_filterMap (l : List ℕ) :
    (l.filterMap fun slotId => (inventory slotId).map fun t => (slotId, t)).map Prod.fst =
      l.filter fun slotId => (inventory slotId).isSome := by
  induction l with
  | nil => rfl
  | cons a l ih =>
    cases ha : inventory a with
    | none => simp [ha, ih]
    | some t => simp [ha, ih]

theorem roots_slotBlocks : Roots .items (slotBlocks inventory) := by
  refine ⟨fun b hb => ?_, fun _ => ?_⟩
  · obtain ⟨slotId, hs, hb⟩ := List.mem_filterMap.1 hb
    obtain ⟨t, -, rfl⟩ := Option.map_eq_some_iff.1 hb
    obtain ⟨h1, h2⟩ := List.mem_range'_1.1 hs
    simp only [Table.isRoot, Bool.and_eq_true, decide_eq_true_eq]
    omega
  · unfold slotBlocks
    rw [map_fst_filterMap]
    exact List.Nodup.filter _ List.nodup_range'

theorem rootsAt_eq_nil {t : ℕ → Place} {c : Place} : ∀ {l : List ItemBlock},
    (∀ b ∈ l, t b.1 ≠ c) → rootsAt t c l = .nil
  | [], _ => rfl
  | b :: l, h => by
    unfold rootsAt
    rw [if_neg (h b List.mem_cons_self)]
    exact rootsAt_eq_nil fun b hb => h b (List.mem_cons_of_mem _ hb)

/-- The root of a slot. -/
theorem rootsAt_slots {slotId : ℕ} : ∀ {l : List ℕ}, l.Nodup → slotId ∈ l →
    (rootsAt Place.slot (.slot slotId)
      (l.filterMap fun slotId => (inventory slotId).map fun t => (slotId, t))).head? =
      inventory slotId
  | a :: l, hn, hmem => by
    have hother : a ≠ slotId → slotId ∈ l := fun h =>
      (List.mem_cons.1 hmem).resolve_left fun e => h e.symm
    cases ha : inventory a with
    | none =>
      rw [List.filterMap_cons_none (by rw [ha]; rfl)]
      by_cases h : a = slotId
      · rw [← h, rootsAt_eq_nil fun b hb heq => ?_, ha]
        · rfl
        · obtain ⟨slotId, hs, hb⟩ := List.mem_filterMap.1 hb
          obtain ⟨t, -, rfl⟩ := Option.map_eq_some_iff.1 hb
          exact (List.nodup_cons.1 hn).1 (Place.slot.inj heq ▸ hs)
      · exact rootsAt_slots (List.nodup_cons.1 hn).2 (hother h)
    | some t =>
      rw [List.filterMap_cons_some (by rw [ha]; rfl)]
      unfold rootsAt
      by_cases h : a = slotId
      · rw [if_pos (by rw [h]), ← h, ha]
        rfl
      · rw [if_neg fun e => h (Place.slot.inj e)]
        exact rootsAt_slots (List.nodup_cons.1 hn).2 (hother h)

/-- **What is loaded to the slots** from the rows of an inventory is the
inventory with every item reloaded. -/
theorem loadInventory_eq {rows : List Row} (h : CreatableInventory E.items inventory)
    (hrows : rows.Perm (saveItems E.items (slotBlocks inventory))) {slotId : ℕ}
    (hs : slotId ∈ List.range' 1 10) :
    loadInventory E rows slotId =
      (inventory slotId).map fun t => (reload E t.1, t.2.map (reload E)) := by
  have hc := creatable_slotBlocks h
  have hload := holds_slots hc roots_slotBlocks hrows slotId
  have hdepth : (rootsAt Place.slot (.slot slotId) (slotBlocks inventory)).depth ≤
      (loadItems E rows).length := by
    rw [length_loadItems hc hrows]
    exact (Forest.depth_le_size _).trans (size_rootsAt _ _ _)
  show (Heap.trees _ _ _ _).head? = _
  rw [trees_eq hload hdepth, Forest.head?_map]
  exact congrArg _ (rootsAt_slots List.nodup_range' hs)

/-- **Saving the loaded inventory** writes every row again as `resave` has it. -/
theorem saveItems_loadInventory {rows : List Row} (h : CreatableInventory E.items inventory)
    (hrows : rows.Perm (saveItems E.items (slotBlocks inventory))) :
    saveItems E.items (slotBlocks (loadInventory E rows)) =
      (saveItems E.items (slotBlocks inventory)).map (Row.resave E) := by
  have hblocks : slotBlocks (loadInventory E rows) =
      (slotBlocks inventory).map (reloadBlock E) := by
    unfold slotBlocks
    rw [List.map_filterMap]
    refine List.filterMap_congr fun slotId hs => ?_
    rw [loadInventory_eq h hrows hs, Option.map_map, Option.map_map]
    rfl
  rw [hblocks, saveItems_reload (creatable_slotBlocks h)]

end Inventory

end IOLoginData
end ForgottenServer
