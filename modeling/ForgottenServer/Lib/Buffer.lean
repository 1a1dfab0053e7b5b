/-
# Buffers

A buffer is a function from addresses to cells. A slice reads a run of cells,
a copy overwrites one. A cipher or another map of blocks of one width works
through a run in place (`overBlocks`), which is the map of the blocks of the
slice (`mapBlocks`), so that an inverse of the map undoes it.

Key definitions: `Buffer.slice`, `Buffer.copy`, `Buffer.overBlocks`, `Buffer.mapBlocks`.
Key theorems: `Buffer.slice_copy`, `Buffer.slice_overBlocks`, `Buffer.mapBlocks_inverse`.
-/
import Mathlib.Tactic

namespace Buffer

variable {α : Type*}

/-- The `n` cells from `i` on. -/
def slice (b : ℕ → α) (i n : ℕ) : List α := (List.range n).map fun k => b (i + k)

/-- The buffer with `l` copied to the cells from `i` on. -/
def copy (b : ℕ → α) (i : ℕ) (l : List α) : ℕ → α :=
  fun k => if i ≤ k then (l[k - i]?).getD (b k) else b k

@[simp] theorem length_slice (b : ℕ → α) (i n : ℕ) : (slice b i n).length = n := by
  simp [slice]

theorem getElem?_slice (b : ℕ → α) (i : ℕ) {n k : ℕ} (h : k < n) :
    (slice b i n)[k]? = some (b (i + k)) := by
  simp [slice, h]

theorem slice_add (b : ℕ → α) (i m n : ℕ) :
    slice b i (m + n) = slice b i m ++ slice b (i + m) n := by
  simp [slice, List.range_add, Nat.add_assoc]

theorem take_slice (b : ℕ → α) (i : ℕ) {m n : ℕ} (h : m ≤ n) :
    (slice b i n).take m = slice b i m := by
  obtain ⟨k, rfl⟩ := Nat.exists_eq_add_of_le h
  rw [slice_add, List.take_left' (length_slice b i m)]

theorem drop_slice (b : ℕ → α) (i : ℕ) {m n : ℕ} (h : m ≤ n) :
    (slice b i n).drop m = slice b (i + m) (n - m) := by
  obtain ⟨k, rfl⟩ := Nat.exists_eq_add_of_le h
  rw [slice_add, List.drop_left' (length_slice b i m), Nat.add_sub_cancel_left]

theorem slice_congr {b b' : ℕ → α} {i n : ℕ} (h : ∀ k, i ≤ k → k < i + n → b k = b' k) :
    slice b i n = slice b' i n := by
  apply List.map_congr_left
  intro k hk
  rw [List.mem_range] at hk
  exact h (i + k) (Nat.le_add_right i k) (Nat.add_lt_add_left hk i)

theorem copy_of_lt (b : ℕ → α) {i k : ℕ} (l : List α) (h : k < i) : copy b i l k = b k :=
  if_neg (Nat.not_le.2 h)

theorem copy_of_ge (b : ℕ → α) {i k : ℕ} {l : List α} (h : i + l.length ≤ k) :
    copy b i l k = b k := by
  unfold copy
  rw [if_pos (by omega), List.getElem?_eq_none (by omega), Option.getD_none]

theorem copy_of_getElem (b : ℕ → α) (i : ℕ) {l : List α} {k : ℕ} {a : α} (h : l[k]? = some a) :
    copy b i l (i + k) = a := by
  unfold copy
  rw [if_pos (Nat.le_add_right i k), Nat.add_sub_cancel_left, h, Option.getD_some]

/-- What was copied is read back. -/
theorem slice_copy (b : ℕ → α) (i : ℕ) (l : List α) : slice (copy b i l) i l.length = l := by
  apply List.ext_getElem?
  intro k
  by_cases hk : k < l.length
  · have h : l[k]? = some l[k] := List.getElem?_eq_getElem hk
    rw [getElem?_slice _ _ hk, copy_of_getElem b i h, h]
  · rw [List.getElem?_eq_none (by rw [length_slice]; omega), List.getElem?_eq_none (by omega)]

/-- The cells around a copy stay. -/
theorem slice_copy_of_disjoint (b : ℕ → α) {i j n : ℕ} {l : List α}
    (h : j + n ≤ i ∨ i + l.length ≤ j) : slice (copy b i l) j n = slice b j n := by
  apply slice_congr
  intro k hjk hkn
  rcases h with h | h
  · exact copy_of_lt b l (by omega)
  · exact copy_of_ge b (by omega)

/-- The two ends of a slice with a copy behind its start. -/
theorem slice_copy_append (b : ℕ → α) (i n : ℕ) (l : List α) :
    slice (copy b (i + n) l) i (n + l.length) = slice b i n ++ l := by
  rw [slice_add, slice_copy, slice_copy_of_disjoint b (.inl (le_refl _))]

/-- Two copies one behind the other. -/
theorem copy_copy (b : ℕ → α) (i : ℕ) (l l' : List α) :
    copy (copy b i l) (i + l.length) l' = copy b i (l ++ l') := by
  funext k
  by_cases h1 : k < i
  · rw [copy_of_lt _ _ (by omega), copy_of_lt b _ h1, copy_of_lt b _ h1]
  by_cases h2 : k < i + l.length
  · rw [copy_of_lt _ _ h2]
    unfold copy
    rw [if_pos (by omega), if_pos (by omega), List.getElem?_append_left (by omega)]
  · unfold copy
    rw [if_pos (by omega), if_pos (by omega), if_pos (by omega),
      List.getElem?_append_right (by omega), List.getElem?_eq_none (l := l) (by omega),
      Option.getD_none, Nat.sub_sub]

/-! ### Blocks of one width -/

section Blocks

variable (f g : List α → List α) (w : ℕ)

/-- The first `n` blocks of `w` cells, each under `f`. -/
def mapBlocks : ℕ → List α → List α
  | 0, _ => []
  | n + 1, l => f (l.take w) ++ mapBlocks n (l.drop w)

/-- The `n` blocks of `w` cells from `i` on, each overwritten with its value
under `f`. -/
def overBlocks (b : ℕ → α) (i : ℕ) : ℕ → (ℕ → α)
  | 0 => b
  | n + 1 => overBlocks (copy b i (f (slice b i w))) (i + w) n

variable {f g w}

theorem overBlocks_of_lt (hf : ∀ l, l.length = w → (f l).length = w) :
    ∀ (n : ℕ) (b : ℕ → α) {i k : ℕ}, k < i → overBlocks f w b i n k = b k
  | 0, _, _, _, _ => rfl
  | n + 1, b, i, k, h => by
    unfold overBlocks
    rw [overBlocks_of_lt hf n _ (by omega), copy_of_lt b _ h]

theorem overBlocks_of_ge (hf : ∀ l, l.length = w → (f l).length = w) :
    ∀ (n : ℕ) (b : ℕ → α) {i k : ℕ}, i + n * w ≤ k → overBlocks f w b i n k = b k
  | 0, _, _, _, _ => rfl
  | n + 1, b, i, k, h => by
    have hn : (n + 1) * w = n * w + w := Nat.succ_mul n w
    unfold overBlocks
    rw [overBlocks_of_ge hf n _ (by omega), copy_of_ge b]
    rw [hf _ (length_slice b i w)]
    omega

/-- Working in place is mapping the blocks of the slice. -/
theorem slice_overBlocks (hf : ∀ l, l.length = w → (f l).length = w) :
    ∀ (n : ℕ) (b : ℕ → α) (i : ℕ),
      slice (overBlocks f w b i n) i (n * w) = mapBlocks f w n (slice b i (n * w))
  | 0, b, i => by simp [slice, mapBlocks]
  | n + 1, b, i => by
    have hn : (n + 1) * w = w + n * w := by
      rw [Nat.succ_mul, Nat.add_comm]
    have hlen : (f (slice b i w)).length = w := hf _ (length_slice b i w)
    have hcopy : slice (copy b i (f (slice b i w))) i w = f (slice b i w) := by
      have := slice_copy b i (f (slice b i w))
      rwa [hlen] at this
    have hhead : slice (overBlocks f w (copy b i (f (slice b i w))) (i + w) n) i w =
        f (slice b i w) :=
      (slice_congr fun k _ hk => overBlocks_of_lt hf n _ hk).trans hcopy
    have htail : slice (copy b i (f (slice b i w))) (i + w) (n * w) = slice b (i + w) (n * w) :=
      slice_copy_of_disjoint b (.inr (by rw [hlen]))
    have hsplit := slice_add b i w (n * w)
    unfold overBlocks mapBlocks
    rw [hn, slice_add, hhead, slice_overBlocks hf n, htail, hsplit,
      List.take_left' (length_slice b i w), List.drop_left' (length_slice b i w)]

theorem length_mapBlocks (hf : ∀ l, l.length = w → (f l).length = w) :
    ∀ (n : ℕ) {l : List α}, l.length = n * w → (mapBlocks f w n l).length = n * w
  | 0, _, _ => by simp [mapBlocks]
  | n + 1, l, h => by
    rw [Nat.succ_mul] at h ⊢
    unfold mapBlocks
    rw [List.length_append, hf _ (by rw [List.length_take]; omega),
      length_mapBlocks hf n (by rw [List.length_drop]; omega), Nat.add_comm]

/-- An inverse of the map of a block undoes the map of all blocks. -/
theorem mapBlocks_inverse (hf : ∀ l, l.length = w → (f l).length = w)
    (hg : ∀ l, l.length = w → g (f l) = l) :
    ∀ (n : ℕ) {l : List α}, l.length = n * w → mapBlocks g w n (mapBlocks f w n l) = l
  | 0, l, h => by
    rw [Nat.zero_mul] at h
    rw [List.length_eq_zero_iff.1 h]
    rfl
  | n + 1, l, h => by
    rw [Nat.succ_mul] at h
    have htake : (l.take w).length = w := by
      rw [List.length_take]
      omega
    have hlen := hf _ htake
    show g ((f (l.take w) ++ mapBlocks f w n (l.drop w)).take w) ++
      mapBlocks g w n ((f (l.take w) ++ mapBlocks f w n (l.drop w)).drop w) = l
    rw [List.take_left' hlen, List.drop_left' hlen, hg _ htake,
      mapBlocks_inverse hf hg n (by rw [List.length_drop]; omega), List.take_append_drop]

end Blocks

end Buffer
