/-
# The block cache of the file loader

`FileLoader` reads its file through three cached blocks. A block starts where
the bits of `cache_size - 1` of a position are cleared; the size need not be a
power of two, so blocks can overlap. The cursor is a block and an offset in
it; running over the end of a block moves it to the block of its position.
Positions are 32-bit. As long as the file is shorter than that, the cursor
behaves as a position in the file, whatever the cache holds.

Key definitions: `FileLoader`, `FileLoader.getCacheBlock`,
`FileLoader.readByte`, `FileLoader.At`.
Key theorems: `FileLoader.readByte_cons`, `FileLoader.safeSeek_at`.
-/
import ForgottenServer.Item
import Mathlib.Data.Nat.Bitwise

namespace ForgottenServer

/-- `FILELOADER_ERRORS`, those that are set. -/
inductive FileloaderErrors
  | none | invalidFileVersion | canNotOpen | eof | seekError | invalidFormat | cacheError
  deriving DecidableEq, Repr

/-- `NodeStruct`, with `null` for a null pointer. -/
inductive NodeStruct
  | null
  | node (start propsSize type : ℕ) (next child : NodeStruct)
  deriving DecidableEq, Repr

/-- `FileLoader::_cache`; `data` are the `size` bytes that were read. -/
structure CacheBlock where
  data : Bytes := []
  loaded : Bool := false
  base : ℕ := 0

/-- `FileLoader`, with the file; `cacheIndex` is `none` for `NO_VALID_CACHE`
and `buffer` holds `buffer_size` bytes. -/
structure FileLoader where
  file : Bytes
  root : NodeStruct := .null
  lastError : FileloaderErrors := .none
  buffer : Bytes := List.replicate 1024 0
  cacheSize : ℕ := 0
  cacheIndex : Option (Fin 3) := none
  cacheOffset : ℕ := 0
  cachedData : Fin 3 → CacheBlock := fun _ => {}

/-- Subtraction of 32-bit integers. -/
def sub32 (a b : ℕ) : ℕ := (a + 2 ^ 32 - b) % 2 ^ 32

namespace FileLoader

/-- `pos & ~(cache_size - 1)` -/
def basePos (L : FileLoader) (pos : ℕ) : ℕ := pos.ldiff (L.cacheSize - 1)

/-- The block that `loadCacheBlock` fills: one that was never loaded, else one
that is far away, else the first. -/
def loadingCache (L : FileLoader) (pos : ℕ) : Fin 3 :=
  match (List.finRange 3).find? fun i => !(L.cachedData i).loaded with
  | some i => i
  | none =>
    match (List.finRange 3).find? fun i =>
      2 * L.cacheSize < (((L.cachedData i).base : ℤ) - int32 (L.basePos pos)).natAbs with
    | some i => i
    | none => 0

/-- `FileLoader::loadCacheBlock` -/
def loadCacheBlock (L : FileLoader) (pos : ℕ) : Option (Fin 3) × FileLoader :=
  let i := L.loadingCache pos
  let base := L.basePos pos
  let data := (L.file.drop base).take L.cacheSize
  if data.length < sub32 pos base then
    (none, { L with
      cachedData := Function.update L.cachedData i { L.cachedData i with base, data }
      lastError := .seekError })
  else
    (some i, { L with
      cachedData := Function.update L.cachedData i { base, data, loaded := true } })

/-- `FileLoader::getCacheBlock` -/
def getCacheBlock (L : FileLoader) (pos : ℕ) : Option (Fin 3) × FileLoader :=
  match (List.finRange 3).find? fun i =>
    (L.cachedData i).loaded && (L.cachedData i).base = L.basePos pos with
  | some i => (some i, L)
  | none => L.loadCacheBlock pos

/-- The cursor at a position of a block. -/
def setCursor (L : FileLoader) (i : Fin 3) (pos : ℕ) : FileLoader :=
  { L with cacheIndex := some i, cacheOffset := sub32 pos (L.cachedData i).base }

/-- The byte at the cursor, if it is inside its block, and the cursor after it. -/
def nextByte (L : FileLoader) (i : Fin 3) : Option UInt8 × FileLoader :=
  match (L.cachedData i).data[L.cacheOffset]? with
  | some b => (some b, { L with cacheOffset := L.cacheOffset + 1 })
  | none => (none, L)

/-- `FileLoader::readByte`; no value when it returns false. -/
def readByte (L : FileLoader) : Option UInt8 × FileLoader :=
  match L.cacheIndex with
  | none => (none, { L with lastError := .cacheError })
  | some i =>
    if (L.cachedData i).data.length ≤ L.cacheOffset then
      let pos := (L.cacheOffset + (L.cachedData i).base) % 2 ^ 32
      match L.getCacheBlock pos with
      | (none, L) => (none, L)
      | (some j, L) => (L.setCursor j pos).nextByte j
    else L.nextByte i

/-- `FileLoader::safeSeek` -/
def safeSeek (L : FileLoader) (pos : ℕ) : Bool × FileLoader :=
  match L.getCacheBlock pos with
  | (none, L) => (false, L)
  | (some i, L) => (true, L.setCursor i pos)

/-- `FileLoader::safeTell`, as a 32-bit position: that of the byte read last. -/
def safeTell (L : FileLoader) : Option ℕ × FileLoader :=
  match L.cacheIndex with
  | none => (none, { L with lastError := .cacheError })
  | some i => (some (sub32 ((L.cachedData i).base + L.cacheOffset) 1), L)

/-! ### What the cache holds -/

variable {f : Bytes} {L L' : FileLoader} {pos p : ℕ} {i : Fin 3}

/-- Every loaded block holds the bytes of the file from its base on, and the size
of the buffer is a power of two. -/
structure Sound (f : Bytes) (L : FileLoader) : Prop where
  file : L.file = f
  cacheSize : 0 < L.cacheSize
  buffer : ∃ k < 32, L.buffer.length = 2 ^ k
  data : ∀ i, (L.cachedData i).loaded →
    (L.cachedData i).data = (f.drop (L.cachedData i).base).take L.cacheSize

/-- The cursor stands at the position `p` of the file. -/
structure At (f : Bytes) (L : FileLoader) (p : ℕ) : Prop extends Sound f L where
  cursor : ∃ i, L.cacheIndex = some i ∧ (L.cachedData i).loaded ∧
    (L.cachedData i).base + L.cacheOffset = p

theorem sub32_of_le {a b : ℕ} (h : b ≤ a) (ha : a < 2 ^ 32) : sub32 a b = a - b := by
  unfold sub32
  omega

theorem ldiff_add_and (m : ℕ) : ∀ n : ℕ, m.ldiff n + (m &&& n) = m := by
  induction m using Nat.binaryRec with
  | zero =>
    intro n
    have hzero : Nat.ldiff 0 n = 0 := Nat.bitwise_zero_left n
    rw [hzero, Nat.zero_and]
  | bit b m ih =>
    intro n
    obtain ⟨c, k, rfl⟩ : ∃ c k, n = Nat.bit c k := ⟨n.bodd, n.div2, (Nat.bit_bodd_div2 n).symm⟩
    have := ih k
    rw [Nat.ldiff_bit, Nat.land_bit]
    cases b <;> cases c <;> simp [Nat.bit] <;> omega

/-- The base of a position is at most `cache_size - 1` before it. -/
theorem basePos_le (L : FileLoader) (pos : ℕ) :
    L.basePos pos ≤ pos ∧ pos ≤ L.basePos pos + (L.cacheSize - 1) := by
  have h1 := ldiff_add_and pos (L.cacheSize - 1)
  have h2 : pos &&& (L.cacheSize - 1) ≤ L.cacheSize - 1 := Nat.and_le_right
  unfold basePos
  omega

/-- `loadCacheBlock` leaves the cache sound, whether or not it succeeds. -/
theorem loadCacheBlock_sound (h : Sound f L) (pos : ℕ) : Sound f (L.loadCacheBlock pos).2 := by
  obtain ⟨h1, h2, h3, h4⟩ := h
  unfold loadCacheBlock
  simp only []
  split
  · refine ⟨h1, h2, h3, fun j hj => ?_⟩
    by_cases hi : j = L.loadingCache pos
    · subst hi
      simp only [Function.update_self, h1]
    · simp only [Function.update_of_ne hi] at hj ⊢
      exact h4 j hj
  · refine ⟨h1, h2, h3, fun j hj => ?_⟩
    by_cases hi : j = L.loadingCache pos
    · subst hi
      simp only [Function.update_self, h1]
    · simp only [Function.update_of_ne hi] at hj ⊢
      exact h4 j hj

theorem getCacheBlock_sound (h : Sound f L) (pos : ℕ) : Sound f (L.getCacheBlock pos).2 := by
  unfold getCacheBlock
  split
  · exact h
  · exact loadCacheBlock_sound h pos

/-- For a position of the file, or its end, a loaded block is found. -/
theorem getCacheBlock_spec (h : Sound f L) (hp : pos ≤ f.length) (hlt : pos < 2 ^ 32) :
    ∃ i L', L.getCacheBlock pos = (some i, L') ∧ Sound f L' ∧ (L'.cachedData i).loaded ∧
      (L'.cachedData i).base = L.basePos pos ∧ L'.cacheSize = L.cacheSize ∧
      L'.buffer = L.buffer := by
  have hsound := getCacheBlock_sound h pos
  unfold getCacheBlock at hsound ⊢
  split at hsound
  · next i hi =>
    have := List.find?_some hi
    simp only [Bool.and_eq_true, decide_eq_true_eq] at this
    exact ⟨i, L, rfl, h, this.1, this.2, rfl, rfl⟩
  · have hle := basePos_le L pos
    have hlen : ¬ ((L.file.drop (L.basePos pos)).take L.cacheSize).length <
        sub32 pos (L.basePos pos) := by
      rw [sub32_of_le hle.1 hlt, List.length_take, List.length_drop, h.file]
      have := h.cacheSize
      omega
    unfold loadCacheBlock at hsound ⊢
    simp only [if_neg hlen] at hsound ⊢
    exact ⟨_, _, rfl, hsound, by simp only [Function.update_self], by
      simp only [Function.update_self], rfl, rfl⟩

/-- The cursor that `safeSeek` and `readByte` set stands at the position, inside
its block unless the file ends there. -/
theorem setCursor_at (h : Sound f L) (hi : (L.cachedData i).loaded)
    (hb : (L.cachedData i).base = L.basePos pos) (hlt : pos < 2 ^ 32) :
    At f (L.setCursor i pos) pos ∧
      (L.setCursor i pos).cacheOffset = pos - (L.cachedData i).base := by
  have hle := basePos_le L pos
  have hoff : (L.setCursor i pos).cacheOffset = pos - (L.cachedData i).base := by
    simp only [setCursor, hb, sub32_of_le hle.1 hlt]
  refine ⟨⟨⟨h.file, h.cacheSize, h.buffer, h.data⟩, i, rfl, hi, ?_⟩, hoff⟩
  rw [hoff]
  show (L.cachedData i).base + _ = pos
  omega

theorem safeSeek_at (h : Sound f L) (hp : pos ≤ f.length) (hlt : pos < 2 ^ 32) :
    ∃ L', L.safeSeek pos = (true, L') ∧ At f L' pos := by
  obtain ⟨i, L', h1, h2, h3, h4, h5, -⟩ := getCacheBlock_spec h hp hlt
  refine ⟨L'.setCursor i pos, by rw [safeSeek, h1], ?_⟩
  exact (setCursor_at h2 h3 (by rw [h4, basePos, basePos, h5]) hlt).1

/-- `safeTell` gives the position of the byte read last. -/
theorem safeTell_at (h : At f L (p + 1)) (hlt : p + 1 < 2 ^ 32) :
    L.safeTell = (some p, L) := by
  obtain ⟨i, hi, -, hp⟩ := h.cursor
  unfold safeTell
  rw [hi]
  simp only [hp]
  rw [sub32_of_le (by omega) hlt, Nat.add_sub_cancel]

/-- A byte of the block of the cursor is that of the file. -/
theorem nextByte_at (h : Sound f L) (hc : L.cacheIndex = some i) (hi : (L.cachedData i).loaded)
    (hp : (L.cachedData i).base + L.cacheOffset = p) (hlt : L.cacheOffset < L.cacheSize) :
    (∀ b r, f.drop p = b :: r → ∃ L', L.nextByte i = (some b, L') ∧ At f L' (p + 1)) ∧
    (f.drop p = [] → L.nextByte i = (none, L)) := by
  have hget : (L.cachedData i).data[L.cacheOffset]? = (f.drop p)[0]? := by
    rw [h.data i hi, List.getElem?_take_of_lt hlt, List.getElem?_drop, hp, List.getElem?_drop,
      Nat.add_zero]
  unfold nextByte
  rw [hget]
  refine ⟨fun b r hr => ?_, fun hr => by rw [hr]; rfl⟩
  rw [hr]
  refine ⟨_, rfl, ⟨h.file, h.cacheSize, h.buffer, h.data⟩, i, hc, hi, ?_⟩
  show (L.cachedData i).base + (L.cacheOffset + 1) = p + 1
  omega

/-- Reading at a position of the file. -/
theorem readByte_at (h : At f L p) (hp : p ≤ f.length) (hf : f.length < 2 ^ 32) :
    (∀ b r, f.drop p = b :: r → ∃ L', L.readByte = (some b, L') ∧ At f L' (p + 1)) ∧
    (f.drop p = [] → ∃ L', L.readByte = (none, L') ∧ At f L' p) := by
  obtain ⟨i, hc, hi, hpos⟩ := h.cursor
  unfold readByte
  rw [hc]
  simp only []
  split
  · -- the cursor runs over the end of its block
    have hpos' : (L.cacheOffset + (L.cachedData i).base) % 2 ^ 32 = p := by
      rw [Nat.add_comm, hpos, Nat.mod_eq_of_lt (by omega)]
    rw [hpos']
    obtain ⟨j, L', h1, h2, h3, h4, h5, -⟩ := getCacheBlock_spec h.toSound hp (by omega)
    rw [h1]
    have hle := basePos_le L p
    have hb : (L'.cachedData j).base = L'.basePos p := by rw [h4, basePos, basePos, h5]
    obtain ⟨h7, h8⟩ := setCursor_at h2 h3 hb (by omega)
    have hcur : ((L'.setCursor j p).cachedData j).base + (L'.setCursor j p).cacheOffset = p := by
      rw [h8]
      show (L'.cachedData j).base + _ = p
      omega
    have hsize := h2.cacheSize
    obtain ⟨h9, h10⟩ := nextByte_at h7.toSound rfl (by exact h3) hcur (by
      rw [h8]
      show _ < L'.cacheSize
      omega)
    exact ⟨h9, fun hr => ⟨_, h10 hr, h7⟩⟩
  · next hlt =>
    have hlen : (L.cachedData i).data.length ≤ L.cacheSize := by
      rw [h.data i hi]
      exact List.length_take_le _ _
    obtain ⟨h1, h2⟩ := nextByte_at h.toSound hc hi hpos (by omega)
    exact ⟨h1, fun hr => ⟨L, h2 hr, h⟩⟩

/-- `readByte` in front of a byte of the file. -/
theorem readByte_cons (h : At f L p) (hf : f.length < 2 ^ 32) {b : UInt8} {r : Bytes}
    (hr : f.drop p = b :: r) : ∃ L', L.readByte = (some b, L') ∧ At f L' (p + 1) := by
  have hp : p ≤ f.length := by
    have := congrArg List.length hr
    simp only [List.length_drop, List.length_cons] at this
    omega
  exact (readByte_at h hp hf).1 b r hr

/-- `readByte` at the end of the file. -/
theorem readByte_end (h : At f L f.length) (hf : f.length < 2 ^ 32) :
    ∃ L', L.readByte = (none, L') ∧ At f L' f.length :=
  (readByte_at h le_rfl hf).2 List.drop_length

end FileLoader
end ForgottenServer
