/-
# The file cache as a plain cursor

What `FileLoader` reads through its cache is what a cursor over the bytes of the
file reads, for any sequence of its four operations. The positions it tells are
signed 32-bit numbers, so the file is to be shorter than 2³¹ bytes.

Key definitions: `Op`, `plain`, `cached`, `opened`.
Key theorems: `cached_step`, `cached_run`.
-/
import ForgottenServer.FileLoader

namespace ForgottenServer
namespace FileLoader

/-! ### The operations -/

inductive Op
  | safeSeek (pos : ℕ)
  | readByte
  | safeTell
  | readBytes (size pos : ℕ)
  deriving DecidableEq

/-- What an operation returns; `none` where it returns false. -/
inductive Result
  | done (b : Bool)
  | byte (b : Option UInt8)
  | position (p : Option ℤ)
  | bytes (bytes : Option Bytes)
  deriving DecidableEq

/-- An operation on a cursor over the bytes of a file. -/
def plain (f : Bytes) (p : ℕ) : Op → Result × ℕ
  | .safeSeek pos => (.done true, pos)
  | .readByte =>
    match f[p]? with
    | some b => (.byte (some b), p + 1)
    | none => (.byte none, p)
  | .safeTell => (.position (some (p - 1)), p)
  | .readBytes size pos => (.bytes (some ((f.drop pos).take size)), pos + size)

/-- An operation of the loader. The buffer is made large enough for `readBytes`,
as `getProps` makes it; there is no result where a loop does not end. -/
def cached (L : FileLoader) : Op → Option (Result × FileLoader)
  | .safeSeek pos => some (.done (L.safeSeek pos).1, (L.safeSeek pos).2)
  | .readByte => some (.byte L.readByte.1, L.readByte.2)
  | .safeTell => some (.position (L.safeTell.1.map fun p : ℕ => int32 (p : ℤ)), L.safeTell.2)
  | .readBytes size pos =>
    (L.growTo size).bind fun L =>
      (readBytes (size + 1) size 0 pos L).map fun r => (.bytes (if r.1 then some (r.2.buffer.take size) else none), r.2)

/-- The operation stays within the file. -/
def Within (f : Bytes) : Op → Prop
  | .safeSeek pos => pos ≤ f.length
  | .readBytes size pos => pos + size ≤ f.length
  | _ => True

instance (f : Bytes) : DecidablePred (Within f)
  | .safeSeek pos => inferInstanceAs (Decidable (pos ≤ f.length))
  | .readBytes size pos => inferInstanceAs (Decidable (pos + size ≤ f.length))
  | .readByte | .safeTell => inferInstanceAs (Decidable True)

/-- The results of a sequence of operations, and where the cursor is then. -/
def plainRun (f : Bytes) : ℕ → List Op → List Result × ℕ
  | p, [] => ([], p)
  | p, o :: ops =>
    let r := plain f p o
    let rest := plainRun f r.2 ops
    (r.1 :: rest.1, rest.2)

def cachedRun : FileLoader → List Op → Option (List Result × FileLoader)
  | L, [] => some ([], L)
  | L, o :: ops =>
    (cached L o).bind fun r => (cachedRun r.2 ops).map fun rest => (r.1 :: rest.1, rest.2)

/-- A new loader for which `openFile` has chosen the size of the blocks. -/
def sized (f : Bytes) : FileLoader := { file := f, cacheSize := cacheSizeFor f.length }

/-- What `openFile` does next: it goes behind the identifier. -/
def skipIdentifier (L : FileLoader) : FileLoader := (L.safeSeek 4).2

def opened (f : Bytes) : FileLoader := (sized f).skipIdentifier

section Runs

variable {f : Bytes} {L : FileLoader} {p : ℕ}

theorem sound_sized (f : Bytes) : Sound f (sized f) :=
  ⟨rfl, cacheSizeFor_pos _, ⟨10, by decide, List.length_replicate⟩, fun _ h => by cases h⟩

theorem opened_at (h : 4 ≤ f.length) : At f (opened f) 4 := by
  obtain ⟨L, hseek, hat⟩ := safeSeek_at (sound_sized f) h (by decide)
  rw [opened, skipIdentifier, hseek]
  exact hat

theorem safeTell_eq (h : At f L p) : L.safeTell = (some (sub32 p 1), L) := by
  obtain ⟨i, hi, -, hp⟩ := h.cursor
  unfold safeTell
  rw [hi]
  simp only [hp]

/-- Up to 2³¹ the position before the cursor is told as it is, also that before the file. -/
theorem int32_sub32 (hp : p ≤ 2 ^ 31) : int32 (sub32 p 1 : ℕ) = p - 1 := by
  unfold int32 sub32
  split <;> omega

/-- `readBytes` gives the bytes at a position, and goes behind them. -/
theorem cached_readBytes {size pos : ℕ} (h : Sound f L) (hf : f.length < 2 ^ 31) (hpos : pos + size ≤ f.length) :
    ∃ L', cached L (.readBytes size pos) = some (.bytes (some ((f.drop pos).take size)), L') ∧
      At f L' (pos + size) := by
  obtain ⟨L₁, hgrow, hL₁, hsize⟩ := (growTo_spec h size).1 (by omega)
  obtain ⟨L₂, hread, hat, hbuffer⟩ := readBytes_spec (by omega) (size + 1) size 0 pos hL₁ hpos (by omega)
    (Nat.lt_succ_self size)
  have hlen : ((f.drop pos).take size).length = size := by
    rw [List.length_take, List.length_drop]
    omega
  have hbytes : L₂.buffer.take size = (f.drop pos).take size := by
    rw [hbuffer, copyTo, List.take_zero, List.nil_append, List.take_append_of_le_length hlen.ge,
      List.take_of_length_le hlen.le]
  refine ⟨L₂, ?_, hat⟩
  simp only [cached, hgrow, Option.bind_some, hread, Option.map_some, if_true, hbytes]

/-- Each operation does what it does on the cursor. -/
theorem cached_step (h : At f L p) (hp : p ≤ f.length) (hf : f.length < 2 ^ 31) {o : Op} (ho : Within f o) :
    ∃ L', cached L o = some ((plain f p o).1, L') ∧ At f L' (plain f p o).2 ∧ (plain f p o).2 ≤ f.length := by
  cases o with
  | safeSeek pos =>
    obtain ⟨L', hseek, hat⟩ := safeSeek_at h.toSound ho (by have : pos ≤ f.length := ho; omega)
    exact ⟨L', by rw [cached, hseek]; rfl, hat, ho⟩
  | readByte =>
    obtain ⟨hmore, hend⟩ := readByte_at h hp (by omega)
    cases hget : f[p]? with
    | some b =>
      obtain ⟨hlt, hb⟩ := List.getElem?_eq_some_iff.1 hget
      obtain ⟨L', hread, hat⟩ := hmore b (f.drop (p + 1)) (by rw [List.drop_eq_getElem_cons hlt, hb])
      refine ⟨L', ?_, ?_, ?_⟩
      · simp only [cached, hread, plain, hget]
      · simpa only [plain, hget] using hat
      · simpa only [plain, hget] using Nat.succ_le_of_lt hlt
    | none =>
      obtain ⟨L', hread, hat⟩ := hend (List.drop_eq_nil_of_le (List.getElem?_eq_none_iff.1 hget))
      refine ⟨L', ?_, ?_, ?_⟩
      · simp only [cached, hread, plain, hget]
      · simpa only [plain, hget] using hat
      · simpa only [plain, hget] using hp
  | safeTell =>
    refine ⟨L, ?_, h, hp⟩
    rw [cached, safeTell_eq h]
    simp only [Option.map_some, plain, int32_sub32 (hp.trans hf.le)]
  | readBytes size pos =>
    obtain ⟨L', hread, hat⟩ := cached_readBytes h.toSound hf ho
    exact ⟨L', hread, hat, ho⟩

/-- In every sequence of operations the cache is a plain cursor, from any cursor on. -/
theorem cachedRun_at (hf : f.length < 2 ^ 31) : ∀ {ops : List Op} {L : FileLoader} {p : ℕ}, At f L p → p ≤ f.length →
    (∀ o ∈ ops, Within f o) →
    ∃ L', cachedRun L ops = some ((plainRun f p ops).1, L') ∧ At f L' (plainRun f p ops).2
  | [], L, p, h, _, _ => ⟨L, rfl, h⟩
  | o :: ops, L, p, h, hp, hops => by
    obtain ⟨L₁, hstep, hat, hle⟩ := cached_step h hp hf (hops o List.mem_cons_self)
    obtain ⟨L₂, hrun, hat₂⟩ := cachedRun_at hf hat hle fun o' ho' => hops o' (List.mem_cons_of_mem o ho')
    refine ⟨L₂, ?_, hat₂⟩
    rw [cachedRun, hstep, Option.bind_some, hrun]
    rfl

/-- After `openFile` the results are those of a cursor that starts behind the
identifier, and the last position is where that cursor is. -/
theorem cached_run (f : Bytes) (ops : List Op) (hid : 4 ≤ f.length) (hf : f.length < 2 ^ 31)
    (hops : ∀ o ∈ ops, Within f o) :
    ∃ L, cachedRun (opened f) ops = some ((plainRun f 4 ops).1, L) ∧ At f L (plainRun f 4 ops).2 :=
  cachedRun_at hf (opened_at hid) hid hops

theorem cached_run_six :
    ∃ L, cachedRun (opened [0, 0, 0, 0, 254, 7]) [.safeTell, .readByte, .readBytes 2 1, .safeSeek 6, .readByte] =
        some ((plainRun [0, 0, 0, 0, 254, 7] 4 [.safeTell, .readByte, .readBytes 2 1, .safeSeek 6, .readByte]).1, L) ∧
      At [0, 0, 0, 0, 254, 7] L
        (plainRun [0, 0, 0, 0, 254, 7] 4 [.safeTell, .readByte, .readBytes 2 1, .safeSeek 6, .readByte]).2 :=
  cached_run _ _ (by decide) (by decide) (by decide)

/-- In a file of 2³¹ + 1 bytes the position before the end is told as a negative one. -/
theorem cachedRun_ne_plainRun (f : Bytes) (hf : f.length = 2 ^ 31 + 1) :
    (cachedRun (opened f) [.safeSeek (2 ^ 31 + 1), .safeTell]).map Prod.fst ≠
      some (plainRun f 4 [.safeSeek (2 ^ 31 + 1), .safeTell]).1 := by
  obtain ⟨L, hseek, hat⟩ := @safeSeek_at f _ (2 ^ 31 + 1) (opened_at (by omega)).toSound hf.ge (by decide)
  have hrun : (cachedRun (opened f) [.safeSeek (2 ^ 31 + 1), .safeTell]).map Prod.fst =
      some [.done true, .position (some (-2 ^ 31))] := by
    simp only [cachedRun, cached, hseek, Option.bind_some, safeTell_eq hat]
    rfl
  rw [hrun]
  have hplain : (plainRun f 4 [.safeSeek (2 ^ 31 + 1), .safeTell]).1 =
      [.done true, .position (some ((2 ^ 31 + 1 : ℕ) - 1))] := rfl
  rw [hplain]
  simp

theorem not_cached_run_large : ¬ ∀ (f : Bytes) (ops : List Op), 4 ≤ f.length → (∀ o ∈ ops, Within f o) →
    (cachedRun (opened f) ops).map Prod.fst = some (plainRun f 4 ops).1 := by
  intro h
  obtain ⟨f, hf⟩ : ∃ f : Bytes, f.length = 2 ^ 31 + 1 := ⟨List.replicate (2 ^ 31 + 1) 0, List.length_replicate⟩
  refine cachedRun_ne_plainRun f hf (h f _ (by omega) fun o ho => ?_)
  simp only [List.mem_cons, List.not_mem_nil, or_false] at ho
  rcases ho with rfl | rfl
  · exact hf.ge
  · trivial

end Runs
end FileLoader
end ForgottenServer
