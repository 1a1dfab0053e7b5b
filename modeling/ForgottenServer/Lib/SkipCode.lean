/-
# Run-length codes of gaps

A row of cells, some with a payload, is written as the payloads, each with the
number of empty cells behind it. `marker k` stands for `k` empty cells and ends
a payload; a run of more than `limit` empty cells is split. The writer keeps
the number of empty cells it has not written yet, or none if nothing is owed:
then the next empty cell counts as a cell with an empty payload.

Key definitions: `SkipCode.encode`, `SkipCode.decode`, `SkipCode.Reads`.
Key theorems: `SkipCode.decode_encode`.
-/
import Mathlib.Tactic

namespace SkipCode

variable {α : Type*} (marker : ℕ → List α) (limit : ℕ)

/-- The marker that is owed. -/
def owed : Option ℕ → List α
  | some k => marker k
  | none => []

/-- The cells written one after another, with the empty cells not written yet. -/
def encode : Option ℕ → List (Option (List α)) → List α
  | skip, [] => owed marker skip
  | skip, some payload :: cells => owed marker skip ++ (payload ++ encode (some 0) cells)
  | some k, none :: cells =>
    if k = limit then marker (limit + 1) ++ encode none cells else encode (some (k + 1)) cells
  | none, none :: cells => encode (some 0) cells

/-- `n` cells read, the first `skip` of them empty. `read` takes a payload and
its marker from the front of the stream. -/
def decode (read : List α → Option (List α × ℕ × List α)) :
    ℕ → ℕ → List α → Option (List (List α) × List α)
  | 0, _, s => some ([], s)
  | n + 1, skip + 1, s => (decode read n skip s).map fun r => ([] :: r.1, r.2)
  | n + 1, 0, s =>
    (read s).bind fun v => (decode read n v.2.1 v.2.2).map fun r => (v.1 :: r.1, r.2)

/-- A payload is read back with the marker behind it. -/
def Reads (read : List α → Option (List α × ℕ × List α)) (payload : List α) : Prop :=
  ∀ k ≤ limit + 1, ∀ s, read (payload ++ (marker k ++ s)) = some (payload, k, s)

variable {marker limit} {read : List α → Option (List α × ℕ × List α)}

/-- `s` follows the cells that are written: from nothing owed they are read back;
from `j` empty cells owed a marker comes first, and the cells it leaves are. -/
structure Decodes (marker : ℕ → List α) (limit : ℕ) (read : List α → Option (List α × ℕ × List α))
    (cells : List (Option (List α))) (s : List α) : Prop where
  fresh : decode read cells.length 0 (encode marker limit none cells ++ s) =
    some (cells.map (·.getD []), s)
  owing : ∀ j ≤ limit, ∃ k t, j ≤ k ∧ k ≤ limit + 1 ∧
    encode marker limit (some j) cells ++ s = marker k ++ t ∧
      decode read cells.length (k - j) t = some (cells.map (·.getD []), s)

/-- A payload, and the marker that is owed behind it. -/
theorem Decodes.read_payload {cells : List (Option (List α))} {s payload : List α}
    (h : Decodes marker limit read cells s) (hreads : Reads marker limit read payload) :
    decode read (cells.length + 1) 0 (payload ++ (encode marker limit (some 0) cells ++ s)) =
      some (payload :: cells.map (·.getD []), s) := by
  obtain ⟨k, t, -, hk, hencode, hdecode⟩ := h.owing 0 (Nat.zero_le limit)
  unfold decode
  rw [hencode, hreads k hk, Option.bind_some]
  dsimp only
  rw [Nat.sub_zero] at hdecode
  rw [hdecode]
  rfl

theorem decodes (hempty : Reads marker limit read []) (cells : List (Option (List α)))
    (s : List α) (hreads : ∀ payload, some payload ∈ cells → Reads marker limit read payload) :
    Decodes marker limit read cells s := by
  induction cells with
  | nil => exact ⟨rfl, fun j hj => ⟨j, s, le_refl j, by omega, rfl, rfl⟩⟩
  | cons cell cells ih =>
    specialize ih fun payload h => hreads payload (List.mem_cons_of_mem _ h)
    cases cell with
    | some payload =>
      have hread := ih.read_payload (hreads payload List.mem_cons_self)
      constructor
      · show decode read (cells.length + 1) 0 ((payload ++ encode marker limit (some 0) cells) ++ s) = _
        rw [List.append_assoc]
        exact hread
      · intro j hj
        refine ⟨j, _, le_refl j, by omega, List.append_assoc _ _ s, ?_⟩
        rw [Nat.sub_self, List.append_assoc]
        exact hread
    | none =>
      constructor
      · exact ih.read_payload hempty
      · intro j hj
        by_cases hlimit : j = limit
        · refine ⟨limit + 1, encode marker limit none cells ++ s, by omega, le_refl _, ?_, ?_⟩
          · show (if j = limit then _ else _) ++ s = _
            rw [if_pos hlimit, List.append_assoc]
          · rw [hlimit, Nat.add_sub_cancel_left]
            show (decode read cells.length 0 _).map _ = _
            rw [ih.fresh]
            rfl
        · obtain ⟨k, t, hle, hk, hencode, hdecode⟩ := ih.owing (j + 1) (by omega)
          refine ⟨k, t, by omega, hk, ?_, ?_⟩
          · show (if j = limit then _ else _) ++ s = _
            rw [if_neg hlimit]
            exact hencode
          · obtain ⟨d, rfl⟩ := Nat.exists_eq_add_of_le hle
            rw [show j + 1 + d - j = (j + 1 + d - (j + 1)) + 1 by omega]
            show (decode read cells.length _ t).map _ = _
            rw [hdecode]
            rfl

/-- A payload is no longer than what is written. -/
theorem length_le_encode (marker : ℕ → List α) (limit : ℕ) {payload : List α} :
    ∀ (cells : List (Option (List α))) (skip : Option ℕ), some payload ∈ cells →
      payload.length ≤ (encode marker limit skip cells).length
  | [], _, h => by cases h
  | some first :: cells, skip, h => by
    show _ ≤ (owed marker skip ++ (first ++ encode marker limit (some 0) cells)).length
    rw [List.length_append, List.length_append]
    rcases List.mem_cons.1 h with heq | h
    · rw [Option.some.inj heq]
      omega
    · have := length_le_encode marker limit cells (some 0) h
      omega
  | none :: cells, none, h => length_le_encode marker limit cells (some 0) (List.mem_of_ne_of_mem (by simp) h)
  | none :: cells, some k, h => by
    have hmem : some payload ∈ cells := List.mem_of_ne_of_mem (by simp) h
    show _ ≤ (if k = limit then _ else _ : List α).length
    split
    · have := length_le_encode marker limit cells none hmem
      rw [List.length_append]
      omega
    · exact length_le_encode marker limit cells (some (k + 1)) hmem

/-- What is written is read back, whatever follows. -/
theorem decode_encode (hempty : Reads marker limit read []) (cells : List (Option (List α)))
    (hreads : ∀ payload, some payload ∈ cells → Reads marker limit read payload) (s : List α) :
    decode read cells.length 0 (encode marker limit none cells ++ s) =
      some (cells.map (·.getD []), s) :=
  (decodes hempty cells s hreads).fresh

end SkipCode
