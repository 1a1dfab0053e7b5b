/-
# Little-endian fields of a byte stream

A number is written as a fixed count of bytes, low byte first, and read back
from the front of a stream; a block of bytes is read by its length.

Key definitions: `Bytes.put`, `Bytes.get`, `Bytes.take`, `Bytes.value`, `Bytes.nonzero`.
Key theorems: `Bytes.get_put`, `Bytes.take_append`, `Bytes.get_length`, `Bytes.value_put`, `Bytes.put_value`.
-/
import Mathlib.Tactic

namespace Bytes

/-- The `w` low bytes of `n`, low byte first. -/
def put : ℕ → ℕ → List UInt8
  | 0, _ => []
  | w + 1, n => UInt8.ofNat n :: put w (n / 256)

/-- A number of `w` bytes from the front of the stream. -/
def get : ℕ → List UInt8 → Option (ℕ × List UInt8)
  | 0, s => some (0, s)
  | _ + 1, [] => none
  | w + 1, b :: s => (get w s).map fun p => (b.toNat + 256 * p.1, p.2)

/-- A block of `n` bytes from the front of the stream. -/
def take (n : ℕ) (s : List UInt8) : Option (List UInt8 × List UInt8) :=
  if n ≤ s.length then some (s.take n, s.drop n) else none

/-- The number that bytes stand for, low byte first. -/
def value : List UInt8 → ℕ
  | [] => 0
  | b :: s => b.toNat + 256 * value s

@[simp] theorem length_put : ∀ w n : ℕ, (put w n).length = w
  | 0, _ => rfl
  | w + 1, n => by simp [put, length_put w]

/-- A number that was written is read back modulo its width. -/
theorem get_put : ∀ (w n : ℕ) (s : List UInt8), get w (put w n ++ s) = some (n % 256 ^ w, s)
  | 0, n, s => by simp [get, put, Nat.mod_one]
  | w + 1, n, s => by
    have hb : (UInt8.ofNat n).toNat = n % 256 := UInt8.toNat_ofNat'
    have hm : n % 256 ^ (w + 1) = n % 256 + 256 * (n / 256 % 256 ^ w) := by
      rw [pow_succ', Nat.mod_mul]
    simp only [put, List.cons_append, get, get_put w, Option.map_some, hb, hm]

theorem get_put_of_lt {w n : ℕ} (h : n < 256 ^ w) (s : List UInt8) :
    get w (put w n ++ s) = some (n, s) := by
  rw [get_put, Nat.mod_eq_of_lt h]

/-- Reading a number takes its bytes off the stream. -/
theorem get_length : ∀ {w : ℕ} {s : List UInt8} {n : ℕ} {t : List UInt8},
    get w s = some (n, t) → s.length = w + t.length
  | 0, s, n, t, h => by
    simp only [get, Option.some.injEq, Prod.mk.injEq] at h
    simp [h.2]
  | _ + 1, [], _, _, h => by simp [get] at h
  | w + 1, b :: s, n, t, h => by
    simp only [get, Option.map_eq_some_iff, Prod.mk.injEq] at h
    obtain ⟨⟨m, u⟩, hp, -, rfl⟩ := h
    have := get_length hp
    simp only [List.length_cons]
    omega

/-- What is read fits the width of the field. -/
theorem get_lt : ∀ {w : ℕ} {s : List UInt8} {n : ℕ} {t : List UInt8}, get w s = some (n, t) → n < 256 ^ w
  | 0, s, n, t, h => by
    simp only [get, Option.some.injEq, Prod.mk.injEq] at h
    rw [← h.1]
    exact Nat.one_pos
  | _ + 1, [], _, _, h => by simp [get] at h
  | w + 1, b :: s, n, t, h => by
    simp only [get, Option.map_eq_some_iff, Prod.mk.injEq] at h
    obtain ⟨⟨m, u⟩, hp, rfl, -⟩ := h
    have hm := get_lt hp
    have hb := b.toNat_lt
    rw [pow_succ]
    dsimp only
    omega

theorem take_append (a s : List UInt8) : take a.length (a ++ s) = some (a, s) := by
  simp [take]

theorem take_length {n : ℕ} {s a t : List UInt8} (h : take n s = some (a, t)) :
    s.length = n + t.length := by
  unfold take at h
  split at h
  · next hn =>
    simp only [Option.some.injEq, Prod.mk.injEq] at h
    simp only [← h.2, List.length_drop]
    omega
  · cases h

theorem length_of_take {n : ℕ} {s a t : List UInt8} (h : take n s = some (a, t)) : a.length = n := by
  unfold take at h
  split at h
  · next hn =>
    simp only [Option.some.injEq, Prod.mk.injEq] at h
    rw [← h.1, List.length_take, Nat.min_eq_left hn]
  · cases h

theorem value_put : ∀ w n : ℕ, value (put w n) = n % 256 ^ w
  | 0, n => by simp [put, value, Nat.mod_one]
  | w + 1, n => by
    have hb : (UInt8.ofNat n).toNat = n % 256 := UInt8.toNat_ofNat'
    unfold put value
    rw [hb, value_put w, pow_succ', Nat.mod_mul]

theorem value_put_of_lt {w n : ℕ} (h : n < 256 ^ w) : value (put w n) = n := by
  rw [value_put, Nat.mod_eq_of_lt h]

/-- Bytes are written again from the number they stand for. -/
theorem put_value : ∀ s : List UInt8, put s.length (value s) = s
  | [] => rfl
  | b :: s => by
    have hb : b.toNat < 256 := b.toNat_lt
    have hmod : (b.toNat + 256 * value s) % 256 = b.toNat := by omega
    have hdiv : (b.toNat + 256 * value s) / 256 = value s := by omega
    unfold value
    rw [List.length_cons]
    unfold put
    rw [hdiv, put_value s]
    congr 1
    apply UInt8.toNat_inj.1
    rw [UInt8.toNat_ofNat']
    exact hmod

theorem value_lt : ∀ s : List UInt8, value s < 256 ^ s.length
  | [] => Nat.one_pos
  | b :: s => by
    have hb : b.toNat < 256 := b.toNat_lt
    have hs := value_lt s
    unfold value
    rw [List.length_cons, pow_succ']
    omega

/-- Bytes of one length are told apart by the number they stand for. -/
theorem value_inj : ∀ {s t : List UInt8}, s.length = t.length → value s = value t → s = t
  | [], [], _, _ => rfl
  | b :: s, c :: t, hlen, h => by
    have hb : b.toNat < 256 := b.toNat_lt
    have hc : c.toNat < 256 := c.toNat_lt
    unfold value at h
    have hbc : b = c := UInt8.toNat_inj.1 (by omega)
    have hst : value s = value t := by
      rw [hbc] at h
      omega
    rw [hbc, value_inj (Nat.succ.inj hlen) hst]

/-! ### Bytes that are not zero -/

/-- How many bytes are not zero. -/
def nonzero (s : List UInt8) : ℕ := s.countP (· ≠ 0)

@[simp] theorem nonzero_nil : nonzero [] = 0 := rfl

@[simp] theorem nonzero_append (s t : List UInt8) : nonzero (s ++ t) = nonzero s + nonzero t :=
  List.countP_append

theorem nonzero_take_add_drop (n : ℕ) (s : List UInt8) : nonzero (s.take n) + nonzero (s.drop n) = nonzero s := by
  rw [← nonzero_append, List.take_append_drop]

@[simp] theorem nonzero_put_zero : ∀ w : ℕ, nonzero (put w 0) = 0
  | 0 => rfl
  | w + 1 => by
    have ih : List.countP (fun b : UInt8 => decide (b ≠ 0)) (put w 0) = 0 := nonzero_put_zero w
    simp only [put, Nat.zero_div, nonzero, List.countP_cons, ih]
    rfl

/-- Bytes that are all zero stand for zero. -/
theorem value_of_nonzero_eq_zero : ∀ {s : List UInt8}, nonzero s = 0 → value s = 0
  | [], _ => rfl
  | b :: s, h => by
    have hall : ∀ c ∈ b :: s, c = 0 := by simpa [nonzero, List.countP_eq_zero] using h
    have hs : nonzero s = 0 := by
      simpa [nonzero, List.countP_eq_zero] using fun c hc => hall c (List.mem_cons_of_mem b hc)
    rw [value, value_of_nonzero_eq_zero hs, hall b List.mem_cons_self]
    rfl

end Bytes
