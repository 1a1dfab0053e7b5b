/-
# Hashing passwords

`transformToSHA1` takes in a string byte by byte. It fills a block of 64 bytes,
counts the bits in two words of 32 bits, and processes the block when it is full.
At the end it puts the one bit, zeros and the count behind the string, in one
block more if the count does not fit, and writes the words of the hash in
hexadecimal digits.

The hash words are at any time those of the full blocks of the bytes so far, and
the block holds the bytes after these.

Key definitions: `processSHA1MessageBlock`, `HashState`, `feed`, `transformToSHA1`.
Key theorems: `digestOf_process`, `fed_foldl`, `transformToSHA1_eq`.
-/
import ForgottenServer.Lib.Sha1
import ForgottenServer.Item
import Mathlib.Data.List.GetD

namespace ForgottenServer
namespace Tools

/-! ### The model -/

def circularShift (bits value : UInt32) : UInt32 := value <<< bits ||| value >>> (32 - bits)

/-- The array `H`, and the variables `A` to `E`. -/
structure Hash where
  A : UInt32
  B : UInt32
  C : UInt32
  D : UInt32
  E : UInt32

/-- A round of one of the four loops, which differ in a function and a constant. -/
def round (f : UInt32 → UInt32 → UInt32 → UInt32) (k : UInt32) (W : List UInt32) (v : Hash) (i : ℕ) : Hash :=
  let tmp := circularShift 5 v.A + f v.B v.C v.D + v.E + W.getD i 0 + k
  { A := tmp, B := v.A, C := circularShift 30 v.B, D := v.C, E := v.D }

/-- The array `W`: each loop fills it further. -/
def words (messageBlock : Bytes) : List UInt32 :=
  let byte (i : ℕ) : UInt32 := (messageBlock.getD i 0).toUInt32
  let W := (List.range 16).map fun i =>
    let offset := 4 * i
    byte offset <<< 24 ||| byte (offset + 1) <<< 16 ||| byte (offset + 2) <<< 8 ||| byte (offset + 3)
  (List.range' 16 64).foldl (fun W i =>
    W ++ [circularShift 1 (W.getD (i - 3) 0 ^^^ W.getD (i - 8) 0 ^^^ W.getD (i - 14) 0 ^^^ W.getD (i - 16) 0)]) W

def processSHA1MessageBlock (messageBlock : Bytes) (H : Hash) : Hash :=
  let W := words messageBlock
  let v := (List.range' 0 20).foldl (round (fun B C D => (B &&& C) ||| (~~~B &&& D)) 0x5A827999 W) H
  let v := (List.range' 20 20).foldl (round (fun B C D => B ^^^ C ^^^ D) 0x6ED9EBA1 W) v
  let v := (List.range' 40 20).foldl
    (round (fun B C D => (B &&& C) ||| (B &&& D) ||| (C &&& D)) 0x8F1BBCDC W) v
  let v := (List.range' 60 20).foldl (round (fun B C D => B ^^^ C ^^^ D) 0xCA62C1D6 W) v
  { A := H.A + v.A, B := H.B + v.B, C := H.C + v.C, D := H.D + v.D, E := H.E + v.E }

/-- The variables of `transformToSHA1` in its loop over the string. -/
structure HashState where
  H : Hash
  messageBlock : Bytes
  index : ℕ
  lengthLow : UInt32
  lengthHigh : UInt32

def initialHash : Hash :=
  { A := 0x67452301, B := 0xEFCDAB89, C := 0x98BADCFE, D := 0x10325476, E := 0xC3D2E1F0 }

/-- What the arrays hold before they are written. -/
structure Memory where
  messageBlock : Bytes
  hexstring : List Char
  length_messageBlock : messageBlock.length = 64
  length_hexstring : hexstring.length = 41

def start (memory : Memory) : HashState := ⟨initialHash, memory.messageBlock, 0, 0, 0⟩

/-- The loop body for one byte of the string. -/
def feed (s : HashState) (ch : UInt8) : HashState :=
  let messageBlock := s.messageBlock.set s.index ch
  let index := s.index + 1
  let lengthLow := s.lengthLow + 8
  let lengthHigh := if lengthLow = 0 then s.lengthHigh + 1 else s.lengthHigh
  if index = 64 then ⟨processSHA1MessageBlock messageBlock s.H, messageBlock, 0, lengthLow, lengthHigh⟩
  else ⟨s.H, messageBlock, index, lengthLow, lengthHigh⟩

/-- `while (index < limit)` with zeros put into the block. -/
def zeroTo (limit : ℕ) (messageBlock : Bytes) (index : ℕ) : Bytes :=
  (List.range' index (limit - index)).foldl (fun b i => b.set i 0) messageBlock

/-- The count of the bits, behind the zeros. -/
def putLength (lengthHigh lengthLow : UInt32) (messageBlock : Bytes) : Bytes :=
  (((((((messageBlock.set 56 (lengthHigh >>> 24).toUInt8).set 57 (lengthHigh >>> 16).toUInt8).set 58
    (lengthHigh >>> 8).toUInt8).set 59 lengthHigh.toUInt8).set 60 (lengthLow >>> 24).toUInt8).set 61
      (lengthLow >>> 16).toUInt8).set 62 (lengthLow >>> 8).toUInt8).set 63 lengthLow.toUInt8

/-- What follows the string; the hash words. -/
def finish (s : HashState) : Hash :=
  let messageBlock := s.messageBlock.set s.index 0x80
  let index := s.index + 1
  if 56 < index then
    let messageBlock := zeroTo 64 messageBlock index
    let H := processSHA1MessageBlock messageBlock s.H
    processSHA1MessageBlock (putLength s.lengthHigh s.lengthLow (zeroTo 56 messageBlock 0)) H
  else processSHA1MessageBlock (putLength s.lengthHigh s.lengthLow (zeroTo 56 messageBlock index)) s.H

def hexDigits : List Char := "0123456789abcdef".toList

/-- The loop that writes the digits, from the last byte of the hash to the first. -/
def hexLoop (hexstring : List Char) (H : Hash) : List Char :=
  (List.range 20).reverse.foldl (fun hexstring hashByte =>
    let word := [H.A, H.B, H.C, H.D, H.E].getD (hashByte / 4) 0
    let byte := (word >>> .ofNat (((3 - (hashByte : ℤ)) % 4).toNat * 8)).toUInt8
    let index := 2 * hashByte
    (hexstring.set index (hexDigits.getD (byte >>> 4).toNat ' ')).set (index + 1)
      (hexDigits.getD (byte &&& 15).toNat ' ')) hexstring

def transformToSHA1 (memory : Memory) (input : Bytes) : List Char :=
  (hexLoop memory.hexstring (finish (input.foldl feed (start memory)))).take 40

/-! ### A block -/

section Block

variable {block : Bytes}

/-- The hash words as those of the digest. -/
def digestOf (H : Hash) : Sha1.Digest := ⟨H.A, H.B, H.C, H.D, H.E⟩

theorem choose_eq (x y z : UInt32) : (x &&& y) ||| (~~~x &&& z) = Sha1.choose x y z := by
  rw [Sha1.choose, ← UInt32.toBitVec_inj]
  simp only [UInt32.toBitVec_or, UInt32.toBitVec_and, UInt32.toBitVec_xor, UInt32.toBitVec_not]
  ext i
  simp only [BitVec.getElem_or, BitVec.getElem_and, BitVec.getElem_xor, BitVec.getElem_not]
  cases x.toBitVec[i] <;> cases y.toBitVec[i] <;> cases z.toBitVec[i] <;> rfl

theorem majority_eq (x y z : UInt32) : (x &&& y) ||| (x &&& z) ||| (y &&& z) = Sha1.majority x y z := by
  rw [Sha1.majority, ← UInt32.toBitVec_inj]
  simp only [UInt32.toBitVec_or, UInt32.toBitVec_and, UInt32.toBitVec_xor]
  ext i
  simp only [BitVec.getElem_or, BitVec.getElem_and, BitVec.getElem_xor]
  cases x.toBitVec[i] <;> cases y.toBitVec[i] <;> cases z.toBitVec[i] <;> rfl

/-- Four bytes shifted to their places. -/
theorem word_eq (a b c d : UInt8) :
    a.toUInt32 <<< 24 ||| b.toUInt32 <<< 16 ||| c.toUInt32 <<< 8 ||| d.toUInt32 =
      .ofNat (((a.toNat * 256 + b.toNat) * 256 + c.toNat) * 256 + d.toNat) := by
  have ha := a.toNat_lt
  have hb := b.toNat_lt
  have hc := c.toNat_lt
  have hd := d.toNat_lt
  have hcd : c.toNat <<< 8 ||| d.toNat = c.toNat * 256 + d.toNat := by
    rw [← Nat.shiftLeft_add_eq_or_of_lt (by omega), Nat.shiftLeft_eq]
  have hbcd : b.toNat <<< 16 ||| (c.toNat * 256 + d.toNat) = (b.toNat * 256 + c.toNat) * 256 + d.toNat := by
    rw [← Nat.shiftLeft_add_eq_or_of_lt (by omega), Nat.shiftLeft_eq]
    omega
  have habcd : a.toNat <<< 24 ||| ((b.toNat * 256 + c.toNat) * 256 + d.toNat) =
      ((a.toNat * 256 + b.toNat) * 256 + c.toNat) * 256 + d.toNat := by
    rw [← Nat.shiftLeft_add_eq_or_of_lt (by omega), Nat.shiftLeft_eq]
    omega
  have hshift (x : UInt8) (n : UInt32) (hn : n.toNat ≤ 24) : (x.toUInt32 <<< n).toNat = x.toNat <<< n.toNat := by
    have hx := x.toNat_lt
    have hpow : 2 ^ n.toNat ≤ 2 ^ 24 := Nat.pow_le_pow_right (by omega) hn
    have hn' : n.toNat % 32 = n.toNat := Nat.mod_eq_of_lt (by omega)
    rw [UInt32.toNat_shiftLeft, UInt8.toNat_toUInt32, hn', Nat.shiftLeft_eq]
    exact Nat.mod_eq_of_lt (by nlinarith)
  rw [← UInt32.toNat_inj, UInt32.toNat_or, UInt32.toNat_or, UInt32.toNat_or, hshift a 24 (by decide),
    hshift b 16 (by decide), hshift c 8 (by decide), UInt8.toNat_toUInt32, Nat.or_assoc, Nat.or_assoc]
  change a.toNat <<< 24 ||| (b.toNat <<< 16 ||| (c.toNat <<< 8 ||| d.toNat)) = _
  rw [hcd, hbcd, habcd, UInt32.toNat_ofNat_of_lt' (by norm_num [UInt32.size]; omega)]

/-- The array `W` after some rounds of its second loop. -/
theorem words_spec (block : Bytes) : ∀ k, ∃ W,
    (List.range' 16 k).foldl (fun W i =>
      W ++ [circularShift 1 (W.getD (i - 3) 0 ^^^ W.getD (i - 8) 0 ^^^ W.getD (i - 14) 0 ^^^ W.getD (i - 16) 0)])
      ((List.range 16).map (Sha1.word block)) = W ∧ W.length = 16 + k ∧
    (∀ t < 16, W.getD t 0 = Sha1.word block t) ∧
    ∀ t, 16 ≤ t → t < 16 + k →
      W.getD t 0 = circularShift 1 (W.getD (t - 3) 0 ^^^ W.getD (t - 8) 0 ^^^ W.getD (t - 14) 0 ^^^ W.getD (t - 16) 0)
  | 0 => by
    refine ⟨_, rfl, by simp, fun t ht => ?_, fun t h₁ h₂ => absurd h₁ (by omega)⟩
    simp [List.getD_eq_getElem?_getD, ht]
  | k + 1 => by
    obtain ⟨W, hW, hlen, hfirst, hnext⟩ := words_spec block k
    rw [List.range'_concat, List.foldl_append, hW]
    refine ⟨_, rfl, by simp [hlen]; omega, fun t ht => ?_, fun t h₁ h₂ => ?_⟩
    · rw [Nat.one_mul, List.foldl_cons, List.foldl_nil, List.getD_append _ _ _ _ (by omega), hfirst t ht]
    · -- the words that are read stand in front of the new one
      have hread (j : ℕ) (hj : j < 16 + k) (x : UInt32) : (W ++ [x]).getD j 0 = W.getD j 0 :=
        List.getD_append _ _ _ _ (by omega)
      rw [Nat.one_mul, List.foldl_cons, List.foldl_nil, hread (t - 3) (by omega), hread (t - 8) (by omega),
        hread (t - 14) (by omega), hread (t - 16) (by omega)]
      rcases (show t < 16 + k ∨ t = 16 + k by omega) with ht | rfl
      · rw [hread t ht, hnext t h₁ ht]
      · rw [List.getD_append_right _ _ _ _ (by omega), hlen, Nat.sub_self]
        rfl

theorem words_eq (block : Bytes) {t : ℕ} (ht : t < 80) :
    (words block).getD t 0 = Sha1.schedule (Sha1.word block) t := by
  obtain ⟨W, hW, -, hfirst, hnext⟩ := words_spec block 64
  have hmap : (List.range 16).map (fun i =>
      (block.getD (4 * i) 0).toUInt32 <<< 24 ||| (block.getD (4 * i + 1) 0).toUInt32 <<< 16 |||
        (block.getD (4 * i + 2) 0).toUInt32 <<< 8 ||| (block.getD (4 * i + 3) 0).toUInt32) =
      (List.range 16).map (Sha1.word block) :=
    List.map_congr_left fun i _ => word_eq _ _ _ _
  have hwords : words block = W := by
    rw [← hW, ← hmap]
    rfl
  rw [hwords]
  exact Sha1.schedule_of_recurrence hfirst hnext t ht

/-- The rounds of one of the loops are those of the digest. -/
theorem digestOf_rounds {f : UInt32 → UInt32 → UInt32 → UInt32} {c : UInt32} {W : List UInt32} {S : ℕ → UInt32} :
    ∀ (l : List ℕ) {v : Hash}, (∀ i ∈ l, Sha1.function i = f ∧ Sha1.constant i = c ∧ W.getD i 0 = S i) →
      digestOf (l.foldl (round f c W) v) = l.foldl (Sha1.round S) (digestOf v)
  | [], _, _ => rfl
  | i :: l, v, h => by
    obtain ⟨hf, hc, hS⟩ := h i List.mem_cons_self
    have hround : digestOf (round f c W v i) = Sha1.round S (digestOf v) i := by
      simp only [round, Sha1.round, digestOf, hf, hc, hS, Sha1.Digest.mk.injEq, and_true]
      refine ⟨?_, trivial, rfl⟩
      rw [UInt32.add_assoc, UInt32.add_comm (S i), ← UInt32.add_assoc]
      rfl
    rw [List.foldl_cons, List.foldl_cons, ← hround]
    exact digestOf_rounds l fun j hj => h j (List.mem_cons_of_mem i hj)

theorem range_rounds : List.range 80 = List.range' 0 20 ++ List.range' 20 20 ++ List.range' 40 20 ++ List.range' 60 20 := by
  decide

/-- Twenty rounds with one function and one constant. -/
theorem digestOf_loop {f : UInt32 → UInt32 → UInt32 → UInt32} {c : UInt32} {a : ℕ} (ha : a + 20 ≤ 80)
    (hround : ∀ i, a ≤ i → i < a + 20 → Sha1.function i = f ∧ Sha1.constant i = c) (v : Hash) :
    digestOf ((List.range' a 20).foldl (round f c (words block)) v) =
      (List.range' a 20).foldl (Sha1.round (Sha1.schedule (Sha1.word block))) (digestOf v) := by
  refine digestOf_rounds _ fun i hi => ?_
  rw [List.mem_range'_1] at hi
  obtain ⟨hf, hc⟩ := hround i hi.1 hi.2
  exact ⟨hf, hc, words_eq block (by omega)⟩

/-- A block is processed as it is taken in by the digest. -/
theorem digestOf_process (block : Bytes) (H : Hash) :
    digestOf (processSHA1MessageBlock block H) = Sha1.compress (digestOf H) block := by
  have hchoose : (fun B C D : UInt32 => (B &&& C) ||| (~~~B &&& D)) = Sha1.choose :=
    funext fun x => funext fun y => funext fun z => choose_eq x y z
  have hmajority : (fun B C D : UInt32 => (B &&& C) ||| (B &&& D) ||| (C &&& D)) = Sha1.majority :=
    funext fun x => funext fun y => funext fun z => majority_eq x y z
  have hparity : (fun B C D : UInt32 => B ^^^ C ^^^ D) = Sha1.parity := rfl
  have h₀ := @digestOf_loop block Sha1.choose 0x5A827999 0 (by omega) fun i _ hi =>
    ⟨if_pos (by omega), if_pos (by omega)⟩
  have h₂₀ := @digestOf_loop block Sha1.parity 0x6ED9EBA1 20 (by omega) fun i h hi =>
    ⟨by rw [Sha1.function, if_neg (by omega), if_pos (by omega)],
      by rw [Sha1.constant, if_neg (by omega), if_pos (by omega)]⟩
  have h₄₀ := @digestOf_loop block Sha1.majority 0x8F1BBCDC 40 (by omega) fun i h hi =>
    ⟨by rw [Sha1.function, if_neg (by omega), if_neg (by omega), if_pos (by omega)],
      by rw [Sha1.constant, if_neg (by omega), if_neg (by omega), if_pos (by omega)]⟩
  have h₆₀ := @digestOf_loop block Sha1.parity 0xCA62C1D6 60 (by omega) fun i h hi =>
    ⟨by rw [Sha1.function, if_neg (by omega), if_neg (by omega), if_neg (by omega)],
      by rw [Sha1.constant, if_neg (by omega), if_neg (by omega), if_neg (by omega)]⟩
  rw [Sha1.compress, range_rounds, List.foldl_append, List.foldl_append, List.foldl_append, ← h₀, ← h₂₀, ← h₄₀,
    ← h₆₀, ← hchoose, ← hmajority, ← hparity]
  rfl

end Block

/-! ### The string -/

section String

variable {s : HashState} {m : Bytes}

/-- After a write at some place, the bytes up to and with that place. -/
theorem take_set_succ {α : Type*} {l : List α} {i : ℕ} (a : α) (h : i < l.length) :
    (l.set i a).take (i + 1) = l.take i ++ [a] := by
  have hlen : (l.take i).length = i := by
    rw [List.length_take]
    omega
  rw [List.set_eq_take_append_cons_drop, if_pos h, List.take_append, hlen, Nat.add_sub_cancel_left,
    List.take_of_length_le (by omega)]
  rfl

/-- What the variables of the loop are after some bytes. -/
structure Fed (s : HashState) (m : Bytes) : Prop where
  H : digestOf s.H = Sha1.chain m (m.length / 64)
  length_block : s.messageBlock.length = 64
  index : s.index = m.length % 64
  rest : s.messageBlock.take s.index = m.drop (64 * (m.length / 64))
  lengthLow : s.lengthLow = .ofNat (8 * m.length)
  lengthHigh : s.lengthHigh = .ofNat (8 * m.length / 2 ^ 32)

theorem fed_start (memory : Memory) : Fed (start memory) [] where
  H := rfl
  length_block := memory.length_messageBlock
  index := rfl
  rest := rfl
  lengthLow := rfl
  lengthHigh := rfl

namespace Fed

theorem index_lt (h : Fed s m) : s.index < s.messageBlock.length := by
  rw [h.index, h.length_block]
  exact Nat.mod_lt _ (by omega)

/-- The count with eight bits more. -/
theorem lengthLow_add (h : Fed s m) (ch : UInt8) : s.lengthLow + 8 = .ofNat (8 * (m ++ [ch]).length) := by
  rw [h.lengthLow, List.length_append, List.length_singleton, Nat.mul_add, UInt32.ofNat_add]
  rfl

theorem lengthHigh_add (h : Fed s m) (ch : UInt8) :
    (if s.lengthLow + 8 = 0 then s.lengthHigh + 1 else s.lengthHigh) = .ofNat (8 * (m ++ [ch]).length / 2 ^ 32) := by
  have hzero : s.lengthLow + 8 = 0 ↔ (8 * m.length + 8) % 2 ^ 32 = 0 := by
    rw [h.lengthLow_add ch, ← UInt32.toNat_inj, UInt32.toNat_ofNat, List.length_append, List.length_singleton]
    rfl
  rw [h.lengthHigh, List.length_append, List.length_singleton]
  split
  · next hcarry =>
    have hdiv : 8 * (m.length + 1) / 2 ^ 32 = 8 * m.length / 2 ^ 32 + 1 := by
      have := hzero.1 hcarry
      omega
    rw [hdiv, UInt32.ofNat_add]
    rfl
  · next hcarry =>
    have hdiv : 8 * (m.length + 1) / 2 ^ 32 = 8 * m.length / 2 ^ 32 := by
      have := mt hzero.2 hcarry
      omega
    rw [hdiv]

/-- The bytes that are not in a full block, with one more. -/
theorem take_set (h : Fed s m) (ch : UInt8) :
    (s.messageBlock.set s.index ch).take (s.index + 1) = m.drop (64 * (m.length / 64)) ++ [ch] := by
  rw [take_set_succ ch h.index_lt, h.rest]

/-- One byte is taken in. -/
theorem feed (h : Fed s m) (ch : UInt8) : Fed (feed s ch) (m ++ [ch]) := by
  have hlen : (m ++ [ch]).length = m.length + 1 := by simp
  have hset : (s.messageBlock.set s.index ch).length = 64 := by rw [List.length_set, h.length_block]
  have hindex := h.index
  have hdrop := h.take_set ch
  unfold Tools.feed
  dsimp only
  split
  · next hfull =>
    -- the block is full: it is the next one of the message
    have hdiv : (m ++ [ch]).length / 64 = m.length / 64 + 1 := by omega
    have hblock : s.messageBlock.set s.index ch = m.drop (64 * (m.length / 64)) ++ [ch] := by
      rw [← hdrop, List.take_of_length_le (by omega)]
    refine ⟨?_, hset, by simp only; omega, ?_, h.lengthLow_add ch, h.lengthHigh_add ch⟩
    · rw [digestOf_process, h.H, hdiv, hblock, Sha1.chain_fill (by omega) (by rw [← hblock, hset])]
    · rw [List.take_zero, List.drop_of_length_le (by omega)]
  · next hfull =>
    have hdiv : (m ++ [ch]).length / 64 = m.length / 64 := by omega
    refine ⟨?_, hset, by simp only; omega, ?_, h.lengthLow_add ch, h.lengthHigh_add ch⟩
    · rw [h.H, hdiv, Sha1.chain_append (by omega)]
    · rw [hdiv, hdrop, List.drop_append_of_le_length (by omega)]

end Fed

/-- The variables after the loop over the string. -/
theorem fed_foldl (memory : Memory) (m : Bytes) : Fed (m.foldl feed (start memory)) m := by
  induction m using List.reverseRecOn with
  | nil => exact fed_start memory
  | append_singleton m ch ih =>
    rw [List.foldl_append]
    exact ih.feed ch

/-! ### The end -/

theorem length_zeroTo (limit : ℕ) (b : Bytes) (index : ℕ) : (zeroTo limit b index).length = b.length := by
  unfold zeroTo
  generalize List.range' index (limit - index) = places
  induction places generalizing b with
  | nil => rfl
  | cons i places ih => rw [List.foldl_cons, ih, List.length_set]

/-- The zeros stand behind the bytes before. -/
theorem take_foldl_zero : ∀ (k : ℕ) (b : Bytes) (index : ℕ), index + k ≤ b.length →
    ((List.range' index k).foldl (fun b i => b.set i 0) b).take (index + k) = b.take index ++ List.replicate k 0
  | 0, b, index, _ => by simp
  | k + 1, b, index, h => by
    have hplaces : index + (k + 1) = index + 1 + k := by omega
    rw [List.range'_succ, List.foldl_cons, hplaces, take_foldl_zero k _ _ (by rw [List.length_set]; omega),
      take_set_succ 0 (by omega), List.append_assoc]
    rfl

theorem take_zeroTo {limit index : ℕ} {b : Bytes} (hindex : index ≤ limit) (hlimit : limit ≤ b.length) :
    (zeroTo limit b index).take limit = b.take index ++ List.replicate (limit - index) 0 := by
  have htake := take_foldl_zero (limit - index) b index (by omega)
  rwa [Nat.add_sub_cancel' hindex] at htake

/-- A byte of a word. -/
theorem shift_byte (w : UInt32) {k : ℕ} (hk : k < 4) :
    (w >>> UInt32.ofNat (8 * k)).toUInt8 = UInt8.ofNat (w.toNat / 256 ^ k) := by
  have hshift : (UInt32.ofNat (8 * k)).toNat % 32 = 8 * k := by
    rw [UInt32.toNat_ofNat']
    omega
  rw [← UInt8.toNat_inj, UInt32.toNat_toUInt8, UInt32.toNat_shiftRight, hshift, UInt8.toNat_ofNat',
    Nat.shiftRight_eq_div_pow, pow_mul]
  norm_num

theorem wordBytes_eq (w : UInt32) :
    Sha1.wordBytes w = [(w >>> 24).toUInt8, (w >>> 16).toUInt8, (w >>> 8).toUInt8, (w >>> 0).toUInt8] := by
  have h₃ : (w >>> 24).toUInt8 = UInt8.ofNat (w.toNat / 256 ^ 3) := @shift_byte w 3 (by omega)
  have h₂ : (w >>> 16).toUInt8 = UInt8.ofNat (w.toNat / 256 ^ 2) := @shift_byte w 2 (by omega)
  have h₁ : (w >>> 8).toUInt8 = UInt8.ofNat (w.toNat / 256 ^ 1) := @shift_byte w 1 (by omega)
  have h₀ : (w >>> 0).toUInt8 = UInt8.ofNat (w.toNat / 256 ^ 0) := @shift_byte w 0 (by omega)
  rw [h₃, h₂, h₁, h₀]
  rfl

/-- Cutting a number to a word keeps its four low bytes. -/
theorem ofNat_byte (x : ℕ) {k : ℕ} (hk : k < 4) :
    UInt8.ofNat ((UInt32.ofNat x).toNat / 256 ^ k) = UInt8.ofNat (x / 256 ^ k) := by
  rw [← UInt8.toNat_inj, UInt8.toNat_ofNat', UInt8.toNat_ofNat', UInt32.toNat_ofNat']
  interval_cases k <;> omega

theorem wordBytes_ofNat (x : ℕ) :
    Sha1.wordBytes (.ofNat x) = (List.range 4).map fun i => UInt8.ofNat (x / 256 ^ (3 - i)) :=
  List.map_congr_left fun _ _ => ofNat_byte x (by omega)

/-- The two words of the count hold the bytes of the length. -/
theorem lengthBytes_eq (bits : ℕ) :
    Sha1.lengthBytes bits = Sha1.wordBytes (.ofNat (bits / 2 ^ 32)) ++ Sha1.wordBytes (.ofNat bits) := by
  have hdiv (i : ℕ) : bits / 2 ^ 32 / 256 ^ i = bits / 256 ^ (i + 4) := by
    have hpow : 2 ^ 32 * 256 ^ i = 256 ^ (i + 4) := by
      rw [pow_add, Nat.mul_comm]
      norm_num
    rw [Nat.div_div_eq_div_mul, hpow]
  rw [wordBytes_ofNat, wordBytes_ofNat]
  simp only [hdiv]
  rfl

theorem putLength_eq {hi lo : UInt32} {b : Bytes} (hb : b.length = 64) :
    putLength hi lo b = b.take 56 ++ (Sha1.wordBytes hi ++ Sha1.wordBytes lo) := by
  have hlen : (putLength hi lo b).length = 64 := by
    simp only [putLength, List.length_set, hb]
  rw [← List.take_of_length_le hlen.le, putLength, take_set_succ _ (by simp [hb]), take_set_succ _ (by simp [hb]),
    take_set_succ _ (by simp [hb]), take_set_succ _ (by simp [hb]), take_set_succ _ (by simp [hb]),
    take_set_succ _ (by simp [hb]), take_set_succ _ (by simp [hb]), take_set_succ _ (by simp [hb]), wordBytes_eq,
    wordBytes_eq, UInt32.shiftRight_zero, UInt32.shiftRight_zero]
  simp only [List.append_assoc]
  rfl

/-- What follows the string takes in the padding. -/
theorem digestOf_finish (h : Fed s m) : digestOf (finish s) = Sha1.digest m := by
  have hindex := h.index
  have hlength : Sha1.wordBytes s.lengthHigh ++ Sha1.wordBytes s.lengthLow = Sha1.lengthBytes (8 * m.length) := by
    rw [lengthBytes_eq, h.lengthHigh, h.lengthLow]
  have hset : (s.messageBlock.set s.index 0x80).length = 64 := by rw [List.length_set, h.length_block]
  have hone := h.take_set 0x80
  have hpad := Sha1.length_pad m
  unfold finish Sha1.digest
  dsimp only
  split
  · next hfull =>
    -- the count does not fit, and stands in a block of its own
    have hzeros : Sha1.zeros m.length = 64 - (s.index + 1) + 56 := Sha1.zeros_eq (by omega) (by omega)
    have hblocks : (Sha1.pad m).length / 64 = m.length / 64 + 1 + 1 := by omega
    have hzeroTo := length_zeroTo 64 (s.messageBlock.set s.index 0x80) (s.index + 1)
    have hblock : zeroTo 64 (s.messageBlock.set s.index 0x80) (s.index + 1) =
        m.drop (64 * (m.length / 64)) ++ 0x80 :: List.replicate (64 - (s.index + 1)) 0 := by
      rw [← List.take_of_length_le (hzeroTo.trans hset).le, take_zeroTo (by omega) hset.ge, hone, List.append_assoc]
      rfl
    have hlast : putLength s.lengthHigh s.lengthLow (zeroTo 56 (zeroTo 64 (s.messageBlock.set s.index 0x80)
        (s.index + 1)) 0) = List.replicate 56 0 ++ Sha1.lengthBytes (8 * m.length) := by
      rw [putLength_eq (by rw [length_zeroTo, hzeroTo, hset]), take_zeroTo (by omega) (by omega), hlength,
        List.take_zero, List.nil_append]
    have hsplit : Sha1.pad m = m ++ 0x80 :: List.replicate (64 - (s.index + 1)) 0 ++
        (List.replicate 56 0 ++ Sha1.lengthBytes (8 * m.length)) := by
      rw [Sha1.pad, hzeros, List.replicate_add, List.append_assoc, List.append_assoc]
      rfl
    rw [digestOf_process, digestOf_process, hlast, h.H, hblocks, hsplit, hblock, Sha1.chain_concat, Sha1.chain_fill]
    · omega
    · rw [← hblock, hzeroTo, hset]
    · rw [List.length_append, List.length_cons, List.length_replicate]
      omega
    · rw [List.length_append, List.length_replicate, Sha1.length_lengthBytes]
  · next hfull =>
    have hzeros : Sha1.zeros m.length = 56 - (s.index + 1) := Sha1.zeros_eq (by omega) (by omega)
    have hblocks : (Sha1.pad m).length / 64 = m.length / 64 + 1 := by omega
    have hblock : putLength s.lengthHigh s.lengthLow (zeroTo 56 (s.messageBlock.set s.index 0x80) (s.index + 1)) =
        m.drop (64 * (m.length / 64)) ++
          0x80 :: (List.replicate (Sha1.zeros m.length) 0 ++ Sha1.lengthBytes (8 * m.length)) := by
      rw [putLength_eq (by rw [length_zeroTo, hset]), take_zeroTo (by omega) (by omega), hone, hlength, hzeros,
        List.append_assoc, List.append_assoc]
      rfl
    rw [digestOf_process, h.H, hblocks, Sha1.pad, hblock, Sha1.chain_fill (by omega)]
    simp only [List.length_append, List.length_drop, List.length_cons, List.length_replicate, Sha1.length_lengthBytes]
    omega

end String

/-! ### The digits -/

section Digits

/-- Two digits for each of some bytes, written from the last byte to the first. -/
theorem foldl_digits {α : Type*} (hi lo : ℕ → α) : ∀ (n : ℕ) (l : List α), 2 * n ≤ l.length →
    (List.range n).reverse.foldl (fun l i => (l.set (2 * i) (hi i)).set (2 * i + 1) (lo i)) l =
      ((List.range n).flatMap fun i => [hi i, lo i]) ++ l.drop (2 * n)
  | 0, _, _ => rfl
  | n + 1, l, h => by
    have hdrop : ((l.set (2 * n) (hi n)).set (2 * n + 1) (lo n)).drop (2 * n) =
        [hi n, lo n] ++ l.drop (2 * (n + 1)) := by
      rw [List.drop_set, if_neg (by omega), List.drop_set, if_neg (by omega), List.drop_eq_getElem_cons (by omega),
        List.drop_eq_getElem_cons (by omega), Nat.sub_self, Nat.add_sub_cancel_left]
      rfl
    rw [List.range_succ, List.reverse_append, List.reverse_singleton, List.singleton_append, List.foldl_cons,
      foldl_digits hi lo n _ (by rw [List.length_set, List.length_set]; omega), hdrop, List.flatMap_append,
      List.append_assoc]
    rfl

/-- The byte of the hash that the loop reads. -/
def hashByteOf (H : Hash) (hashByte : ℕ) : UInt8 :=
  ([H.A, H.B, H.C, H.D, H.E].getD (hashByte / 4) 0 >>>
    UInt32.ofNat (((3 - (hashByte : ℤ)) % 4).toNat * 8)).toUInt8

theorem hashByteOf_eq (H : Hash) : (List.range 20).map (hashByteOf H) = (digestOf H).bytes := by
  rw [Sha1.Digest.bytes, List.flatMap_cons, List.flatMap_cons, List.flatMap_cons, List.flatMap_cons,
    List.flatMap_cons, wordBytes_eq, wordBytes_eq, wordBytes_eq, wordBytes_eq, wordBytes_eq]
  rfl

theorem hexDigits_getD : ∀ d < 16, hexDigits.getD d ' ' = Nat.digitChar d := by
  decide

/-- The digits of a byte. -/
theorem digits_eq (b : UInt8) :
    [hexDigits.getD (b >>> 4).toNat ' ', hexDigits.getD (b &&& 15).toNat ' '] =
      [Nat.digitChar (b.toNat / 16), Nat.digitChar (b.toNat % 16)] := by
  have hb := b.toNat_lt
  have hhigh : (b >>> 4).toNat = b.toNat / 16 := by
    rw [UInt8.toNat_shiftRight, Nat.shiftRight_eq_div_pow]
    rfl
  have hlow : (b &&& 15).toNat = b.toNat % 16 := by
    rw [UInt8.toNat_and]
    exact Nat.and_two_pow_sub_one_eq_mod b.toNat 4
  rw [hhigh, hlow, hexDigits_getD _ (by omega), hexDigits_getD _ (by omega)]

/-- The text is the digits of the bytes of the hash. -/
theorem hexLoop_take {hexstring : List Char} (h : 40 ≤ hexstring.length) (H : Hash) :
    (hexLoop hexstring H).take 40 = Sha1.hex (digestOf H).bytes := by
  have hloop := foldl_digits (fun i => hexDigits.getD (hashByteOf H i >>> 4).toNat ' ')
    (fun i => hexDigits.getD (hashByteOf H i &&& 15).toNat ' ') 20 hexstring h
  have hhex : (List.range 20).flatMap (fun i => [hexDigits.getD (hashByteOf H i >>> 4).toNat ' ',
      hexDigits.getD (hashByteOf H i &&& 15).toNat ' ']) = Sha1.hex (digestOf H).bytes := by
    rw [Sha1.hex, ← hashByteOf_eq, List.flatMap_map]
    simp only [digits_eq]
  have hlen : (Sha1.hex (digestOf H).bytes).length = 40 := by
    rfl
  have heq : hexLoop hexstring H = Sha1.hex (digestOf H).bytes ++ hexstring.drop 40 := by
    rw [← hhex]
    exact hloop
  rw [heq, List.take_left' hlen]

end Digits

/-- The text that is returned is the digest of the string in hexadecimal digits. -/
theorem transformToSHA1_eq (memory : Memory) (input : Bytes) :
    transformToSHA1 memory input = Sha1.hex (Sha1.digest input).bytes := by
  rw [transformToSHA1, hexLoop_take (by rw [memory.length_hexstring]; omega), digestOf_finish (fed_foldl memory input)]

example : transformToSHA1 ⟨.replicate 64 0, .replicate 41 ' ', rfl, rfl⟩ [97, 98, 99] =
    "a9993e364706816aba3e25717850c26c9cd0d89d".toList := by decide +kernel

end Tools
end ForgottenServer
