/-
# The SHA-1 digest

A message of bytes is padded with one bit, the fewest zeros and its length in
bits to a multiple of 64 bytes. Its blocks are taken one after the other into
five words: each is spread over eighty words by a recurrence, and mixed in with
one word in each of eighty rounds.

A message that grows keeps its first blocks (`chain_append`), which is what a
digest that is computed on the way rests on.

Key definitions: `schedule`, `round`, `compress`, `pad`, `chain`, `digest`.
Key theorems: `schedule_of_recurrence`, `chain_append`, `chain_succ`.
-/
import Mathlib.Data.UInt
import Mathlib.Tactic

namespace Sha1

/-! ### One block -/

/-- Five words, from the first. -/
structure Digest where
  a : UInt32
  b : UInt32
  c : UInt32
  d : UInt32
  e : UInt32
  deriving DecidableEq

def initial : Digest := ⟨0x67452301, 0xEFCDAB89, 0x98BADCFE, 0x10325476, 0xC3D2E1F0⟩

/-- A rotation to the left. -/
def rotl (n x : UInt32) : UInt32 := x <<< n ||| x >>> (32 - n)

def choose (x y z : UInt32) : UInt32 := (x &&& y) ^^^ (~~~x &&& z)

def parity (x y z : UInt32) : UInt32 := x ^^^ y ^^^ z

def majority (x y z : UInt32) : UInt32 := (x &&& y) ^^^ (x &&& z) ^^^ (y &&& z)

/-- The function of a round. -/
def function (t : ℕ) : UInt32 → UInt32 → UInt32 → UInt32 :=
  if t < 20 then choose else if t < 40 then parity else if t < 60 then majority else parity

/-- The constant of a round. -/
def constant (t : ℕ) : UInt32 :=
  if t < 20 then 0x5A827999 else if t < 40 then 0x6ED9EBA1 else if t < 60 then 0x8F1BBCDC else 0xCA62C1D6

/-- The word that four bytes make, the high one first. -/
def word (block : List UInt8) (t : ℕ) : UInt32 :=
  .ofNat ((((block.getD (4 * t) 0).toNat * 256 + (block.getD (4 * t + 1) 0).toNat) * 256 +
    (block.getD (4 * t + 2) 0).toNat) * 256 + (block.getD (4 * t + 3) 0).toNat)

/-- The words of the rounds: those of the block, and then a recurrence. -/
def schedule (M : ℕ → UInt32) (t : ℕ) : UInt32 :=
  if t < 16 then M t
  else rotl 1 (schedule M (t - 3) ^^^ schedule M (t - 8) ^^^ schedule M (t - 14) ^^^ schedule M (t - 16))

def round (W : ℕ → UInt32) (s : Digest) (t : ℕ) : Digest :=
  ⟨rotl 5 s.a + function t s.b s.c s.d + s.e + constant t + W t, s.a, rotl 30 s.b, s.c, s.d⟩

/-- A block taken in. -/
def compress (H : Digest) (block : List UInt8) : Digest :=
  let s := (List.range 80).foldl (round (schedule (word block))) H
  ⟨H.a + s.a, H.b + s.b, H.c + s.c, H.d + s.d, H.e + s.e⟩

/-! ### A message -/

/-- How many bytes of zeros follow the byte with the one bit. -/
def zeros (length : ℕ) : ℕ := (119 - length % 64) % 64

/-- A number in eight bytes, the high one first. -/
def lengthBytes (bits : ℕ) : List UInt8 := (List.range 8).map fun i => .ofNat (bits / 256 ^ (7 - i))

def pad (message : List UInt8) : List UInt8 :=
  message ++ 0x80 :: (List.replicate (zeros message.length) 0 ++ lengthBytes (8 * message.length))

/-- The bytes of a block. -/
def blockAt (l : List UInt8) (i : ℕ) : List UInt8 := (l.drop (64 * i)).take 64

/-- The first blocks taken in. -/
def chain (l : List UInt8) (n : ℕ) : Digest := (List.range n).foldl (fun H i => compress H (blockAt l i)) initial

def digest (message : List UInt8) : Digest := chain (pad message) ((pad message).length / 64)

/-- The bytes of a word, the high one first. -/
def wordBytes (w : UInt32) : List UInt8 := (List.range 4).map fun i => .ofNat (w.toNat / 256 ^ (3 - i))

def Digest.bytes (H : Digest) : List UInt8 := [H.a, H.b, H.c, H.d, H.e].flatMap wordBytes

/-- Two digits for each byte, in lower case. -/
def hex (bytes : List UInt8) : List Char :=
  bytes.flatMap fun b => [Nat.digitChar (b.toNat / 16), Nat.digitChar (b.toNat % 16)]

section Laws

variable {M W : ℕ → UInt32} {l l' : List UInt8} {n : ℕ}

/-- Words that begin as those of the block and follow the recurrence are those of the rounds. -/
theorem schedule_of_recurrence {N : ℕ} (hfirst : ∀ t < 16, W t = M t)
    (hnext : ∀ t, 16 ≤ t → t < N → W t = rotl 1 (W (t - 3) ^^^ W (t - 8) ^^^ W (t - 14) ^^^ W (t - 16))) :
    ∀ t < N, W t = schedule M t := by
  intro t
  induction t using Nat.strongRecOn with
  | ind t ih =>
    intro ht
    unfold schedule
    split
    · next h => exact hfirst t h
    · next h =>
      rw [hnext t (by omega) ht, ih (t - 3) (by omega) (by omega), ih (t - 8) (by omega) (by omega),
        ih (t - 14) (by omega) (by omega), ih (t - 16) (by omega) (by omega)]

/-- The zeros are the only number below 64 that leaves eight bytes to a multiple of 64. -/
theorem zeros_eq {length z : ℕ} (hz : z < 64) (h : (length + 1 + z) % 64 = 56) : zeros length = z := by
  unfold zeros
  omega

@[simp] theorem length_lengthBytes (bits : ℕ) : (lengthBytes bits).length = 8 := by
  simp [lengthBytes]

theorem length_pad (message : List UInt8) : (pad message).length = message.length + 9 + zeros message.length := by
  simp only [pad, List.length_append, List.length_cons, List.length_replicate, length_lengthBytes]
  omega

theorem chain_succ (l : List UInt8) (n : ℕ) : chain l (n + 1) = compress (chain l n) (blockAt l n) := by
  rw [chain, List.range_succ, List.foldl_append]
  rfl

theorem blockAt_append (h : 64 * (n + 1) ≤ l.length) : blockAt (l ++ l') n = blockAt l n := by
  unfold blockAt
  rw [List.drop_append_of_le_length (by omega), List.take_append_of_le_length]
  rw [List.length_drop]
  omega

/-- What follows some blocks does not change them. -/
theorem chain_append (h : 64 * n ≤ l.length) : chain (l ++ l') n = chain l n := by
  induction n with
  | zero => simp [chain]
  | succ n ih => rw [chain_succ, chain_succ, blockAt_append h, ih (by omega)]

/-- A block behind full blocks. -/
theorem chain_concat {block : List UInt8} (hl : l.length = 64 * n) (hblock : block.length = 64) :
    chain (l ++ block) (n + 1) = compress (chain l n) block := by
  have hat : blockAt (l ++ block) n = block := by
    rw [blockAt, ← hl, List.drop_left, List.take_of_length_le hblock.le]
  rw [chain_succ, chain_append hl.ge, hat]

/-- The bytes behind full blocks, filled to a block. -/
theorem chain_fill (hl : 64 * n ≤ l.length) (hblock : (l.drop (64 * n) ++ l').length = 64) :
    chain (l ++ l') (n + 1) = compress (chain l n) (l.drop (64 * n) ++ l') := by
  have htake : (l.take (64 * n)).length = 64 * n := by
    rw [List.length_take]
    omega
  have hfirst : chain (l.take (64 * n)) n = chain l n := by
    rw [← @chain_append _ (l.drop (64 * n)) n htake.ge, List.take_append_drop]
  rw [← hfirst, ← chain_concat htake hblock, ← List.append_assoc, List.take_append_drop]

end Laws

end Sha1
