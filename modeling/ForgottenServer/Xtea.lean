/-
# The XTEA loops of a protocol

`Protocol::XTEA_encrypt` and `Protocol::XTEA_decrypt` go through a buffer in
place, eight bytes at a time as long as their position is below the length of
the message: the last block may reach past that length. Each block is two
words under 32 rounds, and the rounds of the second loop, started from the
sum that the first one ends with, undo those of the first.

Key definitions: `encryptBlock`, `decryptBlock`, `cryptLoop`.
Key theorems: `decryptBlock_encryptBlock`, `cryptLoop_eq`, `cryptLoop_inverse`.
-/
import Mathlib.Tactic
import Mathlib.Data.UInt
import ForgottenServer.Lib.Buffer
import ForgottenServer.Lib.Bytes
import ForgottenServer.Lib.Feistel

namespace ForgottenServer
namespace Protocol

open Buffer Feistel

/-- The four words of a key. -/
abbrev Key := Fin 4 → UInt32

def delta : UInt32 := 0x61C88647

/-- What a word and the sum give, with the key word `k`. -/
def mix (k : UInt32) (v sum : UInt32) : UInt32 := ((v <<< 4 ^^^ v >>> 5) + v) ^^^ (sum + k)

/-- What is added to the first word. -/
def mix0 (key : Key) (v1 sum : UInt32) : UInt32 :=
  mix (key (Fin.ofNat 4 (sum &&& 3).toNat)) v1 sum

/-- What is added to the second word. -/
def mix1 (key : Key) (v0 sum : UInt32) : UInt32 :=
  mix (key (Fin.ofNat 4 ((sum >>> 11) &&& 3).toNat)) v0 sum

/-- The 32 rounds of one block in `Protocol::XTEA_encrypt`. -/
def encryptBlock (key : Key) (v : UInt32 × UInt32) : UInt32 × UInt32 :=
  let s := (encryptRound (mix0 key) (mix1 key) delta)^[32] ⟨v.1, v.2, 0⟩
  (s.v0, s.v1)

/-- The 32 rounds of one block in `Protocol::XTEA_decrypt`. -/
def decryptBlock (key : Key) (v : UInt32 × UInt32) : UInt32 × UInt32 :=
  let s := (decryptRound (mix0 key) (mix1 key) delta)^[32] ⟨v.1, v.2, 0xC6EF3720⟩
  (s.v0, s.v1)

/-- The loop of both functions over the blocks of a message that starts at
`start`, one block under `crypt`. -/
def cryptLoop (crypt : UInt32 × UInt32 → UInt32 × UInt32) (start messageLength readPos : ℕ)
    (buffer : ℕ → UInt8) : ℕ → UInt8 :=
  if readPos < messageLength then
    let v0 := UInt32.ofNat (Bytes.value (slice buffer (start + readPos) 4))
    let v1 := UInt32.ofNat (Bytes.value (slice buffer (start + readPos + 4) 4))
    let v := crypt (v0, v1)
    cryptLoop crypt start messageLength (readPos + 8)
      (copy (copy buffer (start + readPos) (Bytes.put 4 v.1.toNat)) (start + readPos + 4)
        (Bytes.put 4 v.2.toNat))
  else buffer
termination_by messageLength - readPos

/-- The second loop undoes the rounds of the first. -/
theorem decryptBlock_encryptBlock (key : Key) (v : UInt32 × UInt32) :
    decryptBlock key (encryptBlock key v) = v := by
  have hsum : (0xC6EF3720 : UInt32) = 0 + 32 • -delta := by decide
  have h := rounds_inverse (F := mix0 key) (G := mix1 key) 32 v.1 v.2 0 0xC6EF3720 hsum
  show (_, _) = v
  unfold encryptBlock
  dsimp only
  rw [h]

/-- The eight bytes of a block under a map of two words. -/
def onBytes (crypt : UInt32 × UInt32 → UInt32 × UInt32) (l : List UInt8) : List UInt8 :=
  let v := crypt (UInt32.ofNat (Bytes.value (l.take 4)), UInt32.ofNat (Bytes.value (l.drop 4)))
  Bytes.put 4 v.1.toNat ++ Bytes.put 4 v.2.toNat

theorem length_onBytes (crypt : UInt32 × UInt32 → UInt32 × UInt32) (l : List UInt8) :
    (onBytes crypt l).length = 8 := by
  simp [onBytes]

theorem onBytes_inverse {crypt uncrypt : UInt32 × UInt32 → UInt32 × UInt32}
    (h : ∀ v, uncrypt (crypt v) = v) {l : List UInt8} (hl : l.length = 8) :
    onBytes uncrypt (onBytes crypt l) = l := by
  have hword : ∀ v : UInt32, UInt32.ofNat (Bytes.value (Bytes.put 4 v.toNat)) = v := by
    intro v
    rw [Bytes.value_put_of_lt v.toNat_lt, UInt32.ofNat_toNat]
  have hbytes : ∀ s : List UInt8, s.length = 4 →
      Bytes.put 4 (UInt32.ofNat (Bytes.value s)).toNat = s := by
    intro s hs
    have hlt : Bytes.value s < 2 ^ 32 := by
      have := Bytes.value_lt s
      rwa [hs] at this
    rw [UInt32.toNat_ofNat_of_lt' hlt]
    conv_lhs => rw [← hs]
    exact Bytes.put_value s
  have hsplit : ∀ v : UInt32 × UInt32,
      (Bytes.put 4 v.1.toNat ++ Bytes.put 4 v.2.toNat).take 4 = Bytes.put 4 v.1.toNat ∧
      (Bytes.put 4 v.1.toNat ++ Bytes.put 4 v.2.toNat).drop 4 = Bytes.put 4 v.2.toNat :=
    fun v => ⟨List.take_left' (Bytes.length_put 4 _), List.drop_left' (Bytes.length_put 4 _)⟩
  unfold onBytes
  dsimp only
  rw [(hsplit _).1, (hsplit _).2, hword, hword, h]
  dsimp only
  rw [hbytes _ (by rw [List.length_take]; omega), hbytes _ (by rw [List.length_drop]; omega),
    List.take_append_drop]

/-- The loop maps the blocks of the message, the last one as a whole. -/
theorem cryptLoop_eq (crypt : UInt32 × UInt32 → UInt32 × UInt32) (start messageLength : ℕ) :
    ∀ (readPos : ℕ) (buffer : ℕ → UInt8), cryptLoop crypt start messageLength readPos buffer =
      overBlocks (onBytes crypt) 8 buffer (start + readPos) ((messageLength - readPos + 7) / 8) := by
  intro readPos
  induction hn : messageLength - readPos using Nat.strong_induction_on generalizing readPos with
  | _ n ih =>
    intro buffer
    unfold cryptLoop
    by_cases h : readPos < messageLength
    · have hcount : (n + 7) / 8 = (messageLength - (readPos + 8) + 7) / 8 + 1 := by omega
      have hblock : slice buffer (start + readPos) 8 =
          slice buffer (start + readPos) 4 ++ slice buffer (start + readPos + 4) 4 :=
        slice_add buffer (start + readPos) 4 4
      rw [if_pos h, hcount]
      unfold overBlocks
      rw [hblock]
      dsimp only
      rw [ih (messageLength - (readPos + 8)) (by omega) (readPos + 8) rfl, ← Nat.add_assoc]
      congr 1
      unfold onBytes
      rw [List.take_left' (length_slice _ _ _), List.drop_left' (length_slice _ _ _), ← copy_copy,
        Bytes.length_put]
    · have hcount : (n + 7) / 8 = 0 := by omega
      rw [if_neg h, hcount]
      rfl

/-- Outside the blocks of the message the loop changes nothing. -/
theorem cryptLoop_of_lt (crypt : UInt32 × UInt32 → UInt32 × UInt32) {start k : ℕ}
    (messageLength : ℕ) (buffer : ℕ → UInt8) (h : k < start) :
    cryptLoop crypt start messageLength 0 buffer k = buffer k := by
  rw [cryptLoop_eq]
  exact overBlocks_of_lt (fun l _ => length_onBytes crypt l) _ _ h

/-- A message of whole blocks that was encrypted in one buffer is decrypted in
another that holds the same bytes. -/
theorem cryptLoop_inverse {crypt uncrypt : UInt32 × UInt32 → UInt32 × UInt32}
    (h : ∀ v, uncrypt (crypt v) = v) {n start start' : ℕ} {buffer buffer' : ℕ → UInt8}
    (hsame : slice buffer' start' (n * 8) =
      slice (cryptLoop crypt start (n * 8) 0 buffer) start (n * 8)) :
    slice (cryptLoop uncrypt start' (n * 8) 0 buffer') start' (n * 8) =
      slice buffer start (n * 8) := by
  have hcount : (n * 8 - 0 + 7) / 8 = n := by omega
  have hlen : ∀ (crypt : UInt32 × UInt32 → UInt32 × UInt32) (l : List UInt8), l.length = 8 →
      (onBytes crypt l).length = 8 := fun crypt l _ => length_onBytes crypt l
  rw [cryptLoop_eq, hcount, Nat.add_zero, slice_overBlocks (hlen crypt)] at hsame
  rw [cryptLoop_eq, hcount, Nat.add_zero, slice_overBlocks (hlen uncrypt), hsame]
  exact mapBlocks_inverse (hlen crypt) (fun l hl => onBytes_inverse h hl) n (length_slice _ _ _)

end Protocol
end ForgottenServer
