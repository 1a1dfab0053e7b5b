/-
# Alternating rounds over two words

A round adds to each of two words a value computed from the other one and a
running sum, which falls by a constant. The rounds backwards subtract the
same values in the other order while the sum rises, whatever the two
functions are.

Key definitions: `Feistel.encryptRound`, `Feistel.decryptRound`.
Key theorems: `Feistel.decrypt_encrypt`, `Feistel.sum_rounds`, `Feistel.rounds_inverse`.
-/
import Mathlib.Tactic

namespace Feistel

structure State (W : Type*) where
  v0 : W
  v1 : W
  sum : W
  deriving DecidableEq, Repr

variable {W : Type*} [AddGroup W] (F G : W → W → W) (delta : W)

def encryptRound (s : State W) : State W :=
  let v0 := s.v0 + F s.v1 s.sum
  let sum := s.sum - delta
  ⟨v0, s.v1 + G v0 sum, sum⟩

def decryptRound (s : State W) : State W :=
  let v1 := s.v1 - G s.v0 s.sum
  let sum := s.sum + delta
  ⟨s.v0 - F v1 sum, v1, sum⟩

variable {F G delta}

theorem decrypt_encrypt :
    Function.LeftInverse (decryptRound F G delta) (encryptRound F G delta) := by
  intro s
  unfold decryptRound encryptRound
  simp only [sub_add_cancel, add_sub_cancel_right]

theorem sum_rounds (s : State W) :
    ∀ n : ℕ, ((encryptRound F G delta)^[n] s).sum = s.sum + n • -delta
  | 0 => by simp
  | n + 1 => by
    rw [Function.iterate_succ_apply', succ_nsmul, ← add_assoc, ← sum_rounds s n]
    exact sub_eq_add_neg _ _

/-- As many rounds backwards as forwards lead back, from the sum reached. -/
theorem rounds_inverse (n : ℕ) (v0 v1 sum sum' : W) (h : sum' = sum + n • -delta) :
    ((decryptRound F G delta)^[n] ⟨((encryptRound F G delta)^[n] ⟨v0, v1, sum⟩).v0,
      ((encryptRound F G delta)^[n] ⟨v0, v1, sum⟩).v1, sum'⟩) = ⟨v0, v1, sum⟩ := by
  have hsum : ((encryptRound F G delta)^[n] ⟨v0, v1, sum⟩).sum = sum + n • -delta :=
    sum_rounds ⟨v0, v1, sum⟩ n
  rw [h, ← hsum]
  exact decrypt_encrypt.iterate n _

end Feistel
