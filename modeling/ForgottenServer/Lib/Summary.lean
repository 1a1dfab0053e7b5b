/-
# Bits that summarise a collection

A collection of members with properties, and a bit for each property that is
to say whether some member has it. The bits are kept as members come and go,
each in one of three ways (`Upkeep`): a member that comes sets its bits, but
not those that are ignored; a member that goes clears its bits, those that are
recomputed only when no other member has the property.

Recomputed bits stay right (`Drops.recomputed`). The bits as a whole stay
right over a change, some members going and at most one coming, exactly when
it fits (`Change.mirrored_iff`).

Key definitions: `Upkeep`, `Summary`, `Pushed`, `Dropped`, `Change`, `Fits`.
Key theorems: `Drops.cleared`, `Drops.recomputed`, `Replaced.change`, `Change.mirrored_iff`.
-/
import Mathlib.Algebra.Order.Group.Multiset
import Mathlib.Tactic.Common

namespace ForgottenServer
namespace Summaries

/-- How a bit is kept. -/
inductive Upkeep
  | recomputed | cleared | ignored
  deriving DecidableEq

/-- The members, each given by its properties, and the bits. -/
structure Summary (μ : Type*) where
  members : Multiset (μ → Bool)
  bits : μ → Bool

variable {μ : Type*} {u : μ → Upkeep} {S S₁ S' : Summary μ} {p q : μ → Bool} {m : μ}
  {L : List (μ → Bool)}

/-- Some member has the property. -/
def Has (M : Multiset (μ → Bool)) (m : μ) : Prop := ∃ p ∈ M, p m = true

theorem has_cons (M : Multiset (μ → Bool)) : Has (p ::ₘ M) m ↔ p m = true ∨ Has M m := by
  simp [Has]

/-- The bit says whether some member has the property. -/
def Mirrored (S : Summary μ) (m : μ) : Prop := S.bits m = true ↔ Has S.members m

/-- No ignored bit is set. -/
def Silent (u : μ → Upkeep) (S : Summary μ) : Prop := ∀ m, u m = .ignored → S.bits m = false

/-- A member has come. -/
structure Pushed (u : μ → Upkeep) (S : Summary μ) (p : μ → Bool) (S' : Summary μ) : Prop where
  members : S'.members = p ::ₘ S.members
  bits : ∀ m, S'.bits m = true ↔ S.bits m = true ∨ u m ≠ .ignored ∧ p m = true

/-- A member has gone. -/
structure Dropped (u : μ → Upkeep) (S : Summary μ) (p : μ → Bool) (S' : Summary μ) : Prop where
  members : S.members = p ::ₘ S'.members
  bits : ∀ m, S'.bits m = true ↔
    S.bits m = true ∧ ¬ (p m = true ∧ (u m = .cleared ∨ ¬ Has S'.members m))

/-- A member has been exchanged for one that was already there when the bits
were looked at. -/
structure Replaced (u : μ → Upkeep) (S : Summary μ) (p q : μ → Bool) (M : Multiset (μ → Bool))
    (S' : Summary μ) : Prop where
  before : S.members = p ::ₘ M
  after : S'.members = q ::ₘ M
  bits : ∀ m, S'.bits m = true ↔
    (S.bits m = true ∧ ¬ (p m = true ∧ (u m = .cleared ∨ ¬ Has (q ::ₘ M) m))) ∨
      u m ≠ .ignored ∧ q m = true

/-- Members go one after the other. -/
inductive Drops (u : μ → Upkeep) : Summary μ → List (μ → Bool) → Summary μ → Prop
  | nil (S : Summary μ) : Drops u S [] S
  | cons {S S₁ S' : Summary μ} {p : μ → Bool} {L : List (μ → Bool)} :
    Dropped u S p S₁ → Drops u S₁ L S' → Drops u S (p :: L) S'

/-- Members go and at most one comes. -/
inductive Change (u : μ → Upkeep) (S : Summary μ) (L : List (μ → Bool)) (M : Multiset (μ → Bool)) :
    Option (μ → Bool) → Summary μ → Prop
  | gone {S' : Summary μ} : Drops u S L S' → S'.members = M → Change u S L M none S'
  | come {S₁ S' : Summary μ} {q : μ → Bool} : Drops u S L S₁ → S₁.members = M → Pushed u S₁ q S' → Change u S L M (some q) S'

/-- When a change keeps the bits right: a cleared bit that a member takes with
it belongs to no other member, or comes back, and what comes has no ignored
property. -/
def Fits (u : μ → Upkeep) (L : List (μ → Bool)) (M : Multiset (μ → Bool)) (c : Option (μ → Bool)) :
    Prop :=
  (∀ m, u m = .cleared → (∃ p ∈ L, p m = true) → Has M m → ∃ q, c = some q ∧ q m = true) ∧
    ∀ m, u m = .ignored → ∀ q, c = some q → q m = false

theorem Drops.append {L' : List (μ → Bool)} (h : Drops u S L S₁) (h' : Drops u S₁ L' S') :
    Drops u S (L ++ L') S' := by
  induction h with
  | nil S => exact h'
  | cons hd _ ih => exact .cons hd (ih h')

theorem Drops.single (h : Dropped u S p S') : Drops u S [p] S' := .cons h (.nil S')

theorem Drops.members (h : Drops u S L S') : S.members = (L : Multiset (μ → Bool)) + S'.members := by
  induction h with
  | nil S => exact (zero_add S.members).symm
  | @cons S S₁ S' p L hd _ ih =>
    calc S.members = p ::ₘ S₁.members := hd.members
      _ = p ::ₘ ((L : Multiset (μ → Bool)) + S'.members) := by rw [ih]
      _ = ((p :: L : List (μ → Bool)) : Multiset (μ → Bool)) + S'.members := by
        rw [← Multiset.cons_coe, Multiset.cons_add]

/-- A bit that is not set stays so. -/
theorem Drops.unset (h : Drops u S L S') (hm : S.bits m = false) : S'.bits m = false := by
  induction h with
  | nil S => exact hm
  | @cons S S₁ S' p L hd _ ih =>
    apply ih
    rw [← Bool.not_eq_true, hd.bits m, hm]
    exact fun hb => Bool.false_ne_true hb.1

/-- A cleared bit goes with the first member that has the property. -/
theorem Drops.cleared (h : Drops u S L S') (hm : u m = .cleared) :
    S'.bits m = true ↔ S.bits m = true ∧ ∀ p ∈ L, p m = false := by
  induction h with
  | nil S => simp
  | @cons S S₁ S' p L hd _ ih =>
    rw [ih, hd.bits m, and_assoc]
    simp [hm]

/-- A recomputed bit that is right stays right. -/
theorem Drops.recomputed (h : Drops u S L S') (hm : u m ≠ .cleared) (hS : Mirrored S m) :
    Mirrored S' m := by
  induction h with
  | nil S => exact hS
  | @cons S S₁ S' p L hd _ ih =>
    apply ih
    unfold Mirrored at hS ⊢
    rw [hd.bits m, hS, hd.members, has_cons]
    constructor
    · intro ⟨hhas, hnot⟩
      by_contra hno
      exact hnot ⟨hhas.resolve_right hno, .inr hno⟩
    · exact fun hhas => ⟨.inr hhas, fun hp => hp.2.elim hm fun hno => hno hhas⟩

/-- An exchange is a member going and another coming. -/
theorem Replaced.change {M : Multiset (μ → Bool)} (h : Replaced u S p q M S') (hs : Silent u S) :
    Change u S [p] M (some q) S' := by
  classical
  let S₁ : Summary μ :=
    ⟨M, fun m => decide (S.bits m = true ∧ ¬ (p m = true ∧ (u m = .cleared ∨ ¬ Has M m)))⟩
  have hdropped : Dropped u S p S₁ := ⟨h.before, fun m => decide_eq_true_iff⟩
  refine .come (.cons hdropped (.nil S₁)) rfl ⟨h.after, fun m => ?_⟩
  rw [h.bits m, has_cons, decide_eq_true_iff]
  cases hu : u m with
  | ignored => simp [hs m hu]
  | recomputed => cases q m <;> simp
  | cleared => simp

/-- **A change keeps the bits right exactly when it fits.** -/
theorem Change.mirrored_iff {M : Multiset (μ → Bool)} {c : Option (μ → Bool)}
    (h : Change u S L M c S') (hs : Silent u S) (hS : ∀ m, Mirrored S m) :
    (∀ m, Mirrored S' m) ↔ Fits u L M c := by
  have hbefore : ∀ {S₁ : Summary μ} {m : μ}, Drops u S L S₁ → u m = .cleared →
      (S₁.bits m = true ↔ ((∃ p ∈ L, p m = true) ∨ Has S₁.members m) ∧ ∀ p ∈ L, p m = false) := by
    intro S₁ m hd hm
    have hSm : S.bits m = true ↔ Has S.members m := hS m
    rw [hd.cleared hm, hSm, hd.members]
    unfold Has
    simp only [Multiset.mem_add, Multiset.mem_coe, or_and_right, exists_or]
  cases h with
  | gone hd hM =>
    subst hM
    constructor
    · intro hS'
      refine ⟨fun m hm hL hM => ?_, fun m _ q hq => nomatch hq⟩
      obtain ⟨p, hp, hpm⟩ := hL
      have := ((hbefore hd hm).1 ((hS' m).2 hM)).2 p hp
      exact absurd (hpm.symm.trans this) (by decide)
    · intro hfits m
      by_cases hm : u m = .cleared
      · unfold Mirrored
        rw [hbefore hd hm]
        constructor
        · rintro ⟨⟨p, hp, hpm⟩ | hM, hno⟩
          · exact absurd (hpm.symm.trans (hno p hp)) (by decide)
          · exact hM
        · intro hM
          refine ⟨.inr hM, fun p hp => ?_⟩
          by_contra hpm
          obtain ⟨q, hq, -⟩ := hfits.1 m hm ⟨p, hp, Bool.not_eq_false _ ▸ hpm⟩ hM
          exact nomatch hq
      · exact hd.recomputed hm (hS m)
  | @come S₁ _ q hd hM hp =>
    subst hM
    constructor
    · intro hS'
      refine ⟨fun m hm hL hM => ⟨q, rfl, ?_⟩, fun m hm q' hq' => ?_⟩
      · have hbit := (hS' m).2 (by rw [hp.members, has_cons]; exact .inr hM)
        rcases (hp.bits m).1 hbit with h1 | h1
        · obtain ⟨p, hp', hpm⟩ := hL
          exact absurd (hpm.symm.trans (((hbefore hd hm).1 h1).2 p hp')) (by decide)
        · exact h1.2
      · cases hq'
        by_contra hqm
        have hbit := (hS' m).2 (by rw [hp.members, has_cons]; exact .inl (Bool.not_eq_false _ ▸ hqm))
        rcases (hp.bits m).1 hbit with h1 | h1
        · rw [hd.unset (hs m hm)] at h1
          exact nomatch h1
        · exact h1.1 hm
    · intro hfits m
      unfold Mirrored
      rw [hp.bits m, hp.members, has_cons]
      cases hu : u m with
      | ignored =>
        have hone : S₁.bits m = true ↔ Has S₁.members m := hd.recomputed (m := m) (by rw [hu]; decide) (hS m)
        rw [hone, hfits.2 m hu q rfl]
        simp
      | recomputed =>
        have hone : S₁.bits m = true ↔ Has S₁.members m := hd.recomputed (m := m) (by rw [hu]; decide) (hS m)
        rw [hone, or_comm]
        simp
      | cleared =>
        rw [hbefore hd hu]
        constructor
        · rintro (⟨⟨p, hp, hpm⟩ | hM, hno⟩ | ⟨-, hq⟩)
          · exact absurd (hpm.symm.trans (hno p hp)) (by decide)
          · exact .inr hM
          · exact .inl hq
        · rintro (hq | hM)
          · exact .inr ⟨by decide, hq⟩
          · by_cases hL : ∃ p ∈ L, p m = true
            · obtain ⟨q', hq', hqm⟩ := hfits.1 m hu hL hM
              cases hq'
              exact .inr ⟨by decide, hqm⟩
            · refine .inl ⟨.inr hM, fun p hp => ?_⟩
              by_contra hpm
              exact hL ⟨p, hp, Bool.not_eq_false _ ▸ hpm⟩

/-- No change sets an ignored bit. -/
theorem Change.silent {M : Multiset (μ → Bool)} {c : Option (μ → Bool)} (h : Change u S L M c S')
    (hs : Silent u S) : Silent u S' := by
  intro m hm
  cases h with
  | gone hd _ => exact hd.unset (hs m hm)
  | come hd _ hp =>
    rw [← Bool.not_eq_true, hp.bits m, hd.unset (hs m hm)]
    rintro (h1 | h1)
    · exact Bool.false_ne_true h1
    · exact h1.1 hm

end Summaries
end ForgottenServer
