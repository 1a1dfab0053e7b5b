/-
# Advancing through thresholds

A total is spent on one level after another: each level costs its requirement,
as long as the rest covers it, until the rest is too small or the requirements
stop growing, which is the cap. What is left is a relation between the total
and the outcome (`Reaches`), so nothing has to be said of how long it takes.

An outcome depends on the total alone, and a total that comes in two parts
leads to the same outcome as both at once.

The other way a loss is taken from what has been spent, level by level (`Falls`).
It ends at the highest level above whose base there is as much as is lost.

Key definitions: `Outcome`, `Reaches`, `Falls`, `above`.
Key theorems: `Reaches.unique`, `Reaches.add_stopped`, `Reaches.add_capped`,
`reaches_capped_iff`, `falls_iff`, `exists_falls`.
-/
import Mathlib.Algebra.BigOperators.Group.Finset.Basic
import Mathlib.Algebra.BigOperators.Intervals
import Mathlib.Algebra.Order.Sub.Basic
import Mathlib.Tactic.Ring

namespace ForgottenServer
namespace Thresholds

variable {L : Type*}

/-- The level and the rest where the total does not cover the next level, or the
level that is the last one. -/
inductive Outcome (L : Type*)
  | stopped (level : L) (rest : ℕ)
  | capped (level : L)

variable (succ : L → L) (req : L → ℕ)

/-- The total is spent on the levels after `level`, with this outcome. -/
inductive Reaches : L → ℕ → Outcome L → Prop
  | stop {level : L} {total : ℕ} (h : total < req (succ level)) : Reaches level total (.stopped level total)
  | cap {level : L} {total : ℕ} (h : req (succ level) ≤ total)
      (hcap : req (succ (succ level)) ≤ req (succ level)) : Reaches level total (.capped (succ level))
  | step {level : L} {total : ℕ} {o : Outcome L} (h : req (succ level) ≤ total)
      (hnext : req (succ level) < req (succ (succ level)))
      (hrest : Reaches (succ level) (total - req (succ level)) o) : Reaches level total o

variable {succ req} {level level' : L} {total rest more : ℕ} {o o' : Outcome L}

theorem Reaches.unique (h : Reaches succ req level total o) (h' : Reaches succ req level total o') :
    o = o' := by
  induction h with
  | stop hlt =>
    cases h' with
    | stop _ => rfl
    | cap hle _ => exact absurd hlt hle.not_gt
    | step hle _ _ => exact absurd hlt hle.not_gt
  | cap hle hcap =>
    cases h' with
    | stop hlt => exact absurd hlt hle.not_gt
    | cap _ _ => rfl
    | step _ hnext _ => exact absurd hnext hcap.not_gt
  | step hle hnext _ ih =>
    cases h' with
    | stop hlt => exact absurd hlt hle.not_gt
    | cap _ hcap => exact absurd hnext hcap.not_gt
    | step _ _ hrest => exact ih hrest

/-- What is left does not cover the next level. -/
theorem Reaches.rest_lt (h : Reaches succ req level total (.stopped level' rest)) :
    rest < req (succ level') := by
  generalize ho : Outcome.stopped level' rest = o at h
  induction h with
  | stop hlt =>
    cases ho
    exact hlt
  | cap _ _ => exact nomatch ho
  | step _ _ _ ih => exact ih ho

theorem Reaches.rest_le (h : Reaches succ req level total (.stopped level' rest)) : rest ≤ total := by
  generalize ho : Outcome.stopped level' rest = o at h
  induction h with
  | stop _ =>
    cases ho
    exact le_rfl
  | cap _ _ => exact nomatch ho
  | step _ _ _ ih => exact (ih ho).trans (Nat.sub_le _ _)

/-- More is spent from where the first part has stopped. -/
theorem Reaches.add_stopped (h : Reaches succ req level total (.stopped level' rest))
    (h' : Reaches succ req level' (rest + more) o) : Reaches succ req level (total + more) o := by
  generalize ho : Outcome.stopped level' rest = o₁ at h
  induction h with
  | stop _ =>
    cases ho
    exact h'
  | cap _ _ => exact nomatch ho
  | step hle hnext _ ih =>
    have hrest := ih ho
    rw [← Nat.sub_add_comm hle] at hrest
    exact .step (hle.trans (Nat.le_add_right _ _)) hnext hrest

/-- At the cap more changes nothing. -/
theorem Reaches.add_capped (h : Reaches succ req level total (.capped level')) (more : ℕ) :
    Reaches succ req level (total + more) (.capped level') := by
  generalize ho : Outcome.capped level' = o at h
  induction h with
  | stop _ => exact nomatch ho
  | cap hle hcap =>
    cases ho
    exact .cap (hle.trans (Nat.le_add_right _ _)) hcap
  | step hle hnext _ ih =>
    have hrest := ih ho
    rw [← Nat.sub_add_comm hle] at hrest
    exact .step (hle.trans (Nat.le_add_right _ _)) hnext hrest

variable (succ req level total) in
/-- The total comes to the cap when the requirements grow to a level where they
stop, and it covers them all. -/
theorem reaches_capped_iff : (∃ level', Reaches succ req level total (.capped level')) ↔
    ∃ k, (∀ j < k, req (succ^[j + 1] level) < req (succ^[j + 2] level)) ∧
      req (succ^[k + 2] level) ≤ req (succ^[k + 1] level) ∧
      ∑ j ∈ Finset.range (k + 1), req (succ^[j + 1] level) ≤ total := by
  constructor
  · rintro ⟨level', h⟩
    generalize ho : Outcome.capped level' = o at h
    induction h with
    | stop _ => exact nomatch ho
    | cap hle hcap =>
      refine ⟨0, fun j hj => absurd hj (Nat.not_lt_zero j), hcap, ?_⟩
      rw [Finset.sum_range_one]
      exact hle
    | step hle hnext _ ih =>
      obtain ⟨k, hgrow, hcap, hsum⟩ := ih ho
      refine ⟨k + 1, fun j hj => ?_, hcap, ?_⟩
      · cases j with
        | zero => exact hnext
        | succ j => exact hgrow j (Nat.lt_of_succ_lt_succ hj)
      · rw [Finset.sum_range_succ']
        have hsum' : ∑ j ∈ Finset.range (k + 1), req (succ^[j + 1 + 1] _) ≤ _ := hsum
        exact (Nat.add_le_add_right hsum' _).trans (Nat.sub_add_cancel hle).le
  · rintro ⟨k, hgrow, hcap, hsum⟩
    induction k generalizing level total with
    | zero =>
      rw [Finset.sum_range_one] at hsum
      exact ⟨_, .cap hsum hcap⟩
    | succ k ih =>
      rw [Finset.sum_range_succ'] at hsum
      have hfirst : req (succ level) ≤ total := (Nat.le_add_left _ _).trans hsum
      obtain ⟨level', h⟩ : ∃ level', Reaches succ req (succ level) (total - req (succ level)) (.capped level') :=
        ih _ _ (fun j hj => hgrow (j + 1) (Nat.succ_lt_succ hj)) hcap (Nat.le_sub_of_add_le hsum)
      exact ⟨level', .step hfirst (hgrow 0 k.succ_pos) h⟩

/-! ### Falling back -/

/-- A loss is taken from what has been spent on the next level, and the rest of it
from the levels below. -/
inductive Falls (req : ℕ → ℕ) : ℕ → ℕ → ℕ → ℕ → ℕ → Prop
  | stop {level spent lost : ℕ} (h : lost ≤ spent) : Falls req level spent lost level (spent - lost)
  | step {level spent lost level' rest : ℕ} (h : spent < lost)
      (hrest : Falls req level (req (level + 1)) (lost - spent) level' rest) :
      Falls req (level + 1) spent lost level' rest

/-- What has been spent above the base of a level. -/
def above (req : ℕ → ℕ) (level spent base : ℕ) : ℕ := ∑ c ∈ Finset.Ioc base level, req c + spent

section Falls

variable {req : ℕ → ℕ} {level spent lost level' rest base : ℕ}

theorem above_self : above req level spent level = spent := by
  unfold above
  rw [Finset.Ioc_self, Finset.sum_empty, Nat.zero_add]

/-- A level lower, with its requirement spent. -/
theorem above_succ (h : base ≤ level) : above req (level + 1) spent base = above req level (req (level + 1)) base + spent := by
  unfold above
  rw [Finset.sum_Ioc_succ_top h]

/-- Exactly what is lost is taken. -/
theorem Falls.above_add (h : Falls req level spent lost level' rest) (hbase : base ≤ level') :
    base ≤ level ∧ above req level' rest base + lost = above req level spent base := by
  induction h with
  | stop hle =>
    refine ⟨hbase, ?_⟩
    unfold above
    omega
  | step hlt _ ih =>
    obtain ⟨hle, hsum⟩ := ih hbase
    rw [above_succ hle]
    exact ⟨hle.trans (Nat.le_succ _), by omega⟩

theorem Falls.le (h : Falls req level spent lost level' rest) : level' ≤ level := (h.above_add le_rfl).1

/-- Below the level it comes from, less than the next requirement is left. -/
theorem Falls.rest_lt (h : Falls req level spent lost level' rest) (hlt : level' < level) :
    rest < req (level' + 1) := by
  induction h with
  | stop _ => exact absurd hlt (lt_irrefl _)
  | @step level spent lost level' rest hspent hrest ih =>
    rcases Nat.lt_or_ge level' level with h | h
    · exact ih h
    · have he : level' = level := le_antisymm hrest.le h
      subst he
      cases hrest with
      | stop hle => omega
      | step _ hrest => exact absurd hrest.le (Nat.not_succ_le_self _)

theorem Falls.rest_le (h : Falls req level spent lost level rest) : rest + lost = spent := by
  have hsum := (h.above_add le_rfl).2
  rwa [above_self, above_self] at hsum

/-- The level is the highest above whose base there is what is lost. -/
theorem falls_iff : Falls req level spent lost level' rest ↔
    level' ≤ level ∧ above req level spent level' = rest + lost ∧
      ∀ l, level' < l → l ≤ level → above req level spent l < lost := by
  constructor
  · intro h
    have hsum := (h.above_add le_rfl).2
    rw [above_self] at hsum
    refine ⟨h.le, hsum.symm, ?_⟩
    clear hsum
    induction h with
    | stop _ => exact fun l hl hl' => absurd hl hl'.not_gt
    | @step level spent lost level' rest hspent _ ih =>
      intro l hl hl'
      rcases Nat.lt_or_ge level l with hlt | hle
      · obtain rfl : l = level + 1 := le_antisymm hl' hlt
        rwa [above_self]
      · have hless := ih l hl hle
        rw [above_succ hle]
        omega
  · rintro ⟨hle, hsum, hhigher⟩
    induction level generalizing spent lost with
    | zero =>
      obtain rfl := Nat.le_zero.1 hle
      rw [above_self] at hsum
      obtain rfl : rest = spent - lost := by omega
      exact .stop (by omega)
    | succ level ih =>
      rcases Nat.lt_or_ge level level' with hlt | hle'
      · obtain rfl : level' = level + 1 := le_antisymm hle hlt
        rw [above_self] at hsum
        obtain rfl : rest = spent - lost := by omega
        exact .stop (by omega)
      · have hspent : spent < lost := by
          have htop := hhigher (level + 1) (Nat.lt_succ_of_le hle') le_rfl
          rwa [above_self] at htop
        refine .step hspent (ih hle' ?_ fun l hl hl' => ?_)
        · rw [above_succ hle'] at hsum
          omega
        · have hless := hhigher l hl (hl'.trans (Nat.le_succ _))
          rw [above_succ hl'] at hless
          omega

/-- What has been spent above a base can be lost without leaving it. -/
theorem exists_falls (hbase : base ≤ level) (hlost : lost ≤ above req level spent base) :
    ∃ level' rest, base ≤ level' ∧ Falls req level spent lost level' rest := by
  induction level generalizing spent lost with
  | zero =>
    obtain rfl := Nat.le_zero.1 hbase
    rw [above_self] at hlost
    exact ⟨0, _, le_rfl, .stop hlost⟩
  | succ level ih =>
    rcases Nat.lt_or_ge spent lost with hlt | hle
    · rcases Nat.lt_or_ge level base with hb | hb
      · obtain rfl : base = level + 1 := le_antisymm hbase hb
        rw [above_self] at hlost
        omega
      · rw [above_succ hb] at hlost
        have hrest : lost - spent ≤ above req level (req (level + 1)) base := by omega
        obtain ⟨level', rest, hl, hfalls⟩ := ih hb hrest
        exact ⟨level', rest, hl, .step hlt hfalls⟩
    · exact ⟨level + 1, _, hbase, .stop hle⟩

theorem Falls.unique {level₂ rest₂ : ℕ} (h : Falls req level spent lost level' rest)
    (h' : Falls req level spent lost level₂ rest₂) : level' = level₂ ∧ rest = rest₂ := by
  induction h with
  | stop hle =>
    cases h' with
    | stop _ => exact ⟨rfl, rfl⟩
    | step hlt _ => exact absurd hlt hle.not_gt
  | step hlt _ ih =>
    cases h' with
    | stop hle => exact absurd hlt hle.not_gt
    | step _ hrest => exact ih hrest

end Falls

end Thresholds
end ForgottenServer
