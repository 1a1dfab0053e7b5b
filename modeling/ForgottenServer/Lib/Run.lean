/-
# Runs of a step function

A run applies a step function to a list of actions, oldest first (`run`).
`Along` says that every action of a run meets a condition on the state it is
taken in. An invariant that one step keeps holds at the end of a run
(`run_inv`) and in every state on the way (`along_of_inv`).

A property about the order of steps needs the steps themselves: `Hist` pairs
the state a run has reached with its past, newest step first, and
`Hist.inv` is the invariant rule for it.
-/
import Mathlib.Data.List.Basic
import Mathlib.Tactic.Common

namespace ForgottenServer
namespace Run

variable {σ α : Type*}

/-- The state after the actions, oldest first. -/
def run (step : σ → α → σ) : σ → List α → σ
  | s, [] => s
  | s, a :: as => run step (step s a) as

/-- Every action of the run meets `P` in the state it is taken in. -/
def Along (step : σ → α → σ) (P : σ → α → Prop) : σ → List α → Prop
  | _, [] => True
  | s, a :: as => P s a ∧ Along step P (step s a) as

variable {step : σ → α → σ}

instance Along.decidable {P : σ → α → Prop} [∀ s a, Decidable (P s a)] :
    ∀ (s : σ) (as : List α), Decidable (Along step P s as)
  | _, [] => inferInstanceAs (Decidable True)
  | s, a :: as =>
    have := decidable (P := P) (step s a) as
    inferInstanceAs (Decidable (_ ∧ _))

/-- What every step keeps holds at the end of a run. -/
theorem run_inv {P : σ → α → Prop} {I : σ → Prop} (hI : ∀ s a, I s → P s a → I (step s a)) :
    ∀ (as : List α) {s : σ}, I s → Along step P s as → I (run step s as)
  | [], _, h, _ => h
  | a :: as, s, h, hP => run_inv hI as (hI s a h hP.1) hP.2

/-- What every step keeps, whatever the action, holds at the end of every run. -/
theorem run_of_step {I : σ → Prop} (hI : ∀ s a, I s → I (step s a)) :
    ∀ (as : List α) {s : σ}, I s → I (run step s as)
  | [], _, h => h
  | a :: as, s, h => run_of_step hI as (hI s a h)

/-- What every step keeps whose action meets `Q` holds at the end of a run of such
actions. -/
theorem run_of_mem {Q : α → Prop} {I : σ → Prop} (hI : ∀ s a, I s → Q a → I (step s a)) :
    ∀ (as : List α) {s : σ}, I s → (∀ a ∈ as, Q a) → I (run step s as)
  | [], _, h, _ => h
  | a :: as, s, h, hQ =>
    run_of_mem hI as (hI s a h (hQ a List.mem_cons_self)) fun b hb => hQ b (List.mem_cons_of_mem a hb)

theorem run_append : ∀ (as bs : List α) (s : σ), run step s (as ++ bs) = run step (run step s as) bs
  | [], _, _ => rfl
  | a :: as, bs, s => run_append as bs (step s a)

/-- A condition that is met along a run is met along its last part. -/
theorem Along.of_append {P : σ → α → Prop} : ∀ {as bs : List α} {s : σ}, Along step P s (as ++ bs) →
    Along step P (run step s as) bs
  | [], _, _, h => h
  | a :: _, _, s, h => of_append (s := step s a) h.2

/-- What an invariant implies holds at every step of a run. -/
theorem along_of_inv {P Q : σ → α → Prop} {I : σ → Prop}
    (hI : ∀ s a, I s → P s a → I (step s a)) (hQ : ∀ s a, I s → P s a → Q s a) :
    ∀ (as : List α) {s : σ}, I s → Along step P s as → Along step Q s as
  | [], _, _, _ => trivial
  | a :: as, s, h, hP => ⟨hQ s a h hP.1, along_of_inv hI hQ as (hI s a h hP.1) hP.2⟩

/-- A condition on the actions alone joins one on the steps. -/
theorem Along.and {P : σ → α → Prop} {Q : α → Prop} :
    ∀ {as : List α} {s : σ}, Along step P s as → (∀ a ∈ as, Q a) →
      Along step (fun s a => P s a ∧ Q a) s as
  | [], _, _, _ => trivial
  | a :: _, _, h, hQ =>
    ⟨⟨h.1, hQ a List.mem_cons_self⟩, h.2.and fun b hb => hQ b (List.mem_cons_of_mem a hb)⟩

/-- A condition that is met along a run may be added to another. -/
theorem Along.and_iff {P Q : σ → α → Prop} : ∀ {as : List α} {s : σ}, Along step P s as →
    (Along step (fun s a => P s a ∧ Q s a) s as ↔ Along step Q s as)
  | [], _, _ => Iff.rfl
  | _ :: _, _, h => and_congr (and_iff_right h.1) h.2.and_iff

/-- Two conditions that agree where the invariant holds, which steps that meet
the first one keep, are met along the same runs. -/
theorem along_congr {P Q : σ → α → Prop} {I : σ → Prop}
    (hI : ∀ s a, I s → P s a → I (step s a)) (hPQ : ∀ s a, I s → (P s a ↔ Q s a)) :
    ∀ (as : List α) {s : σ}, I s → (Along step P s as ↔ Along step Q s as)
  | [], _, _ => Iff.rfl
  | a :: as, s, h => by
    constructor
    · intro ⟨hP, hr⟩
      exact ⟨(hPQ s a h).1 hP, (along_congr hI hPQ as (hI s a h hP)).1 hr⟩
    · intro ⟨hQ, hr⟩
      have hP := (hPQ s a h).2 hQ
      exact ⟨hP, (along_congr hI hPQ as (hI s a h hP)).2 hr⟩

/-- The runs from `init` whose steps all meet `P`, with their past: the
states the actions were taken in and the actions, newest first. -/
inductive Hist (step : σ → α → σ) (P : σ → α → Prop) (init : σ) : List (σ × α) → σ → Prop
  | nil : Hist step P init [] init
  | step {h s} (a : α) : Hist step P init h s → P s a → Hist step P init ((s, a) :: h) (step s a)

/-- The invariant rule for runs with their past. -/
theorem Hist.inv {P : σ → α → Prop} {init : σ} {I : List (σ × α) → σ → Prop} (h0 : I [] init)
    (hI : ∀ h s a, I h s → P s a → I ((s, a) :: h) (step s a)) {h : List (σ × α)} {s : σ}
    (hr : Hist step P init h s) : I h s := by
  induction hr with
  | nil => exact h0
  | step a _ hP ih => exact hI _ _ a ih hP

end Run
end ForgottenServer
