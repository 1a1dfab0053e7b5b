/-
# Sleeping on a condition variable

A thread looks at what it waits for, finds nothing to do (`calm`) and sleeps
until it is notified. Whoever breaks the calm announces a notification first and
delivers it later; other steps come in between. No wakeup is lost if a thread
that sleeps and has not been notified has nothing to do, or a notification is on
its way (`Rightly`).

Key definitions: `Signal`, `Rightly`.
Key theorems: `Rightly.of_awake`, `Rightly.announce`, `Rightly.deliver`,
`Rightly.calm_of_idle`.
-/
import Mathlib.Tactic.Common

namespace ForgottenServer
namespace Wakeup

/-- What is known of a condition variable with one thread that waits on it: the
thread has been notified, and how many notifications are on their way. -/
structure Signal where
  notified : Bool
  underway : ℕ
  deriving DecidableEq

namespace Signal

/-- Somebody is going to call `notify_one`. -/
def announce (w : Signal) : Signal := { w with underway := w.underway + 1 }

/-- `notify_one`: without a thread that sleeps it has no effect. -/
def deliver (w : Signal) (asleep : Bool) : Signal := ⟨w.notified || asleep, w.underway - 1⟩

/-- The thread begins to wait. -/
def reset (w : Signal) : Signal := { w with notified := false }

end Signal

/-- A thread that sleeps and has not been notified has nothing to do, or a
notification is on its way. -/
def Rightly (asleep calm : Prop) (w : Signal) : Prop := asleep → w.notified = false → calm ∨ 0 < w.underway

variable {asleep asleep' calm calm' : Prop} {w : Signal}

theorem Rightly.mono (h : Rightly asleep calm w) (hasleep : asleep' → asleep) (hcalm : asleep' → calm → calm') :
    Rightly asleep' calm' w :=
  fun ha hw => (h (hasleep ha) hw).imp_left (hcalm ha)

/-- A thread that does not sleep. -/
theorem Rightly.of_awake (h : ¬ asleep) : Rightly asleep calm w := fun ha => absurd ha h

/-- A thread that has nothing to do. -/
theorem Rightly.of_calm (h : asleep → calm) : Rightly asleep calm w := fun ha _ => .inl (h ha)

/-- Whoever announces a notification may break the calm. -/
theorem Rightly.announce : Rightly asleep calm w.announce := fun _ _ => .inr (Nat.succ_pos _)

/-- A notification is delivered to the thread that sleeps. -/
theorem Rightly.deliver {b : Bool} (hb : asleep → b = true) : Rightly asleep calm (w.deliver b) := by
  intro ha hw
  simp [Signal.deliver, hb ha] at hw

/-- When no notification is on its way, a thread that sleeps has nothing to do. -/
theorem Rightly.calm_of_idle (h : Rightly asleep calm w) (ha : asleep) (hw : w.notified = false)
    (hidle : w.underway = 0) : calm :=
  (h ha hw).resolve_right (by omega)

end Wakeup
end ForgottenServer
