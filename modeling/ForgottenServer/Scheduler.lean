/-
# The scheduler and the dispatcher

Two threads pass tasks on: `Scheduler` keeps events until they are due and hands
them to `Dispatcher`, which executes one task after another. What a thread or a
caller does under a mutex is one action here, and so is a notification that
reaches its condition variable. The actions of the two threads and of all
callers come in any order; one that is not possible changes nothing.

A shutdown that empties the queue of events while the deadline of the scheduler passes
leaves it to take the top of an empty queue: a task that has been deleted already
(`SchedulerAt.undefined`). In every run without that each task is in one place: with one
of the two, executed, or deleted, once (`each_in_one_place`). A thread that sleeps has
nothing to do (`sleeps_rightly`).

Key definitions: `State`, `addEvent`, `stopEvent`, `timeout`, `addTask`, `Act`,
`step`, `State.places`.
Key theorems: `places_step`, `each_in_one_place`, `sound_step`, `sleeps_rightly`.
-/
import Mathlib.Data.Finset.Basic
import Mathlib.Data.List.Perm.Basic
import Mathlib.Tactic
import ForgottenServer.Lib.Run
import ForgottenServer.Lib.Wakeup

namespace ForgottenServer
namespace Tasks

open Wakeup

/-! ### The model -/

/-- `ThreadState` -/
inductive ThreadState
  | running | closing | terminated
  deriving DecidableEq

/-- `Task`, a number in the order of creation. `expiration` is `none` for
`SYSTEM_TIME_ZERO`. The task of `Dispatcher::shutdown` ends the thread. -/
structure Task where
  object : ℕ
  expiration : Option ℤ
  terminates : Bool := false
  deriving DecidableEq

/-- `Task::hasExpired` -/
def Task.hasExpired (task : Task) (now : ℤ) : Bool := task.expiration.any (· < now)

/-- `SchedulerTask`; `cycle` is its expiration. -/
structure SchedulerTask where
  object : ℕ
  cycle : ℤ
  eventId : UInt32
  deriving DecidableEq

/-- Where `Scheduler::threadMain` is: `entered` after the test of the loop,
`handing` on the way to the dispatcher. -/
inductive SchedulerAt
  | loop
  | entered
  | waiting (deadline : Option ℤ)
  | handing (task : SchedulerTask)
  | ended
  | undefined
  deriving DecidableEq

/-- Where `Dispatcher::threadMain` is. -/
inductive DispatcherAt
  | loop
  | entered
  | waiting
  | took (task : Task)
  | ended
  deriving DecidableEq

/-- The fields of `Scheduler` and `Dispatcher`, where their threads are, the
clock, and what became of the tasks: those that were executed, with the time,
and those that were deleted without, or deleted once more. `eventList` is in no order. -/
structure State where
  now : ℤ
  nextTask : ℕ := 0
  schedulerState : ThreadState := .running
  lastEventId : UInt32 := 0
  eventList : List SchedulerTask := []
  eventIds : Finset UInt32 := ∅
  schedulerAt : SchedulerAt := .loop
  eventSignal : Signal := ⟨false, 0⟩
  dispatcherState : ThreadState := .running
  taskList : List Task := []
  dispatcherAt : DispatcherAt := .loop
  taskSignal : Signal := ⟨false, 0⟩
  executed : List (ℕ × ℤ) := []
  deleted : List ℕ := []
  deletedAgain : List ℕ := []

/-- The id for the next event. -/
def State.nextEventId (s : State) : UInt32 := if s.lastEventId + 1 = 0 then 1 else s.lastEventId + 1

/-- `Scheduler::addEvent` for a new task that is due at `cycle` -/
def addEvent (s : State) (cycle : ℤ) : State × UInt32 :=
  if s.schedulerState = .running then
    let task : SchedulerTask := ⟨s.nextTask, cycle, s.nextEventId⟩
    -- the task is on top where all others are later
    let doSignal := s.eventList.all (cycle < ·.cycle)
    ({ s with
        nextTask := s.nextTask + 1
        lastEventId := s.nextEventId
        eventIds := insert s.nextEventId s.eventIds
        eventList := task :: s.eventList
        eventSignal := if doSignal then s.eventSignal.announce else s.eventSignal }, s.nextEventId)
  else ({ s with nextTask := s.nextTask + 1, deleted := s.nextTask :: s.deleted }, 0)

/-- `Scheduler::stopEvent` -/
def stopEvent (s : State) (eventId : UInt32) : State × Bool :=
  if eventId = 0 then (s, false)
  else if eventId ∈ s.eventIds then ({ s with eventIds := s.eventIds.erase eventId }, true)
  else (s, false)

/-- `Dispatcher::addTask` -/
def addTask (s : State) (task : Task) (pushFront : Bool) : State :=
  if s.dispatcherState = .running then
    { s with
      taskList := if pushFront then task :: s.taskList else s.taskList ++ [task]
      taskSignal := if s.taskList.isEmpty then s.taskSignal.announce else s.taskSignal }
  else { s with deleted := task.object :: s.deleted }

/-- The wait of the scheduler begins. -/
def schedulerLock (s : State) (deadline : Option ℤ) : State :=
  { s with schedulerAt := .waiting deadline, eventSignal := s.eventSignal.reset }

/-- The top of `eventList` is taken after a timeout. -/
def timeout (s : State) (top : SchedulerTask) : State :=
  let s := { s with eventList := s.eventList.erase top }
  if top.eventId ∈ s.eventIds then
    { s with eventIds := s.eventIds.erase top.eventId, schedulerAt := .handing top }
  else { s with deleted := top.object :: s.deleted, schedulerAt := .loop }

/-- The dispatcher looks at its list with the mutex locked. -/
def takeTask (s : State) (otherwise : DispatcherAt) : State :=
  match s.taskList with
  | task :: tasks => { s with taskList := tasks, dispatcherAt := .took task }
  | [] => { s with dispatcherAt := otherwise }

/-- What the dispatcher does with the task it took. -/
def execute (s : State) (task : Task) : State :=
  let s := { s with dispatcherAt := .loop }
  if task.hasExpired s.now then { s with deleted := task.object :: s.deleted }
  else
    { s with
      executed := (task.object, s.now) :: s.executed
      dispatcherState := if task.terminates then .terminated else s.dispatcherState
      taskSignal := if task.terminates then s.taskSignal.announce else s.taskSignal }

/-- An action of a caller or of one of the threads. `schedulerTimeout top` takes
`top`, which is one of the earliest events; `schedulerTimeoutEmpty stale` takes what an
emptied queue still has in its memory. -/
inductive Act
  | tick (now : ℤ)
  | addEvent (cycle : ℤ)
  | stopEvent (eventId : UInt32)
  | addTask (expiration : Option ℤ) (pushFront : Bool)
  | notifyScheduler
  | notifyDispatcher
  | schedulerEnter
  | schedulerLock (deadline : Option ℤ)
  | schedulerWake
  | schedulerTimeout (top : SchedulerTask)
  | schedulerTimeoutEmpty (stale : ℕ)
  | schedulerHand (task : SchedulerTask)
  | dispatcherEnter
  | dispatcherLock
  | dispatcherWake
  | dispatcherRun (task : Task)
  | stopScheduler
  | stopDispatcher
  | terminateScheduler
  | clearScheduler
  | shutdownDispatcher
  deriving DecidableEq

/-- The deadline is the cycle of the top of the queue. -/
def IsTop (s : State) (cycle : ℤ) : Prop :=
  (∃ e ∈ s.eventList, e.cycle = cycle) ∧ ∀ e ∈ s.eventList, cycle ≤ e.cycle

instance (s : State) (cycle : ℤ) : Decidable (IsTop s cycle) := inferInstanceAs (Decidable (_ ∧ _))

/-- The scheduler sleeps. -/
def State.sleeps (s : State) : Bool :=
  match s.schedulerAt with
  | .waiting _ => true
  | _ => false

/-- The scheduler sleeps past its deadline. -/
def State.timedOut (s : State) : Bool :=
  match s.schedulerAt with
  | .waiting (some deadline) => deadline ≤ s.now
  | _ => false

/-- When an action is possible. -/
def possible (s : State) : Act → Bool
  | .tick now => s.now ≤ now
  | .notifyScheduler => 0 < s.eventSignal.underway
  | .notifyDispatcher => 0 < s.taskSignal.underway
  | .schedulerEnter => s.schedulerAt = .loop
  | .schedulerLock none => s.schedulerAt = .entered && s.eventList.isEmpty
  | .schedulerLock (some deadline) => s.schedulerAt = .entered && IsTop s deadline
  | .schedulerWake => s.sleeps
  | .schedulerTimeout top => s.timedOut && top ∈ s.eventList && IsTop s top.cycle
  | .schedulerTimeoutEmpty stale => s.timedOut && s.eventList.isEmpty && stale ∈ s.deleted
  | .schedulerHand task => s.schedulerAt = .handing task
  | .dispatcherEnter => s.dispatcherAt = .loop
  | .dispatcherLock => s.dispatcherAt = .entered
  | .dispatcherWake => s.dispatcherAt = .waiting
  | .dispatcherRun task => s.dispatcherAt = .took task
  | .stopScheduler => s.schedulerState = .running
  | .stopDispatcher => s.dispatcherState = .running
  | .clearScheduler => s.schedulerState = .terminated
  | _ => true

/-- What an action does. -/
def act (s : State) : Act → State
  | .tick now => { s with now }
  | .addEvent cycle => (addEvent s cycle).1
  | .stopEvent eventId => (stopEvent s eventId).1
  | .addTask expiration pushFront =>
    addTask { s with nextTask := s.nextTask + 1 } { object := s.nextTask, expiration } pushFront
  | .notifyScheduler => { s with eventSignal := s.eventSignal.deliver s.sleeps }
  | .notifyDispatcher => { s with taskSignal := s.taskSignal.deliver (s.dispatcherAt = .waiting) }
  | .schedulerEnter => { s with schedulerAt := if s.schedulerState = .terminated then .ended else .entered }
  | .schedulerLock deadline => schedulerLock s deadline
  | .schedulerWake => { s with schedulerAt := .loop }
  | .schedulerTimeout top => timeout s top
  -- its id is not active any more, so that it is deleted; what follows has no meaning
  | .schedulerTimeoutEmpty stale =>
    { s with schedulerAt := .undefined, deletedAgain := stale :: s.deletedAgain }
  | .schedulerHand task =>
    addTask { s with schedulerAt := .loop } { object := task.object, expiration := none } true
  | .dispatcherEnter => { s with dispatcherAt := if s.dispatcherState = .terminated then .ended else .entered }
  | .dispatcherLock => takeTask { s with taskSignal := s.taskSignal.reset } .waiting
  | .dispatcherWake => takeTask s .loop
  | .dispatcherRun task => execute s task
  | .stopScheduler => { s with schedulerState := .closing }
  | .stopDispatcher => { s with dispatcherState := .closing }
  | .terminateScheduler => { s with schedulerState := .terminated }
  | .clearScheduler =>
    { s with
      eventList := []
      eventIds := ∅
      deleted := s.eventList.map (·.object) ++ s.deleted
      eventSignal := s.eventSignal.announce }
  | .shutdownDispatcher =>
    { s with
      nextTask := s.nextTask + 1
      taskList := s.taskList ++ [{ object := s.nextTask, expiration := none, terminates := true }]
      taskSignal := s.taskSignal.announce }

/-- One step of a run. -/
def step (s : State) (a : Act) : State := if possible s a then act s a else s

/-! ### Where the tasks are -/

def SchedulerAt.held : SchedulerAt → List ℕ
  | .handing task => [task.object]
  | _ => []

def DispatcherAt.held : DispatcherAt → List ℕ
  | .took task => [task.object]
  | _ => []

@[simp] theorem SchedulerAt.held_loop : SchedulerAt.loop.held = [] := rfl
@[simp] theorem SchedulerAt.held_entered : SchedulerAt.entered.held = [] := rfl
@[simp] theorem SchedulerAt.held_waiting (d : Option ℤ) : (SchedulerAt.waiting d).held = [] := rfl
@[simp] theorem SchedulerAt.held_handing (e : SchedulerTask) : (SchedulerAt.handing e).held = [e.object] := rfl
@[simp] theorem SchedulerAt.held_undefined : SchedulerAt.undefined.held = [] := rfl
@[simp] theorem DispatcherAt.held_loop : DispatcherAt.loop.held = [] := rfl
@[simp] theorem DispatcherAt.held_entered : DispatcherAt.entered.held = [] := rfl
@[simp] theorem DispatcherAt.held_waiting : DispatcherAt.waiting.held = [] := rfl
@[simp] theorem DispatcherAt.held_took (t : Task) : (DispatcherAt.took t).held = [t.object] := rfl

/-- The tasks with the scheduler, with the dispatcher, and those that are done. -/
def State.places (s : State) : List ℕ :=
  (s.eventList.map (·.object) ++ s.schedulerAt.held) ++ (s.taskList.map (·.object) ++ s.dispatcherAt.held) ++
    (s.executed.map (·.1) ++ s.deleted)

/-- Every task that was created is in one place. -/
def Placed (s : State) : Prop := s.places.Perm (List.range s.nextTask)

variable {s s' : State} {a : Act}

theorem State.count_places (s : State) (x : ℕ) :
    s.places.count x = (s.eventList.map (·.object)).count x + s.schedulerAt.held.count x +
      ((s.taskList.map (·.object)).count x + s.dispatcherAt.held.count x) +
      ((s.executed.map (·.1)).count x + s.deleted.count x) := by
  simp only [State.places, List.count_append]

theorem Placed.move (h : Placed s) (hn : s'.nextTask = s.nextTask)
    (hcount : ∀ x, s'.places.count x = s.places.count x) : Placed s' := by
  unfold Placed
  rw [hn]
  exact (List.perm_iff_count.2 hcount).trans h

theorem Placed.create (h : Placed s) (hn : s'.nextTask = s.nextTask + 1)
    (hcount : ∀ x, s'.places.count x = s.places.count x + if s.nextTask = x then 1 else 0) : Placed s' := by
  have hperm : s'.places.Perm (s.places ++ [s.nextTask]) := by
    apply List.perm_iff_count.2
    intro x
    simp [hcount, List.count_append, List.count_singleton]
  unfold Placed
  rw [hn, List.range_succ]
  exact hperm.trans (h.append_right _)

theorem count_erase_object {l : List SchedulerTask} {e : SchedulerTask} (he : e ∈ l) (x : ℕ) :
    ((l.erase e).map (·.object)).count x + (if e.object = x then 1 else 0) = (l.map (·.object)).count x := by
  have hperm := (List.perm_cons_erase he).map (·.object)
  rw [hperm.count_eq, List.map_cons, List.count_cons]
  simp

theorem addTask_placed (task : Task) (pushFront : Bool) :
    (addTask s task pushFront).nextTask = s.nextTask ∧ ∀ x,
      (addTask s task pushFront).places.count x = s.places.count x + if task.object = x then 1 else 0 := by
  unfold addTask
  split
  · refine ⟨rfl, fun x => ?_⟩
    cases pushFront <;> simp [State.count_places, List.count_cons] <;> omega
  · refine ⟨rfl, fun x => ?_⟩
    simp [State.count_places, List.count_cons]
    omega

theorem takeTask_placed (otherwise : DispatcherAt) (hheld : s.dispatcherAt.held = []) (ho : otherwise.held = []) :
    (takeTask s otherwise).nextTask = s.nextTask ∧ ∀ x, (takeTask s otherwise).places.count x = s.places.count x := by
  unfold takeTask
  split
  · next task tasks htasks =>
    refine ⟨rfl, fun x => ?_⟩
    rw [State.count_places, State.count_places, htasks, hheld]
    simp [List.count_cons]
  · refine ⟨rfl, fun x => ?_⟩
    rw [State.count_places, State.count_places, hheld, ho]

/-- One action puts no task into a second place, and loses none. -/
theorem placed_step (h : Placed s) (a : Act) : Placed (step s a) := by
  unfold step
  split
  · next hp =>
    cases a with
    | addEvent cycle =>
      apply h.create
      · simp only [act, addEvent]
        split <;> rfl
      · intro x
        simp only [act, addEvent]
        split <;> simp [State.count_places, List.count_cons] <;> omega
    | stopEvent eventId =>
      apply h.move
      · simp only [act, stopEvent]
        split_ifs <;> rfl
      · intro x
        simp only [act, stopEvent]
        split_ifs <;> rfl
    | addTask expiration pushFront =>
      obtain ⟨hn, hcount⟩ :=
        addTask_placed (s := { s with nextTask := s.nextTask + 1 }) { object := s.nextTask, expiration } pushFront
      exact h.create hn hcount
    | schedulerEnter =>
      refine h.move rfl fun x => ?_
      simp only [possible, decide_eq_true_eq] at hp
      simp only [act, State.count_places, hp]
      split <;> rfl
    | schedulerLock deadline =>
      have hentered : s.schedulerAt = .entered := by cases deadline <;> simp_all [possible]
      refine h.move rfl fun x => ?_
      simp [act, schedulerLock, State.count_places, hentered]
    | schedulerWake =>
      refine h.move rfl fun x => ?_
      simp only [possible, State.sleeps] at hp
      simp only [act, State.count_places]
      split at hp <;> simp_all
    | schedulerTimeout top =>
      simp only [possible, Bool.and_eq_true, decide_eq_true_eq] at hp
      obtain ⟨⟨hlate, hmem⟩, -⟩ := hp
      have hheld : s.schedulerAt.held = [] := by
        simp only [State.timedOut] at hlate
        split at hlate <;> simp_all
      apply h.move
      · simp only [act, timeout]
        split <;> rfl
      · intro x
        have hcount := count_erase_object hmem x
        simp only [act, timeout]
        split <;> simp [State.count_places, hheld, List.count_cons] <;> omega
    | schedulerTimeoutEmpty stale =>
      simp only [possible, Bool.and_eq_true, State.timedOut] at hp
      refine h.move rfl fun x => ?_
      simp only [act, State.count_places]
      obtain ⟨⟨hlate, -⟩, -⟩ := hp
      split at hlate <;> simp_all
    | schedulerHand task =>
      simp only [possible, decide_eq_true_eq] at hp
      obtain ⟨hn, hcount⟩ :=
        addTask_placed (s := { s with schedulerAt := .loop }) { object := task.object, expiration := none } true
      apply h.move hn
      intro x
      refine (hcount x).trans ?_
      simp [State.count_places, hp, List.count_cons]
      omega
    | dispatcherEnter =>
      refine h.move rfl fun x => ?_
      simp only [possible, decide_eq_true_eq] at hp
      simp only [act, State.count_places, hp]
      split <;> rfl
    | dispatcherLock =>
      simp only [possible, decide_eq_true_eq] at hp
      obtain ⟨hn, hcount⟩ :=
        takeTask_placed (s := { s with taskSignal := s.taskSignal.reset }) .waiting (by simp [hp]) rfl
      exact h.move hn hcount
    | dispatcherWake =>
      simp only [possible, decide_eq_true_eq] at hp
      obtain ⟨hn, hcount⟩ := takeTask_placed (s := s) .loop (by simp [hp]) rfl
      exact h.move hn hcount
    | dispatcherRun task =>
      simp only [possible, decide_eq_true_eq] at hp
      apply h.move
      · simp only [act, execute]
        split <;> rfl
      · intro x
        simp only [act, execute]
        split <;> simp [State.count_places, hp, List.count_cons] <;> omega
    | clearScheduler =>
      refine h.move rfl fun x => ?_
      simp [act, State.count_places, List.count_append]
      omega
    | shutdownDispatcher =>
      refine h.create rfl fun x => ?_
      simp [act, State.count_places, List.count_append, List.count_singleton]
      omega
    | tick _ | notifyScheduler | notifyDispatcher | stopScheduler | stopDispatcher | terminateScheduler =>
      exact h.move rfl fun _ => rfl
  · exact h

/-- A task is deleted once more only where the scheduler has taken the top of an empty queue. -/
theorem deletedAgain_step (s : State) (a : Act) :
    (step s a).deletedAgain = s.deletedAgain ∨ (step s a).schedulerAt = .undefined := by
  unfold step
  split
  · cases a with
    | schedulerTimeoutEmpty stale => exact .inr rfl
    | addEvent _ | stopEvent _ =>
      left
      simp only [act, addEvent, stopEvent]
      split_ifs <;> rfl
    | addTask _ _ | schedulerHand _ =>
      left
      simp only [act, addTask]
      split <;> rfl
    | schedulerTimeout _ =>
      left
      simp only [act, timeout]
      split <;> rfl
    | dispatcherLock | dispatcherWake =>
      left
      simp only [act, takeTask]
      split <;> rfl
    | dispatcherRun _ =>
      left
      simp only [act, execute]
      split <;> rfl
    | _ => exact .inl rfl
  · exact .inl rfl

/-- The scheduler's thread does nothing more after that. -/
theorem undefined_step (h : s.schedulerAt = .undefined) (a : Act) : (step s a).schedulerAt = .undefined := by
  unfold step
  split
  · next hp =>
    cases a with
    | schedulerEnter | schedulerHand _ => simp [possible, h] at hp
    | schedulerLock deadline => cases deadline <;> simp [possible, h] at hp
    | schedulerWake => simp [possible, State.sleeps, h] at hp
    | schedulerTimeout _ | schedulerTimeoutEmpty _ => simp [possible, State.timedOut, h] at hp
    | addEvent _ | stopEvent _ =>
      simp only [act, addEvent, stopEvent]
      split_ifs <;> exact h
    | addTask _ _ =>
      simp only [act, addTask]
      split <;> exact h
    | dispatcherLock | dispatcherWake =>
      simp only [act, takeTask]
      split <;> exact h
    | dispatcherRun _ =>
      simp only [act, execute]
      split <;> exact h
    | _ => exact h
  · exact h

/-- Nothing has been deleted twice, or the top of an empty queue has been taken. -/
def Once (s : State) : Prop := s.deletedAgain = [] ∨ s.schedulerAt = .undefined

theorem once_step (h : Once s) (a : Act) : Once (step s a) := by
  rcases h with hnone | hundefined
  · rcases deletedAgain_step s a with hsame | hundefined
    · exact .inl (hsame.trans hnone)
    · exact .inr hundefined
  · exact .inr (undefined_step hundefined a)

/-- The two threads have been started, and nothing has been added. -/
def init (now : ℤ) : State := { now }

/-- **Nothing is lost or done twice.** Whatever the threads and the callers do,
and in whatever order, each task that was created is in one place, with the
scheduler, with the dispatcher, executed, or deleted, and no task has been deleted
once more: unless the scheduler has taken the top of an empty queue. -/
theorem each_in_one_place (now : ℤ) (as : List Act)
    (hdefined : (Run.run step (init now) as).schedulerAt ≠ .undefined) :
    ((Run.run step (init now) as).places ++ (Run.run step (init now) as).deletedAgain).Perm
      (List.range (Run.run step (init now) as).nextTask) := by
  have hplaced : Placed (Run.run step (init now) as) :=
    Run.run_of_step (I := Placed) (fun _ a h => placed_step h a) as (List.Perm.refl _)
  have honce : Once (Run.run step (init now) as) :=
    Run.run_of_step (I := Once) (fun _ a h => once_step h a) as (.inl rfl)
  rw [honce.resolve_right hdefined, List.append_nil]
  exact hplaced

/-- One event is handed over and executed, and a shutdown deletes the other one. -/
def shutdownAfterwards : List Act :=
  [.addEvent 50, .addEvent 70, .schedulerEnter, .schedulerLock (some 50), .tick 60, .schedulerTimeout ⟨0, 50, 1⟩,
    .schedulerHand ⟨0, 50, 1⟩, .terminateScheduler, .clearScheduler, .dispatcherEnter, .dispatcherLock,
    .dispatcherRun { object := 0, expiration := none }]

theorem each_in_one_place_afterwards :
    ((Run.run step (init 0) shutdownAfterwards).executed.map (·.1) = [0] ∧
      (Run.run step (init 0) shutdownAfterwards).deleted = [1]) ∧
    ((Run.run step (init 0) shutdownAfterwards).places ++
      (Run.run step (init 0) shutdownAfterwards).deletedAgain).Perm [0, 1] :=
  ⟨by decide, each_in_one_place 0 shutdownAfterwards (by decide)⟩

/-- The shutdown comes while the deadline passes: the event is deleted twice. -/
example : (Run.run step (init 0) [.addEvent 50, .schedulerEnter, .schedulerLock (some 50), .terminateScheduler,
    .clearScheduler, .tick 60, .schedulerTimeoutEmpty 0]).deletedAgain = [0] := by decide

/-! ### Threads that sleep -/

/-- The scheduler sleeps no longer than until the first event, unless a
notification is on its way, and sleeps for a reason; the dispatcher sleeps with
nothing to do. -/
structure Sound (s : State) : Prop where
  scheduler : Rightly (∃ d, s.schedulerAt = .waiting d)
    (∀ e ∈ s.eventList, ∃ d, s.schedulerAt = .waiting (some d) ∧ d ≤ e.cycle) s.eventSignal
  dispatcher : Rightly (s.dispatcherAt = .waiting) (s.taskList = []) s.taskSignal
  deadline : ∀ d, s.schedulerAt = .waiting (some d) →
    (s.eventList = [] ∧ s.schedulerState = .terminated) ∨ ∃ e ∈ s.eventList, e.cycle ≤ d
  done : s.schedulerAt = .ended ∨ s.schedulerAt = .undefined → s.schedulerState = .terminated

theorem State.sleeps_iff : s.sleeps = true ↔ ∃ d, s.schedulerAt = .waiting d := by
  unfold State.sleeps
  split <;> simp_all

theorem State.timedOut_iff : s.timedOut = true ↔ ∃ d ≤ s.now, s.schedulerAt = .waiting (some d) := by
  unfold State.timedOut
  split <;> simp_all

/-- Steps that leave the scheduler alone. -/
theorem Sound.of_dispatcher (h : Sound s) (hlist : s'.eventList = s.eventList) (hat : s'.schedulerAt = s.schedulerAt)
    (hsignal : s'.eventSignal = s.eventSignal) (hstate : s'.schedulerState = s.schedulerState)
    (hd : Rightly (s'.dispatcherAt = .waiting) (s'.taskList = []) s'.taskSignal) : Sound s' where
  scheduler := by rw [hat, hlist, hsignal]; exact h.scheduler
  dispatcher := hd
  deadline := by rw [hat, hlist, hstate]; exact h.deadline
  done := by rw [hat, hstate]; exact h.done

/-- The scheduler does not sleep after the step. -/
theorem Sound.of_awake (hd : Rightly (s'.dispatcherAt = .waiting) (s'.taskList = []) s'.taskSignal)
    (hat : ∀ d, s'.schedulerAt ≠ .waiting d)
    (hdone : s'.schedulerAt = .ended ∨ s'.schedulerAt = .undefined → s'.schedulerState = .terminated) : Sound s' where
  scheduler := .of_awake fun ⟨d, hs⟩ => hat d hs
  dispatcher := hd
  deadline d hs := absurd hs (hat d)
  done := hdone

theorem addTask_rightly (h : Rightly (s.dispatcherAt = .waiting) (s.taskList = []) s.taskSignal) (task : Task)
    (pushFront : Bool) :
    Rightly ((addTask s task pushFront).dispatcherAt = .waiting) ((addTask s task pushFront).taskList = [])
      (addTask s task pushFront).taskSignal := by
  unfold addTask
  split
  · by_cases hempty : s.taskList = []
    · simp only [hempty, List.isEmpty_nil, if_true]
      exact .announce
    · -- the list is not empty, so that a notification is on its way already
      have hne : s.taskList.isEmpty = false := by simpa using hempty
      simp only [hne]
      exact fun ha hw => .inr ((h ha hw).resolve_left hempty)
  · exact h

theorem addTask_scheduler (task : Task) (pushFront : Bool) :
    (addTask s task pushFront).eventList = s.eventList ∧ (addTask s task pushFront).schedulerAt = s.schedulerAt ∧
      (addTask s task pushFront).eventSignal = s.eventSignal ∧
      (addTask s task pushFront).schedulerState = s.schedulerState := by
  unfold addTask
  split <;> exact ⟨rfl, rfl, rfl, rfl⟩

theorem takeTask_rightly {otherwise : DispatcherAt} :
    Rightly ((takeTask s otherwise).dispatcherAt = .waiting) ((takeTask s otherwise).taskList = [])
      (takeTask s otherwise).taskSignal := by
  unfold takeTask
  split
  · exact .of_awake (by simp)
  · next hempty => exact .of_calm fun _ => hempty

theorem takeTask_scheduler (otherwise : DispatcherAt) :
    (takeTask s otherwise).eventList = s.eventList ∧ (takeTask s otherwise).schedulerAt = s.schedulerAt ∧
      (takeTask s otherwise).eventSignal = s.eventSignal ∧
      (takeTask s otherwise).schedulerState = s.schedulerState := by
  unfold takeTask
  split <;> exact ⟨rfl, rfl, rfl, rfl⟩

theorem sound_addEvent (h : Sound s) (cycle : ℤ) : Sound (addEvent s cycle).1 := by
  unfold addEvent
  split
  · refine ⟨?_, h.dispatcher, fun d hd => ?_, h.done⟩
    · dsimp only
      split
      · exact .announce
      · next hfirst =>
        -- an event that is no later is in the queue, and the thread wakes for it
        obtain ⟨e₀, he₀, hle⟩ : ∃ e ∈ s.eventList, e.cycle ≤ cycle := by simpa using hfirst
        refine h.scheduler.mono id fun _ hcalm e he => ?_
        obtain ⟨d, hd, hdle⟩ := hcalm e₀ he₀
        rcases List.mem_cons.1 he with rfl | he
        · exact ⟨d, hd, hdle.trans hle⟩
        · exact hcalm e he
    · next hrunning =>
      rcases h.deadline d hd with ⟨-, hterminated⟩ | ⟨e, he, hle⟩
      · simp [hrunning] at hterminated
      · exact .inr ⟨e, List.mem_cons_of_mem _ he, hle⟩
  · exact ⟨h.scheduler, h.dispatcher, h.deadline, h.done⟩

theorem sound_step (h : Sound s) (a : Act) : Sound (step s a) := by
  unfold step
  split
  · next hp =>
    cases a with
    | addEvent cycle => exact sound_addEvent h cycle
    | stopEvent eventId =>
      simp only [act, stopEvent]
      split_ifs
      · exact h
      · exact ⟨h.scheduler, h.dispatcher, h.deadline, h.done⟩
      · exact h
    | addTask expiration pushFront =>
      obtain ⟨hlist, hat, hsignal, hstate⟩ :=
        addTask_scheduler (s := { s with nextTask := s.nextTask + 1 }) { object := s.nextTask, expiration } pushFront
      exact h.of_dispatcher hlist hat hsignal hstate
        (addTask_rightly (s := { s with nextTask := s.nextTask + 1 }) h.dispatcher _ _)
    | notifyScheduler =>
      exact ⟨.deliver fun ha => State.sleeps_iff.2 ha, h.dispatcher, h.deadline, h.done⟩
    | notifyDispatcher => exact h.of_dispatcher rfl rfl rfl rfl (.deliver fun ha => decide_eq_true ha)
    | schedulerEnter =>
      by_cases hstate : s.schedulerState = .terminated
      · exact .of_awake h.dispatcher (by simp [act, hstate]) fun _ => hstate
      · exact .of_awake h.dispatcher (by simp [act, hstate]) (by simp [act, hstate])
    | schedulerLock deadline =>
      cases deadline with
      | none =>
        simp only [possible, Bool.and_eq_true, List.isEmpty_iff] at hp
        refine ⟨.of_calm fun _ e he => ?_, h.dispatcher, by simp [act, schedulerLock], by simp [act, schedulerLock]⟩
        simp [act, schedulerLock, hp.2] at he
      | some deadline =>
        simp only [possible, Bool.and_eq_true, decide_eq_true_eq] at hp
        obtain ⟨-, ⟨e, he, hcycle⟩, hfirst⟩ := hp
        refine ⟨.of_calm fun _ e he => ⟨deadline, rfl, hfirst e he⟩, h.dispatcher, fun d hd => ?_,
          by simp [act, schedulerLock]⟩
        obtain rfl : deadline = d := by simpa [act, schedulerLock] using hd
        exact .inr ⟨e, he, hcycle.le⟩
    | schedulerWake => exact .of_awake h.dispatcher (by simp [act]) (by simp [act])
    | schedulerTimeout top =>
      simp only [act, timeout]
      split
      · exact .of_awake h.dispatcher (by simp) (by simp)
      · exact .of_awake h.dispatcher (by simp) (by simp)
    | schedulerTimeoutEmpty stale =>
      simp only [possible, Bool.and_eq_true, State.timedOut_iff, List.isEmpty_iff] at hp
      obtain ⟨⟨⟨d, -, hd⟩, hempty⟩, -⟩ := hp
      refine .of_awake h.dispatcher (by simp [act]) fun _ => ?_
      rcases h.deadline d hd with ⟨-, hterminated⟩ | ⟨e, he, -⟩
      · exact hterminated
      · simp [hempty] at he
    | schedulerHand task =>
      obtain ⟨-, hat, -, -⟩ :=
        addTask_scheduler (s := { s with schedulerAt := .loop }) { object := task.object, expiration := none } true
      refine .of_awake (addTask_rightly (s := { s with schedulerAt := .loop }) h.dispatcher _ _)
        (fun d hd => ?_) fun hd => ?_
      · simp [act, hat] at hd
      · simp [act, hat] at hd
    | dispatcherEnter =>
      refine h.of_dispatcher rfl rfl rfl rfl (.of_awake ?_)
      simp only [act]
      split <;> simp
    | dispatcherLock =>
      obtain ⟨hlist, hat, hsignal, hstate⟩ :=
        takeTask_scheduler (s := { s with taskSignal := s.taskSignal.reset }) .waiting
      exact h.of_dispatcher hlist hat hsignal hstate takeTask_rightly
    | dispatcherWake =>
      obtain ⟨hlist, hat, hsignal, hstate⟩ := takeTask_scheduler (s := s) .loop
      exact h.of_dispatcher hlist hat hsignal hstate takeTask_rightly
    | dispatcherRun task =>
      simp only [act, execute]
      split
      · exact h.of_dispatcher rfl rfl rfl rfl (.of_awake (by simp))
      · exact h.of_dispatcher rfl rfl rfl rfl (.of_awake (by simp))
    | stopScheduler =>
      simp only [possible, decide_eq_true_eq] at hp
      refine ⟨h.scheduler, h.dispatcher, fun d hd => ?_, fun hd => ?_⟩
      · rcases h.deadline d hd with ⟨-, hterminated⟩ | he
        · simp [hp] at hterminated
        · exact .inr he
      · simpa [hp] using h.done hd
    | terminateScheduler =>
      refine ⟨h.scheduler, h.dispatcher, fun d hd => ?_, fun _ => rfl⟩
      exact (h.deadline d hd).imp_left fun hempty => ⟨hempty.1, rfl⟩
    | clearScheduler =>
      simp only [possible, decide_eq_true_eq] at hp
      exact ⟨.announce, h.dispatcher, fun d _ => .inl ⟨rfl, hp⟩, h.done⟩
    | shutdownDispatcher => exact h.of_dispatcher rfl rfl rfl rfl .announce
    | tick _ | stopDispatcher => exact ⟨h.scheduler, h.dispatcher, h.deadline, h.done⟩
  · exact h

theorem sound_init (now : ℤ) : Sound (init now) :=
  .of_awake (.of_awake (by simp [init])) (by simp [init]) (by simp [init])

/-- **No wakeup for an event or a task is lost.** Where the scheduler sleeps, has not
been notified and will not be, it wakes by itself before the first event is due, or
there is none; where the dispatcher does, it has no task. The top of an empty queue is
taken only after a shutdown. -/
theorem sleeps_rightly (now : ℤ) (as : List Act) :
    let s := Run.run step (init now) as
    (∀ d, s.schedulerAt = .waiting d → s.eventSignal = ⟨false, 0⟩ →
      ∀ e ∈ s.eventList, ∃ t, d = some t ∧ t ≤ e.cycle) ∧
    (s.dispatcherAt = .waiting → s.taskSignal = ⟨false, 0⟩ → s.taskList = []) ∧
    (s.schedulerAt = .undefined → s.schedulerState = .terminated) := by
  intro s
  have h : Sound s := Run.run_of_step (I := Sound) (fun _ a h => sound_step h a) as (sound_init now)
  refine ⟨fun d hd hsignal e he => ?_, fun hd hsignal => ?_, fun hd => h.done (.inr hd)⟩
  · obtain ⟨t, ht, hle⟩ := h.scheduler.calm_of_idle ⟨d, hd⟩ (by simp [hsignal]) (by simp [hsignal]) e he
    rw [hd] at ht
    exact ⟨t, by simpa using ht, hle⟩
  · exact h.dispatcher.calm_of_idle hd (by simp [hsignal]) (by simp [hsignal])

end Tasks
end ForgottenServer
