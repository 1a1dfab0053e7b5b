/-
# The database thread

Queries whose results nobody waits for are executed by a thread of its own, and their
callbacks are handed to the dispatcher. `shutdown` takes the lock, ends the thread and
executes what is left in the queue itself, also while the thread executes the query
that it took before. What a thread does under the lock is one action, and so are the
execution of a query and the handing on of its result; the actions of all threads come
in any order.

In every run each query is executed once (`each_query_kept`). The results are those of
the queries one after the other, in the order of `addTask`, unless the shutdown comes
while the thread has a query in its hands (`queries_in_order`). The notification of the
shutdown is lost if it comes between the thread's test of its state and its wait
(`thread_released`).

Key definitions: `Database`, `State`, `step`, `serial`, `Ordered`, `Released`.
Key theorems: `each_query_kept`, `queries_in_order`, `thread_awaits`, `thread_released`.
-/
import Mathlib.Data.List.Perm.Basic
import Mathlib.Tactic
import ForgottenServer.Lib.Run
import ForgottenServer.Lib.Wakeup
import ForgottenServer.Scheduler

namespace ForgottenServer
namespace DatabaseTasks

open Tasks (ThreadState)
open Wakeup

/-! ### The model -/

/-- What a database with states `δ` answers; a result that is `none` is a null pointer. The
server has another connection to it (`Database::getInstance`): here only this one
writes. -/
structure Database (δ ρ : Type) where
  storeQuery : δ → String → δ × Option ρ
  executeQuery : δ → String → δ × Bool

/-- The callback is a number. -/
structure DatabaseTask where
  query : String
  callback : Option ℕ := none
  store : Bool := false
  deriving DecidableEq

/-- Result and success of a query. -/
abbrev Outcome (ρ : Type) := Option ρ × Bool

/-- Where `threadMain` is: `entered` after the test of the loop; it has taken a task, or
executed it and not handed on the result. -/
inductive ThreadAt (ρ : Type)
  | loop
  | entered
  | waiting
  | took (task : DatabaseTask)
  | ran (task : DatabaseTask) (outcome : Outcome ρ)
  | ended

/-- Where `shutdown` is. It has the lock while it flushes the queue. -/
inductive ShutdownAt (ρ : Type)
  | away
  | flushing
  | ran (task : DatabaseTask) (outcome : Outcome ρ)

/-- The fields of `DatabaseTasks`, where its thread and a shutdown are, the tasks that
were queued and executed, in order, and what the dispatcher was given: callback and
outcome. -/
structure State (δ ρ : Type) where
  db : δ
  threadState : ThreadState := .running
  tasks : List DatabaseTask := []
  taskSignal : Signal := ⟨false, 0⟩
  threadAt : ThreadAt ρ := .loop
  shutdownAt : ShutdownAt ρ := .away
  accepted : List DatabaseTask := []
  executed : List DatabaseTask := []
  dispatched : List (ℕ × Outcome ρ) := []

variable {δ ρ : Type}

/-- The first half of `DatabaseTasks::runTask`. -/
def runQuery (D : Database δ ρ) (db : δ) (task : DatabaseTask) : δ × Outcome ρ :=
  if task.store then
    let (db, result) := D.storeQuery db task.query
    (db, result, true)
  else
    let (db, success) := D.executeQuery db task.query
    (db, none, success)

/-- The second half: what is given to the dispatcher. -/
def callbacks (task : DatabaseTask) (outcome : Outcome ρ) : List (ℕ × Outcome ρ) :=
  match task.callback with
  | some callback => [(callback, outcome)]
  | none => []

/-- `DatabaseTasks::addTask` -/
def addTask (s : State δ ρ) (task : DatabaseTask) : State δ ρ :=
  if s.threadState = .running then
    { s with
      tasks := s.tasks ++ [task]
      accepted := s.accepted ++ [task]
      taskSignal := if s.tasks.isEmpty then s.taskSignal.announce else s.taskSignal }
  else s

/-- The thread looks at the queue with the lock. -/
def takeTask (s : State δ ρ) (otherwise : ThreadAt ρ) : State δ ρ :=
  match s.tasks with
  | task :: tasks => { s with tasks, threadAt := .took task }
  | [] => { s with threadAt := otherwise }

/-- A query is executed. -/
def execute (D : Database δ ρ) (s : State δ ρ) (task : DatabaseTask) : State δ ρ :=
  { s with db := (runQuery D s.db task).1, executed := s.executed ++ [task] }

inductive Act
  | addTask (task : DatabaseTask)
  | stop
  | shutdown
  | flushRun
  | flushDispatch
  | flushEnd
  | notify
  | enter
  | lock
  | wake
  | run
  | dispatch
  deriving DecidableEq

/-- One action; one that is not possible changes nothing. `lock` and `wake` need the
lock, which `shutdown` keeps until `flushEnd`. -/
def step (D : Database δ ρ) (s : State δ ρ) : Act → State δ ρ
  | .addTask task =>
    match s.shutdownAt with
    | .away => addTask s task
    | _ => s
  | .stop => if s.threadState = .running then { s with threadState := .closing } else s
  | .shutdown =>
    match s.shutdownAt with
    | .away => { s with threadState := .terminated, shutdownAt := .flushing }
    | _ => s
  | .flushRun =>
    match s.shutdownAt, s.tasks with
    | .flushing, task :: _ => { execute D s task with shutdownAt := .ran task (runQuery D s.db task).2 }
    | _, _ => s
  | .flushDispatch =>
    match s.shutdownAt with
    | .ran task outcome =>
      { s with
        dispatched := s.dispatched ++ callbacks task outcome
        tasks := s.tasks.tail
        shutdownAt := .flushing }
    | _ => s
  | .flushEnd =>
    match s.shutdownAt, s.tasks with
    | .flushing, [] => { s with shutdownAt := .away, taskSignal := s.taskSignal.announce }
    | _, _ => s
  | .notify =>
    if 0 < s.taskSignal.underway then
      { s with taskSignal := s.taskSignal.deliver (match s.threadAt with | .waiting => true | _ => false) }
    else s
  | .enter =>
    match s.threadAt with
    | .loop => { s with threadAt := if s.threadState = .terminated then .ended else .entered }
    | _ => s
  | .lock =>
    match s.threadAt, s.shutdownAt with
    | .entered, .away => takeTask { s with taskSignal := s.taskSignal.reset } .waiting
    | _, _ => s
  | .wake =>
    match s.threadAt, s.shutdownAt with
    | .waiting, .away => takeTask s .loop
    | _, _ => s
  | .run =>
    match s.threadAt with
    | .took task => { execute D s task with threadAt := .ran task (runQuery D s.db task).2 }
    | _ => s
  | .dispatch =>
    match s.threadAt with
    | .ran task outcome => { s with dispatched := s.dispatched ++ callbacks task outcome, threadAt := .loop }
    | _ => s

/-- `DatabaseTasks::start`, with a database that is connected. -/
def init (db : δ) : State δ ρ := { db }

/-! ### Where the queries are -/

/-- The task that the thread has taken and not executed. -/
def ThreadAt.held : ThreadAt ρ → List DatabaseTask
  | .took task => [task]
  | _ => []

/-- The queue without the task that the flush has executed. -/
def State.pending (s : State δ ρ) : List DatabaseTask :=
  match s.shutdownAt with
  | .ran _ _ => s.tasks.tail
  | _ => s.tasks

/-- Each query that was accepted has been executed, or is held by the thread, or waits
in the queue, which is empty behind a shutdown. -/
structure Kept (s : State δ ρ) : Prop where
  placed : (s.executed ++ s.threadAt.held ++ s.pending).Perm s.accepted
  front : ∀ task outcome, s.shutdownAt = .ran task outcome → s.tasks ≠ []
  flushed : s.threadState = .terminated → s.shutdownAt = .away → s.tasks = []

variable {D : Database δ ρ} {s : State δ ρ}

theorem takeTask_cases (s : State δ ρ) (otherwise : ThreadAt ρ) :
    (∃ task tasks, s.tasks = task :: tasks ∧ takeTask s otherwise = { s with tasks, threadAt := .took task }) ∨
      s.tasks = [] ∧ takeTask s otherwise = { s with threadAt := otherwise } := by
  unfold takeTask
  split
  · next task tasks h => exact .inl ⟨task, tasks, h, rfl⟩
  · next h => exact .inr ⟨h, rfl⟩

theorem pending_of_away (h : s.shutdownAt = .away) : s.pending = s.tasks := by
  unfold State.pending
  rw [h]

theorem pending_of_flushing (h : s.shutdownAt = .flushing) : s.pending = s.tasks := by
  unfold State.pending
  rw [h]

/-- The thread takes a query, or finds none. -/
theorem Kept.takeTask (h : Kept s) (haway : s.shutdownAt = .away) (hheld : s.threadAt.held = [])
    {otherwise : ThreadAt ρ} (hother : otherwise.held = []) : Kept (takeTask s otherwise) := by
  have hplaced := h.placed
  rw [hheld, List.append_nil, pending_of_away haway] at hplaced
  rcases takeTask_cases s otherwise with ⟨task, tasks, htasks, heq⟩ | ⟨htasks, heq⟩
  · rw [heq]
    refine ⟨?_, by simp [haway], fun hstate _ => ?_⟩
    · have hpending : State.pending { s with tasks, threadAt := .took task } = tasks := pending_of_away haway
      rw [hpending]
      simpa [ThreadAt.held, htasks] using hplaced
    · exact absurd (h.flushed hstate haway) (by simp [htasks])
  · rw [heq]
    refine ⟨?_, by simp [haway], h.flushed⟩
    have hpending : State.pending { s with threadAt := otherwise } = s.tasks := pending_of_away haway
    rw [hpending, hother, List.append_nil]
    exact hplaced

theorem kept_step (h : Kept s) (a : Act) : Kept (step D s a) := by
  have hplaced := h.placed
  cases a with
  | addTask task =>
    simp only [step]
    split
    · next haway =>
      unfold addTask
      split
      · next hstate =>
        refine ⟨?_, by simp [haway], fun hs => by simp [hstate] at hs⟩
        rw [pending_of_away haway] at hplaced
        rw [pending_of_away (by exact haway), ← List.append_assoc]
        exact hplaced.append_right [task]
      · exact h
    · exact h
  | stop =>
    simp only [step]
    split
    · exact ⟨hplaced, h.front, by simp⟩
    · exact h
  | shutdown =>
    simp only [step]
    split
    · next haway =>
      refine ⟨?_, by simp, by simp⟩
      rw [pending_of_away haway] at hplaced
      exact hplaced
    · exact h
  | flushRun =>
    simp only [step]
    split
    · next task rest hat htasks =>
      refine ⟨?_, by simp [execute, htasks], by simp⟩
      rw [pending_of_flushing hat, htasks] at hplaced
      simp only [execute, State.pending, htasks, List.tail_cons]
      -- the query overtakes the one that the thread holds
      have hmove : (s.executed ++ [task] ++ s.threadAt.held ++ rest).Perm
          (s.executed ++ s.threadAt.held ++ task :: rest) := by
        simp only [List.append_assoc, List.singleton_append]
        exact List.perm_middle.symm.append_left s.executed
      exact hmove.trans hplaced
    · exact h
  | flushDispatch =>
    simp only [step]
    split
    · next task outcome hat =>
      refine ⟨?_, by simp, by simp⟩
      simp only [State.pending, hat] at hplaced
      exact hplaced
    · exact h
  | flushEnd =>
    simp only [step]
    split
    · next hat htasks =>
      rw [pending_of_flushing hat] at hplaced
      exact ⟨hplaced, by simp, fun _ _ => htasks⟩
    · exact h
  | notify =>
    simp only [step]
    split
    · exact ⟨hplaced, h.front, h.flushed⟩
    · exact h
  | enter =>
    simp only [step]
    split
    · next hat =>
      refine ⟨?_, h.front, h.flushed⟩
      rw [hat] at hplaced
      split <;> exact hplaced
    · exact h
  | lock =>
    simp only [step]
    split
    · next hat haway =>
      have hkept : Kept { s with taskSignal := s.taskSignal.reset } := ⟨hplaced, h.front, h.flushed⟩
      exact hkept.takeTask haway (by simp [hat, ThreadAt.held]) rfl
    · exact h
  | wake =>
    simp only [step]
    split
    · next hat haway => exact h.takeTask haway (by simp [hat, ThreadAt.held]) rfl
    · exact h
  | run =>
    simp only [step]
    split
    · next task hat =>
      refine ⟨?_, h.front, h.flushed⟩
      rw [hat] at hplaced
      simpa [execute, ThreadAt.held, State.pending] using hplaced
    · exact h
  | dispatch =>
    simp only [step]
    split
    · next task outcome hat =>
      refine ⟨?_, h.front, h.flushed⟩
      rw [hat] at hplaced
      exact hplaced
    · exact h

/-- **No query is lost, and none is executed twice.** In every order of actions the
queries that `addTask` accepted are those that were executed, the one that the thread
holds and those in the queue; and nothing is left in the queue when `shutdown`
returns. -/
theorem each_query_kept (D : Database δ ρ) (db : δ) (as : List Act) :
    let s := Run.run (step D) (init db) as
    (s.executed ++ s.threadAt.held ++ s.pending).Perm s.accepted ∧
      (s.threadState = .terminated → s.shutdownAt = .away → s.tasks = []) := by
  intro s
  have hinit : Kept (init db : State δ ρ) := ⟨List.Perm.refl _, by simp [init], fun _ _ => rfl⟩
  have h : Kept s := Run.run_of_step (I := Kept) (fun _ a h => kept_step h a) as hinit
  exact ⟨h.placed, h.flushed⟩

/-! ### One query after the other -/

/-- The queries executed one after the other: the database then, and the callbacks with
their outcomes. -/
def serial (D : Database δ ρ) (db : δ) (tasks : List DatabaseTask) : δ × List (ℕ × Outcome ρ) :=
  tasks.foldl (fun p task => ((runQuery D p.1 task).1, p.2 ++ callbacks task (runQuery D p.1 task).2)) (db, [])

theorem serial_concat (db : δ) (tasks : List DatabaseTask) (task : DatabaseTask) :
    serial D db (tasks ++ [task]) = ((runQuery D (serial D db tasks).1 task).1,
      (serial D db tasks).2 ++ callbacks task (runQuery D (serial D db tasks).1 task).2) := by
  simp [serial]

/-- What the dispatcher is to be given. -/
def ThreadAt.outstanding : ThreadAt ρ → List (ℕ × Outcome ρ)
  | .ran task outcome => callbacks task outcome
  | _ => []

def ShutdownAt.outstanding : ShutdownAt ρ → List (ℕ × Outcome ρ)
  | .ran task outcome => callbacks task outcome
  | _ => []

/-- The thread has nothing in its hands. -/
def ThreadAt.Idle (t : ThreadAt ρ) : Prop := t.held = [] ∧ t.outstanding = []

/-- The shutdown finds the thread with nothing in its hands. -/
def Quiet (s : State δ ρ) (a : Act) : Prop := a = .shutdown → s.threadAt.Idle

/-- The state is what the serial execution leads to, and the thread and a flush are not
at work together. -/
structure Ordered (D : Database δ ρ) (db : δ) (s : State δ ρ) : Prop where
  order : s.executed ++ s.threadAt.held ++ s.pending = s.accepted
  state : s.db = (serial D db s.executed).1
  callbacks : s.dispatched ++ s.threadAt.outstanding ++ s.shutdownAt.outstanding = (serial D db s.executed).2
  alone : s.shutdownAt ≠ .away → s.threadAt.Idle

variable {db : δ}

theorem Ordered.takeTask (h : Ordered D db s) (haway : s.shutdownAt = .away) (hidle : s.threadAt.Idle)
    {otherwise : ThreadAt ρ} (hother : otherwise.Idle) : Ordered D db (takeTask s otherwise) := by
  have horder := h.order
  have hcallbacks := h.callbacks
  rw [hidle.1, List.append_nil, pending_of_away haway] at horder
  rw [hidle.2, List.append_nil] at hcallbacks
  rcases takeTask_cases s otherwise with ⟨task, tasks, htasks, heq⟩ | ⟨htasks, heq⟩
  · rw [heq]
    refine ⟨?_, h.state, ?_, fun hne => absurd haway hne⟩
    · have hpending : State.pending { s with tasks, threadAt := .took task } = tasks := pending_of_away haway
      rw [hpending, ← horder, htasks]
      simp [ThreadAt.held]
    · simpa [ThreadAt.outstanding] using hcallbacks
  · rw [heq]
    refine ⟨?_, h.state, ?_, fun hne => absurd haway hne⟩
    · have hpending : State.pending { s with threadAt := otherwise } = s.tasks := pending_of_away haway
      rw [hpending, hother.1, List.append_nil]
      exact horder
    · simpa [hother.2] using hcallbacks

theorem ordered_step (h : Ordered D db s) {a : Act} (ha : Quiet s a) : Ordered D db (step D s a) := by
  have horder := h.order
  have hcallbacks := h.callbacks
  cases a with
  | addTask task =>
    simp only [step]
    split
    · next haway =>
      unfold addTask
      split
      · refine ⟨?_, h.state, hcallbacks, h.alone⟩
        rw [pending_of_away haway] at horder
        rw [pending_of_away (by exact haway), ← List.append_assoc]
        exact congrArg (· ++ [task]) horder
      · exact h
    · exact h
  | stop =>
    simp only [step]
    split
    · exact ⟨horder, h.state, hcallbacks, h.alone⟩
    · exact h
  | shutdown =>
    simp only [step]
    split
    · next haway =>
      rw [pending_of_away haway] at horder
      rw [haway] at hcallbacks
      exact ⟨horder, h.state, hcallbacks, fun _ => ha rfl⟩
    · exact h
  | flushRun =>
    simp only [step]
    split
    · next task rest hat htasks =>
      have hidle := h.alone (by simp [hat])
      rw [pending_of_flushing hat, htasks, hidle.1, List.append_nil] at horder
      rw [hidle.2, hat, List.append_nil] at hcallbacks
      refine ⟨?_, ?_, ?_, fun _ => hidle⟩
      · simp only [execute, State.pending, htasks, List.tail_cons, hidle.1, List.append_nil]
        rw [← horder]
        simp
      · simp only [execute, serial_concat]
        rw [← h.state]
      · simp only [execute, serial_concat, ← h.state, ← hcallbacks, hidle.2]
        simp [ShutdownAt.outstanding]
    · exact h
  | flushDispatch =>
    simp only [step]
    split
    · next task outcome hat =>
      have hidle := h.alone (by simp [hat])
      rw [hidle.2, hat] at hcallbacks
      simp only [State.pending, hat] at horder
      refine ⟨horder, h.state, ?_, fun _ => hidle⟩
      rw [← hcallbacks]
      simp [hidle.2, ShutdownAt.outstanding]
    · exact h
  | flushEnd =>
    simp only [step]
    split
    · next hat htasks =>
      rw [pending_of_flushing hat] at horder
      rw [hat] at hcallbacks
      exact ⟨horder, h.state, hcallbacks, fun hne => absurd rfl hne⟩
    · exact h
  | notify =>
    simp only [step]
    split
    · exact ⟨horder, h.state, hcallbacks, h.alone⟩
    · exact h
  | enter =>
    simp only [step]
    split
    · next hat =>
      rw [hat] at horder hcallbacks
      split
      · exact ⟨horder, h.state, hcallbacks, fun _ => ⟨rfl, rfl⟩⟩
      · exact ⟨horder, h.state, hcallbacks, fun _ => ⟨rfl, rfl⟩⟩
    · exact h
  | lock =>
    simp only [step]
    split
    · next hat haway =>
      have hordered : Ordered D db { s with taskSignal := s.taskSignal.reset } :=
        ⟨horder, h.state, hcallbacks, h.alone⟩
      exact hordered.takeTask haway (by simp [hat, ThreadAt.Idle, ThreadAt.held, ThreadAt.outstanding]) ⟨rfl, rfl⟩
    · exact h
  | wake =>
    simp only [step]
    split
    · next hat haway =>
      exact h.takeTask haway (by simp [hat, ThreadAt.Idle, ThreadAt.held, ThreadAt.outstanding]) ⟨rfl, rfl⟩
    · exact h
  | run =>
    simp only [step]
    split
    · next task hat =>
      have haway : s.shutdownAt = .away := by
        by_contra hne
        have hidle := h.alone hne
        simp [hat, ThreadAt.Idle, ThreadAt.held] at hidle
      rw [hat] at horder hcallbacks
      refine ⟨?_, ?_, ?_, fun hne => absurd haway hne⟩
      · simpa [execute, ThreadAt.held, State.pending] using horder
      · simp only [execute, serial_concat]
        rw [← h.state]
      · simp only [execute, serial_concat, ← h.state, ← hcallbacks]
        simp [ThreadAt.outstanding, ShutdownAt.outstanding, haway]
    · exact h
  | dispatch =>
    simp only [step]
    split
    · next task outcome hat =>
      rw [hat] at horder hcallbacks
      refine ⟨horder, h.state, ?_, fun _ => ⟨rfl, rfl⟩⟩
      rw [← hcallbacks]
      simp [ThreadAt.outstanding]
    · exact h

/-- **The queries take effect in order.** Unless the shutdown comes while the thread has
a query or an outcome in its hands, the database is as if the queries had been executed
one after the other in the order of `addTask`, and the callbacks get those outcomes in
that order. -/
theorem queries_in_order (D : Database δ ρ) (db : δ) (as : List Act) (has : Run.Along (step D) Quiet (init db) as) :
    let s := Run.run (step D) (init db) as
    s.executed <+: s.accepted ∧ s.db = (serial D db s.executed).1 ∧ s.dispatched <+: (serial D db s.executed).2 ∧
      (s.pending = [] → s.threadAt.held = [] → s.executed = s.accepted) := by
  intro s
  have hinit : Ordered D db (init db : State δ ρ) := ⟨rfl, rfl, rfl, fun _ => ⟨rfl, rfl⟩⟩
  have h : Ordered D db s :=
    Run.run_inv (P := Quiet) (I := Ordered D db) (fun _ _ h ha => ordered_step h ha) as hinit has
  refine ⟨?_, h.state, ?_, fun hpending hheld => ?_⟩
  · rw [← h.order, List.append_assoc]
    exact List.prefix_append _ _
  · rw [← h.callbacks, List.append_assoc]
    exact List.prefix_append _ _
  · simpa [hpending, hheld] using h.order

/-- A database that remembers its queries. -/
def recorder : Database (List String) Unit where
  storeQuery db query := (db ++ [query], some ())
  executeQuery db query := (db ++ [query], true)

/-- A query is executed by the thread, and another one by the flush of the shutdown. -/
def twoQueries : List Act :=
  [.addTask { query := "a", callback := some 1 }, .addTask { query := "b", callback := some 2 },
    .enter, .lock, .run, .dispatch, .shutdown, .flushRun, .flushDispatch, .flushEnd]

theorem queries_in_order_twoQueries :
    let s := Run.run (step recorder) (init []) twoQueries
    s.executed = s.accepted ∧ s.db = (serial recorder [] s.accepted).1 ∧
      s.dispatched <+: (serial recorder [] s.accepted).2 := by
  have hquiet : Run.Along (step recorder) Quiet (init []) twoQueries := by
    simp [twoQueries, Run.Along, Quiet, step, addTask, takeTask, execute, init, ThreadAt.Idle, ThreadAt.held,
      ThreadAt.outstanding]
  obtain ⟨-, hstate, hcallbacks, hall⟩ := queries_in_order recorder [] twoQueries hquiet
  have hexecuted := hall rfl rfl
  rw [hexecuted] at hstate hcallbacks
  exact ⟨hexecuted, hstate, hcallbacks⟩

/-- The flush overtakes the query that the thread holds. -/
example : (Run.run (step recorder) (init []) [.addTask { query := "a" }, .enter, .lock, .addTask { query := "b" },
    .shutdown, .flushRun, .flushDispatch, .flushEnd, .run]).db = ["b", "a"] := rfl

/-! ### The thread wakes -/

/-- A thread that waits without a notification has no task. -/
def Awaits (s : State δ ρ) : Prop := Rightly (s.threadAt = .waiting) (s.tasks = []) s.taskSignal

theorem takeTask_awaits (s : State δ ρ) (otherwise : ThreadAt ρ) : Awaits (takeTask s otherwise) := by
  rcases takeTask_cases s otherwise with ⟨task, tasks, -, heq⟩ | ⟨htasks, heq⟩
  · rw [heq]
    exact .of_awake (by simp)
  · rw [heq]
    exact .of_calm fun _ => htasks

theorem deliver_waiting : s.threadAt = .waiting →
    (match s.threadAt with | .waiting => true | _ => false) = true := by
  intro h
  rw [h]

theorem awaits_step (h : Awaits s) (a : Act) : Awaits (step D s a) := by
  cases a with
  | addTask task =>
    simp only [step]
    split
    · unfold addTask
      split
      · unfold Awaits
        dsimp only
        split
        · exact .announce
        · next hne => exact h.mono id fun _ hnil => absurd (List.isEmpty_iff.2 hnil) hne
      · exact h
    · exact h
  | flushRun | stop | shutdown =>
    simp only [step]
    split
    · exact h
    · exact h
  | flushDispatch =>
    simp only [step]
    split
    · exact h.mono id fun _ hnil => by simp [hnil]
    · exact h
  | flushEnd =>
    simp only [step]
    split
    · exact .announce
    · exact h
  | notify =>
    simp only [step]
    split
    · exact .deliver deliver_waiting
    · exact h
  | enter =>
    simp only [step]
    split
    · apply Rightly.of_awake
      split <;> simp
    · exact h
  | lock =>
    simp only [step]
    split
    · exact takeTask_awaits _ _
    · exact h
  | wake =>
    simp only [step]
    split
    · exact takeTask_awaits _ _
    · exact h
  | run | dispatch =>
    simp only [step]
    split
    · exact .of_awake (by simp)
    · exact h

/-- No wakeup of `addTask` is lost: where the thread waits, has not been notified and
will not be, the queue is empty. -/
theorem thread_awaits (D : Database δ ρ) (db : δ) (as : List Act) :
    let s := Run.run (step D) (init db) as
    s.threadAt = .waiting → s.taskSignal = ⟨false, 0⟩ → s.tasks = [] := by
  intro s hwaiting hsignal
  have hinit : Awaits (init db : State δ ρ) := .of_awake (by simp [init])
  have h : Awaits s := Run.run_of_step (I := Awaits) (fun _ a h => awaits_step h a) as hinit
  exact h.calm_of_idle hwaiting (by simp [hsignal]) (by simp [hsignal])

/-- The thread has not been told to end, or the shutdown has not returned. -/
def State.Unended (s : State δ ρ) : Prop := s.threadState ≠ .terminated ∨ s.shutdownAt ≠ .away

/-- Where the thread waits or is about to, the shutdown is still to notify it. -/
structure Released (s : State δ ρ) : Prop where
  entered : s.threadAt = .entered → s.Unended ∨ 0 < s.taskSignal.underway
  waiting : Rightly (s.threadAt = .waiting) s.Unended s.taskSignal

/-- A notification behind the shutdown does not come between the thread's test of its
state and its wait. -/
def Timely (s : State δ ρ) (a : Act) : Prop :=
  a = .notify → s.threadState = .terminated → s.threadAt ≠ .entered

theorem Released.of_awake (hentered : s.threadAt ≠ .entered) (hwaiting : s.threadAt ≠ .waiting) : Released s :=
  ⟨fun h => absurd h hentered, .of_awake hwaiting⟩

theorem Released.of_unended (h : s.Unended) : Released s := ⟨fun _ => .inl h, .of_calm fun _ => h⟩

theorem released_step (h : Released s) {a : Act} (ha : Timely s a) : Released (step D s a) := by
  cases a with
  | addTask task =>
    simp only [step]
    split
    · unfold addTask
      split
      · next hstate => exact .of_unended (.inl (by simp [hstate]))
      · exact h
    · exact h
  | stop =>
    simp only [step]
    split
    · exact .of_unended (.inl (by simp))
    · exact h
  | shutdown =>
    simp only [step]
    split
    · exact .of_unended (.inr (by simp))
    · exact h
  | flushRun | flushDispatch =>
    simp only [step]
    split
    · exact .of_unended (.inr (by simp))
    · exact h
  | flushEnd =>
    simp only [step]
    split
    · exact ⟨fun _ => .inr (Nat.succ_pos _), .announce⟩
    · exact h
  | notify =>
    simp only [step]
    split
    · refine ⟨fun hentered => .inl (.inl fun hstate => ha rfl hstate hentered), .deliver deliver_waiting⟩
    · exact h
  | enter =>
    simp only [step]
    split
    · split
      · exact .of_awake (by simp) (by simp)
      · next hstate => exact .of_unended (.inl hstate)
    · exact h
  | lock =>
    simp only [step]
    split
    · next hat haway =>
      rcases takeTask_cases { s with taskSignal := s.taskSignal.reset } .waiting with
        ⟨task, tasks, -, heq⟩ | ⟨-, heq⟩
      · rw [heq]
        exact .of_awake (by simp) (by simp)
      · rw [heq]
        exact ⟨by simp, fun _ _ => h.entered hat⟩
    · exact h
  | wake =>
    simp only [step]
    split
    · rcases takeTask_cases s .loop with ⟨task, tasks, -, heq⟩ | ⟨-, heq⟩
      · rw [heq]
        exact .of_awake (by simp) (by simp)
      · rw [heq]
        exact .of_awake (by simp) (by simp)
    · exact h
  | run | dispatch =>
    simp only [step]
    split
    · exact .of_awake (by simp) (by simp)
    · exact h

/-- **The shutdown wakes the thread.** Unless a notification comes between the thread's
test of its state and its wait, a thread that waits behind a shutdown has been notified
or is going to be. -/
theorem thread_released (D : Database δ ρ) (db : δ) (as : List Act)
    (has : Run.Along (step D) Timely (init db) as) :
    let s := Run.run (step D) (init db) as
    s.threadAt = .waiting → s.threadState = .terminated → s.shutdownAt = .away →
      s.taskSignal.notified = true ∨ 0 < s.taskSignal.underway := by
  intro s hwaiting hstate haway
  have hinit : Released (init db : State δ ρ) := .of_unended (.inl (by simp [init]))
  have h : Released s := Run.run_inv (P := Timely) (I := Released) (fun _ _ h ha => released_step h ha) as hinit has
  cases hnotified : s.taskSignal.notified with
  | true => exact .inl rfl
  | false =>
    have hunended : ¬ s.Unended := by simp [State.Unended, hstate, haway]
    exact .inr ((h.waiting hwaiting hnotified).resolve_left hunended)

/-- The thread waits, and is shut down. -/
def shutDown : List Act := [.enter, .lock, .shutdown, .flushEnd]

theorem thread_released_shutDown : 0 < (Run.run (step recorder) (init []) shutDown).taskSignal.underway := by
  have has : Run.Along (step recorder) Timely (init []) shutDown := by simp [shutDown, Run.Along, Timely]
  exact (thread_released recorder [] shutDown has rfl rfl rfl).resolve_left (by decide)

/-- The thread has tested its state; then it is shut down, and waits. -/
def missed : List Act := [.enter, .shutdown, .flushEnd, .notify, .lock]

/-- Nobody is going to wake it. -/
example : (Run.run (step recorder) (init []) missed).taskSignal = ⟨false, 0⟩ ∧
    (Run.run (step recorder) (init []) missed).threadAt = .waiting := ⟨rfl, rfl⟩

end DatabaseTasks
end ForgottenServer
