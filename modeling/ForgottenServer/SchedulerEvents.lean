/-
# What becomes of an event

An event id names one event of the queue as long as fewer than 2^32 events have
been added. With that, and with a clock that does not go back, an event that was stopped is
never executed; one that was not is not lost, and it is executed once and not before it is due
(`event_executed_once`). An event that is due is taken from the queue within five
steps of the scheduler's thread (`due_event_taken`).

Key definitions: `Ids`, `Dead`, `Kept`, `Act.shutsDown`, `OwnStep`.
Key theorems: `ids_step`, `stopped_never_executed`, `kept_step`,
`event_executed_once`, `due_event_taken`.
-/
import ForgottenServer.Scheduler

namespace ForgottenServer
namespace Tasks

variable {s s' : State} {a : Act} {e : SchedulerTask} {id : UInt32}

/-! ### Event ids -/

/-- The ids of the queue are different, none is newer than the last, and an id
that is active is in the queue. -/
structure Ids (s : State) : Prop where
  old : ∀ e ∈ s.eventList, e.eventId.toNat ≤ s.lastEventId.toNat
  nodup : (s.eventList.map (·.eventId)).Nodup
  active : ∀ id ∈ s.eventIds, ∃ e ∈ s.eventList, e.eventId = id

def Act.isAddEvent : Act → Bool
  | .addEvent _ => true
  | _ => false

theorem nextEventId_toNat (h : s.lastEventId.toNat + 1 < 2 ^ 32) : s.nextEventId.toNat = s.lastEventId.toNat + 1 := by
  have hne : s.lastEventId + 1 ≠ 0 := by
    intro hzero
    have := congrArg UInt32.toNat hzero
    simp only [UInt32.toNat_add, UInt32.toNat_one, UInt32.toNat_zero] at this
    omega
  unfold State.nextEventId
  rw [if_neg hne]
  simp only [UInt32.toNat_add, UInt32.toNat_one]
  omega

/-- An event that is new has an id that is not in the queue. -/
theorem Ids.nextEventId_ne (h : Ids s) (hlast : s.lastEventId.toNat + 1 < 2 ^ 32) (he : e ∈ s.eventList) :
    e.eventId ≠ s.nextEventId := by
  intro heq
  have hle := h.old e he
  rw [heq, nextEventId_toNat hlast] at hle
  omega

theorem Ids.eq_of_eventId (h : Ids s) {e' : SchedulerTask} (he : e ∈ s.eventList) (he' : e' ∈ s.eventList)
    (hid : e.eventId = e'.eventId) : e = e' := List.inj_on_of_nodup_map h.nodup he he' hid

theorem Ids.congr (h : Ids s) (hlist : s'.eventList = s.eventList) (hids : s'.eventIds ⊆ s.eventIds)
    (hlast : s'.lastEventId = s.lastEventId) : Ids s' where
  old := by rw [hlist, hlast]; exact h.old
  nodup := by rw [hlist]; exact h.nodup
  active id hid := by rw [hlist]; exact h.active id (hids hid)

/-- What an action does to the queue of events. -/
theorem queue_cases (s : State) (a : Act) :
    (∃ cycle, a = .addEvent cycle ∧ s.schedulerState = .running ∧ (step s a).lastEventId = s.nextEventId ∧
      (step s a).eventIds = insert s.nextEventId s.eventIds ∧
      (step s a).eventList = ⟨s.nextTask, cycle, s.nextEventId⟩ :: s.eventList) ∨
    (∃ top, a = .schedulerTimeout top ∧ top ∈ s.eventList ∧ s.timedOut = true ∧ IsTop s top.cycle ∧
      step s a = timeout s top) ∨
    (a = .clearScheduler ∧ s.schedulerState = .terminated ∧ step s a = act s .clearScheduler) ∨
    ((step s a).eventList = s.eventList ∧ (step s a).lastEventId = s.lastEventId ∧
      ((step s a).eventIds = s.eventIds ∨ ∃ id, a = .stopEvent id ∧ (step s a).eventIds = s.eventIds.erase id)) := by
  unfold step
  split
  · next hp =>
    cases a with
    | addEvent cycle =>
      by_cases hrunning : s.schedulerState = .running
      · exact .inl ⟨cycle, rfl, hrunning, by simp [act, addEvent, hrunning], by simp [act, addEvent, hrunning],
          by simp [act, addEvent, hrunning]⟩
      · exact .inr (.inr (.inr (by simp [act, addEvent, hrunning])))
    | stopEvent id =>
      refine .inr (.inr (.inr ?_))
      simp only [act, stopEvent]
      split_ifs
      · exact ⟨rfl, rfl, .inl rfl⟩
      · exact ⟨rfl, rfl, .inr ⟨id, rfl, rfl⟩⟩
      · exact ⟨rfl, rfl, .inl rfl⟩
    | schedulerTimeout top =>
      simp only [possible, Bool.and_eq_true, decide_eq_true_eq] at hp
      exact .inr (.inl ⟨top, rfl, hp.1.2, hp.1.1, hp.2, rfl⟩)
    | clearScheduler =>
      simp only [possible, decide_eq_true_eq] at hp
      exact .inr (.inr (.inl ⟨rfl, hp, rfl⟩))
    | addTask _ _ | schedulerHand _ =>
      refine .inr (.inr (.inr ?_))
      simp only [act, addTask]
      split <;> simp
    | dispatcherLock | dispatcherWake =>
      refine .inr (.inr (.inr ?_))
      simp only [act, takeTask]
      split <;> simp
    | dispatcherRun task =>
      refine .inr (.inr (.inr ?_))
      simp only [act, execute]
      split <;> simp
    | _ => exact .inr (.inr (.inr ⟨rfl, rfl, .inl rfl⟩))
  · exact .inr (.inr (.inr ⟨rfl, rfl, .inl rfl⟩))

/-- The id of an event that is added is new. -/
def Fresh (s : State) (a : Act) : Prop := a.isAddEvent = true → s.lastEventId.toNat + 1 < 2 ^ 32

theorem ids_step (h : Ids s) (hfresh : Fresh s a) : Ids (step s a) := by
  rcases queue_cases s a with ⟨cycle, rfl, -, hlast, hids, hlist⟩ | ⟨top, rfl, hmem, -, -, hstep⟩ |
    ⟨rfl, -, hstep⟩ | ⟨hlist, hlast, hids⟩
  · have hroom := hfresh rfl
    refine ⟨?_, ?_, ?_⟩
    · rw [hlist, hlast, nextEventId_toNat hroom]
      intro e he
      rcases List.mem_cons.1 he with rfl | he
      · exact (nextEventId_toNat hroom).le
      · exact (h.old e he).trans (Nat.le_succ _)
    · rw [hlist, List.map_cons, List.nodup_cons]
      refine ⟨fun hmem => ?_, h.nodup⟩
      obtain ⟨e, he, heq⟩ := List.mem_map.1 hmem
      exact h.nextEventId_ne hroom he heq
    · rw [hlist, hids]
      intro id hid
      rcases Finset.mem_insert.1 hid with rfl | hid
      · exact ⟨_, List.mem_cons_self, rfl⟩
      · obtain ⟨e, he, heq⟩ := h.active id hid
        exact ⟨e, List.mem_cons_of_mem _ he, heq⟩
  · have hnodup : ((s.eventList.erase top).map (·.eventId)).Nodup := h.nodup.sublist (List.erase_sublist.map _)
    have hold : ∀ e ∈ s.eventList.erase top, e.eventId.toNat ≤ s.lastEventId.toNat :=
      fun e he => h.old e (List.mem_of_mem_erase he)
    have hactive : ∀ id ∈ s.eventIds, id ≠ top.eventId → ∃ e ∈ s.eventList.erase top, e.eventId = id := by
      intro id hid hne
      obtain ⟨e, he, rfl⟩ := h.active id hid
      exact ⟨e, (List.mem_erase_of_ne fun heq => hne (congrArg _ heq)).2 he, rfl⟩
    rw [hstep]
    simp only [timeout]
    split
    · refine ⟨hold, hnodup, fun id hid => ?_⟩
      exact hactive id (Finset.mem_of_mem_erase hid) (Finset.ne_of_mem_erase hid)
    · next hnot => exact ⟨hold, hnodup, fun id hid => hactive id hid fun heq => hnot (heq ▸ hid)⟩
  · rw [hstep]
    exact ⟨by simp [act], by simp [act], by simp [act]⟩
  · apply h.congr hlist ?_ hlast
    rcases hids with hids | ⟨id, -, hids⟩
    · exact hids.subset
    · exact hids.subset.trans (Finset.erase_subset _ _)

/-- With fewer than 2^32 events all ids are new. -/
theorem along_fresh : ∀ (as : List Act) {s : State}, s.lastEventId.toNat + as.countP Act.isAddEvent < 2 ^ 32 →
    Run.Along step Fresh s as
  | [], _, _ => trivial
  | a :: as, s, h => by
    rw [List.countP_cons] at h
    have hfresh : Fresh s a := by
      intro ha
      simp only [ha, if_true] at h
      omega
    refine ⟨hfresh, along_fresh as ?_⟩
    rcases queue_cases s a with ⟨cycle, rfl, -, hlast, -, -⟩ | ⟨top, rfl, -, -, -, hstep⟩ | ⟨rfl, -, hstep⟩ |
      ⟨-, hlast, -⟩
    · rw [hlast, nextEventId_toNat (hfresh rfl)]
      simp only [Act.isAddEvent, if_true] at h
      omega
    · have hlast : (step s (.schedulerTimeout top)).lastEventId = s.lastEventId := by
        rw [hstep]
        simp only [timeout]
        split <;> rfl
      rw [hlast]
      omega
    · rw [hstep]
      exact lt_of_le_of_lt (Nat.add_le_add_left (Nat.le_add_right _ _) _) h
    · rw [hlast]
      omega

/-- What holds of every state that is reached with few events. -/
structure Good (s : State) : Prop where
  placed : Placed s
  sound : Sound s
  ids : Ids s

theorem good_step (h : Good s) (hfresh : Fresh s a) : Good (step s a) :=
  ⟨placed_step h.placed a, sound_step h.sound a, ids_step h.ids hfresh⟩

theorem good_init (now : ℤ) : Good (init now) :=
  ⟨List.Perm.refl _, sound_init now, ⟨by simp [init], by simp [init], by simp [init]⟩⟩

/-- What the steps of a good run keep. -/
theorem run_good {I : State → Prop} {P : Act → Prop}
    (hI : ∀ s a, Good s → Fresh s a → P a → I s → I (step s a)) {as : List Act} (hs : Good s)
    (hfresh : Run.Along step Fresh s as) (hP : ∀ a ∈ as, P a) (h : I s) :
    Good (Run.run step s as) ∧ I (Run.run step s as) :=
  Run.run_inv (I := fun s => Good s ∧ I s)
    (fun s a hs ha => ⟨good_step hs.1 ha.1, hI s a hs.1 ha.1 ha.2 hs.2⟩) as ⟨hs, h⟩ (hfresh.and hP)

/-! ### What is done -/

/-- The clock does not go back, what is done stays done, and a task is executed
that was with the dispatcher. -/
structure Logged (s : State) (a : Act) (s' : State) : Prop where
  now : s.now ≤ s'.now
  deleted : s.deleted ⊆ s'.deleted
  executed : s'.executed = s.executed ∨ ∃ task, a = .dispatcherRun task ∧ s.dispatcherAt = .took task ∧
    s'.executed = (task.object, s.now) :: s.executed

theorem logged_step (s : State) (a : Act) : Logged s a (step s a) := by
  have hidle {s' : State} (hnow : s.now ≤ s'.now) (hdeleted : s.deleted ⊆ s'.deleted)
      (hexecuted : s'.executed = s.executed) : Logged s a s' := ⟨hnow, hdeleted, .inl hexecuted⟩
  unfold step
  split
  · next hp =>
    cases a with
    | tick now => exact hidle (by simpa [possible, act] using hp) (by simp [act]) rfl
    | addEvent _ | stopEvent _ =>
      simp only [act, addEvent, stopEvent]
      split_ifs <;> exact hidle le_rfl (by simp) rfl
    | addTask _ _ | schedulerHand _ =>
      simp only [act, addTask]
      split <;> exact hidle le_rfl (by simp) rfl
    | schedulerTimeout _ =>
      simp only [act, timeout]
      split <;> exact hidle le_rfl (by simp) rfl
    | dispatcherLock | dispatcherWake =>
      simp only [act, takeTask]
      split <;> exact hidle le_rfl (by simp) rfl
    | dispatcherRun task =>
      simp only [possible, decide_eq_true_eq] at hp
      simp only [act, execute]
      split
      · exact hidle le_rfl (by simp) rfl
      · exact ⟨le_rfl, by simp, .inr ⟨task, rfl, hp, rfl⟩⟩
    | _ => exact hidle le_rfl (by simp [act, schedulerLock]) rfl
  · exact hidle le_rfl (by simp) rfl

/-! ### Events that were stopped -/

theorem Placed.count_le (h : Placed s) (x : ℕ) : s.places.count x ≤ 1 := by
  rw [h.count_eq]
  exact List.nodup_iff_count_le_one.1 List.nodup_range x

theorem one_le_count_object (he : e ∈ s.eventList) : 1 ≤ (s.eventList.map (·.object)).count e.object :=
  List.one_le_count_iff.2 (List.mem_map_of_mem he)

/-- The event waits for its time to be dropped, or it has been dropped. -/
def Dead (e : SchedulerTask) (s : State) : Prop :=
  (e ∈ s.eventList ∧ e.eventId ∉ s.eventIds) ∨ e.object ∈ s.deleted

theorem Dead.not_executed (h : Dead e s) (hs : Placed s) : e.object ∉ s.executed.map (·.1) := by
  intro hexecuted
  have hle := hs.count_le e.object
  rw [State.count_places] at hle
  have hone := List.one_le_count_iff.2 hexecuted
  rcases h with ⟨he, -⟩ | hdeleted
  · have := one_le_count_object he
    omega
  · have := List.one_le_count_iff.2 hdeleted
    omega

theorem dead_step (hs : Good s) (hfresh : Fresh s a) (h : Dead e s) : Dead e (step s a) := by
  rcases h with ⟨he, hid⟩ | hdeleted
  · rcases queue_cases s a with ⟨cycle, rfl, -, -, hids, hlist⟩ | ⟨top, rfl, -, -, -, hstep⟩ |
      ⟨rfl, -, hstep⟩ | ⟨hlist, -, hids⟩
    · refine .inl ⟨?_, ?_⟩
      · rw [hlist]
        exact List.mem_cons_of_mem _ he
      · rw [hids, Finset.mem_insert, not_or]
        exact ⟨hs.ids.nextEventId_ne (hfresh rfl) he, hid⟩
    · rw [hstep]
      by_cases htop : e = top
      · subst htop
        exact .inr (by simp [timeout, hid])
      · refine .inl ⟨?_, ?_⟩
        · simp only [timeout]
          split <;> exact (List.mem_erase_of_ne htop).2 he
        · simp only [timeout]
          split
          · exact fun hmem => hid (Finset.mem_of_mem_erase hmem)
          · exact hid
    · rw [hstep]
      exact .inr (List.mem_append_left _ (List.mem_map_of_mem he))
    · refine .inl ⟨hlist ▸ he, ?_⟩
      rcases hids with hids | ⟨id, -, hids⟩
      · rwa [hids]
      · rw [hids]
        exact fun hmem => hid (Finset.mem_of_mem_erase hmem)
  · exact .inr ((logged_step s a).deleted hdeleted)

theorem run_init_good {now : ℤ} {as : List Act} (hfew : as.countP Act.isAddEvent < 2 ^ 32) :
    Good (Run.run step (init now) as) :=
  (run_good (I := fun _ => True) (P := fun _ => True) (fun _ _ _ _ _ _ => trivial) (good_init now)
    (along_fresh as (by simpa [init] using hfew)) (fun _ _ => trivial) trivial).1

/-- **An event that was stopped is never executed.** When `stopEvent` answers
that it stopped an event, this is an event of the queue, and no run after it
executes the event. -/
theorem stopped_never_executed (now : ℤ) (as : List Act) (id : UInt32)
    (hfew : as.countP Act.isAddEvent < 2 ^ 32) (hstop : (stopEvent (Run.run step (init now) as) id).2 = true) :
    ∃ e ∈ (Run.run step (init now) as).eventList, e.eventId = id ∧
      ∀ bs : List Act, (as ++ .stopEvent id :: bs).countP Act.isAddEvent < 2 ^ 32 →
        e.object ∉ (Run.run step (init now) (as ++ .stopEvent id :: bs)).executed.map (·.1) := by
  have hs : Good (Run.run step (init now) as) := run_init_good hfew
  generalize hrun : Run.run step (init now) as = s at *
  have hid : id ∈ s.eventIds ∧ id ≠ 0 := by
    unfold stopEvent at hstop
    split_ifs at hstop with hzero hmem
    exact ⟨hmem, hzero⟩
  obtain ⟨e, he, rfl⟩ := hs.ids.active id hid.1
  refine ⟨e, he, rfl, fun bs hbs => ?_⟩
  have hfresh : Run.Along step Fresh s (.stopEvent e.eventId :: bs) := by
    rw [← hrun]
    exact Run.Along.of_append (along_fresh _ (by simpa [init] using hbs))
  have hdead : Dead e (step s (.stopEvent e.eventId)) := by
    refine .inl ⟨?_, ?_⟩
    · simpa [step, possible, act, stopEvent, hid] using he
    · simp [step, possible, act, stopEvent, hid]
  obtain ⟨hgood, hdead⟩ := run_good (fun s a hs hfresh _ h => dead_step hs hfresh h)
    (good_step hs hfresh.1) hfresh.2 (P := fun _ => True) (fun _ _ => trivial) hdead
  rw [Run.run_append, hrun]
  exact hdead.not_executed hgood.placed

theorem stopped_never_executed_first :
    ∃ e ∈ (Run.run step (init 0) [.addEvent 50]).eventList, e.eventId = 1 ∧
      ∀ bs : List Act, ([Act.addEvent 50] ++ .stopEvent 1 :: bs).countP Act.isAddEvent < 2 ^ 32 →
        e.object ∉ (Run.run step (init 0) ([Act.addEvent 50] ++ .stopEvent 1 :: bs)).executed.map (·.1) :=
  stopped_never_executed 0 [.addEvent 50] 1 (by decide) (by decide)

/-! ### Events that were not stopped -/

/-- The event leaves the queue when its time has come, and is not executed
before. -/
structure Timely (e : SchedulerTask) (s : State) : Prop where
  passed : e ∈ s.eventList ∨ e.cycle ≤ s.now ∨ e.object ∈ s.deleted
  executed : ∀ t, (e.object, t) ∈ s.executed → e.cycle ≤ t

theorem timely_step (hs : Good s) (h : Timely e s) : Timely e (step s a) where
  passed := by
    rcases h.passed with he | hnow | hdeleted
    · rcases queue_cases s a with ⟨cycle, rfl, -, -, -, hlist⟩ | ⟨top, rfl, hmem, hlate, htop, hstep⟩ |
        ⟨rfl, -, hstep⟩ | ⟨hlist, -, -⟩
      · exact .inl (hlist ▸ List.mem_cons_of_mem _ he)
      · by_cases heq : e = top
        · subst heq
          -- the deadline is no earlier than some event of the queue, and the top is the first
          obtain ⟨d, hd, hat⟩ := State.timedOut_iff.1 hlate
          rcases hs.sound.deadline d hat with ⟨hempty, -⟩ | ⟨e', he', hle⟩
          · simp [hempty] at he
          · exact .inr (.inl (((htop.2 e' he').trans (hle.trans hd)).trans ((logged_step s _).now)))
        · left
          rw [hstep]
          simp only [timeout]
          split <;> exact (List.mem_erase_of_ne heq).2 he
      · right
        right
        rw [hstep]
        exact List.mem_append_left _ (List.mem_map_of_mem he)
      · exact .inl (hlist ▸ he)
    · exact .inr (.inl (hnow.trans ((logged_step s a).now)))
    · exact .inr (.inr ((logged_step s a).deleted hdeleted))
  executed := by
    rcases (logged_step s a).executed with hsame | ⟨task, -, hat, hnew⟩
    · rw [hsame]
      exact h.executed
    · rw [hnew]
      intro t ht
      rcases List.mem_cons.1 ht with heq | ht
      · obtain ⟨hobject, rfl⟩ := Prod.mk.inj heq
        -- the task is with the dispatcher, so that it is in no other place
        have hle := hs.placed.count_le e.object
        rw [State.count_places, hat, DispatcherAt.held_took, hobject, List.count_singleton_self] at hle
        rcases h.passed with he | hnow | hdeleted
        · have := one_le_count_object he
          rw [hobject] at this
          omega
        · exact hnow
        · have := List.one_le_count_iff.2 hdeleted
          rw [hobject] at this
          omega
      · exact h.executed t ht

/-- The actions that end the threads. -/
def Act.shutsDown : Act → Bool
  | .stopDispatcher | .terminateScheduler | .clearScheduler | .shutdownDispatcher => true
  | _ => false

/-- Nothing has been shut down. -/
structure Open (s : State) : Prop where
  scheduler : s.schedulerState ≠ .terminated
  dispatcher : s.dispatcherState = .running
  tasks : ∀ t ∈ s.taskList, t.terminates = false
  took : ∀ t, s.dispatcherAt = .took t → t.terminates = false

theorem Open.addTask (h : Open s) {task : Task} (htask : task.terminates = false) (pushFront : Bool) :
    Open (addTask s task pushFront) := by
  unfold Tasks.addTask
  rw [if_pos h.dispatcher]
  refine ⟨h.scheduler, h.dispatcher, ?_, h.took⟩
  cases pushFront <;> simp [htask, or_imp, forall_and] <;> exact h.tasks

theorem Open.takeTask (h : Open s) {otherwise : DispatcherAt} (hother : ∀ t, otherwise ≠ .took t) :
    Open (takeTask s otherwise) := by
  unfold Tasks.takeTask
  split
  · next task tasks htasks =>
    have hall := h.tasks
    rw [htasks] at hall
    refine ⟨h.scheduler, h.dispatcher, fun t ht => hall t (List.mem_cons_of_mem _ ht), ?_⟩
    rintro t ht
    obtain rfl : task = t := by simpa using ht
    exact hall task List.mem_cons_self
  · exact ⟨h.scheduler, h.dispatcher, h.tasks, fun t ht => absurd ht (hother t)⟩

theorem open_step (h : Open s) (ha : a.shutsDown = false) : Open (step s a) := by
  unfold step
  split
  · next hp =>
    cases a with
    | addEvent _ | stopEvent _ =>
      simp only [act, Tasks.addEvent, Tasks.stopEvent]
      split_ifs <;> exact ⟨h.scheduler, h.dispatcher, h.tasks, h.took⟩
    | addTask expiration pushFront =>
      exact Open.addTask (s := { s with nextTask := s.nextTask + 1 }) ⟨h.scheduler, h.dispatcher, h.tasks, h.took⟩
        rfl pushFront
    | schedulerHand task =>
      exact Open.addTask (s := { s with schedulerAt := .loop }) ⟨h.scheduler, h.dispatcher, h.tasks, h.took⟩ rfl true
    | schedulerTimeout _ =>
      simp only [act, timeout]
      split <;> exact ⟨h.scheduler, h.dispatcher, h.tasks, h.took⟩
    | dispatcherEnter =>
      refine ⟨h.scheduler, h.dispatcher, h.tasks, fun t ht => ?_⟩
      simp [act, h.dispatcher] at ht
    | dispatcherLock =>
      exact Open.takeTask (s := { s with taskSignal := s.taskSignal.reset })
        ⟨h.scheduler, h.dispatcher, h.tasks, h.took⟩ (by simp)
    | dispatcherWake => exact h.takeTask (by simp)
    | dispatcherRun task =>
      simp only [possible, decide_eq_true_eq] at hp
      have hgoes := h.took task hp
      simp only [act, execute]
      split
      · exact ⟨h.scheduler, h.dispatcher, h.tasks, by simp⟩
      · exact ⟨h.scheduler, by simp [hgoes, h.dispatcher], h.tasks, by simp⟩
    | stopScheduler => exact ⟨by simp [act], h.dispatcher, h.tasks, h.took⟩
    | stopDispatcher | terminateScheduler | clearScheduler | shutdownDispatcher => simp [Act.shutsDown] at ha
    | _ => exact ⟨h.scheduler, h.dispatcher, h.tasks, h.took⟩
  · exact h

/-- The event waits for its time, is on its way, or has been executed. -/
def Kept (e : SchedulerTask) (s : State) : Prop :=
  (e ∈ s.eventList ∧ e.eventId ∈ s.eventIds) ∨ s.schedulerAt = .handing e ∨
    { object := e.object, expiration := none } ∈ s.taskList ∨
    s.dispatcherAt = .took { object := e.object, expiration := none } ∨ e.object ∈ s.executed.map (·.1)

theorem kept_addEvent (h : Kept e s) (cycle : ℤ) : Kept e (addEvent s cycle).1 := by
  unfold addEvent
  split
  · refine h.imp_left fun ⟨he, hid⟩ => ⟨List.mem_cons_of_mem _ he, Finset.mem_insert_of_mem hid⟩
  · exact h

theorem kept_stopEvent (h : Kept e s) (hne : id ≠ e.eventId) : Kept e (stopEvent s id).1 := by
  unfold stopEvent
  split_ifs
  · exact h
  · exact h.imp_left fun ⟨he, hid⟩ => ⟨he, Finset.mem_erase_of_ne_of_mem hne.symm hid⟩
  · exact h

theorem mem_addTask (hs : s.dispatcherState = .running) (task : Task) (pushFront : Bool) :
    ∀ t, t ∈ (addTask s task pushFront).taskList ↔ t = task ∨ t ∈ s.taskList := by
  intro t
  unfold addTask
  rw [if_pos hs]
  cases pushFront <;> simp [or_comm]

theorem addTask_rest (s : State) (task : Task) (pushFront : Bool) :
    (addTask s task pushFront).eventIds = s.eventIds ∧ (addTask s task pushFront).dispatcherAt = s.dispatcherAt ∧
      (addTask s task pushFront).executed = s.executed := by
  unfold addTask
  split <;> exact ⟨rfl, rfl, rfl⟩

theorem Kept.addTask (h : Kept e s) (hs : s.dispatcherState = .running) (task : Task) (pushFront : Bool) :
    Kept e (addTask s task pushFront) := by
  obtain ⟨hlist, hat, -, -⟩ := addTask_scheduler (s := s) task pushFront
  obtain ⟨hids, hdispatcher, hexecuted⟩ := addTask_rest s task pushFront
  unfold Kept at h ⊢
  rw [hlist, hids, hat, hdispatcher, hexecuted, mem_addTask hs]
  exact h.imp_right (Or.imp_right (Or.imp_left .inr))

theorem Kept.timeout (h : Kept e s) (hs : Good s) {top : SchedulerTask} (htop : top ∈ s.eventList)
    (hat : ∀ e, s.schedulerAt ≠ .handing e) : Kept e (timeout s top) := by
  rcases h with ⟨he, hid⟩ | hhand | hrest
  · by_cases heq : e = top
    · subst heq
      exact .inr (.inl (by simp [Tasks.timeout, hid]))
    · have hne : e.eventId ≠ top.eventId := fun h => heq (hs.ids.eq_of_eventId he htop h)
      left
      simp only [Tasks.timeout]
      split
      · exact ⟨(List.mem_erase_of_ne heq).2 he, Finset.mem_erase_of_ne_of_mem hne hid⟩
      · exact ⟨(List.mem_erase_of_ne heq).2 he, hid⟩
  · exact absurd hhand (hat e)
  · right
    right
    simp only [Tasks.timeout]
    split <;> exact hrest

theorem Kept.takeTask (h : Kept e s) {otherwise : DispatcherAt} (hidle : ∀ t, s.dispatcherAt ≠ .took t) :
    Kept e (takeTask s otherwise) := by
  unfold Tasks.takeTask
  split
  · next task tasks htasks =>
    rcases h with hqueue | hhand | htask | htook | hexecuted
    · exact .inl hqueue
    · exact .inr (.inl hhand)
    · rw [htasks] at htask
      rcases List.mem_cons.1 htask with rfl | htask
      · exact .inr (.inr (.inr (.inl rfl)))
      · exact .inr (.inr (.inl htask))
    · exact absurd htook (hidle _)
    · exact .inr (.inr (.inr (.inr hexecuted)))
  · next hempty =>
    rcases h with hqueue | hhand | htask | htook | hexecuted
    · exact .inl hqueue
    · exact .inr (.inl hhand)
    · simp [hempty] at htask
    · exact absurd htook (hidle _)
    · exact .inr (.inr (.inr (.inr hexecuted)))

theorem Kept.execute (h : Kept e s) {task : Task} (hat : s.dispatcherAt = .took task) : Kept e (execute s task) := by
  rcases h with hqueue | hhand | htask | htook | hexecuted
  · left
    simp only [Tasks.execute]
    split <;> exact hqueue
  · right
    left
    simp only [Tasks.execute]
    split <;> exact hhand
  · right
    right
    left
    simp only [Tasks.execute]
    split <;> exact htask
  · obtain rfl : task = { object := e.object, expiration := none } := by simpa [hat] using htook
    exact .inr (.inr (.inr (.inr (by simp [Tasks.execute, Task.hasExpired]))))
  · right
    right
    right
    right
    simp only [Tasks.execute]
    split
    · exact hexecuted
    · exact List.mem_cons_of_mem _ hexecuted

/-- An action that neither stops the event nor shuts down a thread. -/
def Spares (e : SchedulerTask) (a : Act) : Prop := a ≠ .stopEvent e.eventId ∧ a.shutsDown = false

theorem kept_step (hs : Good s) (hopen : Open s) (ha : Spares e a) (h : Kept e s) : Kept e (step s a) := by
  unfold step
  split
  · next hp =>
    cases a with
    | addEvent cycle => exact kept_addEvent h cycle
    | stopEvent id => exact kept_stopEvent h fun heq => ha.1 (heq ▸ rfl)
    | addTask expiration pushFront =>
      exact Kept.addTask (s := { s with nextTask := s.nextTask + 1 }) h hopen.dispatcher _ pushFront
    | schedulerEnter =>
      simp only [possible, decide_eq_true_eq] at hp
      simpa [Kept, act, hp, hopen.scheduler] using h
    | schedulerLock deadline =>
      have hentered : s.schedulerAt = .entered := by cases deadline <;> simp_all [possible]
      simpa [Kept, act, schedulerLock, hentered] using h
    | schedulerWake =>
      obtain ⟨d, hd⟩ := State.sleeps_iff.1 hp
      simpa [Kept, act, hd] using h
    | schedulerTimeout top =>
      simp only [possible, Bool.and_eq_true, decide_eq_true_eq] at hp
      obtain ⟨d, -, hd⟩ := State.timedOut_iff.1 hp.1.1
      exact h.timeout hs hp.1.2 (by simp [hd])
    | schedulerTimeoutEmpty stale =>
      simp only [possible, Bool.and_eq_true] at hp
      obtain ⟨d, -, hd⟩ := State.timedOut_iff.1 hp.1.1
      simpa [Kept, act, hd] using h
    | schedulerHand task =>
      simp only [possible, decide_eq_true_eq] at hp
      have hmem := mem_addTask (s := { s with schedulerAt := .loop }) hopen.dispatcher
        { object := task.object, expiration := none } true
      by_cases heq : task = e
      · subst heq
        exact .inr (.inr (.inl ((hmem _).2 (.inl rfl))))
      · have hloop : Kept e { s with schedulerAt := .loop } := by simpa [Kept, hp, heq] using h
        exact hloop.addTask hopen.dispatcher _ true
    | dispatcherEnter =>
      simp only [possible, decide_eq_true_eq] at hp
      simpa [Kept, act, hp, hopen.dispatcher] using h
    | dispatcherLock =>
      simp only [possible, decide_eq_true_eq] at hp
      exact Kept.takeTask (s := { s with taskSignal := s.taskSignal.reset }) h (by simp [hp])
    | dispatcherWake =>
      simp only [possible, decide_eq_true_eq] at hp
      exact h.takeTask (by simp [hp])
    | dispatcherRun task =>
      simp only [possible, decide_eq_true_eq] at hp
      exact h.execute hp
    | stopDispatcher | terminateScheduler | clearScheduler | shutdownDispatcher => simp [Spares, Act.shutsDown] at ha
    | tick _ | notifyScheduler | notifyDispatcher | stopScheduler => exact h
  · exact h

theorem open_init (now : ℤ) : Open (init now) := ⟨by simp [init], rfl, by simp [init], by simp [init]⟩

/-- **An event is executed once, in time, and not lost.** While nothing is shut down
and the clock does not go back (`Act.tick`), an event that is added and not stopped waits
in the queue with its id, is on its way to the dispatcher or with it, or has been
executed. It is executed once at most and not before it is due, whatever happens in
between. -/
theorem event_executed_once (now cycle : ℤ) (as bs : List Act)
    (hfew : (as ++ .addEvent cycle :: bs).countP Act.isAddEvent < 2 ^ 32)
    (hopen : ∀ a ∈ as ++ bs, a.shutsDown = false)
    (hrunning : (Run.run step (init now) as).schedulerState = .running) :
    let s := Run.run step (init now) as
    let e : SchedulerTask := ⟨s.nextTask, cycle, s.nextEventId⟩
    let s' := Run.run step (init now) (as ++ .addEvent cycle :: bs)
    (.stopEvent e.eventId ∉ bs → Kept e s') ∧ (s'.executed.map (·.1)).count e.object ≤ 1 ∧
      ∀ t, (e.object, t) ∈ s'.executed → cycle ≤ t := by
  intro s e s'
  have hfresh := along_fresh _ (s := init now) ((Nat.zero_add _).trans_lt hfew)
  have hbefore : as.countP Act.isAddEvent < 2 ^ 32 := by
    rw [List.countP_append] at hfew
    omega
  have hs : Good s := run_init_good hbefore
  have hafter : Run.Along step Fresh s (.addEvent cycle :: bs) := Run.Along.of_append hfresh
  have hgood := good_step hs hafter.1
  have hsopen : Open s := by
    refine (run_good (I := Open) (fun s a _ _ ha h => open_step h ha) (good_init now)
      (along_fresh as (by simpa [init] using hbefore)) (fun a ha => ?_) (open_init now)).2
    exact hopen a (List.mem_append_left _ ha)
  have hadded : step s (.addEvent cycle) = (addEvent s cycle).1 := by simp [step, possible, act]
  have hmem : e ∈ (step s (.addEvent cycle)).eventList := by simp [hadded, addEvent, hrunning, e, s]
  have hid : e.eventId ∈ (step s (.addEvent cycle)).eventIds := by simp [hadded, addEvent, hrunning, e, s]
  have hs' : s' = Run.run step (step s (.addEvent cycle)) bs := Run.run_append as _ _
  -- the object is new, so that it has not been executed
  have hnew : ∀ t, (e.object, t) ∉ (step s (.addEvent cycle)).executed := by
    intro t ht
    have hle := hgood.placed.count_le e.object
    rw [State.count_places] at hle
    have hone := one_le_count_object hmem
    have htwo : 1 ≤ ((step s (.addEvent cycle)).executed.map (·.1)).count e.object :=
      List.one_le_count_iff.2 (List.mem_map_of_mem ht)
    omega
  have hrun := run_good (I := fun s => Timely e s) (P := fun _ => True)
    (fun s a hs _ _ h => timely_step hs h) hgood hafter.2 (fun _ _ => trivial)
    ⟨.inl hmem, fun t ht => absurd ht (hnew t)⟩
  rw [hs']
  refine ⟨fun hstop => ?_, ?_, hrun.2.executed⟩
  · have hspares : ∀ a ∈ bs, Spares e a := by
      intro a ha
      exact ⟨fun heq => hstop (heq ▸ ha), hopen a (List.mem_append_right _ ha)⟩
    exact (run_good (I := fun s => Open s ∧ Kept e s)
      (fun s a hs _ ha h => ⟨open_step h.1 ha.2, kept_step hs h.1 ha h.2⟩) hgood hafter.2 hspares
      ⟨open_step hsopen rfl, .inl ⟨hmem, hid⟩⟩).2.2
  · have hle := hrun.1.placed.count_le e.object
    rw [State.count_places] at hle
    omega

/-- An event that is due after 50 ms and is handed over after 60. -/
def firstEvent : List Act :=
  [.schedulerEnter, .schedulerLock (some 50), .tick 60, .schedulerTimeout ⟨0, 50, 1⟩, .schedulerHand ⟨0, 50, 1⟩,
    .dispatcherEnter, .dispatcherLock, .dispatcherRun { object := 0, expiration := none }]

theorem event_executed_once_first :
    Kept ⟨0, 50, 1⟩ (Run.run step (init 0) (.addEvent 50 :: firstEvent)) ∧
      ((Run.run step (init 0) (.addEvent 50 :: firstEvent)).executed.map (·.1)).count 0 ≤ 1 ∧
      ∀ t, (0, t) ∈ (Run.run step (init 0) (.addEvent 50 :: firstEvent)).executed → 50 ≤ t := by
  have h := event_executed_once 0 50 [] firstEvent (by decide) (by decide) (by decide)
  exact ⟨h.1 (by decide), h.2⟩

example : (Run.run step (init 0) (.addEvent 50 :: firstEvent)).executed = [(0, 60)] := by decide

/-! ### Events that are due -/

/-- A step of the scheduler's thread, or a notification that reaches it. The
thread wakes only when it was notified. -/
def OwnStep (s : State) (a : Act) : Prop :=
  possible s a = true ∧
    match a with
    | .notifyScheduler | .schedulerEnter | .schedulerLock _ | .schedulerTimeout _ | .schedulerHand _ => True
    | .schedulerWake => s.eventSignal.notified = true
    | _ => False

theorem exists_top (he : e ∈ s.eventList) : ∃ top ∈ s.eventList, IsTop s top.cycle ∧ top.cycle ≤ e.cycle := by
  obtain ⟨top, htop, hle⟩ := Finset.exists_min_image s.eventList.toFinset (·.cycle) ⟨e, List.mem_toFinset.2 he⟩
  have hmem := List.mem_toFinset.1 htop
  have hall : ∀ e ∈ s.eventList, top.cycle ≤ e.cycle := fun e he => hle e (List.mem_toFinset.2 he)
  exact ⟨top, hmem, ⟨⟨top, hmem, rfl⟩, hall⟩, hall e he⟩

/-- The queue has lost an event after the actions, all by the scheduler. -/
def Takes (s : State) (as : List Act) : Prop :=
  Run.Along step OwnStep s as ∧ (Run.run step s as).eventList.length + 1 = s.eventList.length

theorem Takes.cons {as : List Act} (ha : OwnStep s a) (hlength : (step s a).eventList.length = s.eventList.length)
    (h : Takes (step s a) as) : Takes s (a :: as) := ⟨⟨ha, h.1⟩, by rw [← hlength]; exact h.2⟩

theorem takes_waiting {d : ℤ} (hat : s.schedulerAt = .waiting (some d)) (hd : d ≤ s.now) (he : e ∈ s.eventList) :
    ∃ top, Takes s [.schedulerTimeout top] := by
  obtain ⟨top, hmem, htop, -⟩ := exists_top he
  have hp : possible s (.schedulerTimeout top) = true := by
    simp [possible, State.timedOut_iff.2 ⟨d, hd, hat⟩, hmem, htop]
  have hlength : (s.eventList.erase top).length + 1 = s.eventList.length := by
    have := List.length_erase_of_mem hmem
    have := List.length_pos_of_mem hmem
    omega
  refine ⟨top, ⟨⟨hp, trivial⟩, trivial⟩, ?_⟩
  simp only [Run.run, step, hp, if_true, act, timeout]
  split <;> exact hlength

theorem takes_entered (hat : s.schedulerAt = .entered) (he : e ∈ s.eventList) (hdue : e.cycle ≤ s.now) :
    ∃ as, as.length ≤ 2 ∧ Takes s as := by
  obtain ⟨top, hmem, htop, hle⟩ := exists_top he
  have hp : possible s (.schedulerLock (some top.cycle)) = true := by simp [possible, hat, htop]
  have hstep : step s (.schedulerLock (some top.cycle)) = schedulerLock s (some top.cycle) := by simp [step, hp, act]
  have hd : top.cycle ≤ (schedulerLock s (some top.cycle)).now := hle.trans hdue
  obtain ⟨top', htakes⟩ := takes_waiting (s := schedulerLock s (some top.cycle)) rfl hd hmem
  exact ⟨[.schedulerLock (some top.cycle), .schedulerTimeout top'], le_rfl,
    Takes.cons ⟨hp, trivial⟩ (by rw [hstep]; rfl) (hstep ▸ htakes)⟩

theorem takes_loop (hat : s.schedulerAt = .loop) (hstate : s.schedulerState ≠ .terminated) (he : e ∈ s.eventList)
    (hdue : e.cycle ≤ s.now) : ∃ as, as.length ≤ 3 ∧ Takes s as := by
  have hp : possible s .schedulerEnter = true := by simp [possible, hat]
  have hstep : step s .schedulerEnter = { s with schedulerAt := .entered } := by simp [step, hp, act, hstate]
  obtain ⟨as, hlength, htakes⟩ := takes_entered (s := { s with schedulerAt := .entered }) rfl he hdue
  exact ⟨.schedulerEnter :: as, Nat.succ_le_succ hlength, Takes.cons ⟨hp, trivial⟩ (by rw [hstep]) (hstep ▸ htakes)⟩

theorem takes_notified {d : Option ℤ} (hat : s.schedulerAt = .waiting d) (hnotified : s.eventSignal.notified = true)
    (hstate : s.schedulerState ≠ .terminated) (he : e ∈ s.eventList) (hdue : e.cycle ≤ s.now) :
    ∃ as, as.length ≤ 4 ∧ Takes s as := by
  have hp : possible s .schedulerWake = true := by simp [possible, State.sleeps_iff, hat]
  have hstep : step s .schedulerWake = { s with schedulerAt := .loop } := by simp [step, hp, act]
  obtain ⟨as, hlength, htakes⟩ := takes_loop (s := { s with schedulerAt := .loop }) rfl hstate he hdue
  exact ⟨.schedulerWake :: as, Nat.succ_le_succ hlength, Takes.cons ⟨hp, hnotified⟩ (by rw [hstep]) (hstep ▸ htakes)⟩

/-- **An event that is due is taken.** Wherever the threads are, while the
scheduler has not been shut down, five steps of its own thread are enough to
take an event from a queue in which one is due. -/
theorem due_event_taken (now : ℤ) (as : List Act) {e : SchedulerTask}
    (hstate : (Run.run step (init now) as).schedulerState ≠ .terminated)
    (he : e ∈ (Run.run step (init now) as).eventList) (hdue : e.cycle ≤ (Run.run step (init now) as).now) :
    ∃ bs, bs.length ≤ 5 ∧ Run.Along step OwnStep (Run.run step (init now) as) bs ∧
      (Run.run step (Run.run step (init now) as) bs).eventList.length + 1 =
        (Run.run step (init now) as).eventList.length := by
  have h : Sound (Run.run step (init now) as) :=
    Run.run_of_step (I := Sound) (fun _ a h => sound_step h a) as (sound_init now)
  generalize Run.run step (init now) as = s at *
  cases hat : s.schedulerAt with
  | loop =>
    obtain ⟨bs, hlength, htakes⟩ := takes_loop hat hstate he hdue
    exact ⟨bs, by omega, htakes⟩
  | entered =>
    obtain ⟨bs, hlength, htakes⟩ := takes_entered hat he hdue
    exact ⟨bs, by omega, htakes⟩
  | waiting d =>
    by_cases hnotified : s.eventSignal.notified = true
    · obtain ⟨bs, hlength, htakes⟩ := takes_notified hat hnotified hstate he hdue
      exact ⟨bs, by omega, htakes⟩
    · by_cases hunderway : 0 < s.eventSignal.underway
      · have hp : possible s .notifyScheduler = true := by simp [possible, hunderway]
        have hsleeps : s.sleeps = true := State.sleeps_iff.2 ⟨d, hat⟩
        have hstep : step s .notifyScheduler = { s with eventSignal := s.eventSignal.deliver true } := by
          simp [step, hp, act, hsleeps]
        obtain ⟨bs, hlength, htakes⟩ :=
          takes_notified (s := { s with eventSignal := s.eventSignal.deliver true }) hat
            (by simp [Wakeup.Signal.deliver]) hstate he hdue
        exact ⟨.notifyScheduler :: bs, Nat.succ_le_succ hlength,
          Takes.cons ⟨hp, trivial⟩ (by rw [hstep]) (hstep ▸ htakes)⟩
      · -- nobody wakes the thread, but its deadline has passed
        have hcalm := (h.scheduler ⟨d, hat⟩ (by simpa using hnotified)).resolve_right hunderway
        obtain ⟨t, ht, hle⟩ := hcalm e he
        obtain ⟨top, htakes⟩ := takes_waiting ht (hle.trans hdue) he
        exact ⟨_, by simp, htakes⟩
  | handing task =>
    have hp : possible s (.schedulerHand task) = true := by simp [possible, hat]
    obtain ⟨hlist, hloop, -, hsame⟩ :=
      addTask_scheduler (s := { s with schedulerAt := .loop }) { object := task.object, expiration := none } true
    have hstep : step s (.schedulerHand task) =
        addTask { s with schedulerAt := .loop } { object := task.object, expiration := none } true := by
      simp [step, hp, act]
    have hnow : (step s (.schedulerHand task)).now = s.now := by
      rw [hstep]
      unfold addTask
      split <;> rfl
    rw [← hstep] at hlist hloop hsame
    obtain ⟨bs, hlength, htakes⟩ :=
      takes_loop hloop (by rw [hsame]; exact hstate) (e := e) (by rw [hlist]; exact he) (by rw [hnow]; exact hdue)
    exact ⟨.schedulerHand task :: bs, by simp only [List.length_cons]; omega,
      Takes.cons ⟨hp, trivial⟩ (by rw [hlist]) htakes⟩
  | ended => exact absurd (h.done (.inl hat)) hstate
  | undefined => exact absurd (h.done (.inr hat)) hstate

/-- An event is due while the scheduler sleeps without a deadline. -/
theorem due_event_taken_asleep :
    ∃ bs, bs.length ≤ 5 ∧
      Run.Along step OwnStep
        (Run.run step (init 0) [.schedulerEnter, .schedulerLock none, .addEvent 50, .tick 50]) bs ∧
      (Run.run step (Run.run step (init 0) [.schedulerEnter, .schedulerLock none, .addEvent 50, .tick 50])
        bs).eventList.length + 1 =
        (Run.run step (init 0) [.schedulerEnter, .schedulerLock none, .addEvent 50, .tick 50]).eventList.length :=
  due_event_taken 0 [.schedulerEnter, .schedulerLock none, .addEvent 50, .tick 50] (e := ⟨0, 50, 1⟩) (by decide)
    (by decide) (by decide)

end Tasks
end ForgottenServer
