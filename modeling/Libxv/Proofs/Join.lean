/-
A worker that is being destroyed comes to its exit.

`xv_worker_thread_destroy` clears the start flag before it writes the eventfd, and the worker
may take that wake-up anywhere in its program.  Wherever it does, it is then in a drain with
the flag clear: the drain ends at the flag test, which breaks the loop.  So from the write on
the worker sleeps only on a counter that is not zero (`WayOut`), whatever the others do.
-/
import Libxv.Proofs.Worker
import Libxv.Lib.Run

namespace Libxv

open Function Transition

variable {A : Type}

/-- The worker sleeps, and only a write to its eventfd can wake it. -/
def WorkerThread.Blocked (thread : WorkerThread A) : Prop :=
  thread.pc = .epollWait ∧ thread.evfd = 0

/-- By steps of its own, and the returns of its tasks, the worker comes to its exit. -/
inductive WorkerThread.CanExit : WorkerThread A → Prop
  | exited {thread : WorkerThread A} (h : thread.pc.hasExited = true) : CanExit thread
  | step {thread thread' : WorkerThread A} (hstep : thread.step = some thread')
      (h : CanExit thread') : CanExit thread
  | taskReturns {thread thread' : WorkerThread A} (hreturns : thread.taskReturns = some thread')
      (h : CanExit thread') : CanExit thread

/-- The worker has been told to stop, and if it goes to sleep the counter wakes it. -/
structure WorkerThread.WayOut (thread : WorkerThread A) : Prop where
  created : thread.pc.created = true
  start : thread.start = false
  waiting : thread.pc = .epollWait → 0 < thread.evfd
  polling : thread.pc = .loopTest → thread.loopStart = true → 0 < thread.evfd

/-! ### The worker on its own -/

namespace WorkerThread

variable {thread thread' : WorkerThread A}

theorem canExit_entryTest (hstart : thread.start = false) (hpc : thread.pc = .entryTest) :
    thread.CanExit := by
  have hstep : thread.step = some { thread with pc := .exited } := by
    simp [step, hpc, hstart]
  exact .step hstep (.exited rfl)

theorem canExit_broken (hstart : thread.start = false) (hloop : thread.loopStart = false)
    (hpc : thread.pc = .loopTest) : thread.CanExit := by
  have hstep : thread.step = some { thread with pc := .entryTest } := by
    simp [step, hpc, hloop]
  exact .step hstep (canExit_entryTest hstart rfl)

theorem canExit_flagTest (hstart : thread.start = false) (hpc : thread.pc = .flagTest) :
    thread.CanExit := by
  have hstep : thread.step = some { thread with loopStart := false, pc := .loopTest } := by
    simp [step, hpc, hstart]
  exact .step hstep (canExit_broken hstart rfl rfl)

/-- It takes a task and runs it, and is then as if it had not been there. -/
theorem canExit_pop {task : Task A} {rest : List (Task A)} (hstart : thread.start = false)
    (hpc : thread.pc = .pop) (hqueue : thread.taskQueue = task :: rest)
    (hrest : ∀ {t : WorkerThread A}, t.taskQueue = rest → t.start = false →
      t.pc = .sizeTest → t.CanExit) : thread.CanExit := by
  have hpop : thread.step =
      some { thread with taskQueue := rest, pc := if task.cb then .run task else .sizeTest } := by
    simp [step, hpc, hqueue]
  refine .step hpop ?_
  cases task.cb with
  | false => exact hrest rfl hstart rfl
  | true =>
      have hreturns : ({ thread with
          taskQueue := rest, pc := .run task } : WorkerThread A).taskReturns =
            some { thread with taskQueue := rest, pc := .sizeTest } := rfl
      exact .taskReturns hreturns (hrest rfl hstart rfl)

/-- It first empties its queue. -/
theorem canExit_sizeTest (queue : List (Task A)) :
    ∀ {thread : WorkerThread A}, thread.taskQueue = queue → thread.start = false →
      thread.pc = .sizeTest → thread.CanExit := by
  induction queue with
  | nil =>
      intro thread hqueue hstart hpc
      have hstep : thread.step = some { thread with pc := .flagTest } := by
        simp [step, hpc, hqueue]
      exact .step hstep (canExit_flagTest hstart rfl)
  | cons task rest ih =>
      intro thread hqueue hstart hpc
      have hstep : thread.step = some { thread with pc := .pop } := by
        simp [step, hpc, hqueue]
      exact .step hstep (canExit_pop hstart rfl hqueue ih)

theorem canExit_eventfdRead (hstart : thread.start = false) (hpc : thread.pc = .eventfdRead) :
    thread.CanExit := by
  have hstep : thread.step =
      some { thread with evfd := (eventfdRead thread.evfd).2, pc := .sizeTest } := by
    simp [step, hpc]
  exact .step hstep (canExit_sizeTest _ rfl hstart rfl)

theorem canExit_epollWait (hstart : thread.start = false) (hevfd : 0 < thread.evfd)
    (hpc : thread.pc = .epollWait) : thread.CanExit := by
  have hstep : thread.step = some { thread with pc := .eventfdRead } := by
    simp [step, hpc, hevfd]
  exact .step hstep (canExit_eventfdRead hstart rfl)

/-- **A worker on its way out comes to its exit**, wherever it is. -/
theorem WayOut.canExit (h : thread.WayOut) : thread.CanExit := by
  have hstart := h.start
  cases hpc : thread.pc with
  | absent => exact absurd h.created (by simp [hpc, WorkerPc.created])
  | entryTest => exact canExit_entryTest hstart hpc
  | loopTest =>
      cases hloop : thread.loopStart with
      | false => exact canExit_broken hstart hloop hpc
      | true =>
          have hstep : thread.step = some { thread with pc := .epollWait } := by
            simp [step, hpc, hloop]
          exact .step hstep (canExit_epollWait hstart (h.polling hpc hloop) rfl)
  | epollWait => exact canExit_epollWait hstart (h.waiting hpc) hpc
  | eventfdRead => exact canExit_eventfdRead hstart hpc
  | sizeTest => exact canExit_sizeTest _ rfl hstart hpc
  | pop =>
      cases hqueue : thread.taskQueue with
      | nil =>
          have hstep : thread.step = some { thread with pc := .sizeTest } := by
            simp [step, hpc, hqueue]
          exact .step hstep (canExit_sizeTest _ rfl hstart rfl)
      | cons task rest => exact canExit_pop hstart hpc hqueue (canExit_sizeTest rest)
  | run task =>
      have hreturns : thread.taskReturns = some { thread with pc := .sizeTest } := by
        simp [taskReturns, hpc]
      exact .taskReturns hreturns (canExit_sizeTest _ rfl hstart rfl)
  | flagTest => exact canExit_flagTest hstart hpc
  | exited => exact .exited (by rw [hpc]; rfl)

theorem WayOut.not_blocked (h : thread.WayOut) : ¬ thread.Blocked := by
  rintro ⟨hpc, hzero⟩
  exact absurd (h.waiting hpc) (by omega)

/-- No step of its own takes the worker off its way: a wake-up it takes is not lost, because
the drain that follows ends at a flag that is clear. -/
theorem WayOut.step (h : thread.WayOut) (hstep : thread.step = some thread') : thread'.WayOut := by
  have hstart := h.start
  cases step_moves hstep with
  | enter hpc hset | again hpc hset => exact absurd (hstart.symm.trans hset) (by simp)
  | poll hpc hloop => exact ⟨rfl, hstart, fun _ => h.polling hpc hloop, by simp⟩
  | stopLoop hpc => exact ⟨rfl, hstart, by simp, fun _ => by simp⟩
  | exit | leave | wake | reset | more | drained | popNone | run | skip =>
      exact ⟨rfl, hstart, by simp, by simp⟩

theorem WayOut.interrupt (h : thread.WayOut) (hstep : thread.interrupt = some thread') :
    thread'.WayOut := by
  obtain ⟨hpc, rfl⟩ := interrupt_some hstep
  exact ⟨rfl, h.start, by simp, fun _ _ => h.waiting hpc⟩

theorem WayOut.taskReturns (h : thread.WayOut) (hstep : thread.taskReturns = some thread') :
    thread'.WayOut := by
  obtain ⟨task, -, rfl⟩ := taskReturns_some hstep
  exact ⟨rfl, h.start, by simp, by simp⟩

theorem WayOut.send (h : thread.WayOut) : thread.send.WayOut :=
  ⟨h.created, h.start, fun _ => xvAsyncSend_pos _, fun _ _ => xvAsyncSend_pos _⟩

end WorkerThread

/-! ### The worker among its users -/

/-- What a call of `xv_worker_thread_destroy` has done so far. -/
structure WorkerSystem.Stops (s : WorkerSystem A) : Prop where
  created : s.destroyer ≠ .idle → s.worker.pc.created = true
  start : s.destroyer = .sending → s.worker.start = false
  wayOut : s.destroyer = .joining ∨ s.destroyer = .joined → s.worker.WayOut

theorem WorkerSystem.Stops.init : (WorkerSystem.init : WorkerSystem A).Stops where
  created := fun h => absurd rfl h
  start := nofun
  wayOut := fun h => h.elim nofun nofun

/-- A step that leaves the destroying thread where it is. -/
theorem WorkerSystem.Stops.keep {s : WorkerSystem A} (h : s.Stops) {s' : WorkerSystem A}
    (hsame : s'.destroyer = s.destroyer)
    (hcreated : s.worker.pc.created = true → s'.worker.pc.created = true)
    (hstart : s.worker.pc.created = true → s.worker.start = false → s'.worker.start = false)
    (hwayOut : s.worker.WayOut → s'.worker.WayOut) : s'.Stops where
  created := fun hcall => hcreated (h.created (hsame ▸ hcall))
  start := by
    intro hsending
    rw [hsame] at hsending
    exact hstart (h.created (by rw [hsending]; simp)) (h.start hsending)
  wayOut := fun hsent => hwayOut (h.wayOut (hsame ▸ hsent))

/-- One step of anyone. -/
theorem WorkerSystem.Stops.step {s s' : WorkerSystem A} {label : WorkerLabel A} (h : s.Stops)
    (hstep : s.step label = some s') : s'.Stops := by
  cases WorkerSystem.step_moves hstep with
  | start hcreated =>
      -- The call of a destroy needs a worker that has been created.
      refine h.keep rfl (fun hc => ?_) (fun hc _ => ?_) fun hw => ?_
      · exact absurd (hcreated.symm.trans hc) (by simp)
      · exact absurd (hcreated.symm.trans hc) (by simp)
      · exact absurd (hcreated.symm.trans hw.created) (by simp)
  | call => exact h.keep rfl id (fun _ => id) id
  | push =>
      exact h.keep rfl id (fun _ => id) fun hw => ⟨hw.created, hw.start, hw.waiting, hw.polling⟩
  | send => exact h.keep rfl id (fun _ => id) fun hw => hw.send
  | worker hthread =>
      refine h.keep rfl (fun _ => WorkerThread.step_created hthread) (fun _ hstart => ?_)
        fun hw => hw.step hthread
      cases WorkerThread.step_moves hthread <;> exact hstart
  | interrupt hthread =>
      refine h.keep rfl (fun _ => ?_) (fun _ hstart => ?_) fun hw => hw.interrupt hthread
      · obtain ⟨-, rfl⟩ := WorkerThread.interrupt_some hthread
        rfl
      · obtain ⟨-, rfl⟩ := WorkerThread.interrupt_some hthread
        exact hstart
  | taskReturns hthread =>
      refine h.keep rfl (fun _ => ?_) (fun _ hstart => ?_) fun hw => hw.taskReturns hthread
      · obtain ⟨task, -, rfl⟩ := WorkerThread.taskReturns_some hthread
        rfl
      · obtain ⟨task, -, rfl⟩ := WorkerThread.taskReturns_some hthread
        exact hstart
  | stop =>
      exact h.keep rfl id (fun _ _ => rfl) fun hw => ⟨hw.created, rfl, hw.waiting, hw.polling⟩
  | destroy _ hcreated =>
      exact ⟨fun _ => hcreated, by simp, fun hsent => hsent.elim (by simp) (by simp)⟩
  | destroyStop hstopping =>
      have hcreated := h.created (by rw [hstopping]; simp)
      exact ⟨fun _ => hcreated, fun _ => rfl, fun hsent => hsent.elim (by simp) (by simp)⟩
  | destroySend hsending =>
      have hcreated := h.created (by rw [hsending]; simp)
      exact ⟨fun _ => hcreated, by simp, fun _ => ⟨hcreated, h.start hsending,
        fun _ => xvAsyncSend_pos _, fun _ _ => xvAsyncSend_pos _⟩⟩
  | destroyJoin hjoining =>
      have hwayOut := h.wayOut (Or.inl hjoining)
      exact ⟨fun _ => hwayOut.created, by simp, fun _ => hwayOut⟩

theorem WorkerSystem.stops {s : WorkerSystem A}
    (h : Reachable WorkerSystem.step (· = WorkerSystem.init) s) : s.Stops := by
  refine h.invariant (I := WorkerSystem.Stops) (fun s hs => ?_) fun _ _ _ hs _ hstep =>
    hs.step hstep
  subst hs
  exact .init

/-- The destroying thread does not go back before its `xv_async_send`. -/
theorem WorkerSystem.step_joining {s s' : WorkerSystem A} {label : WorkerLabel A}
    (h : s.destroyer = .joining ∨ s.destroyer = .joined) (hstep : s.step label = some s') :
    s'.destroyer = .joining ∨ s'.destroyer = .joined := by
  cases WorkerSystem.step_moves hstep with
  | start | call | push | send | worker | interrupt | taskReturns | stop => exact h
  | destroy hcall | destroyStop hcall | destroySend hcall =>
      rcases h with h | h <;> exact absurd (h.symm.trans hcall) (by simp)
  | destroyJoin => exact Or.inr rfl

/-- A worker that can exit and has not has a step to make. -/
theorem WorkerThread.CanExit.moves {thread : WorkerThread A} (h : thread.CanExit)
    (hrunning : thread.pc.hasExited = false) :
    thread.step.isSome = true ∨ thread.taskReturns.isSome = true := by
  cases h with
  | exited hexited => exact absurd (hrunning.symm.trans hexited) (by simp)
  | step hstep => exact Or.inl (Option.isSome_of_eq_some hstep)
  | taskReturns hreturns => exact Or.inr (Option.isSome_of_eq_some hreturns)

/--
**A join cannot hang**: once `xv_worker_thread_destroy` has written the eventfd of a worker that
has not exited, the worker is not blocked, nor is it ever again whatever anyone does; it has a
step to make, and its own steps alone bring it to its exit.
-/
theorem join_cannot_hang {s : WorkerSystem A}
    (h : Reachable WorkerSystem.step (· = WorkerSystem.init) s) (hsent : s.destroyer = .joining)
    (hrunning : s.worker.pc.hasExited = false) :
    (∀ s', Reachable WorkerSystem.step (· = s) s' → ¬ s'.worker.Blocked) ∧
      (s.worker.step.isSome = true ∨ s.worker.taskReturns.isSome = true) ∧ s.worker.CanExit := by
  have hexit := ((WorkerSystem.stops h).wayOut (Or.inl hsent)).canExit
  refine ⟨fun s' hlater => ?_, hexit.moves hrunning, hexit⟩
  have hsent' : s'.destroyer = .joining ∨ s'.destroyer = .joined := by
    refine hlater.invariant (I := fun s => s.destroyer = .joining ∨ s.destroyer = .joined) ?_ ?_
    · intro t ht
      subst ht
      exact Or.inl hsent
    · intro t label t' hdone _ hstep
      exact WorkerSystem.step_joining hdone hstep
  exact ((WorkerSystem.stops (h.trans hlater)).wayOut hsent').not_blocked

/-- The worker sleeps on an empty counter when it is destroyed. -/
def destroyAsleep : List (WorkerLabel Unit) :=
  [.start, .worker, .worker, .destroy, .destroyStop, .destroySend]

theorem join_cannot_hang_asleep :
    ∃ s : WorkerSystem Unit, s.worker.pc = .epollWait ∧ s.worker.evfd = 1 ∧
      (∀ s', Reachable WorkerSystem.step (· = s) s' → ¬ s'.worker.Blocked) ∧
      (s.worker.step.isSome = true ∨ s.worker.taskReturns.isSome = true) ∧ s.worker.CanExit :=
  ⟨_, rfl, rfl, join_cannot_hang (Reachable.play destroyAsleep (.start rfl) rfl) rfl rfl⟩

end Libxv
