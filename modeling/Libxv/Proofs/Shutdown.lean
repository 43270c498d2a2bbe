/-
Which tasks a worker has run when it is joined.

`worker_async_cb` drains the queue before it tests the start flag, so a worker that still
has a drain ahead of it when the flag is cleared runs every task.  `leaving` names the
points from which there is no drain ahead once the flag is clear.  A task is lost when the
flag is cleared at such a point with the task in the queue, or when the task is pushed
after that; `KeepsTasks` excludes exactly these steps, and under it every task whose push
returned before `xv_worker_thread_destroy` was called has been run at the join.
-/
import Libxv.Proofs.Worker
import Libxv.Lib.Run
import Mathlib.Data.List.Basic

namespace Libxv

open Function Transition

variable {A : Type}

/-- The next thing the worker looks at is a flag, not the queue: before the loop test of
`worker_entry`, between the size check that ends a drain and the flag test, or past it. -/
def WorkerThread.leaving (thread : WorkerThread A) : Bool :=
  match thread.pc with
  | .entryTest | .flagTest | .exited => true
  | .loopTest => !thread.loopStart
  | _ => false

/-- The flag is clear and the worker will not look at the queue again. -/
def WorkerThread.Gone (thread : WorkerThread A) : Prop :=
  thread.start = false ∧ thread.leaving = true

/-- The tasks in the queue that have something to run. -/
def WorkerThread.waiting (thread : WorkerThread A) : List (Task A) :=
  thread.taskQueue.filter Task.cb

/-- The flag is not cleared under waiting tasks while the worker is leaving, and nothing is
pushed for the destroying thread to count once the worker is gone. -/
def KeepsTasks (s : WorkerSystem A) : WorkerLabel A → Prop
  | .stop => s.worker.start = true → s.worker.leaving = true → s.worker.waiting = []
  | .destroyStop =>
      s.worker.start = true → s.worker.leaving = true → ∀ task ∈ s.worker.waiting,
        task ∉ s.returned
  | .push _ => s.destroyer = .idle → ¬ s.worker.Gone
  | _ => True

instance (thread : WorkerThread A) : Decidable thread.Gone :=
  inferInstanceAs (Decidable (_ ∧ _))

instance [DecidableEq A] (s : WorkerSystem A) : ∀ label, Decidable (KeepsTasks s label)
  | .stop => inferInstanceAs (Decidable (_ → _ → _ = _))
  | .destroyStop => inferInstanceAs (Decidable (_ → _ → ∀ task ∈ s.worker.waiting, _))
  | .push _ => inferInstanceAs (Decidable (_ → ¬ _))
  | .start | .call .. | .send _ | .worker | .interrupt | .taskReturns | .destroy | .destroySend
  | .destroyJoin => inferInstanceAs (Decidable True)

/-! ### The worker's own steps -/

/-- What a step of the worker keeps of its control state. -/
structure WorkerThread.Control (thread : WorkerThread A) : Prop where
  /-- The loop is broken only on the way out. -/
  broken : thread.loopStart = false → thread.Gone
  /-- The worker exits only with the flag clear. -/
  exited : thread.pc.hasExited = true → thread.start = false

theorem WorkerThread.Control.step {thread thread' : WorkerThread A} (h : thread.Control)
    (hstep : thread.step = some thread') : thread'.Control := by
  -- A branch that does not leave is taken with the loop running.
  have hrunning : thread.leaving = false → thread.loopStart = true := by
    intro hstays
    by_contra hloop
    exact absurd (h.broken (Bool.eq_false_iff.mpr hloop)).2 (by simp [hstays])
  cases WorkerThread.step_moves hstep with
  | enter hpc hstart =>
      exact ⟨fun hloop => absurd (h.broken hloop).1 (by simp [hstart]), nofun⟩
  | exit hpc hstart => exact ⟨fun _ => ⟨hstart, rfl⟩, fun _ => hstart⟩
  | poll hpc hloop => exact ⟨fun hbroken => absurd (hloop.symm.trans hbroken) (by simp), nofun⟩
  | leave hpc hloop => exact ⟨fun _ => ⟨(h.broken hloop).1, rfl⟩, nofun⟩
  | wake hpc | reset hpc | more hpc | drained hpc | popNone hpc | run hpc | skip hpc =>
      have hloop := hrunning (by simp [WorkerThread.leaving, hpc])
      exact ⟨fun hbroken => absurd (hloop.symm.trans hbroken) (by simp), nofun⟩
  | stopLoop hpc hstart => exact ⟨fun _ => ⟨hstart, rfl⟩, nofun⟩
  | again hpc hstart =>
      exact ⟨fun hloop => absurd (h.broken hloop).1 (by simp [hstart]), nofun⟩

/-- What a step of the worker does to the queue and to what has been invoked. -/
theorem WorkerThread.step_waiting {thread thread' : WorkerThread A}
    (hstep : thread.step = some thread') :
    thread.invokes ++ thread'.waiting = thread.waiting := by
  unfold WorkerThread.invokes WorkerThread.waiting
  cases WorkerThread.step_moves hstep with
  | run hpc hqueue hcb | skip hpc hqueue hcb => simp [hpc, hqueue, hcb]
  | popNone hpc hqueue => simp [hpc, hqueue]
  | enter hpc | exit hpc | poll hpc | leave hpc | wake hpc | reset hpc | more hpc | drained hpc
  | stopLoop hpc | again hpc => simp [hpc]

/-- A worker that a step of its own makes leave for good has found its queue empty. -/
theorem WorkerThread.gone_step {thread thread' : WorkerThread A} (h : thread.Control)
    (hstep : thread.step = some thread') (hgone : thread'.Gone) :
    thread.Gone ∨ thread'.waiting = [] := by
  obtain ⟨hstart, hleaving⟩ := hgone
  cases WorkerThread.step_moves hstep with
  | enter hpc | exit hpc | stopLoop hpc | again hpc =>
      exact Or.inl ⟨hstart, by simp [WorkerThread.leaving, hpc]⟩
  | leave hpc hloop => exact Or.inl (h.broken hloop)
  | drained hpc hqueue => exact Or.inr (by simp [WorkerThread.waiting, hqueue])
  | poll | wake | reset | more | popNone | run | skip => cases hleaving

/-! ### The worker among its users -/

/-- What every run that keeps its tasks keeps. -/
structure WorkerSystem.Drains (s : WorkerSystem A) : Prop where
  control : s.worker.Control
  /-- The queue is first in, first out: what was invoked, then what waits. -/
  fifo : s.invoked ++ s.worker.waiting = s.pushed.filter Task.cb
  sending : ∀ p task, s.producers p = .sending task → task ∈ s.pushed
  returned : ∀ task ∈ s.returned, task ∈ s.pushed
  /-- Before the worker is destroyed it does not leave tasks behind. -/
  empty : s.destroyer = .idle → s.worker.Gone → s.worker.waiting = []
  done : s.worker.Gone → ∀ task ∈ s.returned, task.cb = true → task ∈ s.invoked
  joined : s.destroyer = .joined → s.worker.pc.hasExited = true

/-- A task whose push returned has been invoked or waits. -/
theorem WorkerSystem.Drains.invoked_or_waiting {s : WorkerSystem A} (h : s.Drains)
    {task : Task A} (htask : task ∈ s.returned) (hcb : task.cb = true) :
    task ∈ s.invoked ∨ task ∈ s.worker.waiting := by
  have hmem : task ∈ s.pushed.filter Task.cb :=
    List.mem_filter.mpr ⟨h.returned task htask, hcb⟩
  rw [← h.fifo] at hmem
  exact List.mem_append.mp hmem

/-- Clearing the flag leaves no task that counts behind. -/
theorem WorkerSystem.Drains.stop {s : WorkerSystem A} (h : s.Drains)
    (hkeep : s.worker.start = true → s.worker.leaving = true →
      ∀ task ∈ s.worker.waiting, task ∉ s.returned)
    (hgone : (xvWorkerThreadStop s.worker).Gone) :
    ∀ task ∈ s.returned, task.cb = true → task ∈ s.invoked := by
  intro task htask hcb
  cases hstart : s.worker.start with
  | false => exact h.done ⟨hstart, hgone.2⟩ task htask hcb
  | true =>
      rcases h.invoked_or_waiting htask hcb with hin | hwait
      · exact hin
      · exact absurd htask (hkeep hstart hgone.2 task hwait)

theorem xvWorkerThreadStop_control {thread : WorkerThread A} (h : thread.Control) :
    (xvWorkerThreadStop thread).Control where
  broken := fun hloop => ⟨rfl, (h.broken hloop).2⟩
  exited := fun _ => rfl

theorem WorkerSystem.Drains.start : (WorkerSystem.init : WorkerSystem A).Drains where
  control := ⟨nofun, nofun⟩
  fifo := rfl
  sending := fun p task h => by cases h
  returned := fun task h => absurd h (List.not_mem_nil)
  empty := fun _ _ => rfl
  done := fun _ task h => absurd h (List.not_mem_nil)
  joined := fun h => by cases h

/-- The worker's own step. -/
theorem WorkerSystem.Drains.worker {s : WorkerSystem A} (h : s.Drains)
    {thread : WorkerThread A} (hstep : s.worker.step = some thread) :
    ({ s with worker := thread, invoked := s.invoked ++ s.worker.invokes } :
      WorkerSystem A).Drains where
  control := h.control.step hstep
  fifo := by
    calc s.invoked ++ s.worker.invokes ++ thread.waiting
        = s.invoked ++ (s.worker.invokes ++ thread.waiting) := List.append_assoc ..
      _ = s.invoked ++ s.worker.waiting := by rw [WorkerThread.step_waiting hstep]
      _ = s.pushed.filter Task.cb := h.fifo
  sending := h.sending
  returned := h.returned
  empty := by
    intro hidle hgone
    rcases WorkerThread.gone_step h.control hstep hgone with hbefore | hempty
    · have hsame := WorkerThread.step_waiting hstep
      rw [h.empty hidle hbefore] at hsame
      exact (List.append_eq_nil_iff.mp hsame).2
    · exact hempty
  done := by
    intro hgone task htask hcb
    rcases WorkerThread.gone_step h.control hstep hgone with hbefore | hempty
    · exact List.mem_append_left _ (h.done hbefore task htask hcb)
    · have hsame := WorkerThread.step_waiting hstep
      rw [hempty, List.append_nil] at hsame
      rw [hsame]
      exact List.mem_append.mpr (h.invoked_or_waiting htask hcb)
  joined := by
    intro hjoined
    have hexit := h.joined hjoined
    cases hpc : s.worker.pc <;> simp [hpc, WorkerPc.hasExited] at hexit
    simp [WorkerThread.step, hpc] at hstep

/-- The worker goes back to a point from which it looks at its queue again. -/
theorem WorkerSystem.Drains.resume {s : WorkerSystem A} (h : s.Drains) {pc : WorkerPc A}
    (hbusy : s.worker.leaving = false) (hpc : pc = .loopTest ∨ pc = .sizeTest) :
    ({ s with worker := { s.worker with pc := pc } } : WorkerSystem A).Drains := by
  have hloop : s.worker.loopStart = true := by
    cases hl : s.worker.loopStart with
    | true => rfl
    | false => exact absurd (h.control.broken hl).2 (by simp [hbusy])
  have hnotGone : ¬ ({ s.worker with pc := pc } : WorkerThread A).Gone := by
    rintro ⟨-, hleaving⟩
    rcases hpc with rfl | rfl <;> simp [WorkerThread.leaving, hloop] at hleaving
  refine ⟨⟨?_, ?_⟩, h.fifo, h.sending, h.returned, ?_, ?_, ?_⟩
  · exact fun hl => absurd hl (by simp [hloop])
  · rcases hpc with rfl | rfl <;> exact nofun
  · exact fun _ hgone => absurd hgone hnotGone
  · exact fun hgone => absurd hgone hnotGone
  · intro hjoined
    have hexit := h.joined hjoined
    unfold WorkerThread.leaving at hbusy
    cases hold : s.worker.pc <;> simp [hold, WorkerPc.hasExited] at hexit hbusy

/-- `xv_worker_thread_start` on a worker that has not been created. -/
theorem WorkerSystem.Drains.started {s : WorkerSystem A} (h : s.Drains)
    (hcreated : s.worker.pc.created = false) (hstart : s.worker.start = false) :
    ({ s with worker := (xvWorkerThreadStart s.worker).2 } : WorkerSystem A).Drains := by
  have hloop : s.worker.loopStart = true := by
    by_contra hbroken
    have hleaving := (h.control.broken (Bool.eq_false_iff.mpr hbroken)).2
    unfold WorkerThread.leaving at hleaving
    cases hpc : s.worker.pc <;> simp [hpc, WorkerPc.created] at hcreated hleaving
  have hexited : s.worker.pc.hasExited = false := by
    cases hpc : s.worker.pc <;> simp [hpc, WorkerPc.hasExited, WorkerPc.created] at hcreated ⊢
  have hjoined : s.destroyer ≠ .joined := fun hjoined => by
    cases hexited.symm.trans (h.joined hjoined)
  rcases xvWorkerThreadStart_cases hstart with hsame | hstarted
  · rw [hsame]
    refine ⟨⟨?_, ?_⟩, h.fifo, h.sending, h.returned, ?_, ?_, fun hj => absurd hj hjoined⟩
    · intro hbroken
      cases hloop.symm.trans hbroken
    · intro hexit
      cases hexited.symm.trans hexit
    · intro _ hgone
      cases hgone.1
    · intro hgone
      cases hgone.1
  · rw [hstarted]
    refine ⟨⟨?_, ?_⟩, h.fifo, h.sending, h.returned, ?_, ?_, fun hj => absurd hj hjoined⟩
    · intro hbroken
      cases hloop.symm.trans hbroken
    · intro hexit
      cases hexit
    · intro _ hgone
      cases hgone.1
    · intro hgone
      cases hgone.1

theorem WorkerSystem.Drains.call {s : WorkerSystem A} (h : s.Drains) (p : Nat) (cb : Bool)
    (args : A) :
    ({ s with
        producers := update s.producers p (.pushing ⟨s.nextTask, cb, args⟩)
        nextTask := s.nextTask + 1 } : WorkerSystem A).Drains := by
  refine ⟨h.control, h.fifo, fun q task hq => ?_, h.returned, h.empty, h.done, h.joined⟩
  exact h.sending q task (Producer.of_update hq (by simp)).2

theorem WorkerSystem.Drains.push {s : WorkerSystem A} (h : s.Drains) {p : Nat} {task : Task A}
    (hkeep : s.destroyer = .idle → ¬ s.worker.Gone) :
    ({ s with
        worker := s.worker.push task
        producers := update s.producers p (.sending task)
        pushed := s.pushed ++ [task] } : WorkerSystem A).Drains where
  control := ⟨h.control.broken, h.control.exited⟩
  fifo := by
    show s.invoked ++ (s.worker.taskQueue ++ [task]).filter Task.cb =
      (s.pushed ++ [task]).filter Task.cb
    rw [List.filter_append, List.filter_append, ← List.append_assoc]
    exact congrArg (· ++ _) h.fifo
  sending := by
    intro q task' hq
    by_cases hqp : q = p
    · subst hqp
      simp only [update_self, Producer.sending.injEq] at hq
      exact List.mem_append_right _ (hq ▸ List.mem_singleton_self _)
    · simp only [update_of_ne hqp] at hq
      exact List.mem_append_left _ (h.sending q task' hq)
  returned := fun task' htask' => List.mem_append_left _ (h.returned task' htask')
  empty := fun hidle hgone => absurd hgone (hkeep hidle)
  done := h.done
  joined := h.joined

/-- A push returns; its task counts if nobody destroys the worker yet. -/
theorem WorkerSystem.Drains.send {s : WorkerSystem A} (h : s.Drains) {p : Nat} {task : Task A}
    (hsending : s.producers p = .sending task) :
    ({ s with
        worker := s.worker.send
        producers := update s.producers p .idle
        returned := if s.destroyer = .idle then s.returned ++ [task] else s.returned } :
      WorkerSystem A).Drains := by
  have hpushed := h.sending p task hsending
  have hreturned : ∀ task' ∈ (if s.destroyer = .idle then s.returned ++ [task]
      else s.returned), task' ∈ s.returned ∨ (s.destroyer = .idle ∧ task' = task) := by
    intro task' htask'
    split at htask'
    · rename_i hidle
      rcases List.mem_append.mp htask' with hold | hnew
      · exact Or.inl hold
      · exact Or.inr ⟨hidle, List.mem_singleton.mp hnew⟩
    · exact Or.inl htask'
  refine ⟨⟨h.control.broken, h.control.exited⟩, h.fifo, ?_, ?_, h.empty, ?_, h.joined⟩
  · exact fun q task' hq => h.sending q task' (Producer.of_update hq (by simp)).2
  · intro task' htask'
    rcases hreturned task' htask' with hold | ⟨-, rfl⟩
    · exact h.returned task' hold
    · exact hpushed
  · intro hgone task' htask' hcb
    rcases hreturned task' htask' with hold | ⟨hidle, rfl⟩
    · exact h.done hgone task' hold hcb
    · -- The worker is gone with an empty queue, so what was pushed has been invoked.
      have hfifo := h.fifo
      rw [h.empty hidle hgone, List.append_nil] at hfifo
      show task' ∈ s.invoked
      rw [hfifo]
      exact List.mem_filter.mpr ⟨hpushed, hcb⟩

/-- `xv_worker_thread_stop` is called. -/
theorem WorkerSystem.Drains.stopped {s : WorkerSystem A} (h : s.Drains)
    (hkeep : s.worker.start = true → s.worker.leaving = true → s.worker.waiting = []) :
    ({ s with worker := xvWorkerThreadStop s.worker } : WorkerSystem A).Drains := by
  refine ⟨xvWorkerThreadStop_control h.control, h.fifo, h.sending, h.returned, ?_, ?_, h.joined⟩
  · intro hidle hgone
    cases hstart : s.worker.start with
    | false => exact h.empty hidle ⟨hstart, hgone.2⟩
    | true => exact hkeep hstart hgone.2
  · exact h.stop fun hstart hleaving task htask =>
      absurd (hkeep hstart hleaving ▸ htask) (List.not_mem_nil)

/-- One step of anyone. -/
theorem WorkerSystem.Drains.step {s s' : WorkerSystem A} {label : WorkerLabel A}
    (h : s.Drains) (hok : KeepsTasks s label) (hstep : s.step label = some s') : s'.Drains := by
  cases WorkerSystem.step_moves hstep with
  | start hcreated hstart => exact h.started hcreated hstart
  | @call p cb args => exact h.call p cb args
  | push => exact h.push hok
  | send hsending => exact h.send hsending
  | worker hthread => exact h.worker hthread
  | interrupt hthread =>
      obtain ⟨hpc, rfl⟩ := WorkerThread.interrupt_some hthread
      exact h.resume (by simp [WorkerThread.leaving, hpc]) (Or.inl rfl)
  | taskReturns hthread =>
      obtain ⟨task, hpc, rfl⟩ := WorkerThread.taskReturns_some hthread
      exact h.resume (by simp [WorkerThread.leaving, hpc]) (Or.inr rfl)
  | stop => exact h.stopped hok
  | destroy =>
      exact ⟨h.control, h.fifo, h.sending, h.returned, by simp, h.done, by simp⟩
  | destroyStop =>
      exact ⟨xvWorkerThreadStop_control h.control, h.fifo, h.sending, h.returned, by simp,
        h.stop hok, by simp⟩
  | destroySend =>
      exact ⟨⟨h.control.broken, h.control.exited⟩, h.fifo, h.sending, h.returned, by simp, h.done,
        (by simp)⟩
  | destroyJoin _ hexited =>
      exact ⟨h.control, h.fifo, h.sending, h.returned, by simp, h.done, fun _ => hexited⟩

/--
**Shutdown loses no task of a run that keeps its tasks**: once the worker is joined, every
task whose push returned before `xv_worker_thread_destroy` was called has been invoked.
-/
theorem shutdown_runs_tasks {s : WorkerSystem A}
    (h : Reach WorkerSystem.step KeepsTasks (· = WorkerSystem.init) s)
    (hjoined : s.destroyer = .joined) :
    ∀ task ∈ s.returned, task.cb = true → task ∈ s.invoked := by
  have hdrains : s.Drains := by
    refine h.invariant ?_ fun _ _ _ hs hok hstep => hs.step hok hstep
    intro s hs
    subst hs
    exact WorkerSystem.Drains.start
  have hexit := hdrains.joined hjoined
  refine hdrains.done ⟨hdrains.control.exited hexit, ?_⟩
  unfold WorkerThread.leaving
  cases hpc : s.worker.pc <;> simp [hpc, WorkerPc.hasExited] at hexit ⊢

/-- Start a worker, push one task and let the push return. -/
def pushOne : List (WorkerLabel Unit) := [.start, .call 0 true (), .push 0, .send 0]

/-- Destroy after the worker has gone to sleep: the task is invoked first. -/
def destroyLater : List (WorkerLabel Unit) :=
  pushOne ++ [.worker, .worker, .destroy, .destroyStop, .destroySend, .worker, .worker, .worker,
    .worker, .taskReturns, .worker, .worker, .worker, .worker, .destroyJoin]

theorem shutdown_runs_tasks_later :
    ∃ s : WorkerSystem Unit, s.destroyer = .joined ∧ s.returned = [⟨0, true, ()⟩] ∧
      ∀ task ∈ s.returned, task.cb = true → task ∈ s.invoked :=
  ⟨_, rfl, rfl, shutdown_runs_tasks
    (Reach.play destroyLater (.start rfl) (by decide) rfl) rfl⟩

/-- Destroy at once: the worker never passes the while test of `worker_entry`. -/
def destroyAtOnce : List (WorkerLabel Unit) :=
  pushOne ++ [.destroy, .destroyStop, .destroySend, .worker, .destroyJoin]

/-- A task whose push had returned is never run. -/
theorem shutdown_loses_task :
    ∃ s : WorkerSystem Unit, Reachable WorkerSystem.step (· = WorkerSystem.init) s ∧
      s.destroyer = .joined ∧ s.returned = [⟨0, true, ()⟩] ∧ s.invoked = [] :=
  ⟨_, Reachable.play destroyAtOnce (.start rfl) rfl, rfl, rfl, rfl⟩

end Libxv
