/-
The order in which a worker runs its tasks.

Over a list the queue is first in, first out in every run: what has been invoked, followed by
what waits, is what was pushed.  The linked queue holds a list, so every run over it is a run
over the list, step for step.
-/
import Libxv.LinkedWorker
import Libxv.Proofs.Queue
import Libxv.Proofs.Shutdown

namespace Libxv

open Function Transition

variable {A : Type}

/-- Every call of `xv_worker_thread_push_task` gives a callback. -/
def WorkerLabel.CallsBack : WorkerLabel A → Prop
  | .call _ cb _ => cb = true
  | _ => True

def LinkedLabel.CallsBack : LinkedLabel A → Prop
  | .push .. => True
  | .other label => label.CallsBack

instance : ∀ label : WorkerLabel A, Decidable label.CallsBack
  | .call _ cb _ => inferInstanceAs (Decidable (cb = true))
  | .start | .push _ | .send _ | .worker | .interrupt | .taskReturns | .stop | .destroy
  | .destroyStop | .destroySend | .destroyJoin => inferInstanceAs (Decidable True)

instance : ∀ label : LinkedLabel A, Decidable label.CallsBack
  | .push .. => inferInstanceAs (Decidable True)
  | .other label => inferInstanceAs (Decidable label.CallsBack)

/-! ### Over a list -/

/-- What every run keeps. -/
structure WorkerSystem.InOrder (s : WorkerSystem A) : Prop where
  /-- The queue is first in, first out: what was invoked, then what waits. -/
  fifo : s.invoked ++ s.worker.waiting = s.pushed.filter Task.cb
  /-- No task is pushed twice. -/
  distinct : (s.pushed.map Task.id).Nodup
  known : ∀ task ∈ s.pushed, task.id < s.nextTask
  pushing : ∀ p task, s.producers p = .pushing task →
    task.id < s.nextTask ∧ task.id ∉ s.pushed.map Task.id
  apart : ∀ p q task task', s.producers p = .pushing task → s.producers q = .pushing task' →
    task.id = task'.id → p = q

theorem WorkerSystem.InOrder.start : (WorkerSystem.init : WorkerSystem A).InOrder where
  fifo := rfl
  distinct := List.nodup_nil
  known := nofun
  pushing := nofun
  apart := nofun

/-- Steps that touch neither the producers nor what was pushed. -/
theorem WorkerSystem.InOrder.worker {s s' : WorkerSystem A} (h : s.InOrder)
    (hfifo : s'.invoked ++ s'.worker.waiting = s.invoked ++ s.worker.waiting)
    (hproducers : s'.producers = s.producers) (hnext : s'.nextTask = s.nextTask)
    (hpushed : s'.pushed = s.pushed) : s'.InOrder where
  fifo := by rw [hfifo, hpushed, h.fifo]
  distinct := hpushed ▸ h.distinct
  known := by rw [hpushed, hnext]; exact h.known
  pushing := by rw [hproducers, hnext, hpushed]; exact h.pushing
  apart := by rw [hproducers]; exact h.apart

theorem WorkerSystem.InOrder.call {s : WorkerSystem A} (h : s.InOrder) (p : Nat) (cb : Bool)
    (args : A) :
    ({ s with
        producers := update s.producers p (.pushing ⟨s.nextTask, cb, args⟩)
        nextTask := s.nextTask + 1 } : WorkerSystem A).InOrder where
  fifo := h.fifo
  distinct := h.distinct
  known := fun task htask => Nat.lt_succ_of_lt (h.known task htask)
  pushing := by
    intro q task hq
    dsimp only at hq ⊢
    by_cases hqp : q = p
    · subst hqp
      rw [update_self, Producer.pushing.injEq] at hq
      subst hq
      refine ⟨Nat.lt_succ_self _, fun hmem => ?_⟩
      obtain ⟨old, hold, hid⟩ := List.mem_map.mp hmem
      exact absurd (h.known old hold) (by rw [hid]; exact Nat.lt_irrefl _)
    · rw [update_of_ne hqp] at hq
      exact ⟨Nat.lt_succ_of_lt (h.pushing q task hq).1, (h.pushing q task hq).2⟩
  apart := by
    intro q r task task' hq hr hid
    dsimp only at hq hr
    -- The new task's number is above every other's.
    by_cases hqp : q = p <;> by_cases hrp : r = p
    · exact hqp.trans hrp.symm
    · subst hqp
      rw [update_self, Producer.pushing.injEq] at hq
      rw [update_of_ne hrp] at hr
      have hlt := (h.pushing r task' hr).1
      rw [← hid, ← hq] at hlt
      exact absurd hlt (Nat.lt_irrefl _)
    · subst hrp
      rw [update_self, Producer.pushing.injEq] at hr
      rw [update_of_ne hqp] at hq
      have hlt := (h.pushing q task hq).1
      rw [hid, ← hr] at hlt
      exact absurd hlt (Nat.lt_irrefl _)
    · rw [update_of_ne hqp] at hq
      rw [update_of_ne hrp] at hr
      exact h.apart q r task task' hq hr hid

theorem WorkerSystem.InOrder.push {s : WorkerSystem A} (h : s.InOrder) {p : Nat} {task : Task A}
    (hpushing : s.producers p = .pushing task) :
    ({ s with
        worker := s.worker.push task
        producers := update s.producers p (.sending task)
        pushed := s.pushed ++ [task] } : WorkerSystem A).InOrder where
  fifo := by
    show s.invoked ++ (s.worker.taskQueue ++ [task]).filter Task.cb =
      (s.pushed ++ [task]).filter Task.cb
    rw [List.filter_append, List.filter_append, ← List.append_assoc]
    exact congrArg (· ++ _) h.fifo
  distinct := by
    rw [List.map_append, List.nodup_append]
    refine ⟨h.distinct, List.nodup_singleton _, fun a ha b hb => ?_⟩
    rintro rfl
    rw [List.map_singleton, List.mem_singleton] at hb
    exact (h.pushing p task hpushing).2 (hb ▸ ha)
  known := by
    intro task' htask'
    rcases List.mem_append.mp htask' with hold | hnew
    · exact h.known task' hold
    · rw [List.mem_singleton.mp hnew]
      exact (h.pushing p task hpushing).1
  pushing := by
    intro q task' hq
    obtain ⟨hqp, hold⟩ := Producer.of_update hq (by simp)
    refine ⟨(h.pushing q task' hold).1, fun hmem => ?_⟩
    rw [List.map_append, List.mem_append, List.map_singleton, List.mem_singleton] at hmem
    rcases hmem with hpushed | hnew
    · exact (h.pushing q task' hold).2 hpushed
    · exact hqp (h.apart q p task' task hold hpushing hnew)
  apart := fun q r task' task'' hq hr =>
    h.apart q r task' task'' (Producer.of_update hq (by simp)).2
      (Producer.of_update hr (by simp)).2

theorem WorkerSystem.InOrder.send {s : WorkerSystem A} (h : s.InOrder) (p : Nat)
    (returned : List (Task A)) :
    ({ s with
        worker := s.worker.send
        producers := update s.producers p .idle
        returned := returned } : WorkerSystem A).InOrder where
  fifo := h.fifo
  distinct := h.distinct
  known := h.known
  pushing := fun q task hq => h.pushing q task (Producer.of_update hq (by simp)).2
  apart := fun q r task task' hq hr =>
    h.apart q r task task' (Producer.of_update hq (by simp)).2
      (Producer.of_update hr (by simp)).2

/-- One step of anyone. -/
theorem WorkerSystem.InOrder.step {s s' : WorkerSystem A} {label : WorkerLabel A}
    (h : s.InOrder) (hstep : s.step label = some s') : s'.InOrder := by
  cases WorkerSystem.step_moves hstep with
  | start =>
      refine h.worker ?_ rfl rfl rfl
      simp only [WorkerThread.waiting, xvWorkerThreadStart_taskQueue]
  | @call p cb args => exact h.call p cb args
  | push hpushing => exact h.push hpushing
  | @send p => exact h.send p _
  | worker hthread =>
      refine h.worker ?_ rfl rfl rfl
      rw [List.append_assoc, WorkerThread.step_waiting hthread]
  | interrupt hthread =>
      refine h.worker ?_ rfl rfl rfl
      simp only [WorkerThread.waiting, WorkerThread.interrupt_queue hthread]
  | taskReturns hthread =>
      refine h.worker ?_ rfl rfl rfl
      simp only [WorkerThread.waiting, WorkerThread.taskReturns_queue hthread]
  | stop | destroy | destroyStop | destroySend | destroyJoin => exact h.worker rfl rfl rfl rfl

/-- Every task there is has a callback. -/
structure WorkerSystem.CallsBack (s : WorkerSystem A) : Prop where
  pushing : ∀ p task, s.producers p = .pushing task → task.cb = true
  pushed : ∀ task ∈ s.pushed, task.cb = true

theorem WorkerSystem.CallsBack.step {s s' : WorkerSystem A} {label : WorkerLabel A}
    (h : s.CallsBack) (hok : label.CallsBack) (hstep : s.step label = some s') : s'.CallsBack := by
  cases WorkerSystem.step_moves hstep with
  | @call p cb args =>
      refine ⟨fun q task hq => ?_, h.pushed⟩
      by_cases hqp : q = p
      · subst hqp
        simp only [update_self, Producer.pushing.injEq] at hq
        rw [← hq]
        exact hok
      · simp only [update_of_ne hqp] at hq
        exact h.pushing q task hq
  | @push p task hpushing =>
      refine ⟨fun q task hq => h.pushing q task (Producer.of_update hq (by simp)).2,
        fun task' htask' => ?_⟩
      rcases List.mem_append.mp htask' with hold | hnew
      · exact h.pushed task' hold
      · rw [List.mem_singleton.mp hnew]
        exact h.pushing p task hpushing
  | send =>
      exact ⟨fun q task hq => h.pushing q task (Producer.of_update hq (by simp)).2, h.pushed⟩
  | start | worker | interrupt | taskReturns | stop | destroy | destroyStop | destroySend
  | destroyJoin => exact ⟨h.pushing, h.pushed⟩

/-- What was invoked is what was pushed first, and nothing twice. -/
theorem WorkerSystem.InOrder.invoked {s : WorkerSystem A} (h : s.InOrder) (hcb : s.CallsBack) :
    s.invoked <+: s.pushed ∧ s.invoked.Nodup := by
  have hall : s.pushed.filter Task.cb = s.pushed := List.filter_eq_self.mpr hcb.pushed
  have hpre : s.invoked <+: s.pushed := ⟨s.worker.waiting, h.fifo.trans hall⟩
  exact ⟨hpre, hpre.sublist.nodup h.distinct.of_map⟩

/-! ### Over the linked queue -/

/-- The system with these tasks in the worker's list. -/
def WorkerSystem.withTasks (s : WorkerSystem A) (tasks : List (Task A)) : WorkerSystem A :=
  { s with worker := { s.worker with taskQueue := tasks } }

/-- The same move over a list. -/
def LinkedLabel.onList : LinkedLabel A → WorkerLabel A
  | .push p _ _ => .push p
  | .other label => label

/-- The label neither pushes nor lets the worker take its next step. -/
def WorkerLabel.OffQueue : WorkerLabel A → Prop
  | .push _ | .worker => False
  | _ => True

/-- Steps that do not look at the tasks. -/
theorem WorkerSystem.step_withTasks {s s' : WorkerSystem A} {label : WorkerLabel A}
    (hlabel : label.OffQueue) (hstep : s.step label = some s') (tasks : List (Task A)) :
    (s.withTasks tasks).step label = some (s'.withTasks tasks) := by
  cases WorkerSystem.step_moves hstep with
  | push => exact absurd hlabel id
  | worker => exact absurd hlabel id
  | start hcreated hstart =>
      cases hasync : s.worker.asyncStart <;>
        simp [WorkerSystem.step, withTasks, xvWorkerThreadStart, WorkerThread.startWith, hcreated,
          hstart, hasync]
  | call cb args hidle => simp [WorkerSystem.step, withTasks, hidle]
  | send hsending =>
      simp only [WorkerSystem.step, withTasks, hsending]
      rfl
  | interrupt hthread =>
      obtain ⟨hpc, rfl⟩ := WorkerThread.interrupt_some hthread
      simp [WorkerSystem.step, withTasks, WorkerThread.interrupt, hpc]
  | taskReturns hthread =>
      obtain ⟨task, hpc, rfl⟩ := WorkerThread.taskReturns_some hthread
      simp [WorkerSystem.step, withTasks, WorkerThread.taskReturns, hpc]
  | stop => rfl
  | destroy hidle hcreated => exact if_pos ⟨hidle, hcreated⟩
  | destroyStop hstopping => exact if_pos hstopping
  | destroySend hsending => exact if_pos hsending
  | destroyJoin hjoining hexited => exact if_pos ⟨hjoining, hexited⟩

/-- The worker's step at a place where it does not look at the tasks. -/
theorem WorkerSystem.worker_withTasks {s s' : WorkerSystem A} (hsize : s.worker.pc ≠ .sizeTest)
    (hpop : s.worker.pc ≠ .pop) (hstep : s.step .worker = some s') (tasks : List (Task A)) :
    (s.withTasks tasks).step .worker = some (s'.withTasks tasks) := by
  simp only [WorkerSystem.step, Option.map_eq_some_iff] at hstep
  obtain ⟨thread, hthread, rfl⟩ := hstep
  simp only [WorkerSystem.step, Option.map_eq_some_iff]
  refine ⟨{ thread with taskQueue := tasks }, ?_, ?_⟩
  · unfold WorkerThread.step at hthread ⊢
    cases hpc : s.worker.pc <;> simp only [hpc, withTasks] at hthread ⊢
    case sizeTest => exact absurd hpc hsize
    case pop => exact absurd hpc hpop
    case absent | exited | run => simp at hthread
    case entryTest | loopTest | eventfdRead =>
      simp only [Option.some.injEq] at hthread
      subst hthread
      rfl
    case epollWait =>
      simp only [Option.ite_none_right_eq_some, Option.some.injEq] at hthread
      obtain ⟨hcounter, rfl⟩ := hthread
      exact if_pos hcounter
    case flagTest =>
      split at hthread <;> simp only [Option.some.injEq] at hthread <;> subst hthread
      · rename_i hstart
        exact if_pos hstart
      · rename_i hstart
        exact if_neg hstart
  · have hnothing : ∀ thread : WorkerThread A, thread.pc = s.worker.pc → thread.invokes = [] := by
      intro thread hpc
      unfold WorkerThread.invokes
      split
      · rename_i hthread _
        exact absurd (hpc.symm.trans hthread) hpop
      · rfl
    rw [hnothing (s.withTasks tasks).worker rfl, hnothing s.worker rfl]
    rfl

/-- The tasks of a queue that holds these entries. -/
def LinkedSystem.view (s : LinkedSystem A) (entries : List (Nat × Task A)) : WorkerSystem A :=
  s.system.withTasks (entries.map Prod.snd)

/-- The worker's step over the linked queue is its step over the list. -/
theorem LinkedSystem.worker_view {s s' : LinkedSystem A} {entries : List (Nat × Task A)}
    (h : s.taskQueue.Holds entries) (hstep : s.worker = some s') :
    ∃ entries', s'.taskQueue.Holds entries' ∧
      (s.view entries).step .worker = some (s'.view entries') := by
  unfold LinkedSystem.worker at hstep
  split at hstep
  · rename_i hpc
    simp only [Option.some.injEq] at hstep
    subst hstep
    refine ⟨entries, h, ?_⟩
    have hsize : xvQueueSize s.taskQueue = (entries.map Prod.snd).length := by
      rw [List.length_map]
      exact h.size
    simp [WorkerSystem.step, view, WorkerSystem.withTasks, WorkerSystem.setPc, WorkerThread.step,
      WorkerThread.invokes, hpc, hsize]
  · rename_i hpc
    simp only [Option.map_eq_some_iff] at hstep
    obtain ⟨⟨data, queue⟩, hpop, hstep⟩ := hstep
    cases entries with
    | nil =>
        obtain ⟨rfl, rfl⟩ : none = data ∧ s.taskQueue = queue := by
          simpa using h.pop_nil.symm.trans hpop
        subst hstep
        refine ⟨[], h, ?_⟩
        simp [WorkerSystem.step, view, WorkerSystem.withTasks, WorkerSystem.setPc,
          WorkerThread.step, WorkerThread.invokes, hpc]
    | cons entry rest =>
        obtain ⟨queue', hpop', hrest, -⟩ := h.pop_cons
        obtain ⟨rfl, rfl⟩ : some entry.2 = data ∧ queue' = queue := by
          simpa using hpop'.symm.trans hpop
        dsimp only at hstep
        split at hstep
        · rename_i hcb
          subst hstep
          refine ⟨rest, hrest, ?_⟩
          simp [WorkerSystem.step, view, WorkerSystem.withTasks, WorkerSystem.setPc,
            WorkerThread.step, WorkerThread.invokes, hpc, hcb]
        · rename_i hcb
          subst hstep
          refine ⟨rest, hrest, ?_⟩
          simp [WorkerSystem.step, view, WorkerSystem.withTasks, WorkerSystem.setPc,
            WorkerThread.step, WorkerThread.invokes, hpc, hcb]
  · rename_i hsize hpop
    simp only [Option.map_eq_some_iff] at hstep
    obtain ⟨system, hsystem, rfl⟩ := hstep
    exact ⟨entries, h, WorkerSystem.worker_withTasks hsize hpop hsystem _⟩

/-- A step over the linked queue is a step over the list it holds. -/
theorem LinkedSystem.step_view {s s' : LinkedSystem A} {label : LinkedLabel A}
    {entries : List (Nat × Task A)} (h : s.taskQueue.Holds entries)
    (hstep : s.step label = some s') :
    ∃ entries', s'.taskQueue.Holds entries' ∧
      (s.view entries).step label.onList = some (s'.view entries') := by
  unfold LinkedSystem.step at hstep
  split at hstep
  · rename_i p addr next
    split at hstep
    · rename_i task hpushing hfree
      simp only [Option.map_eq_some_iff] at hstep
      obtain ⟨queue, hqueue, rfl⟩ := hstep
      obtain ⟨queue', hpush, hholds⟩ := h.push next task hfree
      obtain rfl : queue' = queue := by simpa using hpush.symm.trans hqueue
      refine ⟨entries ++ [(addr, task)], hholds, ?_⟩
      simp [WorkerSystem.step, view, WorkerSystem.withTasks, WorkerThread.push,
        LinkedLabel.onList, hpushing]
    · simp at hstep
  · simp at hstep
  · exact worker_view h hstep
  · rename_i label hpush hworker
    simp only [Option.map_eq_some_iff] at hstep
    obtain ⟨system, hsystem, rfl⟩ := hstep
    have hlabel : label.OffQueue := by
      cases label with
      | push p => exact absurd rfl (hpush p)
      | worker => exact absurd rfl hworker
      | _ => trivial
    exact ⟨entries, h, WorkerSystem.step_withTasks hlabel hsystem _⟩

/-- Every run over the linked queue is a run over a list. -/
theorem LinkedSystem.simulates {s : LinkedSystem A}
    (h : Reach LinkedSystem.step (fun _ label => label.CallsBack) (· = LinkedSystem.init) s) :
    ∃ entries, s.taskQueue.Holds entries ∧
      Reach WorkerSystem.step (fun _ label => label.CallsBack) (· = WorkerSystem.init)
        (s.view entries) := by
  refine h.invariant
    (I := fun s => ∃ entries, s.taskQueue.Holds entries ∧
      Reach WorkerSystem.step (fun _ label => label.CallsBack) (· = WorkerSystem.init)
        (s.view entries)) ?_ fun s label s' hs hok hstep => ?_
  · intro s hs
    subst hs
    exact ⟨[], xvQueueInit_holds, .start rfl⟩
  · obtain ⟨entries, hholds, hreach⟩ := hs
    obtain ⟨entries', hholds', hstep'⟩ := step_view hholds hstep
    refine ⟨entries', hholds', .next hreach ?_ hstep'⟩
    cases label with
    | push p addr next => trivial
    | other label => exact hok

theorem WorkerSystem.invoked_in_order {s : WorkerSystem A}
    (h : Reach WorkerSystem.step (fun _ label => label.CallsBack) (· = WorkerSystem.init) s) :
    s.invoked <+: s.pushed ∧ s.invoked.Nodup := by
  have horder : s.InOrder :=
    h.invariant (fun _ hs => hs ▸ .start) fun _ _ _ hs _ hstep => hs.step hstep
  have hcb : s.CallsBack :=
    h.invariant (fun _ hs => hs ▸ ⟨nofun, nofun⟩) fun _ _ _ hs hok hstep => hs.step hok hstep
  exact horder.invoked hcb

/--
**A worker runs its tasks in order and at most once**: whatever threads push, tasks of its own
included, and however the worker is interleaved with them, the tasks whose callbacks have been
invoked are a prefix of the tasks in the order their pushes took the mutex.
-/
theorem tasks_in_order {s : LinkedSystem A}
    (h : Reach LinkedSystem.step (fun _ label => label.CallsBack) (· = LinkedSystem.init) s) :
    s.system.invoked <+: s.system.pushed ∧ s.system.invoked.Nodup := by
  obtain ⟨entries, -, hreach⟩ := LinkedSystem.simulates h
  have horder := WorkerSystem.invoked_in_order hreach
  exact horder

/-- Two threads push, and the first task pushes a third to its own worker. -/
def pushFromTask : List (LinkedLabel Unit) :=
  [.other .start, .other (.call 0 true ()), .other (.call 1 true ()), .push 1 64 (some 7),
    .other (.send 1), .other .worker, .other .worker, .other .worker, .other .worker,
    .other .worker, .other .worker, .push 0 96 none, .other (.call 2 true ()), .push 2 64 none,
    .other .taskReturns, .other .worker, .other .worker]

theorem tasks_in_order_push_from_task :
    ∃ s : LinkedSystem Unit, s.system.invoked = [⟨1, true, ()⟩, ⟨0, true, ()⟩] ∧
      s.system.pushed = [⟨1, true, ()⟩, ⟨0, true, ()⟩, ⟨2, true, ()⟩] ∧
      s.system.invoked <+: s.system.pushed ∧ s.system.invoked.Nodup :=
  ⟨_, rfl, rfl, tasks_in_order
    (Reach.play pushFromTask (.start rfl) (by decide) rfl)⟩

end Libxv
