/-
What one step of a worker does, and one step of anyone who uses it.

`WorkerThread.Moves` names every branch of the worker's program with the test that leads into
it, and `WorkerSystem.Moves` every step of the worker among its users, so that an invariant is a
short case for each and no proof follows the program a second time.
-/
import Libxv.WorkerThread

namespace Libxv

open Function

variable {A : Type} {thread thread' : WorkerThread A}

/-- The branches of the worker's program. -/
inductive WorkerThread.Moves (thread : WorkerThread A) : WorkerThread A → Prop
  | enter (hpc : thread.pc = .entryTest) (hstart : thread.start = true) :
      Moves thread { thread with pc := .loopTest }
  | exit (hpc : thread.pc = .entryTest) (hstart : thread.start = false) :
      Moves thread { thread with pc := .exited }
  | poll (hpc : thread.pc = .loopTest) (hloop : thread.loopStart = true) :
      Moves thread { thread with pc := .epollWait }
  | leave (hpc : thread.pc = .loopTest) (hloop : thread.loopStart = false) :
      Moves thread { thread with pc := .entryTest }
  | wake (hpc : thread.pc = .epollWait) (hevfd : 0 < thread.evfd) :
      Moves thread { thread with pc := .eventfdRead }
  | reset (hpc : thread.pc = .eventfdRead) :
      Moves thread { thread with evfd := (eventfdRead thread.evfd).2, pc := .sizeTest }
  | more (hpc : thread.pc = .sizeTest) (hqueue : 0 < thread.taskQueue.length) :
      Moves thread { thread with pc := .pop }
  | drained (hpc : thread.pc = .sizeTest) (hqueue : thread.taskQueue = []) :
      Moves thread { thread with pc := .flagTest }
  | popNone (hpc : thread.pc = .pop) (hqueue : thread.taskQueue = []) :
      Moves thread { thread with pc := .sizeTest }
  | run {task : Task A} {rest : List (Task A)} (hpc : thread.pc = .pop)
      (hqueue : thread.taskQueue = task :: rest) (hcb : task.cb = true) :
      Moves thread { thread with taskQueue := rest, pc := .run task }
  | skip {task : Task A} {rest : List (Task A)} (hpc : thread.pc = .pop)
      (hqueue : thread.taskQueue = task :: rest) (hcb : task.cb = false) :
      Moves thread { thread with taskQueue := rest, pc := .sizeTest }
  | stopLoop (hpc : thread.pc = .flagTest) (hstart : thread.start = false) :
      Moves thread { thread with loopStart := false, pc := .loopTest }
  | again (hpc : thread.pc = .flagTest) (hstart : thread.start = true) :
      Moves thread { thread with pc := .loopTest }

/-- A step of the worker is one of its branches. -/
theorem WorkerThread.step_moves (hstep : thread.step = some thread') : thread.Moves thread' := by
  unfold WorkerThread.step at hstep
  cases hpc : thread.pc <;> simp only [hpc] at hstep
  case absent | exited | run => simp at hstep
  case entryTest =>
    obtain rfl := Option.some.inj hstep
    by_cases hstart : thread.start = true
    · rw [if_pos hstart]
      exact .enter hpc hstart
    · rw [if_neg hstart]
      exact .exit hpc (Bool.eq_false_iff.mpr hstart)
  case loopTest =>
    obtain rfl := Option.some.inj hstep
    by_cases hloop : thread.loopStart = true
    · rw [if_pos hloop]
      exact .poll hpc hloop
    · rw [if_neg hloop]
      exact .leave hpc (Bool.eq_false_iff.mpr hloop)
  case epollWait =>
    simp only [Option.ite_none_right_eq_some, Option.some.injEq] at hstep
    obtain ⟨hevfd, rfl⟩ := hstep
    exact .wake hpc hevfd
  case eventfdRead =>
    obtain rfl := Option.some.inj hstep
    exact .reset hpc
  case sizeTest =>
    obtain rfl := Option.some.inj hstep
    by_cases hsize : thread.taskQueue.length > 0
    · rw [if_pos hsize]
      exact .more hpc hsize
    · rw [if_neg hsize]
      exact .drained hpc (List.length_eq_zero_iff.mp (Nat.eq_zero_of_not_pos hsize))
  case pop =>
    cases hqueue : thread.taskQueue with
    | nil =>
        simp only [hqueue, Option.some.injEq] at hstep
        subst hstep
        rw [← hqueue]
        exact .popNone hpc hqueue
    | cons task rest =>
        simp only [hqueue, Option.some.injEq] at hstep
        subst hstep
        cases hcb : task.cb with
        | true => exact .run hpc hqueue hcb
        | false => exact .skip hpc hqueue hcb
  case flagTest =>
    split at hstep <;> rename_i hstart <;> obtain rfl := Option.some.inj hstep
    · exact .stopLoop hpc (by simpa using hstart)
    · exact .again hpc (by simpa using hstart)

/-- A worker's own step takes the first task of its queue and runs it, or leaves the queue. -/
theorem WorkerThread.step_queue (h : thread.step = some thread') :
    (∃ task rest, thread.taskQueue = task :: rest ∧ thread'.taskQueue = rest ∧
        thread'.pc = if task.cb then .run task else .sizeTest) ∨
      (thread'.taskQueue = thread.taskQueue ∧ ∀ task, thread'.pc ≠ .run task) := by
  cases WorkerThread.step_moves h with
  | @run task rest _ hqueue hcb => exact Or.inl ⟨task, rest, hqueue, rfl, (if_pos hcb).symm⟩
  | @skip task rest _ hqueue hcb =>
      refine Or.inl ⟨task, rest, hqueue, rfl, (if_neg ?_).symm⟩
      simp [hcb]
  | _ => exact Or.inr ⟨rfl, fun task => by simp⟩

theorem WorkerThread.interrupt_some (h : thread.interrupt = some thread') :
    thread.pc = .epollWait ∧ thread' = { thread with pc := .loopTest } := by
  unfold WorkerThread.interrupt at h
  split at h
  · rename_i hpc
    exact ⟨hpc, (Option.some.inj h).symm⟩
  · simp at h

theorem WorkerThread.taskReturns_some (h : thread.taskReturns = some thread') :
    ∃ task, thread.pc = .run task ∧ thread' = { thread with pc := .sizeTest } := by
  unfold WorkerThread.taskReturns at h
  split at h
  · rename_i task hpc
    exact ⟨task, hpc, (Option.some.inj h).symm⟩
  · simp at h

theorem WorkerThread.interrupt_queue (h : thread.interrupt = some thread') :
    thread'.taskQueue = thread.taskQueue := by
  obtain ⟨-, rfl⟩ := WorkerThread.interrupt_some h
  rfl

theorem WorkerThread.taskReturns_queue (h : thread.taskReturns = some thread') :
    thread'.taskQueue = thread.taskQueue := by
  obtain ⟨task, -, rfl⟩ := WorkerThread.taskReturns_some h
  rfl

/-- A worker that takes a step is a thread that exists. -/
theorem WorkerThread.step_created (hstep : thread.step = some thread') :
    thread'.pc.created = true := by
  cases WorkerThread.step_moves hstep <;> rfl

/-- A producer that has been made to do something else is not the one found doing this. -/
theorem Producer.of_update {producers : Nat → Producer A} {p q : Nat} {new old : Producer A}
    (h : Function.update producers p new q = old) (hne : new ≠ old) :
    q ≠ p ∧ producers q = old := by
  have hqp : q ≠ p := by
    rintro rfl
    rw [Function.update_self] at h
    exact hne h
  rw [Function.update_of_ne hqp] at h
  exact ⟨hqp, h⟩

/-! ### The worker and its users -/

/-- A worker that was not started, afterwards: its async was started already, or all of it is. -/
theorem xvWorkerThreadStart_cases {thread : WorkerThread A} (hstart : thread.start = false) :
    (xvWorkerThreadStart thread).2 = { thread with start := true } ∨
      (xvWorkerThreadStart thread).2 =
        { thread with start := true, asyncStart := true, pc := .entryTest } := by
  cases hasync : thread.asyncStart
  · right
    simp [xvWorkerThreadStart, WorkerThread.startWith, hstart, hasync]
  · left
    simp [xvWorkerThreadStart, WorkerThread.startWith, hstart, hasync]

theorem xvWorkerThreadStart_taskQueue (thread : WorkerThread A) :
    (xvWorkerThreadStart thread).2.taskQueue = thread.taskQueue := by
  cases hstart : thread.start
  · rcases xvWorkerThreadStart_cases hstart with hsame | hstarted
    · rw [hsame]
    · rw [hstarted]
  · simp [xvWorkerThreadStart, WorkerThread.startWith, hstart]

variable {s s' : WorkerSystem A}

/-- The steps of the worker, of its users and of the thread that destroys it. -/
inductive WorkerSystem.Moves (s : WorkerSystem A) : WorkerLabel A → WorkerSystem A → Prop
  | start (hcreated : s.worker.pc.created = false) (hstart : s.worker.start = false) :
      Moves s .start { s with worker := (xvWorkerThreadStart s.worker).2 }
  | call {p : Nat} (cb : Bool) (args : A) (hidle : s.producers p = .idle) :
      Moves s (.call p cb args)
        { s with
          producers := update s.producers p (.pushing ⟨s.nextTask, cb, args⟩)
          nextTask := s.nextTask + 1 }
  | push {p : Nat} {task : Task A} (hpushing : s.producers p = .pushing task) :
      Moves s (.push p)
        { s with
          worker := s.worker.push task
          producers := update s.producers p (.sending task)
          pushed := s.pushed ++ [task] }
  | send {p : Nat} {task : Task A} (hsending : s.producers p = .sending task) :
      Moves s (.send p)
        { s with
          worker := s.worker.send
          producers := update s.producers p .idle
          returned := if s.destroyer = .idle then s.returned ++ [task] else s.returned }
  | worker {thread : WorkerThread A} (hthread : s.worker.step = some thread) :
      Moves s .worker { s with worker := thread, invoked := s.invoked ++ s.worker.invokes }
  | interrupt {thread : WorkerThread A} (hthread : s.worker.interrupt = some thread) :
      Moves s .interrupt { s with worker := thread }
  | taskReturns {thread : WorkerThread A} (hthread : s.worker.taskReturns = some thread) :
      Moves s .taskReturns { s with worker := thread }
  | stop : Moves s .stop { s with worker := xvWorkerThreadStop s.worker }
  | destroy (hidle : s.destroyer = .idle) (hcreated : s.worker.pc.created = true) :
      Moves s .destroy { s with destroyer := .stopping }
  | destroyStop (hstopping : s.destroyer = .stopping) :
      Moves s .destroyStop { s with worker := xvWorkerThreadStop s.worker, destroyer := .sending }
  | destroySend (hsending : s.destroyer = .sending) :
      Moves s .destroySend { s with worker := s.worker.send, destroyer := .joining }
  | destroyJoin (hjoining : s.destroyer = .joining) (hexited : s.worker.pc.hasExited = true) :
      Moves s .destroyJoin { s with destroyer := .joined }

/-- A step of anyone is one of these. -/
theorem WorkerSystem.step_moves {label : WorkerLabel A} (hstep : s.step label = some s') :
    s.Moves label s' := by
  unfold WorkerSystem.step at hstep
  cases label with
  | start =>
      simp only [Option.ite_none_right_eq_some, Option.some.injEq, Bool.and_eq_true,
        Bool.not_eq_true'] at hstep
      obtain ⟨⟨hcreated, hstart⟩, rfl⟩ := hstep
      exact .start hcreated hstart
  | call p cb args =>
      dsimp only at hstep
      split at hstep
      · obtain rfl := Option.some.inj hstep
        exact .call cb args ‹_›
      · simp at hstep
  | push p =>
      dsimp only at hstep
      split at hstep
      · obtain rfl := Option.some.inj hstep
        exact .push ‹_›
      · simp at hstep
  | send p =>
      dsimp only at hstep
      split at hstep
      · obtain rfl := Option.some.inj hstep
        exact .send ‹_›
      · simp at hstep
  | worker =>
      simp only [Option.map_eq_some_iff] at hstep
      obtain ⟨thread, hthread, rfl⟩ := hstep
      exact .worker hthread
  | interrupt =>
      simp only [Option.map_eq_some_iff] at hstep
      obtain ⟨thread, hthread, rfl⟩ := hstep
      exact .interrupt hthread
  | taskReturns =>
      simp only [Option.map_eq_some_iff] at hstep
      obtain ⟨thread, hthread, rfl⟩ := hstep
      exact .taskReturns hthread
  | stop =>
      obtain rfl := Option.some.inj hstep
      exact .stop
  | destroy =>
      simp only [Option.ite_none_right_eq_some, Option.some.injEq] at hstep
      obtain ⟨⟨hidle, hcreated⟩, rfl⟩ := hstep
      exact .destroy hidle hcreated
  | destroyStop =>
      simp only [Option.ite_none_right_eq_some, Option.some.injEq] at hstep
      obtain ⟨hstopping, rfl⟩ := hstep
      exact .destroyStop hstopping
  | destroySend =>
      simp only [Option.ite_none_right_eq_some, Option.some.injEq] at hstep
      obtain ⟨hsending, rfl⟩ := hstep
      exact .destroySend hsending
  | destroyJoin =>
      simp only [Option.ite_none_right_eq_some, Option.some.injEq] at hstep
      obtain ⟨⟨hjoining, hexited⟩, rfl⟩ := hstep
      exact .destroyJoin hjoining hexited

end Libxv
