/-
A worker thread of `xv_th_pool.c`.

The worker runs `worker_entry`: while its start flag is set it runs its loop, and the
loop does nothing but wait for the worker's async and call `worker_async_cb`, which
drains the task queue and then tests the flag.  `WorkerThread.step` is that program, one
shared access at a time; the mutex-protected queue operations are single steps.

`WorkerSystem` puts the worker among the threads that use it: any number of producers
inside `xv_worker_thread_push_task`, threads that call `xv_worker_thread_stop`, and one
that calls `xv_worker_thread_destroy`.
-/
import Libxv.Async
import Mathlib.Logic.Function.Basic

namespace Libxv

open Function

variable {A : Type}

/-- `xv_task_t`.  The number stands for the object's address, `cb` for whether its
callback is set. -/
structure Task (A : Type) where
  id : Nat
  cb : Bool
  args : A
  deriving DecidableEq

/-- Where a worker is in its program. -/
inductive WorkerPc (A : Type)
  /-- The thread has not been created. -/
  | absent
  /-- `while (thread->start)` of `worker_entry`. -/
  | entryTest
  /-- `while (loop->start)` of `xv_loop_run`. -/
  | loopTest
  | epollWait
  /-- `common_async_cb` called, `eventfd_read` next. -/
  | eventfdRead
  /-- `while (xv_concurrent_queue_size(...) > 0)` of `worker_async_cb`. -/
  | sizeTest
  | pop
  /-- Inside a task's callback. -/
  | run (task : Task A)
  /-- `if (!thread->start)` at the end of `worker_async_cb`. -/
  | flagTest
  | exited
  deriving DecidableEq

/-- `xv_worker_thread_t`, with the thread it owns.  `evfd` is the counter of its async,
`asyncStart` says whether the async is started, `loopStart` is `loop->start`. -/
structure WorkerThread (A : Type) where
  taskQueue : List (Task A)
  evfd : Nat
  asyncStart : Bool
  start : Bool
  loopStart : Bool
  pc : WorkerPc A

def xvWorkerThreadInit : WorkerThread A :=
  { taskQueue := [], evfd := 0, asyncStart := false, start := false, loopStart := true,
    pc := .absent }

/-- `xv_worker_thread_start`, where `epoll_ctl` watches the async's fd and `pthread_create`
creates the thread, or not.  An async that is started already is not started again. -/
def WorkerThread.startWith (thread : WorkerThread A) (watched created : Bool) :
    Int × WorkerThread A :=
  if thread.start then (xvErr, thread)
  else
    let thread := { thread with start := true }
    if thread.asyncStart then (xvErr, thread)
    else
      let thread := { thread with asyncStart := true }
      if !watched then (xvErr, thread)
      else if created then (xvOk, { thread with pc := .entryTest })
      else (xvErr, thread)

/-- `xv_worker_thread_start` where `epoll_ctl` and `pthread_create` succeed. -/
def xvWorkerThreadStart (thread : WorkerThread A) : Int × WorkerThread A :=
  thread.startWith true true

def xvWorkerThreadStop (thread : WorkerThread A) : WorkerThread A :=
  { thread with start := false }

/-- The queue half of `xv_worker_thread_push_task`. -/
def WorkerThread.push (thread : WorkerThread A) (task : Task A) : WorkerThread A :=
  { thread with taskQueue := thread.taskQueue ++ [task] }

/-- The `xv_async_send` half of `xv_worker_thread_push_task`. -/
def WorkerThread.send (thread : WorkerThread A) : WorkerThread A :=
  { thread with evfd := (xvAsyncSend thread.evfd).2 }

/-- The worker's next step: `none` while it is blocked in `epoll_wait`, inside a task, or
not running. -/
def WorkerThread.step (thread : WorkerThread A) : Option (WorkerThread A) :=
  match thread.pc with
  | .absent | .exited | .run _ => none
  | .entryTest => some { thread with pc := if thread.start then .loopTest else .exited }
  | .loopTest => some { thread with pc := if thread.loopStart then .epollWait else .entryTest }
  | .epollWait => if 0 < thread.evfd then some { thread with pc := .eventfdRead } else none
  | .eventfdRead => some { thread with evfd := (eventfdRead thread.evfd).2, pc := .sizeTest }
  | .sizeTest =>
      some { thread with pc := if thread.taskQueue.length > 0 then .pop else .flagTest }
  | .pop =>
      match thread.taskQueue with
      | [] => some { thread with pc := .sizeTest }
      | task :: rest =>
          some { thread with taskQueue := rest, pc := if task.cb then .run task else .sizeTest }
  | .flagTest =>
      if !thread.start then some { thread with loopStart := false, pc := .loopTest }
      else some { thread with pc := .loopTest }

/-- The callback of the running task returns. -/
def WorkerThread.taskReturns (thread : WorkerThread A) : Option (WorkerThread A) :=
  match thread.pc with
  | .run _ => some { thread with pc := .sizeTest }
  | _ => none

/-- `epoll_wait` is interrupted: `xv_loop_poll` finds nothing to dispatch. -/
def WorkerThread.interrupt (thread : WorkerThread A) : Option (WorkerThread A) :=
  match thread.pc with
  | .epollWait => some { thread with pc := .loopTest }
  | _ => none

/-- The worker has reset its counter and not yet found its queue empty. -/
def WorkerPc.draining : WorkerPc A → Bool
  | .sizeTest | .pop | .run _ => true
  | _ => false

/-- The thread has been created. -/
def WorkerPc.created : WorkerPc A → Bool
  | .absent => false
  | _ => true

/-- The thread has returned from `worker_entry`. -/
def WorkerPc.hasExited : WorkerPc A → Bool
  | .exited => true
  | _ => false

/-! ### The worker and its users -/

/-- A thread inside `xv_worker_thread_push_task`. -/
inductive Producer (A : Type)
  | idle
  | pushing (task : Task A)
  | sending (task : Task A)

/-- The thread that calls `xv_worker_thread_destroy`. -/
inductive Destroyer
  | idle
  | stopping
  | sending
  | joining
  | joined
  deriving DecidableEq

structure WorkerSystem (A : Type) where
  worker : WorkerThread A
  producers : Nat → Producer A
  destroyer : Destroyer
  nextTask : Nat
  /-- The tasks in the order their pushes took the queue mutex. -/
  pushed : List (Task A)
  /-- The tasks whose push returned before `xv_worker_thread_destroy` was called. -/
  returned : List (Task A)
  /-- The tasks whose callback has been invoked, in order. -/
  invoked : List (Task A)

inductive WorkerLabel (A : Type)
  /-- `xv_worker_thread_start` on the new worker. -/
  | start
  /-- Producer `p` enters `xv_worker_thread_push_task` and allocates the task. -/
  | call (p : Nat) (cb : Bool) (args : A)
  | push (p : Nat)
  | send (p : Nat)
  | worker
  | interrupt
  | taskReturns
  | stop
  | destroy
  | destroyStop
  | destroySend
  | destroyJoin

/-- The task the worker is about to take, if its callback is set. -/
def WorkerThread.invokes (thread : WorkerThread A) : List (Task A) :=
  match thread.pc, thread.taskQueue with
  | .pop, task :: _ => if task.cb then [task] else []
  | _, _ => []

def WorkerSystem.step (s : WorkerSystem A) : WorkerLabel A → Option (WorkerSystem A)
  | .start =>
      if !s.worker.pc.created && !s.worker.start then
        some { s with worker := (xvWorkerThreadStart s.worker).2 }
      else none
  | .call p cb args =>
      match s.producers p with
      | .idle =>
          some { s with
            producers := update s.producers p (.pushing ⟨s.nextTask, cb, args⟩)
            nextTask := s.nextTask + 1 }
      | _ => none
  | .push p =>
      match s.producers p with
      | .pushing task =>
          some { s with
            worker := s.worker.push task
            producers := update s.producers p (.sending task)
            pushed := s.pushed ++ [task] }
      | _ => none
  | .send p =>
      match s.producers p with
      | .sending task =>
          some { s with
            worker := s.worker.send
            producers := update s.producers p .idle
            returned := if s.destroyer = .idle then s.returned ++ [task] else s.returned }
      | _ => none
  | .worker =>
      s.worker.step.map fun worker =>
        { s with worker := worker, invoked := s.invoked ++ s.worker.invokes }
  | .interrupt => s.worker.interrupt.map fun worker => { s with worker := worker }
  | .taskReturns => s.worker.taskReturns.map fun worker => { s with worker := worker }
  | .stop => some { s with worker := xvWorkerThreadStop s.worker }
  | .destroy =>
      if s.destroyer = .idle ∧ s.worker.pc.created then some { s with destroyer := .stopping }
      else none
  | .destroyStop =>
      if s.destroyer = .stopping then
        some { s with worker := xvWorkerThreadStop s.worker, destroyer := .sending }
      else none
  | .destroySend =>
      if s.destroyer = .sending then
        some { s with worker := s.worker.send, destroyer := .joining }
      else none
  | .destroyJoin =>
      if s.destroyer = .joining ∧ s.worker.pc.hasExited then
        some { s with destroyer := .joined }
      else none

def WorkerSystem.init : WorkerSystem A :=
  { worker := xvWorkerThreadInit, producers := fun _ => .idle, destroyer := .idle,
    nextTask := 0, pushed := [], returned := [], invoked := [] }

end Libxv
