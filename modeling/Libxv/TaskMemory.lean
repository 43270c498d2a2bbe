/-
A worker thread and the memory of its tasks: `xv_th_pool.c`.

`WorkerSystem` hands tasks from thread to thread as values.  In the source a task is a block:
`xv_worker_thread_push_task` allocates it and pushes its address onto the linked queue, and
`worker_async_cb` reads the block it pops and frees it after its callback.  A freed address may
be handed out again, to a task or to a node of the queue.

`xv_worker_thread_destroy` has `xv_queue_destroy` free the blocks that are still queued, which
goes from node to node until it reads a NULL `next`.  Where it follows the unset `next` of the
last node to a block that is no node, the call has no result.  No push is made meanwhile.
-/
import Libxv.Queue
import Libxv.WorkerThread

namespace Libxv

open Function

variable {A : Type}

/-- The fields of an `xv_task_t`, `cb` being whether there is a callback. -/
structure TaskBlock (A : Type) where
  cb : Bool
  args : A

/-- The ids of the tasks in `system` are addresses, and the list in `system.worker.taskQueue` is
not used. -/
structure TaskMemory (A : Type) where
  system : WorkerSystem A
  heap : Nat → Option (TaskBlock A)
  /-- The data of a node is the address of a task. -/
  taskQueue : Queue Nat
  /-- Popped tasks without a callback, in order. -/
  skipped : List Nat
  /-- `xv_worker_thread_destroy` has returned. -/
  destroyed : Bool

inductive TaskMemoryLabel (A : Type)
  /-- Producer `p` enters `xv_worker_thread_push_task`, where `malloc` returns `addr`. -/
  | call (p addr : Nat) (cb : Bool) (args : A)
  /-- Producer `p` takes the mutex and pushes; the node is at `addr`, and `next` is what the
  block happens to hold. -/
  | push (p addr : Nat) (next : Option Nat)
  /-- The worker's next step. -/
  | worker
  | taskReturns
  /-- `xv_concurrent_queue_destroy(thread->task_queue, xv_free)`, in at most `fuel` tests of its
  loop, and `xv_free(thread)`. -/
  | destroyFree (fuel : Nat)
  | other (label : WorkerLabel A)

/-- Free blocks that must be live, one after the other. -/
def freeAll (heap : Nat → Option (TaskBlock A)) : List Nat → Option (Nat → Option (TaskBlock A))
  | [] => some heap
  | addr :: rest =>
      match heap addr with
      | none => none
      | some _ => freeAll (update heap addr none) rest

namespace TaskMemory

def setPc (s : TaskMemory A) (pc : WorkerPc A) : TaskMemory A :=
  { s with system := { s.system with worker := { s.system.worker with pc := pc } } }

/-- The task in the block at an address. -/
def taskAt (s : TaskMemory A) (addr : Nat) : Option (Task A) :=
  (s.heap addr).map fun block => ⟨addr, block.cb, block.args⟩

/-- Neither a task nor a node of the queue is at the address. -/
def free (s : TaskMemory A) (addr : Nat) : Bool :=
  (s.heap addr).isNone && (s.taskQueue.nodes addr).isNone

/-- `worker_async_cb` has popped an address and reads the block. -/
def take (s : TaskMemory A) (addr : Nat) (queue : Queue Nat) : Option (TaskMemory A) :=
  (s.taskAt addr).map fun task =>
    let s := { s with taskQueue := queue }
    if task.cb then
      let s := s.setPc (.run task)
      { s with system := { s.system with invoked := s.system.invoked ++ [task] } }
    else { s.setPc .sizeTest with skipped := s.skipped ++ [addr] }

/-- The worker's next step. -/
def worker (s : TaskMemory A) : Option (TaskMemory A) :=
  match s.system.worker.pc with
  | .sizeTest => some (s.setPc (if xvQueueSize s.taskQueue > 0 then .pop else .flagTest))
  | .pop =>
      match xvQueuePop s.taskQueue with
      | none => none
      | some (none, queue) => some ({ s with taskQueue := queue }.setPc .sizeTest)
      | some (some addr, queue) => s.take addr queue
  | _ => (s.system.step .worker).map fun system => { s with system := system }

/-- The callback returns, and `worker_async_cb` frees the block. -/
def taskReturns (s : TaskMemory A) : Option (TaskMemory A) :=
  match s.system.worker.pc with
  | .run task =>
      match s.heap task.id with
      | none => none
      | some _ => some { s.setPc .sizeTest with heap := update s.heap task.id none }
  | _ => none

/-- `xv_queue_destroy` of the task queue, with `xv_free` on every task. -/
def destroyFree (s : TaskMemory A) (fuel : Nat) : Option (TaskMemory A) :=
  match xvQueueDestroy s.taskQueue true fuel with
  | none => none
  | some done =>
      (freeAll s.heap done.called).map fun heap =>
        { s with
          heap := heap
          taskQueue := { nodes := done.nodes, head := none, tail := none, size := 0 }
          destroyed := true }

/-- The labels that have nothing to do with a task's memory. -/
def plain : WorkerLabel A → Bool
  | .call .. | .push _ | .worker | .taskReturns => false
  | .start | .send _ | .interrupt | .stop | .destroy | .destroyStop | .destroySend
  | .destroyJoin => true

def step (s : TaskMemory A) (label : TaskMemoryLabel A) : Option (TaskMemory A) :=
  if s.destroyed then none
  else
    match label with
    | .call p addr cb args =>
        match s.system.producers p, s.free addr with
        | .idle, true =>
            some { s with
              system := { s.system with
                producers := update s.system.producers p (.pushing ⟨addr, cb, args⟩) }
              heap := update s.heap addr (some ⟨cb, args⟩) }
        | _, _ => none
    | .push p addr next =>
        match s.system.producers p, s.free addr with
        | .pushing task, true =>
            (xvQueuePush s.taskQueue addr next task.id).map fun queue =>
              { s with
                system := { s.system with
                  producers := update s.system.producers p (.sending task)
                  pushed := s.system.pushed ++ [task] }
                taskQueue := queue }
        | _, _ => none
    | .worker => s.worker
    | .taskReturns => s.taskReturns
    | .destroyFree fuel =>
        if s.system.destroyer = .joined then s.destroyFree fuel else none
    | .other label =>
        if plain label then (s.system.step label).map fun system => { s with system := system }
        else none

def init : TaskMemory A :=
  { system := WorkerSystem.init, heap := fun _ => none, taskQueue := xvQueueInit, skipped := [],
    destroyed := false }

end TaskMemory

end Libxv
