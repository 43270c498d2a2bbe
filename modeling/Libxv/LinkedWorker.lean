/-
A worker thread over the linked queue of `xv_queue.c`.

`WorkerSystem` takes the worker's task queue as a list.  Here the three places that touch it,
`xv_worker_thread_push_task`, the size test and the pop of `worker_async_cb`, go to the queue
as it is in memory, each as one critical section of its mutex; everything else is
`WorkerSystem`'s.
-/
import Libxv.Queue
import Libxv.WorkerThread

namespace Libxv

open Function

variable {A : Type}

/-- The list in `system.worker.taskQueue` is not used. -/
structure LinkedSystem (A : Type) where
  system : WorkerSystem A
  taskQueue : Queue (Task A)

inductive LinkedLabel (A : Type)
  /-- Producer `p` takes the mutex and pushes; the node is at `addr`, and `next` is what the
  block happens to hold. -/
  | push (p addr : Nat) (next : Option Nat)
  | other (label : WorkerLabel A)

def WorkerSystem.setPc (s : WorkerSystem A) (pc : WorkerPc A) : WorkerSystem A :=
  { s with worker := { s.worker with pc := pc } }

/-- The worker's next step. -/
def LinkedSystem.worker (s : LinkedSystem A) : Option (LinkedSystem A) :=
  match s.system.worker.pc with
  | .sizeTest =>
      some { s with
        system := s.system.setPc (if xvQueueSize s.taskQueue > 0 then .pop else .flagTest) }
  | .pop =>
      (xvQueuePop s.taskQueue).map fun (data, queue) =>
        match data with
        | some task =>
            if task.cb then
              { system := { s.system.setPc (.run task) with invoked := s.system.invoked ++ [task] }
                taskQueue := queue }
            else { system := s.system.setPc .sizeTest, taskQueue := queue }
        | none => { system := s.system.setPc .sizeTest, taskQueue := queue }
  | _ => (s.system.step .worker).map fun system => { s with system := system }

def LinkedSystem.step (s : LinkedSystem A) : LinkedLabel A → Option (LinkedSystem A)
  | .push p addr next =>
      match s.system.producers p, s.taskQueue.nodes addr with
      | .pushing task, none =>
          (xvQueuePush s.taskQueue addr next task).map fun queue =>
            { system := { s.system with
                producers := update s.system.producers p (.sending task)
                pushed := s.system.pushed ++ [task] }
              taskQueue := queue }
      | _, _ => none
  | .other (.push _) => none
  | .other .worker => s.worker
  | .other label => (s.system.step label).map fun system => { s with system := system }

def LinkedSystem.init : LinkedSystem A :=
  { system := WorkerSystem.init, taskQueue := xvQueueInit }

end Libxv
