/-
Destroying a stopped service: `xv_service_destroy` of `xv_service.c`.

By the time it is called the service is stopped and its io threads are joined, so its own call
of `xv_service_stop` returns at once.  It frees the listeners, the connections in the table, the
io threads with what is left in their queues, and last the worker threads, which it stops and
joins only then.

Freed memory does not end a run here: what is done to it is what is put down.  A read of it
returns what was there.  `xv_queue_destroy` stops after the last node here; in the source it does
so when that node's `next` holds NULL (`Proofs/QueueDestroy.lean`), or when the queue is empty.
-/
import Libxv.Service.Stop
import Libxv.Lib.Run

namespace Libxv

open Function Transition

variable {P : Type}

/-- Where `xv_service_destroy` is. -/
inductive DestroyPc
  /-- The test of `service->connections[i]`. -/
  | conns (i : Nat)
  /-- `xv_io_thread_destroy(service->io_threads[t])`: the next connection of `conn_queue`. -/
  | connQueue (t : Nat)
  /-- `xv_io_thread_destroy(service->io_threads[t])`: the next message of `message_queue`. -/
  | messageQueue (t : Nat)
  /-- `xv_thread_pool_destroy`: its `xv_thread_pool_stop`. -/
  | poolStop (i : Nat)
  /-- `xv_worker_thread_destroy(pool->threads[i])`: its `xv_worker_thread_stop`. -/
  | workerStop (i : Nat)
  /-- `xv_worker_thread_destroy(pool->threads[i])`: `xv_async_send`. -/
  | workerSend (i : Nat)
  /-- `xv_worker_thread_destroy(pool->threads[i])`: `pthread_join`. -/
  | workerJoin (i : Nat)
  | returned
  deriving DecidableEq

/-- The service has only its workers left. -/
def DestroyPc.pooling : DestroyPc → Bool
  | .conns _ | .connQueue _ | .messageQueue _ => false
  | _ => true

/-- A call of `xv_message_destroy`: whether it was given the `packet_cleanup` of the handle of
the message's connection, and whether that connection was still allocated. -/
structure Destruction where
  message : Nat
  own : Bool
  alive : Bool
  deriving DecidableEq

/-- A worker's push to a `message_queue`, and whether the queue had been destroyed. -/
structure Push where
  ioThread : Nat
  message : Nat
  gone : Bool
  deriving DecidableEq

structure Destroying (P : Type) where
  /-- The service as `xv_service_destroy` finds it. -/
  entered : State P
  state : State P
  pc : DestroyPc
  /-- The io threads whose `message_queue` has been destroyed. -/
  gone : Nat → Bool
  /-- The connections `xv_connection_destroy` was called with. -/
  freed : List Nat
  destroyed : List Destruction
  pushes : List Push

inductive DestroyLabel (P : Type)
  /-- A worker goes on. -/
  | worker (i : Nat) (act : Act P)
  /-- The next instruction of `xv_service_destroy`.  `xv_queue_destroy` calls
  `xv_message_destroy` with one argument; `own` says whether the second one happens to be the
  `packet_cleanup` of the handle of the message's connection. -/
  | go (own : Bool)

/-- `xv_message_destroy` with a cleanup callback or without one. -/
def State.xvMessageDestroyWith (s : State P) (m : Nat) (cleanup : Bool) : State P :=
  let message := s.msgs m
  let request := if cleanup && message.request.isSome then 1 else 0
  let response := if cleanup && message.response.isSome then 1 else 0
  let s := s.addRef message.conn (-1)
  { s with
    msgs := update s.msgs m
      { message with
        cleanedRequest := message.cleanedRequest + request
        cleanedResponse := message.cleanedResponse + response
        destroyed := message.destroyed + 1 } }

example (s : State P) (m : Nat) :
    s.xvMessageDestroyWith m (s.conns (s.msgs m).conn).conn.handle.packetCleanup =
      s.xvMessageDestroy m := rfl

/-- The connection of a message. -/
def State.connOf (s : State P) (m : Nat) : Connection := s.conns (s.msgs m).conn

/-- The next instruction of `xv_service_destroy`. -/
def xvServiceDestroy (cfg : Config) (x : Destroying P) (own : Bool) : Option (Destroying P) :=
  match x.pc with
  | .conns i =>
      if i < x.state.table.setsize then
        match x.state.table.slots i with
        | none => some { x with pc := .conns (i + 1) }
        | some c =>
            some { x with
              state := x.state.freeConn c, freed := x.freed ++ [c], pc := .conns (i + 1) }
      else some { x with pc := .connQueue 0 }
  | .connQueue t =>
      if t < cfg.ioThreadCount then
        match (x.state.io t).connQueue with
        | [] => some { x with pc := .messageQueue t }
        | c :: _ =>
            some { x with state := (x.state.popConn t).freeConn c, freed := x.freed ++ [c] }
      else some { x with pc := .poolStop 0 }
  | .messageQueue t =>
      match (x.state.io t).messageQueue with
      | [] => some { x with gone := update x.gone t true, pc := .connQueue (t + 1) }
      | m :: _ =>
          let cleanup := own && (x.state.connOf m).conn.handle.packetCleanup
          some { x with
            state := (x.state.popMessage t).xvMessageDestroyWith m cleanup
            destroyed := x.destroyed ++ [⟨m, own, x.state.alive (x.state.msgs m).conn⟩] }
  | .poolStop i =>
      if i < cfg.workerThreadCount then
        some { x with state := x.state.stopWorker i, pc := .poolStop (i + 1) }
      else some { x with pc := .workerStop 0 }
  | .workerStop i =>
      if i < cfg.workerThreadCount then
        some { x with state := x.state.stopWorker i, pc := .workerSend i }
      else some { x with pc := .returned }
  | .workerSend i =>
      some { x with
        state := x.state.setWorker i (x.state.workers i).send, pc := .workerJoin i }
  | .workerJoin i =>
      -- The tasks left in `task_queue` are freed with it, the messages they name are not.
      if (x.state.workers i).pc.hasExited then some { x with pc := .workerStop (i + 1) }
      else none
  | .returned => none

/-- The push a worker is about to make. -/
def Destroying.pushed (x : Destroying P) (i : Nat) : List Push :=
  match x.state.pc (.worker i) with
  | .taskPush t m => [⟨t, m, x.gone t⟩]
  | _ => []

def Destroying.step (cfg : Config) (x : Destroying P) : DestroyLabel P → Option (Destroying P)
  | .worker i act =>
      if i < cfg.workerThreadCount then
        (workerStep x.state i (x.state.pc (.worker i)) act).map fun next =>
          { x with
            state := next.1.goto (.worker i) next.2
            pushes := x.pushes ++ x.pushed i }
      else none
  | .go own => xvServiceDestroy cfg x own

/-- `xv_service_destroy` is called on this service. -/
def Destroying.enter (s : State P) : Destroying P :=
  { entered := s, state := s, pc := .conns 0, gone := fun _ => false, freed := [],
    destroyed := [], pushes := [] }

/-- The calls of `xv_service_destroy`: on any service that is stopped and whose io threads are
joined. -/
def Destroying.Start (cfg : Config) (ctl : EpollCtl) (x : Destroying P) : Prop :=
  ∃ y, Reachable (Stopping.step cfg ctl) (· = Stopping.init) y ∧ y.Joined cfg ∧
    x = .enter y.state

end Libxv
