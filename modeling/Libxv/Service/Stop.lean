/-
Stopping a running service: `xv_service_stop` of `xv_service.c`.

One thread outside the service calls `xv_service_stop` while the io threads, the workers and
the user threads go on.  It stops the listeners, then the ios of every connection it finds in
the table, then the io threads and the workers; an io thread whose loop is broken leaves
`xv_loop_run_timeout` and is joined.

The listeners themselves are not here: as long as they are not all stopped a connection may be
accepted.  Following a null pointer or touching a freed connection has undefined behaviour, and
a run ends before it.
-/
import Libxv.Service.Program

namespace Libxv

open Function

variable {P : Type}

/-- Where the thread that calls `xv_service_stop` is. -/
inductive StopPc
  /-- `xv_service_stop` has not been called. -/
  | running
  /-- Stop all listeners. -/
  | listeners
  /-- The test of `service->connections[i]`. -/
  | connTest (i : Nat)
  /-- `xv_connection_stop(service->connections[i]->io_thread->loop, service->connections[i])`. -/
  | connStop (i : Nat)
  /-- `xv_io_thread_stop(service->io_threads[i])`. -/
  | ioStop (i : Nat)
  /-- `xv_thread_pool_stop`: `xv_worker_thread_stop(pool->threads[i])`. -/
  | workerStop (i : Nat)
  | stopped
  deriving DecidableEq

/-- Some listener may still be listening. -/
def StopPc.listening : StopPc → Bool
  | .running | .listeners => true
  | _ => false

/-- A service, and the thread that stops it. -/
structure Stopping (P : Type) where
  state : State P
  pc : StopPc
  /-- The io threads that have returned from `io_thread_entry`. -/
  exited : Nat → Bool

inductive StopLabel (P : Type)
  /-- A step of the service. -/
  | run (label : Label P)
  /-- Io thread `t` finds its loop broken and returns. -/
  | exit (t : Nat)
  /-- `xv_service_stop` is called. -/
  | call
  /-- The next instruction of `xv_service_stop`. -/
  | go

/-- `xv_connection_stop(loop, conn)` on the loop of io thread `t`. -/
def State.stopConn (ctl : EpollCtl) (s : State P) (t c : Nat) : State P :=
  let (loop, conn) := xvConnectionStop ctl (s.io t).loop (s.conns c).conn
  (s.setLoop t loop).setConn c conn

/-- `xv_io_thread_stop`: stop both asyncs and break the loop. -/
def State.stopIoThread (s : State P) (t : Nat) : State P :=
  { s with
    io := update s.io t { s.io t with asyncStart := false, loop := xvLoopBreak (s.io t).loop } }

def State.stopWorker (s : State P) (i : Nat) : State P :=
  s.setWorker i (xvWorkerThreadStop (s.workers i))

/-- The thread a label moves has not returned, and nothing is accepted once the listeners are
closed. -/
def Stopping.admits (x : Stopping P) : Label P → Bool
  | .act (.io t) (.accept ..) => !x.exited t && x.pc.listening
  | .act (.io t) _ => !x.exited t
  | _ => true

/-- The next instruction of `xv_service_stop`. -/
def xvServiceStop (cfg : Config) (ctl : EpollCtl) (s : State P) :
    StopPc → Option (State P × StopPc)
  | .running | .stopped => none
  | .listeners => some (s, .connTest 0)
  | .connTest i =>
      if i < s.table.setsize then
        match s.table.slots i with
        | none => some (s, .connTest (i + 1))
        | some _ => some (s, .connStop i)
      else some (s, .ioStop 0)
  | .connStop i =>
      -- The slot is read again, and another thread may have changed it.
      match s.table.slots i with
      | none => none
      | some c =>
          if !s.alive c then none
          else
            match (s.conns c).conn.ioThread with
            | none => none
            | some t => some (s.stopConn ctl t c, .connTest (i + 1))
  | .ioStop i =>
      if i < cfg.ioThreadCount then some (s.stopIoThread i, .ioStop (i + 1))
      else some (s, .workerStop 0)
  | .workerStop i =>
      if i < cfg.workerThreadCount then some (s.stopWorker i, .workerStop (i + 1))
      else some (s, .stopped)

def Stopping.step (cfg : Config) (ctl : EpollCtl) (x : Stopping P) :
    StopLabel P → Option (Stopping P)
  | .run label =>
      if x.admits label then
        (x.state.step cfg ctl label).map fun state => { x with state := state }
      else none
  | .exit t =>
      match x.state.pc (.io t) with
      | .poll =>
          if t < cfg.ioThreadCount ∧ !x.exited t ∧ !(x.state.io t).loop.start then
            some { x with exited := update x.exited t true }
          else none
      | _ => none
  | .call => if x.pc = .running then some { x with pc := .listeners } else none
  | .go =>
      (xvServiceStop cfg ctl x.state x.pc).map fun next =>
        { x with state := next.1, pc := next.2 }

/-- The service as `xv_service_start` leaves it. -/
def Stopping.init : Stopping P :=
  { state := .init, pc := .running, exited := fun _ => false }

/-- The service is stopped and its io threads are joined. -/
def Stopping.Joined (cfg : Config) (x : Stopping P) : Prop :=
  x.pc = .stopped ∧ ∀ t, t < cfg.ioThreadCount → x.exited t = true

end Libxv
