/-
What the service calls on a connection.

The callbacks of the user's handle, the adoption by an io thread and the release: a step of
the service makes at most one such call, and `State.calls` says which.  Nothing here is part
of a step; it reads off the instruction what the instruction does.
-/
import Libxv.Service.Program
import Libxv.Lib.Trace

namespace Libxv

open Transition

variable {P : Type}

inductive Call
  /-- `handle->on_connect`. -/
  | onConnect
  /-- `io_thread` is set and `read_io` started. -/
  | adopt
  /-- `handle->decode`. -/
  | decode
  /-- `handle->encode`. -/
  | encode
  /-- `handle->on_disconnect`. -/
  | onDisconnect
  /-- `xv_connection_destroy`. -/
  | release
  deriving DecidableEq

/-- Thread `agent` makes a call on a connection. -/
structure Event where
  agent : Agent
  conn : Nat
  call : Call
  deriving DecidableEq

/-- What `on_connection_read` and `process_read_buffer` call. -/
def State.readCalls (s : State P) (c : Nat) (out : ReadOut) : Option (Nat × Call) :=
  let handle := (s.conns c).conn.handle
  match Libxv.onConnectionRead (s.conns c).conn out with
  | (_, .process) => if handle.decode && handle.process then some (c, .decode) else none
  | (_, .back) | (_, .close) => none

/-- What the next instruction of io thread `t` calls. -/
def State.ioCalls (cfg : Config) (s : State P) (t : Nat) : Pc P → Act P → Option (Nat × Call)
  | .addConnection c, .table _ =>
      if (s.conns c).conn.handle.onConnect then some (c, .onConnect) else none
  | .assign c, .go => if cfg.ioThreadCount = 1 then some (c, .adopt) else none
  | .adopt c, .go => some (c, .adopt)
  | .poll, .read fd out _ =>
      match ((s.io t).loop.slot fd).readIo with
      | none => none
      | some c => s.readCalls c out
  | .respond m _, .respond _ _ =>
      let c := (s.msgs m).conn
      if (s.msgs m).response.isSome && (s.conns c).conn.handle.encode then some (c, .encode)
      else none
  | .close c _, .go =>
      if (s.conns c).conn.status ≠ .closed ∧ (s.conns c).conn.handle.onDisconnect then
        some (c, .onDisconnect)
      else none
  | .closeFree c _, .go => some (c, .release)
  | .freeReturned c, .go => some (c, .release)
  | _, _ => none

/-- What a step calls.  Workers and user threads make none of these calls. -/
def State.calls (cfg : Config) (s : State P) : Label P → Option Event
  | .act (.io t) act =>
      (s.ioCalls cfg t (s.pc (.io t)) act).map fun (c, call) =>
        { agent := .io t, conn := c, call := call }
  | .act (.worker _) _ | .act (.sender _) _ | .incrRef _ | .decrRef _ => none

/-- The service and the calls it has made. -/
abbrev Recorded (P : Type) := Traced (State P) Event

/-- The service as `xv_service_start` leaves it, with nothing called. -/
abbrev Recorded.Start : Recorded P → Prop := Traced.Start (· = State.init)

def Recorded.step (cfg : Config) (ctl : EpollCtl) : Recorded P → Label P → Option (Recorded P) :=
  traced (State.step cfg ctl) (State.calls cfg)

def Recorded.init : Recorded P := { state := State.init, trace := [] }

theorem Recorded.init_start : (Recorded.init : Recorded P).Start := ⟨rfl, rfl⟩

end Libxv
