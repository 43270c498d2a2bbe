/-
What becomes of the messages that go through an io thread's queue, and of their bytes.

A worker that has processed a message and a user thread that sends one push it to the
`message_queue` of the connection's io thread, which answers it in `process_message`, or
drops it when the connection has been closed.  What `encode` appends goes to the socket there
or in `on_connection_write`.  `State.delivers` says which of these a step does; nothing here
is part of a step.
-/
import Libxv.Service.Program
import Libxv.Lib.Trace

namespace Libxv

open Transition

variable {P : Type}

inductive Delivery
  /-- Thread `a` has pushed the message. -/
  | pushed (a : Agent) (c m : Nat)
  /-- `process_message` has run on it and appended `bytes` to `write_buffer`; the socket took
  `accepted`. -/
  | answered (origin : Origin) (c m : Nat) (bytes accepted : List UInt8)
  /-- It came back to a closed connection. -/
  | dropped (c m : Nat)
  /-- `on_connection_write` has run, and the socket took `accepted`. -/
  | wrote (c : Nat) (accepted : List UInt8)

def Delivery.conn : Delivery → Nat
  | .pushed _ c _ | .answered _ c _ _ _ | .dropped c _ | .wrote c _ => c

/-- What the next instruction of a thread does to a message. -/
def State.deliversAt (ctl : EpollCtl) (s : State P) : Agent → Pc P → Act P → Option Delivery
  | a, .taskPush _ m, _ | a, .sendPush _ m, _ => some (.pushed a (s.msgs m).conn m)
  | .io t, .respond m origin, .respond pieces out =>
      let c := (s.msgs m).conn
      let sent := Libxv.processMessage ctl (s.io t).loop (s.conns c).conn (s.msgs m).response
        pieces out
      some (.answered origin c m sent.encoded sent.accepted)
  | .io _, .returned m, _ =>
      let c := (s.msgs m).conn
      if (s.conns c).conn.status = .closed then some (.dropped c m) else none
  | .io t, .poll, .write fd out =>
      (((s.io t).loop.slot fd).writeIo).map fun c =>
        .wrote c (Libxv.onConnectionWrite ctl (s.io t).loop (s.conns c).conn out).accepted
  | _, _, _ => none

def State.delivers (ctl : EpollCtl) (s : State P) : Label P → Option Delivery
  | .act a act => s.deliversAt ctl a (s.pc a) act
  | .incrRef _ | .decrRef _ => none

/-- The service with a record of its deliveries. -/
abbrev Delivering (cfg : Config) (ctl : EpollCtl) :
    Traced (State P) Delivery → Label P → Option (Traced (State P) Delivery) :=
  traced (State.step cfg ctl) (State.delivers ctl)

/-! ### The record of one connection -/

/-- The messages that have been pushed on connection `c`. -/
def pushedOn (c : Nat) (trace : List Delivery) : List Nat :=
  trace.filterMap fun
    | .pushed _ c' m => if c' = c then some m else none
    | _ => none

/-- The messages of connection `c` that came back and were answered. -/
def answeredOn (c : Nat) (trace : List Delivery) : List Nat :=
  trace.filterMap fun
    | .answered .returned c' m _ _ => if c' = c then some m else none
    | _ => none

/-- The messages of connection `c` that came back after it was closed. -/
def droppedOn (c : Nat) (trace : List Delivery) : List Nat :=
  trace.filterMap fun
    | .dropped c' m => if c' = c then some m else none
    | _ => none

/-- The bytes that the answers on connection `c` have appended. -/
def encodedOn (c : Nat) (trace : List Delivery) : List UInt8 :=
  trace.flatMap fun
    | .answered _ c' _ bytes _ => if c' = c then bytes else []
    | _ => []

/-- The bytes that the socket of connection `c` has taken. -/
def acceptedOn (c : Nat) (trace : List Delivery) : List UInt8 :=
  trace.flatMap fun
    | .answered _ c' _ _ accepted | .wrote c' accepted => if c' = c then accepted else []
    | _ => []

/-- The messages that have been pushed. -/
def pushes (trace : List Delivery) : List Nat :=
  trace.filterMap fun
    | .pushed _ _ m => some m
    | _ => none

/-- The messages that user thread `u` has pushed. -/
def sentBy (u : Nat) (trace : List Delivery) : List Nat :=
  trace.filterMap fun
    | .pushed a _ m => if a = .sender u then some m else none
    | _ => none

/-- The messages that user thread `u` has pushed on connection `c`. -/
def sentOn (u c : Nat) (trace : List Delivery) : List Nat :=
  trace.filterMap fun
    | .pushed a c' m => if a = .sender u ∧ c' = c then some m else none
    | _ => none

end Libxv
