/-
A loop and the ios that are started and stopped on it.

`LoopUse` is a loop among the ios its users have made; a step is one call of `xv_io_start`
or `xv_io_stop`.  `Polling` adds `xv_loop_poll`, which walks through a batch of fired events
and calls the ios back; the callbacks start and stop ios of the same loop, and may so move
the batch.
-/
import Libxv.Loop

namespace Libxv

open Function

/-- An `epoll_ctl` that fails where the interest list does not fit the operation, and only
there. -/
def epollKernel : EpollCtl := fun interest op fd _ =>
  match op with
  | .add => (interest fd).isNone
  | .mod | .del => (interest fd).isSome

/-- The two directions an io can watch. -/
inductive Direction
  | read
  | write
  deriving DecidableEq

def Direction.event : Direction → EventMask
  | .read => xvRead
  | .write => xvWrite

/-- The io a slot has for a direction. -/
def EventIo.io (slot : EventIo) : Direction → Option Nat
  | .read => slot.readIo
  | .write => slot.writeIo

/-- The loop and the ios, by their addresses. -/
structure LoopUse where
  loop : Loop
  ios : Nat → Io

inductive IoCall
  | start (i : Nat)
  | stop (i : Nat)

def IoCall.io : IoCall → Nat
  | .start i | .stop i => i

/-- `xv_io_start`: its return code, and what it leaves. -/
def LoopUse.start (ctl : EpollCtl) (s : LoopUse) (i : Nat) : Int × LoopUse :=
  let (ret, loop, io) := xvIoStart ctl s.loop (s.ios i)
  (ret, { loop := loop, ios := update s.ios i io })

/-- `xv_io_stop`. -/
def LoopUse.stop (ctl : EpollCtl) (s : LoopUse) (i : Nat) : Int × LoopUse :=
  let (ret, loop, io) := xvIoStop ctl s.loop (s.ios i)
  (ret, { loop := loop, ios := update s.ios i io })

def LoopUse.call (ctl : EpollCtl) (s : LoopUse) : IoCall → Int × LoopUse
  | .start i => s.start ctl i
  | .stop i => s.stop ctl i

def LoopUse.step (ctl : EpollCtl) (s : LoopUse) (call : IoCall) : Option LoopUse :=
  some (s.call ctl call).2

/-! ### `xv_loop_poll` -/

/-- Where the thread that runs the loop is. -/
inductive PollPc
  /-- Outside `xv_loop_poll`. -/
  | idle
  /-- At the head of the for loop. -/
  | fetch (i : Nat)
  /-- At the test of `XV_READ`, or in the callback of the `read_io` it found. -/
  | read (i : Nat) (fired : FiredEvent)
  /-- The same for `XV_WRITE`. -/
  | write (i : Nat) (fired : FiredEvent)
  deriving DecidableEq

structure Polling where
  use : LoopUse
  pc : PollPc
  /-- What `xv_poller_poll` returned. -/
  count : Nat
  /-- The io whose callback is running. -/
  callback : Option Nat

inductive PollLabel
  /-- `epoll_wait` returns, with these fds and epoll events. -/
  | wait (ready : List (Nat × EventMask))
  /-- `xv_loop_poll` goes on. -/
  | poll
  /-- A call of `xv_io_start` or `xv_io_stop`. -/
  | call (call : IoCall)

/-- The entry `loop->fired_events[i]` as it is read now. -/
def Loop.firedEvent (loop : Loop) (i : Nat) : Option FiredEvent :=
  loop.blocks.fired loop.firedEvents i

/-- One step of `xv_loop_poll`.  Reading an entry that holds no fired event has no meaning. -/
def Polling.poll (s : Polling) : Option Polling :=
  match s.pc with
  | .idle => none
  | .fetch i =>
      if i < s.count then
        match s.use.loop.firedEvent i with
        | none => none
        | some fired =>
            some { s with
              pc := .read i fired
              callback :=
                if fired.event &&& xvRead ≠ 0#32 then (s.use.loop.slot fired.fd).readIo
                else none }
      else some { s with pc := .idle }
  | .read i fired =>
      some { s with
        pc := .write i fired
        callback :=
          if fired.event &&& xvWrite ≠ 0#32 then (s.use.loop.slot fired.fd).writeIo
          else none }
  | .write i _ => some { s with pc := .fetch (i + 1), callback := none }

/-- Between two polls, and in a callback, anything may be started and stopped. -/
def Polling.step (ctl : EpollCtl) (s : Polling) : PollLabel → Option Polling
  | .wait ready =>
      if s.pc = .idle ∧ ready.length ≤ s.use.loop.poller.setsize then
        let (count, blocks) := xvPollerPoll s.use.loop.blocks s.use.loop.firedEvents ready
        some { s with
          use := { s.use with loop := { s.use.loop with blocks := blocks } }
          pc := .fetch 0
          count := count }
      else none
  | .poll => s.poll
  | .call call =>
      if s.pc = .idle ∨ s.callback.isSome then some { s with use := (s.use.call ctl call).2 }
      else none

/-- The first entry of the batch that is not being dispatched yet; `none` outside a batch. -/
def PollPc.undispatched : PollPc → Option Nat
  | .idle => none
  | .fetch i => some i
  | .read i _ | .write i _ => some (i + 1)

end Libxv
