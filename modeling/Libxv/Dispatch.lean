/-
`xv_loop_poll` with callbacks that also make and destroy ios.

`Dispatch` is `Polling` with the heap the ios live in: an io is initialised at an address that
is free and destroyed when it is stopped, and what is started or stopped must be live.  All fds
are below the size of the loop, so it does not grow.  Beside the program's state it keeps what
`epoll_wait` reported for the pass, and the turns that the pass has taken.
-/
import Libxv.Poll

namespace Libxv

open Function

/-- A turn of `xv_loop_poll`: one direction of one fired event. -/
structure Turn where
  fired : FiredEvent
  direction : Direction
  /-- The slot of the fd, as it is then. -/
  slot : EventIo
  /-- The io that is called back. -/
  io : Option Nat

def Loop.turn (loop : Loop) (fired : FiredEvent) (d : Direction) : Turn :=
  { fired := fired
    direction := d
    slot := loop.slot fired.fd
    io := if fired.event &&& d.event ≠ 0#32 then (loop.slot fired.fd).io d else none }

/-- The turn that the next step of `xv_loop_poll` takes. -/
def Polling.turn (s : Polling) : Option Turn :=
  match s.pc with
  | .fetch i =>
      if i < s.count then (s.use.loop.firedEvent i).map fun fired => s.use.loop.turn fired .read
      else none
  | .read _ fired => some (s.use.loop.turn fired .write)
  | .idle | .write .. => none

structure Dispatch where
  polling : Polling
  /-- The addresses at which there is an io. -/
  live : Nat → Bool
  /-- What `epoll_wait` reported for this pass. -/
  ready : List (Nat × EventMask)
  /-- The turns of this pass. -/
  turns : List Turn

inductive DispatchLabel
  /-- `epoll_wait` returns, with these fds and epoll events. -/
  | wait (ready : List (Nat × EventMask))
  /-- `xv_loop_poll` goes on. -/
  | poll
  | start (i : Nat)
  | stop (i : Nat)
  /-- `xv_io_init`, where `malloc` returns the block at `i`. -/
  | init (i fd : Nat) (event : EventMask)
  | destroy (i : Nat)

def Dispatch.io (s : Dispatch) (i : Nat) : Io := s.polling.use.ios i

def Dispatch.loop (s : Dispatch) : Loop := s.polling.use.loop

/-- Between two polls, and in a callback, a user's code runs. -/
def Polling.UserRuns (s : Polling) : Prop := s.pc = .idle ∨ s.callback.isSome

instance (s : Polling) : Decidable s.UserRuns :=
  inferInstanceAs (Decidable (s.pc = .idle ∨ s.callback.isSome))

def Dispatch.step (ctl : EpollCtl) (s : Dispatch) : DispatchLabel → Option Dispatch
  | .wait ready =>
      if (ready.map Prod.fst).Nodup ∧ ∀ e ∈ ready, e.1 < s.loop.setsize then
        (s.polling.step ctl (.wait ready)).map fun polling =>
          { s with polling := polling, ready := ready, turns := [] }
      else none
  | .poll =>
      s.polling.poll.map fun polling =>
        { s with polling := polling, turns := s.turns ++ s.polling.turn.toList }
  | .start i =>
      if s.live i ∧ (s.io i).fd < s.loop.setsize then
        (s.polling.step ctl (.call (.start i))).map fun polling => { s with polling := polling }
      else none
  | .stop i =>
      if s.live i then
        (s.polling.step ctl (.call (.stop i))).map fun polling => { s with polling := polling }
      else none
  | .init i fd event =>
      if s.polling.UserRuns ∧ s.live i = false then
        let use := { s.polling.use with ios := update s.polling.use.ios i (xvIoInit i fd event) }
        some { s with polling := { s.polling with use := use }, live := update s.live i true }
      else none
  | .destroy i =>
      if s.polling.UserRuns ∧ s.live i then
        if xvIoDestroy (s.io i) = xvOk then some { s with live := update s.live i false }
        else some s
      else none

end Libxv
