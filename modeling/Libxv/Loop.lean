/-
The event loop of `xv.c` over the epoll poller of `xv_epoll.c`.

A loop keeps, for every fd below its `setsize`, the mask of registered events and the
`xv_io_t` of each direction; the kernel keeps its own interest list.  Starting or
stopping an io writes the io's flag, then the slot, and only then asks the kernel with
`epoll_ctl`, choosing ADD, MOD or DEL from the mask the slot held before.

The outcome of `epoll_ctl` is the world's: `EpollCtl` answers whether a call succeeds.
Heap blocks are known by a number, so that the blocks `xv_loop_resize` reallocates can
be told apart, and hold the fired events that were written into them.
-/
import Libxv.Define
import Mathlib.Logic.Function.Basic

namespace Libxv

open Function

/-- `xv_io_t`.  The number stands for the object's address. -/
structure Io where
  id : Nat
  fd : Nat
  event : EventMask
  start : Bool
  deriving DecidableEq

/-- `xv_event_io_t`: one slot of `loop->events`. -/
structure EventIo where
  event : EventMask
  readIo : Option Nat
  writeIo : Option Nat
  deriving DecidableEq

inductive EpollOp
  | add
  | mod
  | del
  deriving DecidableEq

/-- The kernel's interest list: the epoll events asked for on each fd. -/
abbrev Interest := Nat → Option EventMask

def epollIn : EventMask := 1#32
def epollOut : EventMask := 4#32
def epollErr : EventMask := 8#32
def epollHup : EventMask := 16#32

/-- Whether an `epoll_ctl` call succeeds. -/
abbrev EpollCtl := Interest → EpollOp → Nat → EventMask → Bool

/-- `epoll_ctl(2)`: the interest list afterwards, or `none` when the call fails. -/
def epollCtl (ctl : EpollCtl) (interest : Interest) (op : EpollOp) (fd : Nat)
    (events : EventMask) : Option Interest :=
  if ctl interest op fd events then
    match op with
    | .add | .mod => some (update interest fd (some events))
    | .del => some (update interest fd none)
  else none

/-- `xv_poller_data_t`. -/
structure Poller where
  interest : Interest
  setsize : Nat

def xvPollerResize (data : Poller) (setsize : Nat) : Poller :=
  { data with setsize := setsize }

def xvPollerModifyEvent (ctl : EpollCtl) (data : Poller) (fd : Nat) (mask : EventMask)
    (op : EpollOp) : Int × Poller :=
  let events : EventMask := 0#32
  let events := if mask &&& xvRead ≠ 0#32 then events ||| epollIn else events
  let events := if mask &&& xvWrite ≠ 0#32 then events ||| epollOut else events
  match epollCtl ctl data.interest op fd events with
  | none => (xvErr, data)
  | some interest => (xvOk, { data with interest := interest })

def xvPollerAddEvent (ctl : EpollCtl) (data : Poller) (fd : Nat) (oldEvent event : EventMask) :
    Int × Poller :=
  if oldEvent ≠ xvNone then xvPollerModifyEvent ctl data fd (event ||| oldEvent) .mod
  else xvPollerModifyEvent ctl data fd event .add

def xvPollerDelEvent (ctl : EpollCtl) (data : Poller) (fd : Nat) (oldEvent event : EventMask) :
    Int × Poller :=
  let mask := oldEvent &&& ~~~event
  if mask ≠ xvNone then xvPollerModifyEvent ctl data fd mask .mod
  else xvPollerModifyEvent ctl data fd event .del

/-! ### The heap -/

/-- `xv_fired_event_t`. -/
structure FiredEvent where
  fd : Nat
  event : EventMask
  deriving DecidableEq

/-- The blocks of the heap: how many entries a live block has, `none` once it is freed, and
the fired events a block holds, `none` where none was written. -/
structure Blocks where
  entries : Nat → Option Nat
  fired : Nat → Nat → Option FiredEvent
  next : Nat

/-- `malloc`: a block that was not in use. -/
def Blocks.malloc (blocks : Blocks) (n : Nat) : Nat × Blocks :=
  (blocks.next,
    { entries := update blocks.entries blocks.next (some n)
      fired := update blocks.fired blocks.next fun _ => none
      next := blocks.next + 1 })

/-- `realloc`: the old block is retired and a new one of the size asked for is returned, with
what the old one held. -/
def Blocks.realloc (blocks : Blocks) (block n : Nat) : Nat × Blocks :=
  let (fresh, moved) := blocks.malloc n
  (fresh,
    { moved with
      entries := update moved.entries block none
      fired := update moved.fired fresh (blocks.fired block) })

/-- The event `xv_poller_poll` stores for what `epoll_wait` reports. -/
def FiredEvent.ofEpoll (fd : Nat) (events : EventMask) : FiredEvent :=
  let event := xvNone
  let event := if events &&& epollIn ≠ 0#32 then event ||| xvRead else event
  let event := if events &&& epollOut ≠ 0#32 then event ||| xvWrite else event
  let event := if events &&& epollHup ≠ 0#32 then event ||| xvWrite else event
  let event := if events &&& epollErr ≠ 0#32 then event ||| xvWrite else event
  { fd := fd, event := event }

/-- `xv_poller_poll`, where `epoll_wait` reports `ready`: the count, and the fired events
written into the block. -/
def xvPollerPoll (blocks : Blocks) (firedEvents : Nat) (ready : List (Nat × EventMask)) :
    Nat × Blocks :=
  let entry i := (ready[i]?.map fun (fd, events) => .ofEpoll fd events).orElse fun _ =>
    blocks.fired firedEvents i
  (ready.length, { blocks with fired := update blocks.fired firedEvents entry })

/-! ### The loop -/

/-- `xv_loop_t`.  `events` and `firedEvents` name the blocks the two pointers hold; the
slots themselves are `slot`. -/
structure Loop where
  poller : Poller
  blocks : Blocks
  events : Nat
  slot : Nat → EventIo
  firedEvents : Nat
  setsize : Nat
  start : Bool

/-- A slot with nothing registered. -/
def EventIo.empty : EventIo := { event := xvNone, readIo := none, writeIo := none }

def xvLoopInit (setsize : Nat) : Loop :=
  let blocks : Blocks := { entries := fun _ => none, fired := fun _ _ => none, next := 0 }
  let (events, blocks) := blocks.malloc setsize
  let (firedEvents, blocks) := blocks.malloc setsize
  { poller := { interest := fun _ => none, setsize := setsize }
    blocks := blocks
    events := events
    slot := fun _ => .empty
    firedEvents := firedEvents
    setsize := setsize
    start := true }

/-- `xv_loop_resize`.  The third `realloc` is given `loop->events`, as in the source. -/
def xvLoopResize (loop : Loop) (setsize : Nat) : Loop :=
  if setsize ≤ loop.setsize then loop
  else
    let poller := xvPollerResize loop.poller setsize
    let (events, blocks) := loop.blocks.realloc loop.events setsize
    let slot := fun i => if loop.setsize ≤ i ∧ i < setsize then .empty else loop.slot i
    let (firedEvents, blocks) := blocks.realloc events setsize
    { loop with
      poller := poller
      blocks := blocks
      events := events
      slot := slot
      firedEvents := firedEvents
      setsize := setsize }

/-- The lines of `xv_loop_add_event` that write the slot. -/
def EventIo.add (slot : EventIo) (io : Io) : EventIo :=
  { event := slot.event ||| io.event
    readIo := if io.event &&& xvRead ≠ 0#32 then some io.id else slot.readIo
    writeIo := if io.event &&& xvWrite ≠ 0#32 then some io.id else slot.writeIo }

/-- The lines of `xv_loop_del_event` that write the slot. -/
def EventIo.del (slot : EventIo) (io : Io) : EventIo :=
  if io.event &&& xvRead ≠ 0#32 then
    { slot with event := slot.event &&& ~~~io.event, readIo := none }
  else if io.event &&& xvWrite ≠ 0#32 then
    { slot with event := slot.event &&& ~~~io.event, writeIo := none }
  else { slot with event := slot.event &&& ~~~io.event }

def xvLoopAddEvent (ctl : EpollCtl) (loop : Loop) (io : Io) : Int × Loop :=
  -- `xv_loop_resize` has no failing path, so its `XV_ERR` branch is not reached.
  let loop := if io.fd ≥ loop.setsize then xvLoopResize loop (loop.setsize * 2) else loop
  if io.event ≠ xvRead ∧ io.event ≠ xvWrite then (xvErr, loop)
  else
    let oldEvent := (loop.slot io.fd).event
    let loop := { loop with slot := update loop.slot io.fd ((loop.slot io.fd).add io) }
    let (ret, poller) := xvPollerAddEvent ctl loop.poller io.fd oldEvent io.event
    (if ret = xvErr then xvErr else xvOk, { loop with poller := poller })

def xvLoopDelEvent (ctl : EpollCtl) (loop : Loop) (io : Io) : Int × Loop :=
  if io.fd ≥ loop.setsize then (xvErr, loop)
  else if io.event ≠ xvRead ∧ io.event ≠ xvWrite then (xvErr, loop)
  else
    let oldEvent := (loop.slot io.fd).event
    let loop := { loop with slot := update loop.slot io.fd ((loop.slot io.fd).del io) }
    let (ret, poller) := xvPollerDelEvent ctl loop.poller io.fd oldEvent io.event
    (ret, { loop with poller := poller })

def xvLoopBreak (loop : Loop) : Loop := { loop with start := false }

/-! ### `xv_io_t` -/

def xvIoInit (id fd : Nat) (event : EventMask) : Io :=
  { id := id, fd := fd, event := event, start := false }

def xvIoStart (ctl : EpollCtl) (loop : Loop) (io : Io) : Int × Loop × Io :=
  if io.start then (xvErr, loop, io)
  else
    let io := { io with start := true }
    let (ret, loop) := xvLoopAddEvent ctl loop io
    (ret, loop, io)

def xvIoStop (ctl : EpollCtl) (loop : Loop) (io : Io) : Int × Loop × Io :=
  if !io.start then (xvErr, loop, io)
  else
    let io := { io with start := false }
    let (ret, loop) := xvLoopDelEvent ctl loop io
    (ret, loop, io)

/-- `xv_io_destroy`: the return code; the io is freed where it is `XV_OK`. -/
def xvIoDestroy (io : Io) : Int := if io.start then xvErr else xvOk

end Libxv
