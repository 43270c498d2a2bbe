/-
`xv_async_t`, and the event counter behind it.

An async is an eventfd watched for reading: `xv_async_send` adds one to the counter, and
`common_async_cb` reads it, which sets it back to zero, before it calls the async's own
callback.  The counter saturates: at its maximum a non-blocking write fails and leaves it
where it is, which `xv_async_send` reports and its callers ignore.
-/
import Libxv.Loop

namespace Libxv

/-- `xv_async_t`, as the loop knows it: an io that watches the eventfd. -/
structure Async where
  evfd : Nat
  readIo : Io

/-- `xv_async_init`, for an eventfd that could be made; the io gets the number `id`. -/
def xvAsyncInit (id evfd : Nat) : Async := { evfd := evfd, readIo := xvIoInit id evfd xvRead }

def xvAsyncStart (ctl : EpollCtl) (loop : Loop) (async : Async) : Int × Loop × Async :=
  let (ret, loop, io) := xvIoStart ctl loop async.readIo
  (ret, loop, { async with readIo := io })

def xvAsyncDestroy (async : Async) : Int := xvIoDestroy async.readIo

/-- The largest value an eventfd counter can hold. -/
def eventfdMax : Nat := 2 ^ 64 - 2

/-- `eventfd_write` of one, as `xv_async_send` does it: the return code and the counter. -/
def xvAsyncSend (counter : Nat) : Int × Nat :=
  if counter < eventfdMax then (xvOk, counter + 1) else (xvErr, counter)

/-- `eventfd_read`: the value read and the counter afterwards. -/
def eventfdRead (counter : Nat) : Nat × Nat := (counter, 0)

/-- After a send, successful or not, the counter is positive. -/
theorem xvAsyncSend_pos (counter : Nat) : 0 < (xvAsyncSend counter).2 := by
  unfold xvAsyncSend
  split
  · exact Nat.succ_pos counter
  · rename_i h
    exact Nat.lt_of_lt_of_le (by decide : 0 < eventfdMax) (Nat.le_of_not_lt h)

end Libxv
