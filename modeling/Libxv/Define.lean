/-
The constants of `xv_define.h`, and the sizes the service is built with.

Event types are the C `int` bit masks of the source, kept as 32-bit words because the
loop computes with them bit by bit.
-/
import Mathlib.Algebra.GroupWithZero.Nat

namespace Libxv

/-- A C `int` used as a bit set of event types. -/
abbrev EventMask := BitVec 32

def xvNone : EventMask := 0#32
def xvRead : EventMask := 1#32
def xvWrite : EventMask := 2#32

/-- The largest C `int`. -/
def intMax : Nat := 2147483647

/-- `sizeof` of a pointer. -/
def sizeofPointer : Nat := 8

/-- Return codes: `XV_OK`, `XV_AGAIN` and `XV_ERR`. -/
def xvOk : Int := 0
def xvAgain : Int := 1
def xvErr : Int := -1

theorem xvOk_ne_xvErr : xvOk ≠ xvErr := by decide

/-- `XV_DEFAULT_LOOP_SIZE`: slots in a new loop and in a new connection table. -/
def xvDefaultLoopSize : Nat := 1024

/-- `XV_DEFAULT_BUFFRT_SIZE`: bytes in a connection's new buffers. -/
def xvDefaultBufferSize : Nat := 8192

/-- `XV_DEFAULT_READ_SIZE`: the most a single `read` asks for. -/
def xvDefaultReadSize : Nat := 4096

/-- `XV_BUFFER_MOVE_CHECK_SIZE`: below this many consumed bytes a buffer is not compacted. -/
def xvBufferMoveCheckSize : Nat := 1024 * 2

end Libxv
