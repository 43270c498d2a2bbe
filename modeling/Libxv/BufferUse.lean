/-
The calls a user makes on a buffer.

A step is one call of `xv_buffer.c`, or a store at `xv_buffer_write_begin` with the
`xv_buffer_incr_write_index` that follows it.  A caller does not store past the block, nor
advance an index past what is readable or writeable.
-/
import Libxv.Buffer

namespace Libxv

open Memory

inductive BufferCall
  | writeData (src : List UInt8)
  | readData (len : Nat)
  | ensureWriteableSize (validSize : Nat)
  /-- `src` is stored at `xv_buffer_write_begin`, then `xv_buffer_incr_write_index(n)`. -/
  | store (src : List UInt8) (n : Nat)
  | incrReadIndex (n : Nat)
  | clear

def Buffer.step (buffer : Buffer) : BufferCall → Option Buffer
  | .writeData src => some (xvBufferWriteData buffer src)
  | .readData len => some (xvBufferReadData buffer len).2
  | .ensureWriteableSize validSize => some (xvBufferEnsureWriteableSize buffer validSize)
  | .store src n =>
      if src.length ≤ xvBufferWriteableSize buffer ∧ n ≤ xvBufferWriteableSize buffer then
        some (xvBufferIncrWriteIndex (storeAtWriteBegin buffer src) n)
      else none
  | .incrReadIndex n =>
      if n ≤ xvBufferReadableSize buffer then some (xvBufferIncrReadIndex buffer n) else none
  | .clear => some (xvBufferClear buffer)

/-- A buffer that `xv_buffer_init` has just made. -/
def Buffer.New (size : Nat) (buffer : Buffer) : Prop :=
  ∃ mem, buffer = xvBufferInit size mem

/-- The `n` bytes from `xv_buffer_write_begin` on, once `src` is stored there. -/
def Buffer.stored (buffer : Buffer) (src : List UInt8) (n : Nat) : List UInt8 :=
  load (storeAtWriteBegin buffer src).buf buffer.writeIdx n

end Libxv
