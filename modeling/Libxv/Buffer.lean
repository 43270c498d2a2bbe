/-
The byte buffer of `xv_buffer.c`.

A buffer is one block with a read and a write index; the bytes between the two are
the content.  Each definition follows the C function of the same name.  Indices are
natural numbers: the callers modelled here never advance an index past the other or
past the size, and a `Buffer.WF` buffer stays one under each of the calls they make
(`Proofs/Buffer.lean`).

The C functions compute sizes and indices as ints.  That `size + valid_size` may not fit one
is left out here, so a growth always succeeds; only `Proofs/ReadPath.lean` looks at it.
-/
import Libxv.Define
import Libxv.Lib.Memory

namespace Libxv

open Memory

/-- `xv_buffer_t`. -/
structure Buffer where
  buf : Nat → UInt8
  size : Nat
  readIdx : Nat
  writeIdx : Nat

/-- `0 <= read_idx <= write_idx <= size`, as the picture in `xv_buffer.h` has it. -/
structure Buffer.WF (buffer : Buffer) : Prop where
  read_le : buffer.readIdx ≤ buffer.writeIdx
  write_le : buffer.writeIdx ≤ buffer.size

/-- A fresh block holds whatever `malloc` found there. -/
def xvBufferInit (size : Nat) (mem : Nat → UInt8) : Buffer :=
  { buf := mem, size := size, readIdx := 0, writeIdx := 0 }

def xvBufferClear (buffer : Buffer) : Buffer :=
  { buffer with readIdx := 0, writeIdx := 0 }

def xvBufferReadableSize (buffer : Buffer) : Nat :=
  buffer.writeIdx - buffer.readIdx

def xvBufferWriteableSize (buffer : Buffer) : Nat :=
  buffer.size - buffer.writeIdx

/-- Reset the indices of an empty buffer, or move the content to the front. -/
def xvBufferTryMove (buffer : Buffer) : Buffer :=
  let nread := xvBufferReadableSize buffer
  let buffer := if nread = 0 then { buffer with readIdx := 0, writeIdx := 0 } else buffer
  if buffer.readIdx > buffer.size / 2 ∧ buffer.readIdx > xvBufferMoveCheckSize then
    let nread := xvBufferReadableSize buffer
    { buffer with buf := move buffer.buf buffer.readIdx nread, readIdx := 0, writeIdx := nread }
  else buffer

def xvBufferEnsureWriteableSize (buffer : Buffer) (validSize : Nat) : Buffer :=
  if xvBufferWriteableSize buffer < validSize then
    { buffer with size := buffer.size + validSize }
  else buffer

def xvBufferIncrReadIndex (buffer : Buffer) (size : Nat) : Buffer :=
  xvBufferTryMove { buffer with readIdx := buffer.readIdx + size }

def xvBufferIncrWriteIndex (buffer : Buffer) (size : Nat) : Buffer :=
  { buffer with writeIdx := buffer.writeIdx + size }

/-- The caller's own store at `xv_buffer_write_begin`. -/
def storeAtWriteBegin (buffer : Buffer) (src : List UInt8) : Buffer :=
  { buffer with buf := store buffer.buf buffer.writeIdx src }

def xvBufferReadData (buffer : Buffer) (len : Nat) : List UInt8 × Buffer :=
  let nread := xvBufferReadableSize buffer
  let len := if len > nread then nread else len
  (load buffer.buf buffer.readIdx len,
    xvBufferTryMove { buffer with readIdx := buffer.readIdx + len })

def xvBufferWriteData (buffer : Buffer) (src : List UInt8) : Buffer :=
  let buffer := xvBufferEnsureWriteableSize buffer src.length
  { buffer with
    buf := store buffer.buf buffer.writeIdx src
    writeIdx := buffer.writeIdx + src.length }

/-- The content of a buffer: the bytes between the two indices. -/
def Buffer.readable (buffer : Buffer) : List UInt8 :=
  load buffer.buf buffer.readIdx (xvBufferReadableSize buffer)

end Libxv
