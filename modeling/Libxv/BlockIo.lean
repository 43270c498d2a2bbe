/-
The blocking transfers of `xv_socket.c`.

`xv_block_read` and `xv_block_write` are one loop: call `read` or `write` for what is
missing, try again after `EINTR`, give up on an error, stop early on a 0.  `BlockLoop`
is that loop with its locals, and it moves by one call at a time; what the call moved
into or out of the caller's buffer is added by `BlockRead` and `BlockWrite`.  `Link`
runs one of each on the two ends of a byte stream, in any order.
-/
import Libxv.Define
import Libxv.Lib.Memory
import Libxv.Lib.Trace

namespace Libxv

open Memory Transition

/-- What `read` or `write` comes back with. -/
inductive SysResult
  | moved (n : Nat)
  | eintr
  | error
  deriving DecidableEq, Repr

/-- The bytes that went through. -/
def SysResult.bytes : SysResult → Nat
  | .moved n => n
  | _ => 0

/-- The locals of both functions: the counter is `nread` in one and `nwritten` in the other, and
`buf` is how far the pointer has moved. -/
structure BlockLoop where
  count : Nat
  counter : Nat
  buf : Nat
  ret : Option Int
  deriving DecidableEq, Repr

namespace BlockLoop

/-- The test of the `while`. -/
def test (x : BlockLoop) : BlockLoop :=
  if x.counter ≠ x.count then x else { x with ret := some x.counter }

/-- The call, up to its first `read` or `write`. -/
def enter (count : Nat) : BlockLoop :=
  test { count := count, counter := 0, buf := 0, ret := none }

/-- The body, from what `read` or `write` returned to the next test. -/
def body (x : BlockLoop) : SysResult → BlockLoop
  | .eintr => x.test
  | .error => { x with ret := some (-1) }
  | .moved n =>
      if n = 0 then { x with ret := some x.counter }
      else test { x with counter := x.counter + n, buf := x.buf + n }

/-- The size the next `read` or `write` asks for. -/
def asked (x : BlockLoop) : Nat :=
  x.count - x.counter

/-- The call has not returned, and the kernel moves no more than it was asked to. -/
def Admits (x : BlockLoop) (result : SysResult) : Prop :=
  x.ret = none ∧ result.bytes ≤ x.asked

instance (x : BlockLoop) (result : SysResult) : Decidable (x.Admits result) :=
  inferInstanceAs (Decidable (_ ∧ _))

end BlockLoop

/-- `xv_block_write` at work: its locals, the buffer it was given, and what `fd` has taken. -/
structure BlockWrite where
  loop : BlockLoop
  src : Nat → UInt8
  sent : List UInt8

def xvBlockWrite (src : Nat → UInt8) (count : Nat) : BlockWrite :=
  { loop := .enter count, src := src, sent := [] }

/-- What `write(fd, buf, count - nwritten)` takes from the buffer. -/
def BlockWrite.taken (x : BlockWrite) (result : SysResult) : List UInt8 :=
  load x.src x.loop.buf result.bytes

def BlockWrite.step (x : BlockWrite) (result : SysResult) : Option BlockWrite :=
  if x.loop.Admits result then
    some { x with loop := x.loop.body result, sent := x.sent ++ x.taken result }
  else none

/-- `xv_block_read` at work: its locals, the buffer it was given, and the bytes still to be read
from `fd`. -/
structure BlockRead where
  loop : BlockLoop
  dst : Nat → UInt8
  stream : List UInt8

def xvBlockRead (dst : Nat → UInt8) (count : Nat) (stream : List UInt8) : BlockRead :=
  { loop := .enter count, dst := dst, stream := stream }

/-- `read(fd, buf, count - nread)` puts the front of the stream at `buf`. -/
def BlockRead.step (x : BlockRead) (result : SysResult) : Option BlockRead :=
  if x.loop.Admits result ∧ result.bytes ≤ x.stream.length then
    some
      { loop := x.loop.body result
        dst := store x.dst x.loop.buf (x.stream.take result.bytes)
        stream := x.stream.drop result.bytes }
  else none

/-- A byte stream with a call on each end; the stream of the reader is what is on its way. -/
structure Link where
  writer : BlockWrite
  reader : BlockRead

/-- Which end made its call, and what came back. -/
inductive Link.Label
  | write (result : SysResult)
  | read (result : SysResult)
  deriving DecidableEq, Repr

def Link.start (src dst : Nat → UInt8) (count : Nat) : Link :=
  { writer := xvBlockWrite src count, reader := xvBlockRead dst count [] }

/-- Bytes more for the reader to read. -/
def BlockRead.arrive (x : BlockRead) (bytes : List UInt8) : BlockRead :=
  { x with stream := x.stream ++ bytes }

def Link.step (x : Link) : Link.Label → Option Link
  | .write result =>
      (x.writer.step result).map fun writer =>
        { writer := writer, reader := x.reader.arrive (x.writer.taken result) }
  | .read result => (x.reader.step result).map fun reader => { x with reader := reader }

/-- Every call of `read` or `write`, with its result, in order. -/
abbrev recorded {σ : Type} (step : σ → SysResult → Option σ) :
    Traced σ SysResult → SysResult → Option (Traced σ SysResult) :=
  traced step fun _ result => some result

end Libxv
