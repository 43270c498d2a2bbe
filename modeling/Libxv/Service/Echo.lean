/-
The service of `tests/xv_service_test.c`, and a client of it.

The user code of the test takes whatever is in the read buffer for a request and sends it
back.  A client writes with `xv_block_write` and reads back with `xv_block_read`; the two
directions of its socket are byte streams, and the service may run in between as it likes.
-/
import Libxv.Service.Deliveries
import Libxv.BlockIo
import Libxv.Proofs.Service.Sequential

namespace Libxv

open Transition

/-! ### The user code of the test -/

namespace ServiceTest

/-- `packet_t`: `len` bytes in `buf`. -/
abbrev Packet := List UInt8

/-- `decode` reads all there is with one `xv_buffer_read_data`. -/
def decode (readable : List UInt8) : DecodeOut Packet :=
  { advances := [readable.length], ret := xvOk, request := some readable }

/-- `process` copies the request. -/
def process (request : Option Packet) : Option Packet := request

/-- `encode` appends the packet with one `xv_buffer_write_data`. -/
def encode (response : Packet) : List UInt8 := response

def user : UserCode Packet := { decode := decode, process := process, encode := encode }

end ServiceTest

/-! ### What the service takes from a socket -/

variable {P : Type}

/-- The bytes a step reads from the socket of connection `c`. -/
def State.hears (s : State P) (c : Nat) : Label P → List UInt8
  | .act (.io t) (.read fd out decoded) =>
      match s.pc (.io t), ((s.io t).loop.slot fd).readIo with
      | .poll, some c' =>
          if c' = c then
            match readAndDecode (s.conns c).conn out decoded with
            | some (_, chunks, _) => chunks.flatMap Chunk.bytes
            | none => []
          else []
      | _, _ => []
  | _ => []

/-- The bytes a connection has received. -/
def Connection.heard (conn : Connection) : List UInt8 := conn.received.flatMap Chunk.bytes

/-! ### Client and service -/

/-- A client of the service, and what of its bytes the service has not read yet. -/
structure Echo where
  writer : BlockWrite
  reader : BlockRead
  inbound : List UInt8
  service : Traced (State ServiceTest.Packet) Delivery

inductive EchoLabel
  /-- A `write` of the client comes back. -/
  | write (result : SysResult)
  /-- A `read` of the client comes back. -/
  | read (result : SysResult)
  | service (label : Label ServiceTest.Packet)

/-- The client is connection `c` of the service. -/
def Echo.step (cfg : Config) (ctl : EpollCtl) (c : Nat) (e : Echo) : EchoLabel → Option Echo
  | .write result =>
      (e.writer.step result).map fun writer =>
        { e with writer := writer, inbound := e.inbound ++ e.writer.taken result }
  | .read result => (e.reader.step result).map fun reader => { e with reader := reader }
  | .service label =>
      let heard := e.service.state.hears c label
      if heard <+: e.inbound then
        (Delivering cfg ctl e.service label).map fun service =>
          { e with
            service := service
            inbound := e.inbound.drop heard.length
            reader := e.reader.arrive
              (acceptedOn c (e.service.state.delivers ctl label).toList) }
      else none

/-- On the client's connection the user code is the test's. -/
def Echo.Runs (c : Nat) (e : Echo) : EchoLabel → Prop
  | .service label => ServiceTest.user.Follows c e.service.state label
  | .write _ | .read _ => True

instance (c : Nat) (e : Echo) : ∀ label, Decidable (e.Runs c label)
  | .service label => inferInstanceAs (Decidable (ServiceTest.user.Follows c e.service.state label))
  | .write _ | .read _ => inferInstanceAs (Decidable True)

/-- The client has called `xv_block_write` on `src`, and will call `xv_block_read`. -/
def Echo.start (src dst : Nat → UInt8) (count : Nat) : Echo :=
  { writer := xvBlockWrite src count, reader := xvBlockRead dst count [], inbound := [],
    service := .new State.init }

end Libxv
