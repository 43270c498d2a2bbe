/-
A connection on its io thread: the read and write callbacks of `xv_service.c`.

The functions here are the parts of the callbacks that only the connection's own io
thread takes part in, so each is one function on the loop and the connection.  What
they leave to their caller they return: whether `process_read_buffer` runs next,
whether a request was decoded, and whether `xv_connection_close` is called.

The world answers through the arguments: what `read` and `write` return, what the
user's `decode` consumed and returned, and what `encode` appended.
-/
import Libxv.Buffer
import Libxv.Loop

namespace Libxv

inductive Status
  | opened
  | closed
  deriving DecidableEq

/-- `xv_service_handle_t`: which of the user's callbacks are set. -/
structure Handle where
  decode : Bool
  encode : Bool
  process : Bool
  packetCleanup : Bool
  onSendFailed : Bool
  onConnect : Bool
  onDisconnect : Bool
  deriving DecidableEq

/-- `xv_connection_t`, without the peer address, which nothing here reads. -/
structure Conn where
  fd : Nat
  readIo : Io
  writeIo : Io
  readBuffer : Buffer
  writeBuffer : Buffer
  handle : Handle
  ioThread : Option Nat
  status : Status
  refCount : Int

/-- The two ios are objects of their own, `rid` and `wid`. -/
def xvConnectionInit (fd : Nat) (handle : Handle) (rid wid : Nat) (mem : Nat → UInt8) : Conn :=
  { fd := fd
    readIo := xvIoInit rid fd xvRead
    writeIo := xvIoInit wid fd xvWrite
    readBuffer := xvBufferInit xvDefaultBufferSize mem
    writeBuffer := xvBufferInit xvDefaultBufferSize mem
    handle := handle
    ioThread := none
    status := .opened
    refCount := 1 }

def xvConnectionStop (ctl : EpollCtl) (loop : Loop) (conn : Conn) : Loop × Conn :=
  let (_, loop, readIo) := xvIoStop ctl loop conn.readIo
  let (_, loop, writeIo) := xvIoStop ctl loop conn.writeIo
  (loop, { conn with readIo := readIo, writeIo := writeIo })

/-! ### Reading -/

/-- What one `read` of at most `XV_DEFAULT_READ_SIZE` bytes delivers. -/
structure Chunk where
  bytes : List UInt8
  pos : 0 < bytes.length
  le : bytes.length ≤ xvDefaultReadSize

/-- The outcomes of `read(2)`; `retry` is `EAGAIN` and `EINTR`. -/
inductive ReadOut
  | data (chunk : Chunk)
  | eof
  | retry
  | error

/-- How `on_connection_read` goes on. -/
inductive ReadNext
  | back
  | process
  | close

def onConnectionRead (conn : Conn) (out : ReadOut) : Conn × ReadNext :=
  if conn.status = .closed then (conn, .back)
  else
    let conn :=
      { conn with readBuffer := xvBufferEnsureWriteableSize conn.readBuffer xvDefaultReadSize }
    match out with
    | .data chunk =>
        let buffer := storeAtWriteBegin conn.readBuffer chunk.bytes
        ({ conn with readBuffer := xvBufferIncrWriteIndex buffer chunk.bytes.length }, .process)
    | .retry => (conn, .back)
    | .eof | .error => (conn, .close)

/-- What a call of the user's `decode` did: the advances it made on the read index, its
return code and the request it stored (`none` for a null pointer). -/
structure DecodeOut (P : Type) where
  advances : List Nat
  ret : Int
  request : Option P
  deriving DecidableEq

/-- The read buffer after `decode`. -/
def DecodeOut.consume {P : Type} (out : DecodeOut P) (buffer : Buffer) : Buffer :=
  out.advances.foldl xvBufferIncrReadIndex buffer

/-- A `decode` takes no more than is there. -/
def DecodeOut.Fits {P : Type} (out : DecodeOut P) (buffer : Buffer) : Prop :=
  out.advances.sum ≤ xvBufferReadableSize buffer

instance {P : Type} (out : DecodeOut P) (buffer : Buffer) : Decidable (out.Fits buffer) :=
  inferInstanceAs (Decidable (_ ≤ _))

/-- How `process_read_buffer` goes on after `decode`. -/
inductive Decoded (P : Type)
  | back
  | request (request : Option P)
  | close

def processReadBuffer {P : Type} (conn : Conn) (out : DecodeOut P) : Conn × Decoded P :=
  if !conn.handle.decode || !conn.handle.process then
    ({ conn with readBuffer := xvBufferClear conn.readBuffer }, .back)
  else
    let conn := { conn with readBuffer := out.consume conn.readBuffer }
    if out.ret = xvOk then (conn, .request out.request)
    else if out.ret = xvErr then (conn, .close)
    else (conn, .back)

/-! ### Writing -/

/-- One append the user's `encode` makes: `xv_buffer_ensure_writeable_size`, a store at
the write index and `xv_buffer_incr_write_index`.  `xv_buffer_write_data` is one that
reserves as much as it stores. -/
structure Piece where
  reserve : Nat
  bytes : List UInt8
  fits : bytes.length ≤ reserve

def appendPiece (buffer : Buffer) (piece : Piece) : Buffer :=
  xvBufferIncrWriteIndex
    (storeAtWriteBegin (xvBufferEnsureWriteableSize buffer piece.reserve) piece.bytes)
    piece.bytes.length

/-- The bytes a call of `encode` appends. -/
def encodedBytes (pieces : List Piece) : List UInt8 := pieces.flatMap Piece.bytes

/-- The outcomes of `write(2)`; `retry` is `EAGAIN` and `EINTR`. -/
inductive WriteOut
  | wrote (n : Nat)
  | retry
  | error

/-- The value `write` returns when asked for `want` bytes. -/
def WriteOut.nwritten (want : Nat) : WriteOut → Int
  | .wrote n => (min n want : Nat)
  | .retry | .error => -1

/-- `errno` is neither `EAGAIN` nor `EINTR`. -/
def WriteOut.hard : WriteOut → Bool
  | .error => true
  | .wrote _ | .retry => false

/-- What a function that writes to the socket leaves behind. -/
structure Sent where
  loop : Loop
  conn : Conn
  /-- Bytes `encode` appended. -/
  encoded : List UInt8
  /-- Bytes the socket took. -/
  accepted : List UInt8
  /-- Whether `xv_connection_close` is called. -/
  close : Bool

/-- The lines after a `write` that has not failed: advance the read index. -/
def advance (conn : Conn) (nwritten : Int) : Conn :=
  if nwritten > 0 then
    { conn with writeBuffer := xvBufferIncrReadIndex conn.writeBuffer nwritten.toNat }
  else conn

def processMessage {P : Type} (ctl : EpollCtl) (loop : Loop) (conn : Conn)
    (response : Option P) (pieces : List Piece) (out : WriteOut) : Sent :=
  if response.isNone || !conn.handle.encode then
    { loop := loop, conn := conn, encoded := [], accepted := [], close := false }
  else
    let conn := { conn with writeBuffer := pieces.foldl appendPiece conn.writeBuffer }
    let encoded := encodedBytes pieces
    let wantWriteSize := xvBufferReadableSize conn.writeBuffer
    if wantWriteSize = 0 then
      { loop := loop, conn := conn, encoded := encoded, accepted := [], close := false }
    else
      let nwritten := out.nwritten wantWriteSize
      if nwritten = -1 ∧ out.hard then
        { loop := loop, conn := conn, encoded := encoded, accepted := [], close := true }
      else
        let accepted := conn.writeBuffer.readable.take nwritten.toNat
        let conn := advance conn nwritten
        if nwritten < wantWriteSize ∧ conn.status = .opened then
          let (_, loop, writeIo) := xvIoStart ctl loop conn.writeIo
          { loop := loop, conn := { conn with writeIo := writeIo }, encoded := encoded,
            accepted := accepted, close := false }
        else
          { loop := loop, conn := conn, encoded := encoded, accepted := accepted, close := false }

/-- `xv_io_stop(loop, conn->write_io)`. -/
def stopWrite (ctl : EpollCtl) (loop : Loop) (conn : Conn) (accepted : List UInt8) : Sent :=
  let (_, loop, writeIo) := xvIoStop ctl loop conn.writeIo
  { loop := loop, conn := { conn with writeIo := writeIo }, encoded := [],
    accepted := accepted, close := false }

def onConnectionWrite (ctl : EpollCtl) (loop : Loop) (conn : Conn) (out : WriteOut) : Sent :=
  let bufferSize := xvBufferReadableSize conn.writeBuffer
  if bufferSize > 0 then
    let nwritten := out.nwritten bufferSize
    if nwritten = 0 ∨ (nwritten = -1 ∧ out.hard) then
      { loop := loop, conn := conn, encoded := [], accepted := [], close := true }
    else
      let accepted := conn.writeBuffer.readable.take nwritten.toNat
      let conn := advance conn nwritten
      if nwritten = bufferSize then stopWrite ctl loop conn accepted
      else { loop := loop, conn := conn, encoded := [], accepted := accepted, close := false }
  else stopWrite ctl loop conn []

end Libxv
