/-
A connection and its loop, one event-loop callback at a time.

A step is one whole callback on the io thread that owns the connection: a read event,
a write event, the return of a message from a worker, or a callback of some other io of
the same loop.  A callback on the connection's ios runs only if `xv_loop_poll` finds the
io in the slot of its fd.  What other threads do to the connection is to change its
reference count, which they may do at any time.

Along the way the state records the bytes `encode` has appended, the bytes the socket has
accepted, the chunks read and the requests handed to `process`.
-/
import Libxv.Connection

namespace Libxv

/-- One connection, its loop, and what has gone through it. -/
structure Session (P : Type) where
  loop : Loop
  conn : Conn
  /-- `xv_connection_destroy` has run. -/
  freed : Bool
  /-- All bytes `encode` has appended to `write_buffer`. -/
  encoded : List UInt8
  /-- All bytes the socket has accepted. -/
  accepted : List UInt8
  /-- The chunks `read` has delivered. -/
  received : List Chunk
  /-- The requests handed to `process`, inline or through a worker's queue. -/
  handed : List (Option P)

/-- The callbacks of a loop, with the world's answers. -/
inductive Callback (P : Type)
  /-- A read event; without workers the decoded request is processed and answered inline. -/
  | read (out : ReadOut) (decoded : DecodeOut P) (response : Option P) (pieces : List Piece)
      (write : WriteOut)
  /-- A write event. -/
  | write (out : WriteOut)
  /-- `io_thread_return_message_cb` pops a message of the connection. -/
  | returned (response : Option P) (pieces : List Piece) (write : WriteOut)
  /-- A callback of another io starts or stops it. -/
  | other (io : Io) (on : Bool)
  /-- Other threads take or drop references. -/
  | refs (count : Int)

variable {P : Type}

/-- `xv_connection_close` up to its reference check: mark, call `on_disconnect`, stop. -/
def closeConnection (ctl : EpollCtl) (loop : Loop) (conn : Conn) : Loop × Conn :=
  if conn.status ≠ .closed then xvConnectionStop ctl loop { conn with status := .closed }
  else (loop, conn)

/-- `xv_connection_close`: the connection is released only if nobody else refers to it. -/
def Session.close (ctl : EpollCtl) (s : Session P) : Session P :=
  let (loop, conn) := closeConnection ctl s.loop s.conn
  if conn.refCount > 1 then { s with loop := loop, conn := conn }
  else { s with loop := loop, conn := conn, freed := true }

/-- Record what a writing function did, and close if it asks for it. -/
def Session.after (ctl : EpollCtl) (s : Session P) (sent : Sent) : Session P :=
  let s :=
    { s with
      loop := sent.loop
      conn := sent.conn
      encoded := s.encoded ++ sent.encoded
      accepted := s.accepted ++ sent.accepted }
  if sent.close then s.close ctl else s

def Session.processMessage (ctl : EpollCtl) (s : Session P) (response : Option P)
    (pieces : List Piece) (out : WriteOut) : Session P :=
  s.after ctl (Libxv.processMessage ctl s.loop s.conn response pieces out)

/-- `process_read_buffer`, and what it does with a decoded request. -/
def Session.processReadBuffer (workers : Bool) (ctl : EpollCtl) (s : Session P)
    (decoded : DecodeOut P) (response : Option P) (pieces : List Piece) (write : WriteOut) :
    Session P :=
  match Libxv.processReadBuffer s.conn decoded with
  | (conn, .back) => { s with conn := conn }
  | (conn, .close) => Session.close ctl { s with conn := conn }
  | (conn, .request request) =>
      let s := { s with conn := conn, handed := s.handed ++ [request] }
      if workers then s else s.processMessage ctl response pieces write

/-- The chunk a read delivers, if any. -/
def ReadOut.chunk? : ReadOut → List Chunk
  | .data chunk => [chunk]
  | .eof | .retry | .error => []

def Session.onConnectionRead (workers : Bool) (ctl : EpollCtl) (s : Session P) (out : ReadOut)
    (decoded : DecodeOut P) (response : Option P) (pieces : List Piece) (write : WriteOut) :
    Option (Session P) :=
  match Libxv.onConnectionRead s.conn out with
  | (conn, .back) => some { s with conn := conn }
  | (conn, .close) => some (Session.close ctl { s with conn := conn })
  | (conn, .process) =>
      if decoded.Fits conn.readBuffer then
        let s := { s with conn := conn, received := s.received ++ out.chunk? }
        some (s.processReadBuffer workers ctl decoded response pieces write)
      else none

/-- One callback.  A freed connection has none. -/
def Session.step (workers : Bool) (ctl : EpollCtl) (s : Session P) :
    Callback P → Option (Session P)
  | .read out decoded response pieces write =>
      if s.freed ∨ (s.loop.slot s.conn.fd).readIo ≠ some s.conn.readIo.id then none
      else s.onConnectionRead workers ctl out decoded response pieces write
  | .write out =>
      if s.freed ∨ (s.loop.slot s.conn.fd).writeIo ≠ some s.conn.writeIo.id then none
      else some (s.after ctl (onConnectionWrite ctl s.loop s.conn out))
  | .returned response pieces write =>
      if s.freed then none
      else if s.conn.status ≠ .closed then some (s.processMessage ctl response pieces write)
      else some { s with freed := true }
  | .other io on =>
      if io.fd = s.conn.fd then none
      else if on then some { s with loop := (xvIoStart ctl s.loop io).2.1 }
      else some { s with loop := (xvIoStop ctl s.loop io).2.1 }
  | .refs count => some { s with conn := { s.conn with refCount := count } }

/-- A new connection whose read io its io thread has just started. -/
def Session.adopt (ctl : EpollCtl) (loop : Loop) (conn : Conn) : Session P :=
  let (_, loop, readIo) := xvIoStart ctl loop conn.readIo
  { loop := loop, conn := { conn with readIo := readIo }, freed := false, encoded := [],
    accepted := [], received := [], handed := [] }

/-- The sessions a run starts from: a new connection on an fd of the loop that has nothing
registered. -/
def Session.Start (ctl : EpollCtl) (s : Session P) : Prop :=
  ∃ (loop : Loop) (fd : Nat) (handle : Handle) (rid wid : Nat) (mem : Nat → UInt8),
    fd < loop.setsize ∧ loop.slot fd = .empty ∧
      s = Session.adopt ctl loop (xvConnectionInit fd handle rid wid mem)

/-- A kernel that accepts every `epoll_ctl`. -/
def acceptAll : EpollCtl := fun _ _ _ _ => true

/-- A handle with every callback set. -/
def fullHandle : Handle :=
  { decode := true, encode := true, process := true, packetCleanup := true,
    onSendFailed := true, onConnect := true, onDisconnect := true }

/-- A connection on fd 5 of a new loop. -/
def Session.sample : Session P :=
  Session.adopt acceptAll (xvLoopInit xvDefaultLoopSize)
    (xvConnectionInit 5 fullHandle 0 1 fun _ => 0)

theorem Session.sample_start : Session.Start acceptAll (Session.sample : Session P) :=
  ⟨_, 5, fullHandle, 0, 1, fun _ => 0, by decide, rfl, rfl⟩

end Libxv
