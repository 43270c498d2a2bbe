/-
The shared state of a running service: `xv_service.c`.

Connections and messages are heap objects known by a number; a new one takes the next
number, and what is kept of an object after it is freed is only what has happened to it.
The io threads, the workers and the connection table are as in the source, and every
thread has a program counter of its own (`Service/Program.lean`).

Each object carries a record of its life beside its fields: what a connection has read
and encoded, how often it was deleted from the table, its fd closed and its memory freed;
how often a message was encoded, handed to a cleanup callback and destroyed.
-/
import Libxv.Session
import Libxv.WorkerThread

namespace Libxv

open Function

variable {P : Type}

/-- `xv_service_config_t`, as `xv_service_init` lets it pass. -/
structure Config where
  ioThreadCount : Nat
  workerThreadCount : Nat
  ioPos : 0 < ioThreadCount

/-- `xv_message_t`, and what has happened to it. -/
structure Message (P : Type) where
  conn : Nat
  request : Option P
  response : Option P
  /-- Times its response was passed to `encode` while the connection was open. -/
  encoded : Nat
  /-- Times its response was passed to `on_send_failed`. -/
  sendFailed : Nat
  cleanedRequest : Nat
  cleanedResponse : Nat
  destroyed : Nat

/-- `xv_connection_t`, and what has happened to it. -/
structure Connection where
  conn : Conn
  /-- References the user has taken and not dropped. -/
  userRefs : Nat
  /-- The chunks `read` has delivered. -/
  received : List Chunk
  /-- The bytes `encode` has appended to `write_buffer`. -/
  appended : List UInt8
  /-- Times `xv_service_del_connection` has removed it and counted it off. -/
  deleted : Nat
  /-- Times its fd was closed. -/
  fdClosed : Nat
  /-- Times `xv_connection_destroy` has run on it. -/
  freed : Nat

/-- `service->connections`, `service->conn_setsize` and `service->conn_count`. -/
structure ConnTable where
  slots : Nat → Option Nat
  setsize : Nat
  count : Int

/-- `xv_service_add_connection`.  The slots a `realloc` adds hold whatever was there.  A write
past the end has no result, nor has a growth whose size in bytes, `array_size`, is no int. -/
def xvServiceAddConnection (table : ConnTable) (fd c : Nat) (garbage : Nat → Option Nat) :
    Option ConnTable := do
  let table ←
    if fd > table.setsize then
      if sizeofPointer * (table.setsize * 2) ≤ intMax then
        some
          { table with
            slots := fun i => if i < table.setsize then table.slots i else garbage i
            setsize := table.setsize * 2 }
      else none
    else some table
  if fd < table.setsize then
    some { table with slots := update table.slots fd (some c), count := table.count + 1 }
  else none

def xvServiceDelConnection (table : ConnTable) (fd : Nat) : Int × ConnTable :=
  if fd ≥ table.setsize then (xvErr, table)
  else (xvOk, { table with slots := update table.slots fd none, count := table.count - 1 })

/-- `xv_io_thread_t`, with the counters of its two asyncs. -/
structure IoThread where
  loop : Loop
  connQueue : List Nat
  addConnEvfd : Nat
  messageQueue : List Nat
  returnEvfd : Nat
  /-- Both asyncs are started. -/
  asyncStart : Bool

def xvIoThreadInit : IoThread :=
  { loop := xvLoopInit xvDefaultLoopSize, connQueue := [], addConnEvfd := 0,
    messageQueue := [], returnEvfd := 0, asyncStart := false }

/-- `xv_service_pool_task_t`; its callback is always the handle's `process`. -/
structure PoolTask where
  message : Nat
  deriving DecidableEq

/-- The threads that take part. -/
inductive Agent
  | io (t : Nat)
  | worker (i : Nat)
  /-- A user thread that calls `xv_service_send_message`. -/
  | sender (u : Nat)
  deriving DecidableEq

/-! ### Program counters -/

/-- Who has `process_message` run: `process_read_buffer` or `io_thread_return_message_cb`. -/
inductive Origin
  | inline
  | returned
  deriving DecidableEq

/-- Where `xv_connection_close` returns to. -/
inductive Resume
  /-- The callback ends. -/
  | poll
  /-- `xv_message_destroy` after `process_message`. -/
  | finish (m : Nat) (origin : Origin)
  deriving DecidableEq

/-- Where a thread is: what it does next.  Between two of these a thread makes at most one
access to what it shares with others, the two functions on the connection table apart. -/
inductive Pc (P : Type)
  /-- A worker outside its task, or a user thread outside the service. -/
  | rest
  /-- `io_thread_entry`. -/
  | entry
  /-- In `epoll_wait`. -/
  | poll
  /-- `on_new_connection`: `xv_service_add_connection`. -/
  | addConnection (c : Nat)
  /-- `on_new_connection`, after `on_connect`: keep the connection or send it on. -/
  | assign (c : Nat)
  /-- `on_new_connection`: `xv_async_send` to the io thread chosen. -/
  | sendConn (t : Nat)
  /-- `common_async_cb` of `async_add_conn`. -/
  | addConnRead
  /-- `io_thread_add_conn_cb`: the size check. -/
  | addConnSize
  | addConnPop
  /-- `io_thread_add_conn_cb`: set `io_thread` and start the read io. -/
  | adopt (c : Nat)
  /-- `common_async_cb` of `async_return_message`. -/
  | returnRead
  /-- `io_thread_return_message_cb`: the size check. -/
  | returnSize
  | returnPop
  /-- `io_thread_return_message_cb`: test the connection's status. -/
  | returned (m : Nat)
  /-- `io_thread_return_message_cb`: `xv_connection_destroy`. -/
  | freeReturned (c : Nat)
  /-- `process_read_buffer`: `handle->process`. -/
  | process (m : Nat)
  /-- `process_message`. -/
  | respond (m : Nat) (origin : Origin)
  /-- `xv_message_destroy` after `process_message`. -/
  | finish (m : Nat) (origin : Origin)
  /-- `process_read_buffer`: `xv_thread_pool_push_task`. -/
  | pushTask (m : Nat)
  /-- `xv_worker_thread_push_task`: `xv_async_send`. -/
  | sendTask (i : Nat)
  /-- `xv_connection_close`. -/
  | close (c : Nat) (resume : Resume)
  /-- `xv_connection_close`: the reference check. -/
  | closeRef (c : Nat) (resume : Resume)
  /-- `xv_connection_close`: `xv_service_del_connection`. -/
  | closeDel (c : Nat) (resume : Resume)
  /-- `xv_connection_close`: `xv_close`. -/
  | closeFd (c : Nat) (resume : Resume)
  /-- `xv_connection_close`: `xv_connection_destroy`. -/
  | closeFree (c : Nat) (resume : Resume)
  /-- `thread_pool_task_cb`: `task->cb`. -/
  | taskProcess (m : Nat)
  /-- `thread_pool_task_cb`: follow the message to its io thread. -/
  | taskFetch (m : Nat)
  /-- `thread_pool_task_cb`: push to `message_queue`. -/
  | taskPush (t m : Nat)
  /-- `thread_pool_task_cb`: `xv_async_send`. -/
  | taskSend (t : Nat)
  /-- `xv_service_send_message`: the status test. -/
  | sendTest (c : Nat) (package : Option P)
  /-- `xv_service_send_message`: `xv_message_init`. -/
  | sendInit (c : Nat) (package : Option P)
  /-- `xv_service_send_message`: follow the connection to its io thread. -/
  | sendFetch (c m : Nat)
  /-- `xv_service_send_message`: push to `message_queue`. -/
  | sendPush (t m : Nat)
  /-- `xv_service_send_message`: `xv_async_send`. -/
  | sendSignal (t : Nat)

/-- The message whose fields the next instruction reads or writes. -/
def Pc.reads : Pc P → Option Nat
  | .returned m | .process m | .respond m _ | .finish m _ | .taskProcess m | .taskFetch m => some m
  | _ => none

/-- The message a thread has in its hands, neither queued nor destroyed. -/
def Pc.holds : Pc P → Option Nat
  | .returned m | .process m | .respond m _ | .finish m _ | .pushTask m
  | .close _ (.finish m _) | .closeRef _ (.finish m _) | .closeDel _ (.finish m _)
  | .closeFd _ (.finish m _) | .closeFree _ (.finish m _)
  | .taskProcess m | .taskFetch m | .taskPush _ m | .sendFetch _ m | .sendPush _ m => some m
  | _ => none

/-- The connection the next instruction reads or writes. -/
def Pc.touches (msgs : Nat → Message P) : Pc P → Option Nat
  | .addConnection c | .assign c | .adopt c | .freeReturned c | .close c _ | .closeRef c _
  | .closeDel c _ | .closeFd c _ | .closeFree c _ | .sendTest c _ | .sendInit c _
  | .sendFetch c _ => some c
  | .returned m | .respond m _ | .finish m _ | .taskFetch m => some (msgs m).conn
  | _ => none

/-- The next instruction runs `xv_service_add_connection` or `xv_service_del_connection`. -/
def Pc.changesTable : Pc P → Bool
  | .addConnection _ | .closeDel _ _ => true
  | _ => false

def Resume.pc : Resume → Pc P
  | .poll => .poll
  | .finish m origin => .finish m origin

/-- Where the thread goes once it has destroyed the message it processed. -/
def Origin.pc : Origin → Pc P
  | .inline => .poll
  | .returned => .returnSize

/-! ### The state -/

structure State (P : Type) where
  conns : Nat → Connection
  nextConn : Nat
  msgs : Nat → Message P
  nextMsg : Nat
  io : Nat → IoThread
  workers : Nat → WorkerThread PoolTask
  pc : Agent → Pc P
  table : ConnTable
  /-- The client sockets that are open. -/
  openFds : Nat → Bool

/-- The object has been created and not yet freed. -/
def State.alive (s : State P) (c : Nat) : Bool := c < s.nextConn && (s.conns c).freed == 0

def State.live (s : State P) (m : Nat) : Bool := m < s.nextMsg && (s.msgs m).destroyed == 0

def State.goto (s : State P) (a : Agent) (pc : Pc P) : State P :=
  { s with pc := update s.pc a pc }

def State.setConn (s : State P) (c : Nat) (conn : Conn) : State P :=
  { s with conns := update s.conns c { s.conns c with conn := conn } }

def State.setLoop (s : State P) (t : Nat) (loop : Loop) : State P :=
  { s with io := update s.io t { s.io t with loop := loop } }

/-- `on_new_connection` up to `xv_connection_init`.  The two ios have the connection as
their user data and go by its number. -/
def State.accept (s : State P) (fd : Nat) (handle : Handle) (mem : Nat → UInt8) : State P :=
  { s with
    conns := update s.conns s.nextConn
      { conn := xvConnectionInit fd handle s.nextConn s.nextConn mem, userRefs := 0, received := [],
        appended := [], deleted := 0, fdClosed := 0, freed := 0 }
    nextConn := s.nextConn + 1
    openFds := update s.openFds fd true }

/-- `xv_atomic_incr` and `xv_atomic_decr` of a connection's `ref_count`. -/
def State.addRef (s : State P) (c : Nat) (n : Int) : State P :=
  s.setConn c { (s.conns c).conn with refCount := (s.conns c).conn.refCount + n }

/-- `xv_connection_incr_ref`, called by the user. -/
def State.incrRef (s : State P) (c : Nat) : State P :=
  let s := s.addRef c 1
  { s with conns := update s.conns c { s.conns c with userRefs := (s.conns c).userRefs + 1 } }

/-- `xv_connection_decr_ref`, called by the user. -/
def State.decrRef (s : State P) (c : Nat) : State P :=
  let s := s.addRef c (-1)
  { s with conns := update s.conns c { s.conns c with userRefs := (s.conns c).userRefs - 1 } }

/-- `xv_message_init`, and the packet its caller sets in the new message. -/
def State.xvMessageInit (s : State P) (c : Nat) (request response : Option P) : State P :=
  let s := s.addRef c 1
  { s with
    msgs := update s.msgs s.nextMsg
      { conn := c, request := request, response := response, encoded := 0, sendFailed := 0,
        cleanedRequest := 0, cleanedResponse := 0, destroyed := 0 }
    nextMsg := s.nextMsg + 1 }

/-- `xv_message_destroy`, with the `packet_cleanup` of the connection's handle. -/
def State.xvMessageDestroy (s : State P) (m : Nat) : State P :=
  let message := s.msgs m
  let cleanup := (s.conns message.conn).conn.handle.packetCleanup
  let request := if cleanup && message.request.isSome then 1 else 0
  let response := if cleanup && message.response.isSome then 1 else 0
  let s := s.addRef message.conn (-1)
  { s with
    msgs := update s.msgs m
      { message with
        cleanedRequest := message.cleanedRequest + request
        cleanedResponse := message.cleanedResponse + response
        destroyed := message.destroyed + 1 } }

/-- `xv_message_set_response`. -/
def State.setResponse (s : State P) (m : Nat) (response : Option P) : State P :=
  { s with msgs := update s.msgs m { s.msgs m with response := response } }

/-- `read` has delivered a chunk into the connection's buffer, and `decode` has run. -/
def State.receive (s : State P) (c : Nat) (conn : Conn) (chunks : List Chunk) : State P :=
  { s with
    conns := update s.conns c
      { s.conns c with conn := conn, received := (s.conns c).received ++ chunks } }

/-- A function that writes to the socket has run. -/
def State.sent (s : State P) (t c : Nat) (sent : Sent) : State P :=
  { s with
    io := update s.io t { s.io t with loop := sent.loop }
    conns := update s.conns c
      { s.conns c with conn := sent.conn, appended := (s.conns c).appended ++ sent.encoded } }

/-- Record whether `process_message` has passed the message's response to `encode`. -/
def State.markEncoded (s : State P) (m : Nat) (encodes : Bool) : State P :=
  { s with
    msgs := update s.msgs m
      { s.msgs m with encoded := (s.msgs m).encoded + if encodes then 1 else 0 } }

def State.pushConn (s : State P) (t c : Nat) : State P :=
  { s with io := update s.io t { s.io t with connQueue := (s.io t).connQueue ++ [c] } }

def State.popConn (s : State P) (t : Nat) : State P :=
  { s with io := update s.io t { s.io t with connQueue := (s.io t).connQueue.tail } }

def State.sendAddConn (s : State P) (t : Nat) : State P :=
  { s with
    io := update s.io t { s.io t with addConnEvfd := (xvAsyncSend (s.io t).addConnEvfd).2 } }

def State.readAddConn (s : State P) (t : Nat) : State P :=
  { s with
    io := update s.io t { s.io t with addConnEvfd := (eventfdRead (s.io t).addConnEvfd).2 } }

def State.pushMessage (s : State P) (t m : Nat) : State P :=
  { s with io := update s.io t { s.io t with messageQueue := (s.io t).messageQueue ++ [m] } }

def State.popMessage (s : State P) (t : Nat) : State P :=
  { s with io := update s.io t { s.io t with messageQueue := (s.io t).messageQueue.tail } }

def State.sendReturn (s : State P) (t : Nat) : State P :=
  { s with
    io := update s.io t { s.io t with returnEvfd := (xvAsyncSend (s.io t).returnEvfd).2 } }

def State.readReturn (s : State P) (t : Nat) : State P :=
  { s with
    io := update s.io t { s.io t with returnEvfd := (eventfdRead (s.io t).returnEvfd).2 } }

/-- `io_thread_entry`: start the asyncs; the leader's listeners are started with them. -/
def State.startIoThread (s : State P) (t : Nat) : State P :=
  { s with io := update s.io t { s.io t with asyncStart := true } }

/-- Set `io_thread` and start the read io: `on_new_connection` when there is one io thread,
and `io_thread_add_conn_cb`. -/
def State.adopt (ctl : EpollCtl) (s : State P) (t c : Nat) : State P :=
  let conn := { (s.conns c).conn with ioThread := some t }
  let (_, loop, readIo) := xvIoStart ctl (s.io t).loop conn.readIo
  (s.setLoop t loop).setConn c { conn with readIo := readIo }

/-- `xv_connection_close` up to its reference check. -/
def State.markClosed (ctl : EpollCtl) (s : State P) (t c : Nat) : State P :=
  let (loop, conn) := closeConnection ctl (s.io t).loop (s.conns c).conn
  (s.setLoop t loop).setConn c conn

/-- `xv_service_del_connection` from `xv_connection_close`. -/
def State.delConnection (s : State P) (c : Nat) : State P :=
  let (ret, table) := xvServiceDelConnection s.table (s.conns c).conn.fd
  { s with
    table := table
    conns := update s.conns c
      { s.conns c with deleted := (s.conns c).deleted + if ret = xvOk then 1 else 0 } }

/-- `xv_close(conn->fd)`. -/
def State.closeFd (s : State P) (c : Nat) : State P :=
  { s with
    conns := update s.conns c { s.conns c with fdClosed := (s.conns c).fdClosed + 1 }
    openFds := update s.openFds (s.conns c).conn.fd false }

/-- `xv_connection_destroy`. -/
def State.freeConn (s : State P) (c : Nat) : State P :=
  { s with conns := update s.conns c { s.conns c with freed := (s.conns c).freed + 1 } }

def State.setWorker (s : State P) (i : Nat) (thread : WorkerThread PoolTask) : State P :=
  { s with workers := update s.workers i thread }

end Libxv
