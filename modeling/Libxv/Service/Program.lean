/-
The program of each thread of a running service: `xv_service.c`.

Every function of the source that a thread runs is a definition here: given where the
thread is and what the world answers, it says what the next instruction does and where the
thread is afterwards.  Work that no other thread can see is done together with the next
access to something shared, so a step of the system makes at most one such access: a
mutex-protected queue operation, a read or write of an eventfd, an atomic operation on a
reference count, or a read or write of a shared field.  The two functions on the connection
table are the exception: `.table` and `.closeDel` are whole calls of
`xv_service_add_connection` and `xv_service_del_connection`, which read `conn_setsize`,
follow `service->connections`, store in a slot and count.  `Service/TableUse.lean` makes
these accesses one by one; `TableUse.refines` shows that this comes to the same, except
where a delete stores through `service->connections` as it was before `xv_realloc` moved
the table.

An instruction that touches a freed connection, follows a null pointer or writes past the
end of the connection table has undefined behaviour, and a run ends before it.  Three kinds
of undefined behaviour are not looked for, and a run goes on as if nothing were wrong: the
use of `loop->events` after `xv_loop_resize`, from the first fd of 1024 or more on a loop
(`Proofs/Tables.lean`), the store of a delete to a table that was moved, and int overflow
in the size of a buffer (`Proofs/ReadPath.lean`).  What is proved of all runs is proved of
those too, but says nothing about the source from there on.  User code
called from a callback may itself call `xv_service_send_message`, `xv_connection_incr_ref`
and `xv_connection_decr_ref`; such a call is one of another thread made while the callback's
thread rests.
-/
import Libxv.Service.State
import Libxv.ThreadPool

namespace Libxv

open Function

variable {P : Type}

/-- What the world answers to an instruction. -/
inductive Act (P : Type)
  /-- Nothing is asked. -/
  | go
  /-- `xv_tcp_accept` returns a connection on `fd` whose new buffers hold `mem`. -/
  | accept (fd : Nat) (handle : Handle) (mem : Nat → UInt8)
  /-- What the slots of a grown connection table hold. -/
  | table (garbage : Nat → Option Nat)
  /-- `epoll_wait` reports `fd` readable; what `read` and `decode` do. -/
  | read (fd : Nat) (out : ReadOut) (decoded : DecodeOut P)
  /-- `epoll_wait` reports `fd` writable; what `write` does. -/
  | write (fd : Nat) (out : WriteOut)
  /-- `epoll_wait` reports an async. -/
  | addConnReady
  | returnReady
  /-- `process` leaves this response in its message. -/
  | process (response : Option P)
  /-- What `encode` appends and what `write` does. -/
  | respond (pieces : List Piece) (out : WriteOut)
  /-- `malloc` returns a pool task at this address. -/
  | malloc (addr : Nat)
  /-- A worker's `epoll_wait` is interrupted. -/
  | interrupt
  /-- A user thread calls `xv_service_send_message`. -/
  | call (c : Nat) (package : Option P)

/-- `xv_thread_pool_push_task`: the worker a task goes to. -/
def xvThreadPoolIndex (cfg : Config) (hashcode : Nat) : Nat :=
  (poolIndex hashcode cfg.workerThreadCount).toNat

/-- `((uint64_t)task) > 16`. -/
def taskHashcode (addr : Nat) : Nat := if addr > 16 then 1 else 0

/-- The task `process_read_buffer` makes for a message. -/
def poolTask (m : Nat) : Task PoolTask := { id := m, cb := true, args := { message := m } }

/-! ### The io threads -/

/-- `on_connection_read` and the decoding half of `process_read_buffer`: the connection
afterwards, the chunk read, and how to go on. -/
def readAndDecode (conn : Conn) (out : ReadOut) (decoded : DecodeOut P) :
    Option (Conn × List Chunk × Decoded P) :=
  match onConnectionRead conn out with
  | (conn, .back) => some (conn, [], .back)
  | (conn, .close) => some (conn, [], .close)
  | (conn, .process) =>
      if !decoded.Fits conn.readBuffer then none
      else some ((processReadBuffer conn decoded).1, out.chunk?, (processReadBuffer conn decoded).2)

section io

variable (cfg : Config) (ctl : EpollCtl) (s : State P) (t : Nat)

def ioThreadEntry : Pc P → Act P → Option (State P × Pc P)
  | .entry, .go => some (s.startIoThread t, .poll)
  | _, _ => none

/-- `xv_connection_close`, on the loop of the connection's own io thread. -/
def xvConnectionClose : Pc P → Act P → Option (State P × Pc P)
  | .close c resume, .go =>
      match (s.conns c).conn.ioThread with
      | none => none
      | some owner => some (s.markClosed ctl owner c, .closeRef c resume)
  | .closeRef c resume, .go =>
      if (s.conns c).conn.refCount > 1 then some (s, resume.pc) else some (s, .closeDel c resume)
  | .closeDel c resume, .go => some (s.delConnection c, .closeFd c resume)
  | .closeFd c resume, .go => some (s.closeFd c, .closeFree c resume)
  | .closeFree c resume, .go => some (s.freeConn c, resume.pc)
  | _, _ => none

/-- `process_message`, and the `xv_message_destroy` that follows it in both its callers. -/
def State.processMessage : Pc P → Act P → Option (State P × Pc P)
  | .respond m origin, .respond pieces out =>
      let c := (s.msgs m).conn
      let conn := (s.conns c).conn
      let response := (s.msgs m).response
      let sent := Libxv.processMessage ctl (s.io t).loop conn response pieces out
      let encodes := response.isSome && conn.handle.encode && conn.status = .opened
      some ((s.markEncoded m encodes).sent t c sent,
        if sent.close then .close c (.finish m origin) else .finish m origin)
  | .finish m origin, .go => some (s.xvMessageDestroy m, origin.pc)
  | _, _ => none

/-- What `process_read_buffer` does with a message: process it here, or give it to a
worker. -/
def State.processReadBuffer : Pc P → Act P → Option (State P × Pc P)
  | .process m, .process response => some (s.setResponse m response, .respond m .inline)
  | .pushTask m, .malloc addr =>
      let i := xvThreadPoolIndex cfg (taskHashcode addr)
      some (s.setWorker i ((s.workers i).push (poolTask m)), .sendTask i)
  | .sendTask i, .go => some (s.setWorker i (s.workers i).send, .poll)
  | _, _ => none

/-- A read event: `on_connection_read`, the decoding half of `process_read_buffer`, and the
`xv_message_init` of a decoded request. -/
def State.onConnectionRead : Pc P → Act P → Option (State P × Pc P)
  | .poll, .read fd out decoded =>
      match ((s.io t).loop.slot fd).readIo with
      | none => none
      | some c =>
          if !s.alive c then none
          else
            match readAndDecode (s.conns c).conn out decoded with
            | none => none
            | some (conn, chunks, .back) => some (s.receive c conn chunks, .poll)
            | some (conn, chunks, .close) => some (s.receive c conn chunks, .close c .poll)
            | some (conn, chunks, .request request) =>
                some ((s.receive c conn chunks).xvMessageInit c request none,
                  if cfg.workerThreadCount = 0 then .process s.nextMsg else .pushTask s.nextMsg)
  | _, _ => none

/-- A write event. -/
def State.onConnectionWrite : Pc P → Act P → Option (State P × Pc P)
  | .poll, .write fd out =>
      match ((s.io t).loop.slot fd).writeIo with
      | none => none
      | some c =>
          if !s.alive c then none
          else
            let sent := Libxv.onConnectionWrite ctl (s.io t).loop (s.conns c).conn out
            some (s.sent t c sent, if sent.close then .close c .poll else .poll)
  | _, _ => none

/-- `on_new_connection`, which only the leader runs.  An accept that `xv_nonblock` or
`xv_tcp_nodelay` refuses leaves nothing behind. -/
def onNewConnection : Pc P → Act P → Option (State P × Pc P)
  | .poll, .accept fd handle mem =>
      if t = 0 ∧ 0 < fd ∧ s.openFds fd = false then
        some (s.accept fd handle mem, .addConnection s.nextConn)
      else none
  | .addConnection c, .table garbage =>
      match xvServiceAddConnection s.table (s.conns c).conn.fd c garbage with
      | none => none
      | some table => some ({ s with table := table }, .assign c)
  | .assign c, .go =>
      if cfg.ioThreadCount = 1 then some (s.adopt ctl t c, .poll)
      else
        let index := (s.conns c).conn.fd % (cfg.ioThreadCount - 1) + 1
        some (s.pushConn index c, .sendConn index)
  | .sendConn index, .go => some (s.sendAddConn index, .poll)
  | _, _ => none

def ioThreadAddConnCb : Pc P → Act P → Option (State P × Pc P)
  | .poll, .addConnReady =>
      if (s.io t).asyncStart ∧ 0 < (s.io t).addConnEvfd then some (s, .addConnRead) else none
  | .addConnRead, .go => some (s.readAddConn t, .addConnSize)
  | .addConnSize, .go =>
      some (s, if (s.io t).connQueue.length > 0 then .addConnPop else .poll)
  | .addConnPop, .go =>
      match (s.io t).connQueue with
      | [] => some (s, .addConnSize)
      | c :: _ => some (s.popConn t, .adopt c)
  | .adopt c, .go => some (s.adopt ctl t c, .addConnSize)
  | _, _ => none

def ioThreadReturnMessageCb : Pc P → Act P → Option (State P × Pc P)
  | .poll, .returnReady =>
      if (s.io t).asyncStart ∧ 0 < (s.io t).returnEvfd then some (s, .returnRead) else none
  | .returnRead, .go => some (s.readReturn t, .returnSize)
  | .returnSize, .go =>
      some (s, if (s.io t).messageQueue.length > 0 then .returnPop else .poll)
  | .returnPop, .go =>
      match (s.io t).messageQueue with
      | [] => some (s, .returnSize)
      | m :: _ => some (s.popMessage t, .returned m)
  | .returned m, .go =>
      let c := (s.msgs m).conn
      if (s.conns c).conn.status ≠ .closed then some (s, .respond m .returned)
      else some (s.xvMessageDestroy m, .freeReturned c)
  | .freeReturned c, .go => some (s.freeConn c, .returnSize)
  | _, _ => none

/-- What an io thread does next. -/
def ioStep (pc : Pc P) (act : Act P) : Option (State P × Pc P) :=
  ioThreadEntry s t pc act <|> xvConnectionClose ctl s pc act <|> s.processMessage ctl t pc act <|>
    s.processReadBuffer cfg pc act <|> s.onConnectionRead cfg t pc act <|>
    s.onConnectionWrite ctl t pc act <|> onNewConnection cfg ctl s t pc act <|>
    ioThreadAddConnCb ctl s t pc act <|> ioThreadReturnMessageCb s t pc act

end io

/-! ### The workers and the user threads -/

/-- `thread_pool_task_cb`, on worker `i`. -/
def threadPoolTaskCb (s : State P) (i : Nat) : Pc P → Act P → Option (State P × Pc P)
  | .taskProcess m, .process response => some (s.setResponse m response, .taskFetch m)
  | .taskFetch m, .go =>
      match (s.conns (s.msgs m).conn).conn.ioThread with
      | none => none
      | some t => some (s, .taskPush t m)
  | .taskPush t m, .go => some (s.pushMessage t m, .taskSend t)
  | .taskSend t, .go =>
      -- The callback returns to `worker_async_cb` once it has signalled the io thread.
      match (s.workers i).taskReturns with
      | none => none
      | some thread => some ((s.sendReturn t).setWorker i thread, .rest)
  | _, _ => none

/-- Where a worker is in `thread_pool_task_cb` once its loop is there. -/
def WorkerPc.callback : WorkerPc PoolTask → Pc P
  | .run task => .taskProcess task.args.message
  | _ => .rest

/-- What a worker does next: its own loop, or the task it runs. -/
def workerStep (s : State P) (i : Nat) (pc : Pc P) (act : Act P) : Option (State P × Pc P) :=
  match (s.workers i).pc, act with
  | .run _, _ => threadPoolTaskCb s i pc act
  | _, .go =>
      match (s.workers i).step with
      | none => none
      | some thread =>
          some (s.setWorker i thread, thread.pc.callback)
  | _, .interrupt =>
      match (s.workers i).interrupt with
      | none => none
      | some thread => some (s.setWorker i thread, .rest)
  | _, _ => none

def xvServiceSendMessage (s : State P) : Pc P → Act P → Option (State P × Pc P)
  | .rest, .call c package => some (s, .sendTest c package)
  | .sendTest c package, .go =>
      if (s.conns c).conn.status = .closed then some (s, .rest) else some (s, .sendInit c package)
  | .sendInit c package, .go => some (s.xvMessageInit c none package, .sendFetch c s.nextMsg)
  | .sendFetch c m, .go =>
      match (s.conns c).conn.ioThread with
      | none => none
      | some t => some (s, .sendPush t m)
  | .sendPush t m, .go => some (s.pushMessage t m, .sendSignal t)
  | .sendSignal t, .go => some (s.sendReturn t, .rest)
  | _, _ => none

/-! ### The system -/

inductive Label (P : Type)
  | act (a : Agent) (act : Act P)
  /-- The user takes or drops a reference. -/
  | incrRef (c : Nat)
  | decrRef (c : Nat)

/-- The service has such a thread. -/
def Agent.runs (cfg : Config) : Agent → Bool
  | .io t => t < cfg.ioThreadCount
  | .worker i => i < cfg.workerThreadCount
  | .sender _ => true

/-- The next instruction of a thread touches no freed connection. -/
def State.safe (s : State P) (a : Agent) : Bool :=
  match (s.pc a).touches s.msgs with
  | none => true
  | some c => s.alive c

/-- The next instruction of a thread. -/
def State.program (cfg : Config) (ctl : EpollCtl) (s : State P) (a : Agent) (act : Act P) :
    Option (State P × Pc P) :=
  match a with
  | .io t => ioStep cfg ctl s t (s.pc a) act
  | .worker i => workerStep s i (s.pc a) act
  | .sender _ => xvServiceSendMessage s (s.pc a) act

def State.step (cfg : Config) (ctl : EpollCtl) (s : State P) : Label P → Option (State P)
  | .act a act =>
      if a.runs cfg && s.safe a then
        (s.program cfg ctl a act).map fun next => next.1.goto a next.2
      else none
  | .incrRef c => if s.alive c then some (s.incrRef c) else none
  | .decrRef c => if s.alive c ∧ 0 < (s.conns c).userRefs then some (s.decrRef c) else none

/-- The service as `xv_service_start` leaves it: nothing accepted, every thread about to
start. -/
def State.init : State P :=
  { conns := fun _ =>
      { conn := xvConnectionInit 0 fullHandle 0 0 fun _ => 0, userRefs := 0, received := [],
        appended := [], deleted := 0, fdClosed := 0, freed := 0 }
    nextConn := 0
    msgs := fun _ =>
      { conn := 0, request := none, response := none, encoded := 0, sendFailed := 0,
        cleanedRequest := 0, cleanedResponse := 0, destroyed := 0 }
    nextMsg := 0
    io := fun _ => xvIoThreadInit
    workers := fun _ => (xvWorkerThreadStart xvWorkerThreadInit).2
    pc := fun
      | .io _ => .entry
      | .worker _ | .sender _ => .rest
    table := { slots := fun _ => none, setsize := xvDefaultLoopSize, count := 0 }
    openFds := fun _ => false }

/-! ### Short runs -/

/-- One io thread and no workers. -/
def inlineConfig : Config := { ioThreadCount := 1, workerThreadCount := 0, ioPos := by decide }

/-- One io thread and one worker. -/
def workerConfig : Config := { ioThreadCount := 1, workerThreadCount := 1, ioPos := by decide }

/-- Thread `a` makes `n` instructions that ask nothing of the world. -/
def goes (a : Agent) (n : Nat) : List (Label P) := List.replicate n (.act a .go)

/-- The only io thread starts, accepts a connection on fd 5 and watches it for reading. -/
def acceptOne : List (Label P) :=
  goes (.io 0) 1 ++ [.act (.io 0) (.accept 5 fullHandle fun _ => 0),
    .act (.io 0) (.table fun _ => none)] ++ goes (.io 0) 1

/-- A read event on fd 5 whose chunk decodes to a request. -/
def readRequest (P : Type) (chunk : Chunk) (request : P) : Label P :=
  .act (.io 0) (.read 5 (.data chunk) ⟨[chunk.bytes.length], xvOk, some request⟩)

/-- A read event on fd 5 that finds the peer gone, with the close up to its reference check. -/
def readEof : List (Label P) := .act (.io 0) (.read 5 .eof ⟨[], 0, none⟩) :: goes (.io 0) 2

/-- A user thread sends a message on the connection. -/
def sendOne : List (Label Unit) := .act (.sender 0) (.call 0 (some ())) :: goes (.sender 0) 5

/-- The io thread takes a returned message out of its queue. -/
def popReturned : List (Label P) := .act (.io 0) .returnReady :: goes (.io 0) 3

/-- One byte, as a chunk. -/
def byteChunk (b : UInt8) : Chunk := ⟨[b], Nat.one_pos, by simp [xvDefaultReadSize]⟩

end Libxv
