/-
The life of a service: `xv_service_add_listen`, `xv_service_start`, `xv_service_stop` and
`xv_service_destroy` of `xv_service.c`, as one thread calls them one after the other.

Each start that goes ahead creates the io threads anew, so after a stop and another start two
threads may be in `io_thread_entry` of one io thread.  They run on their own: they may be late
to add the listeners and late to delete them.  The workers run too, on whatever tasks are
pushed to them.

The connections are not here, nor the queues of the io threads: what `xv_service_stop` and
`xv_service_destroy` do to them neither looks at a listener nor creates or joins a thread.
Following a null pointer, touching freed memory and joining a thread that was never created
have undefined behaviour, and a run ends before it.
-/
import Libxv.Service.State

namespace Libxv

open Function

/-- `xv_listener_t`.  `ioThread` is the index of its io thread. -/
structure Listener where
  listenFd : Nat
  listenIo : Io
  ioThread : Option Nat
  /-- Times `listen_fd` was closed. -/
  fdClosed : Nat
  freed : Bool

def xvListenerInit (id fd : Nat) : Listener :=
  { listenFd := fd, listenIo := xvIoInit id fd xvRead, ioThread := none, fdClosed := 0,
    freed := false }

def xvListenerStop (ctl : EpollCtl) (loop : Loop) (listener : Listener) : Loop × Listener :=
  let (_, loop, listenIo) := xvIoStop ctl loop listener.listenIo
  (loop, { listener with listenIo := listenIo, fdClosed := listener.fdClosed + 1 })

/-- Where a thread is in `io_thread_entry`.  A list is what the pointer `listener` still has
before it. -/
inductive EntryPc
  /-- Start both asyncs. -/
  | asyncs
  /-- `listener = service->listeners`, before the loop. -/
  | addFirst
  | add (rest : List Nat)
  /-- `xv_loop_run_timeout`. -/
  | loop
  /-- `listener = service->listeners`, after the loop. -/
  | delFirst
  | del (rest : List Nat)
  | exited
  deriving DecidableEq

/-- A thread in `io_thread_entry` of the io thread `idx`. -/
structure Entry where
  idx : Nat
  pc : EntryPc
  deriving DecidableEq

/-- Who called `xv_service_stop`: the user, or `xv_service_destroy`. -/
inductive Caller
  | user
  | destroy
  deriving DecidableEq

/-- Where the thread that makes the calls is. -/
inductive CallPc
  /-- In no call. -/
  | idle
  /-- `xv_thread_pool_start`: `xv_worker_thread_start(pool->threads[i])`. -/
  | startWorker (i : Nat)
  /-- `pthread_create` of io thread `i`. -/
  | startIo (i : Nat)
  /-- `xv_listener_stop(listener->io_thread->loop, listener)` for what is left of the list. -/
  | stopListener (rest : List Nat) (caller : Caller)
  | stopIo (i : Nat) (caller : Caller)
  /-- `xv_thread_pool_stop` of `xv_service_stop`. -/
  | stopWorker (i : Nat) (caller : Caller)
  | destroyListener (rest : List Nat)
  | destroyIo (i : Nat)
  /-- `xv_thread_pool_stop` of `xv_thread_pool_destroy`. -/
  | poolStop (i : Nat)
  /-- `xv_worker_thread_destroy(pool->threads[i])`: its `xv_worker_thread_stop`. -/
  | workerStop (i : Nat)
  /-- `xv_worker_thread_destroy(pool->threads[i])`: `xv_async_send`. -/
  | workerSend (i : Nat)
  /-- `xv_worker_thread_destroy(pool->threads[i])`: `pthread_join`. -/
  | workerJoin (i : Nat)
  | destroyed
  deriving DecidableEq

/-- `xv_service_t` without its connections, and the threads at work on it. -/
structure Lifetime where
  start : Bool
  /-- The linked list `service->listeners`. -/
  listeners : List Nat
  listener : Nat → Listener
  io : Nat → IoThread
  ioFreed : Nat → Bool
  workers : Nat → WorkerThread PoolTask
  threads : List Entry
  pc : CallPc
  /-- What the last call returned. -/
  ret : Int

inductive ApiCall
  /-- `xv_service_add_listen`, with the listening fd if there is one. -/
  | addListen (fd : Option Nat)
  | start
  | stop
  | destroy
  deriving DecidableEq

/-- What happens to a worker thread. -/
inductive WorkerMove
  | step
  | interrupt
  | taskReturns
  | push (task : Task PoolTask)
  | send

inductive LifeLabel
  | call (call : ApiCall)
  /-- The next instruction of the call.  `watched` says whether epoll takes a worker's new async,
  `created` whether `pthread_create` succeeds. -/
  | go (watched created : Bool)
  /-- The next instruction of thread `k`. -/
  | thread (k : Nat)
  | worker (i : Nat) (move : WorkerMove)

def WorkerThread.move (thread : WorkerThread PoolTask) :
    WorkerMove → Option (WorkerThread PoolTask)
  | .step => thread.step
  | .interrupt => thread.interrupt
  | .taskReturns => thread.taskReturns
  | .push task => some (thread.push task)
  | .send => some thread.send

namespace Lifetime

def setListener (x : Lifetime) (l : Nat) (listener : Listener) : Lifetime :=
  { x with listener := update x.listener l listener }

def setLoop (x : Lifetime) (t : Nat) (loop : Loop) : Lifetime :=
  { x with io := update x.io t { x.io t with loop := loop } }

def setWorker (x : Lifetime) (i : Nat) (thread : WorkerThread PoolTask) : Lifetime :=
  { x with workers := update x.workers i thread }

def goto (x : Lifetime) (pc : CallPc) : Lifetime := { x with pc := pc }

/-- A call returns to the user. -/
def back (x : Lifetime) (ret : Int) : Lifetime := { x with pc := .idle, ret := ret }

/-- `xv_service_stop` returns. -/
def stopBack (x : Lifetime) (ret : Int) : Caller → Lifetime
  | .user => x.back ret
  | .destroy => x.goto (.destroyListener x.listeners)

/-! ### The calls -/

/-- `xv_service_add_listen`: a new listener becomes the head of the list. -/
def addListen (x : Lifetime) : Option Nat → Lifetime
  | none => x.back xvErr
  | some fd =>
      let l := x.listeners.length
      { x.setListener l (xvListenerInit l fd) with
        listeners := l :: x.listeners
        pc := .idle
        ret := xvOk }

/-- `xv_service_start` up to the workers. -/
def startCall (x : Lifetime) : Lifetime :=
  if x.start then x.back xvErr else { x with start := true, pc := .startWorker 0 }

/-- `xv_service_stop` up to the first listener. -/
def stopCall (x : Lifetime) (caller : Caller) : Lifetime :=
  if !x.start then x.stopBack xvErr caller
  else { x with start := false, pc := .stopListener x.listeners caller }

def call (x : Lifetime) : ApiCall → Lifetime
  | .addListen fd => x.addListen fd
  | .start => x.startCall
  | .stop => x.stopCall .user
  | .destroy => x.stopCall .destroy

/-- `xv_listener_stop(listener->io_thread->loop, listener)`, its io thread being `t`. -/
def stopListener (ctl : EpollCtl) (x : Lifetime) (t l : Nat) : Lifetime :=
  let (loop, listener) := xvListenerStop ctl (x.io t).loop (x.listener l)
  (x.setLoop t loop).setListener l listener

/-- `xv_io_thread_stop`. -/
def stopIoThread (x : Lifetime) (t : Nat) : Lifetime :=
  { x with
    io := update x.io t { x.io t with asyncStart := false, loop := xvLoopBreak (x.io t).loop } }

/-- The next instruction of the call that is running. -/
def go (cfg : Config) (ctl : EpollCtl) (x : Lifetime) (watched created : Bool) :
    Option Lifetime :=
  match x.pc with
  | .idle | .destroyed => none
  | .startWorker i =>
      -- `xv_thread_pool_start` ignores what `xv_worker_thread_start` returns.
      if i < cfg.workerThreadCount then
        let (_, thread) := (x.workers i).startWith watched created
        some ((x.setWorker i thread).goto (.startWorker (i + 1)))
      else some (x.goto (.startIo 0))
  | .startIo i =>
      if i < cfg.ioThreadCount then
        if created then
          some { x with threads := x.threads ++ [⟨i, .asyncs⟩], pc := .startIo (i + 1) }
        else some (x.back xvErr)
      else some (x.back xvOk)
  | .stopListener [] caller => some (x.goto (.stopIo 0 caller))
  | .stopListener (l :: rest) caller =>
      (x.listener l).ioThread.map fun t =>
        (x.stopListener ctl t l).goto (.stopListener rest caller)
  | .stopIo i caller =>
      if i < cfg.ioThreadCount then some ((x.stopIoThread i).goto (.stopIo (i + 1) caller))
      else some (x.goto (.stopWorker 0 caller))
  | .stopWorker i caller =>
      if i < cfg.workerThreadCount then
        some ((x.setWorker i (xvWorkerThreadStop (x.workers i))).goto (.stopWorker (i + 1) caller))
      else some (x.stopBack xvOk caller)
  | .destroyListener [] => some (x.goto (.destroyIo 0))
  | .destroyListener (l :: rest) =>
      some ((x.setListener l { x.listener l with freed := true }).goto (.destroyListener rest))
  | .destroyIo i =>
      if i < cfg.ioThreadCount then
        some { x with ioFreed := update x.ioFreed i true, pc := .destroyIo (i + 1) }
      else some (x.goto (.poolStop 0))
  | .poolStop i =>
      if i < cfg.workerThreadCount then
        some ((x.setWorker i (xvWorkerThreadStop (x.workers i))).goto (.poolStop (i + 1)))
      else some (x.goto (.workerStop 0))
  | .workerStop i =>
      if i < cfg.workerThreadCount then
        some ((x.setWorker i (xvWorkerThreadStop (x.workers i))).goto (.workerSend i))
      else some (x.goto .destroyed)
  | .workerSend i => some ((x.setWorker i (x.workers i).send).goto (.workerJoin i))
  | .workerJoin i =>
      if (x.workers i).pc.hasExited then some (x.goto (.workerStop (i + 1))) else none

/-! ### `io_thread_entry` -/

/-- The leader adds a listener: `listener->io_thread = io_thread` and `xv_io_start`. -/
def addListener (ctl : EpollCtl) (x : Lifetime) (t l : Nat) : Lifetime :=
  let listener := { x.listener l with ioThread := some t }
  let (_, loop, listenIo) := xvIoStart ctl (x.io t).loop listener.listenIo
  (x.setLoop t loop).setListener l { listener with listenIo := listenIo }

/-- The leader deletes a listener: `xv_io_stop` and `listener->io_thread = NULL`. -/
def delListener (ctl : EpollCtl) (x : Lifetime) (t l : Nat) : Lifetime :=
  let (_, loop, listenIo) := xvIoStop ctl (x.io t).loop (x.listener l).listenIo
  (x.setLoop t loop).setListener l { x.listener l with listenIo := listenIo, ioThread := none }

/-- The next instruction of a thread in `io_thread_entry` of io thread `t`. -/
def entry (ctl : EpollCtl) (x : Lifetime) (t : Nat) : EntryPc → Option (Lifetime × EntryPc)
  | .asyncs =>
      some ({ x with io := update x.io t { x.io t with asyncStart := true } },
        if t = 0 then .addFirst else .loop)
  | .addFirst => some (x, .add x.listeners)
  | .add [] => some (x, .loop)
  | .add (l :: rest) =>
      if (x.listener l).freed then none else some (x.addListener ctl t l, .add rest)
  | .loop =>
      if (x.io t).loop.start then none
      else some (x, if t = 0 then .delFirst else .exited)
  | .delFirst => some (x, .del x.listeners)
  | .del [] => some (x, .exited)
  | .del (l :: rest) =>
      if (x.listener l).freed then none else some (x.delListener ctl t l, .del rest)
  | .exited => none

def step (cfg : Config) (ctl : EpollCtl) (x : Lifetime) : LifeLabel → Option Lifetime
  | .call call => if x.pc = .idle then some (x.call call) else none
  | .go watched created => x.go cfg ctl watched created
  | .thread k =>
      match x.threads[k]? with
      | none => none
      | some thread =>
          if x.ioFreed thread.idx then none
          else (x.entry ctl thread.idx thread.pc).map fun next =>
            { next.1 with threads := x.threads.set k { thread with pc := next.2 } }
  | .worker i move =>
      ((x.workers i).move move).map fun thread => x.setWorker i thread

/-- The service as `xv_service_init` returns it. -/
def init : Lifetime :=
  { start := false, listeners := [],
    listener := fun l => xvListenerInit l 0
    io := fun _ => xvIoThreadInit
    ioFreed := fun _ => false
    workers := fun _ => xvWorkerThreadInit
    threads := [], pc := .idle, ret := xvOk }

end Lifetime

end Libxv
