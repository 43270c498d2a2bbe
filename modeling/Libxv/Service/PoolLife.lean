/-
A thread pool while it is started and stopped.

`xv_thread_pool_start` and `xv_thread_pool_stop` are loops over the workers, and a worker that
has been started is at work before the loop comes to the next one.  So each round of a loop is
a step of its own here, and the workers move in between, on whatever tasks are pushed to them.
-/
import Libxv.ThreadPool
import Libxv.Service.Lifetime

namespace Libxv

open Function

/-- Where the thread that makes the calls is. -/
inductive PoolPc
  /-- In no call. -/
  | idle
  /-- `xv_worker_thread_start(pool->threads[i])`. -/
  | starting (i : Nat)
  /-- `xv_worker_thread_stop(pool->threads[i])`. -/
  | stopping (i : Nat)
  deriving DecidableEq

/-- A pool, and who is at work on it. -/
structure PoolLife where
  pool : ThreadPool PoolTask
  pc : PoolPc
  /-- What the last call returned. -/
  ret : Int
  /-- `xv_thread_pool_start` has returned `XV_OK`, and the pool has not been stopped since. -/
  started : Bool

inductive PoolLabel
  /-- `xv_thread_pool_start` is called. -/
  | start
  /-- `xv_thread_pool_stop` is called. -/
  | stop
  /-- The next round of the call.  `watched` says whether epoll takes the worker's async, `created`
  whether `pthread_create` succeeds. -/
  | go (watched created : Bool)
  | worker (i : Nat) (move : WorkerMove)

namespace PoolLife

def setThread (x : PoolLife) (i : Nat) (thread : WorkerThread PoolTask) : PoolLife :=
  { x with pool := x.pool.setThread i thread }

/-- `xv_thread_pool_start` up to its loop. -/
def startCall (x : PoolLife) : PoolLife :=
  if x.pool.start then { x with ret := xvErr } else { x with pc := .starting 0 }

def go (x : PoolLife) (watched created : Bool) : Option PoolLife :=
  match x.pc with
  | .idle => none
  | .starting i =>
      if i < x.pool.threadCount then
        -- What `xv_worker_thread_start` returns is ignored.
        let (_, thread) := (x.pool.threads i).startWith watched created
        some { x.setThread i thread with pc := .starting (i + 1) }
      else some { x with pc := .idle, ret := xvOk, started := true }
  | .stopping i =>
      if i < x.pool.threadCount then
        some { x.setThread i (xvWorkerThreadStop (x.pool.threads i)) with pc := .stopping (i + 1) }
      else some { x with pc := .idle, ret := xvOk, started := false }

def step (x : PoolLife) : PoolLabel → Option PoolLife
  | .start => if x.pc = .idle then some x.startCall else none
  | .stop => if x.pc = .idle then some { x with pc := .stopping 0 } else none
  | .go watched created => x.go watched created
  | .worker i move =>
      ((x.pool.threads i).move move).map fun thread => x.setThread i thread

/-- The pool as `xv_thread_pool_init` returns it. -/
def init (threadCount : Nat) : PoolLife :=
  { pool := xvThreadPoolInit threadCount, pc := .idle, ret := xvOk, started := false }

end PoolLife

end Libxv
