/-
The thread pool of `xv_th_pool.c`.

A pool is an array of workers, and a task goes to the one that its hashcode selects.  C's
`%` takes the sign of its left operand, so the index may be negative; an index outside the
array is no worker, and a push to it has no result here.  How a pool is started and stopped
is in `Service/PoolLife.lean`.
-/
import Libxv.WorkerThread
import Mathlib.Algebra.BigOperators.Group.Finset.Basic

namespace Libxv

open Function

variable {A : Type}

/-- `xv_thread_pool_t`; the array is `threads` below `threadCount`. -/
structure ThreadPool (A : Type) where
  threads : Nat → WorkerThread A
  threadCount : Nat
  start : Bool

def xvThreadPoolInit (threadCount : Nat) : ThreadPool A :=
  { threads := fun _ => xvWorkerThreadInit, threadCount := threadCount, start := false }

def ThreadPool.setThread (pool : ThreadPool A) (i : Nat) (thread : WorkerThread A) :
    ThreadPool A :=
  { pool with threads := update pool.threads i thread }

def xvWorkerThreadPushTask (thread : WorkerThread A) (task : Task A) : Int × WorkerThread A :=
  (xvOk, (thread.push task).send)

def xvWorkerThreadTaskCount (thread : WorkerThread A) : Nat := thread.taskQueue.length

/-- `hashcode % pool->thread_count`. -/
def poolIndex (hashcode : Int) (threadCount : Nat) : Int := hashcode.tmod threadCount

def xvThreadPoolPushTask (pool : ThreadPool A) (task : Task A) (hashcode : Int) :
    Option (Int × ThreadPool A) :=
  let index := poolIndex hashcode pool.threadCount
  if 0 ≤ index ∧ index < pool.threadCount then
    let (ret, thread) := xvWorkerThreadPushTask (pool.threads index.toNat) task
    some (ret, pool.setThread index.toNat thread)
  else none

def xvThreadPoolTaskCount (pool : ThreadPool A) : Nat :=
  ∑ i ∈ Finset.range pool.threadCount, xvWorkerThreadTaskCount (pool.threads i)

/-- One push after the other. -/
def ThreadPool.pushAll (pool : ThreadPool A) : List (Task A × Int) → Option (ThreadPool A)
  | [] => some pool
  | (task, hashcode) :: rest =>
      (xvThreadPoolPushTask pool task hashcode).bind fun out => out.2.pushAll rest

end Libxv
