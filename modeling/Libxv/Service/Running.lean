/-
Waiting for a service: `xv_service_run` of `xv_service.c`.

One thread calls `xv_service_run` and joins the io threads, while another makes the calls of
`Lifetime`: the service is stopped from a signal handler, or from a thread of its own.  The thread
an io thread's `id` names is the last that was created for it.  Joining a thread that was never
created has undefined behaviour, and a run ends before it; of one that was, `pthread_join` does
not fail.  What an io thread does inside `xv_loop_run_timeout`, pass after pass and callback after
callback, is no step here: it can leave it as soon as its loop is broken.
-/
import Libxv.Service.Lifetime

namespace Libxv

/-- Where the thread that calls `xv_service_run` is. -/
inductive RunPc
  /-- It has not called it. -/
  | idle
  /-- `pthread_join(service->io_threads[i]->id, NULL)`. -/
  | joining (i : Nat)
  | returned (ret : Int)
  deriving DecidableEq

structure Running where
  life : Lifetime
  run : RunPc

inductive RunLabel
  | life (label : LifeLabel)
  /-- The next instruction of `xv_service_run`, its call included. -/
  | run

/-- The thread that `io_threads[i]->id` names. -/
def Lifetime.joinable (x : Lifetime) (i : Nat) : Option Entry :=
  (x.threads.filter fun thread => thread.idx = i).getLast?

def xvServiceRun (cfg : Config) (x : Lifetime) : RunPc → Option RunPc
  | .idle => some (if !x.start then .returned xvErr else .joining 0)
  | .joining i =>
      if i < cfg.ioThreadCount then
        match x.joinable i with
        | none => none
        | some thread => if thread.pc = .exited then some (.joining (i + 1)) else none
      else some (.returned xvOk)
  | .returned _ => none

namespace Running

def step (cfg : Config) (ctl : EpollCtl) (x : Running) : RunLabel → Option Running
  | .life label => (x.life.step cfg ctl label).map fun life => { x with life := life }
  | .run => (xvServiceRun cfg x.life x.run).map fun run => { x with run := run }

def init : Running := { life := .init, run := .idle }

/-- How the calls are meant: the service is started once, run when `xv_service_start` has created
its io threads, and destroyed when `xv_service_run` has returned `XV_OK`, if it was started at
all.  A stop that comes before the run makes `xv_service_run` return `XV_ERR` without waiting for
any thread, and such a service is not destroyed. -/
def Follows (cfg : Config) (x : Running) : RunLabel → Prop
  | .life (.call .start) => x.life.threads = []
  | .life (.call .destroy) => x.life.threads = [] ∨ x.run = .returned xvOk
  | .run => x.run = .idle → x.life.threads.length = cfg.ioThreadCount
  | _ => True

instance (cfg : Config) (x : Running) : ∀ label, Decidable (x.Follows cfg label)
  | .life (.call .start) => inferInstanceAs (Decidable (_ = _))
  | .life (.call .destroy) => inferInstanceAs (Decidable (_ ∨ _))
  | .run => inferInstanceAs (Decidable (_ → _))
  | .life (.call (.addListen _)) | .life (.call .stop) | .life (.go _ _) | .life (.thread _)
  | .life (.worker _ _) => .isTrue trivial

end Running

end Libxv
