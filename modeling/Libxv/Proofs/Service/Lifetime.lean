/-
The calls of a service's life, in the orders the API admits.

`xv_service_stop` goes through `listener->io_thread`, which it neither sets nor clears: the
leader sets it on its way into its loop and clears it once the loop is broken.  So the pointer
is there when the leader has passed every listener of the list and its loop is not broken yet,
and then it stays there: the loop is broken by this very call, and only after the listeners.
`xv_service_destroy` joins every worker, and workers are created by `xv_service_start` alone.
-/
import Libxv.Service.Lifetime
import Libxv.Lib.Run
import Libxv.Proofs.Loop
import Libxv.Proofs.Worker

namespace Libxv

open Function Transition

variable {cfg : Config} {ctl : EpollCtl} {x x' : Lifetime}

/-! ### Workers -/

theorem WorkerThread.startWith_created {A : Type} {thread : WorkerThread A}
    (h : thread.pc.created = true) (watched created : Bool) :
    (thread.startWith watched created).2.pc.created = true := by
  unfold WorkerThread.startWith
  dsimp only
  repeat' split
  all_goals first | exact h | rfl

/-- A thread once created stays created. -/
theorem WorkerThread.move_created {thread thread' : WorkerThread PoolTask} {move : WorkerMove}
    (h : thread.pc.created = true) (hmove : thread.move move = some thread') :
    thread'.pc.created = true := by
  cases move with
  | step => exact WorkerThread.step_created hmove
  | interrupt =>
      obtain ⟨-, rfl⟩ := WorkerThread.interrupt_some hmove
      rfl
  | taskReturns =>
      obtain ⟨task, -, rfl⟩ := WorkerThread.taskReturns_some hmove
      rfl
  | push task => exact Option.some.inj hmove ▸ h
  | send => exact Option.some.inj hmove ▸ h

/-! ### What an instruction does -/

namespace Lifetime

/-- The instructions of a call, one case for each branch of `go`. -/
inductive CallStep (cfg : Config) (ctl : EpollCtl) (x : Lifetime) : CallPc → Lifetime → Prop
  | startWorker {i : Nat} (watched created : Bool) (hi : i < cfg.workerThreadCount) :
      CallStep cfg ctl x (.startWorker i)
        ((x.setWorker i ((x.workers i).startWith watched created).2).goto (.startWorker (i + 1)))
  | workersStarted {i : Nat} (hi : ¬ i < cfg.workerThreadCount) :
      CallStep cfg ctl x (.startWorker i) (x.goto (.startIo 0))
  | startIo {i : Nat} (hi : i < cfg.ioThreadCount) :
      CallStep cfg ctl x (.startIo i)
        { x with threads := x.threads ++ [⟨i, .asyncs⟩], pc := .startIo (i + 1) }
  | startFailed {i : Nat} (hi : i < cfg.ioThreadCount) :
      CallStep cfg ctl x (.startIo i) (x.back xvErr)
  | started {i : Nat} (hi : ¬ i < cfg.ioThreadCount) :
      CallStep cfg ctl x (.startIo i) (x.back xvOk)
  | stopListener {l t : Nat} {rest : List Nat} {caller : Caller}
      (ht : (x.listener l).ioThread = some t) :
      CallStep cfg ctl x (.stopListener (l :: rest) caller)
        ((x.stopListener ctl t l).goto (.stopListener rest caller))
  | listenersStopped {caller : Caller} :
      CallStep cfg ctl x (.stopListener [] caller) (x.goto (.stopIo 0 caller))
  | stopIo {i : Nat} {caller : Caller} (hi : i < cfg.ioThreadCount) :
      CallStep cfg ctl x (.stopIo i caller) ((x.stopIoThread i).goto (.stopIo (i + 1) caller))
  | ioStopped {i : Nat} {caller : Caller} (hi : ¬ i < cfg.ioThreadCount) :
      CallStep cfg ctl x (.stopIo i caller) (x.goto (.stopWorker 0 caller))
  | stopWorker {i : Nat} {caller : Caller} (hi : i < cfg.workerThreadCount) :
      CallStep cfg ctl x (.stopWorker i caller)
        ((x.setWorker i (xvWorkerThreadStop (x.workers i))).goto (.stopWorker (i + 1) caller))
  | stopped {i : Nat} {caller : Caller} (hi : ¬ i < cfg.workerThreadCount) :
      CallStep cfg ctl x (.stopWorker i caller) (x.stopBack xvOk caller)
  | destroyListener {l : Nat} {rest : List Nat} :
      CallStep cfg ctl x (.destroyListener (l :: rest))
        ((x.setListener l { x.listener l with freed := true }).goto (.destroyListener rest))
  | listenersDestroyed : CallStep cfg ctl x (.destroyListener []) (x.goto (.destroyIo 0))
  | destroyIo {i : Nat} (hi : i < cfg.ioThreadCount) :
      CallStep cfg ctl x (.destroyIo i)
        { x with ioFreed := update x.ioFreed i true, pc := .destroyIo (i + 1) }
  | ioDestroyed {i : Nat} (hi : ¬ i < cfg.ioThreadCount) :
      CallStep cfg ctl x (.destroyIo i) (x.goto (.poolStop 0))
  | poolStop {i : Nat} (hi : i < cfg.workerThreadCount) :
      CallStep cfg ctl x (.poolStop i)
        ((x.setWorker i (xvWorkerThreadStop (x.workers i))).goto (.poolStop (i + 1)))
  | poolStopped {i : Nat} (hi : ¬ i < cfg.workerThreadCount) :
      CallStep cfg ctl x (.poolStop i) (x.goto (.workerStop 0))
  | workerStop {i : Nat} (hi : i < cfg.workerThreadCount) :
      CallStep cfg ctl x (.workerStop i)
        ((x.setWorker i (xvWorkerThreadStop (x.workers i))).goto (.workerSend i))
  | destroyed {i : Nat} (hi : ¬ i < cfg.workerThreadCount) :
      CallStep cfg ctl x (.workerStop i) (x.goto .destroyed)
  | workerSend {i : Nat} :
      CallStep cfg ctl x (.workerSend i)
        ((x.setWorker i (x.workers i).send).goto (.workerJoin i))
  | workerJoin {i : Nat} (hexited : (x.workers i).pc.hasExited = true) :
      CallStep cfg ctl x (.workerJoin i) (x.goto (.workerStop (i + 1)))

theorem go_step {watched created : Bool} (h : x.go cfg ctl watched created = some x') :
    CallStep cfg ctl x x.pc x' := by
  cases hpc : x.pc <;> simp only [go, hpc] at h
  case idle | destroyed => cases h
  case startWorker i =>
    split at h <;> rename_i hi <;> obtain rfl := Option.some.inj h
    · exact .startWorker watched created hi
    · exact .workersStarted hi
  case startIo i =>
    split at h <;> rename_i hi
    · split at h <;> obtain rfl := Option.some.inj h
      · exact .startIo hi
      · exact .startFailed hi
    · obtain rfl := Option.some.inj h
      exact .started hi
  case stopListener rest caller =>
    cases rest with
    | nil =>
        obtain rfl := Option.some.inj h
        exact .listenersStopped
    | cons l rest =>
        obtain ⟨t, ht, rfl⟩ := Option.map_eq_some_iff.mp h
        exact .stopListener ht
  case stopIo i caller =>
    split at h <;> rename_i hi <;> obtain rfl := Option.some.inj h
    · exact .stopIo hi
    · exact .ioStopped hi
  case stopWorker i caller =>
    split at h <;> rename_i hi <;> obtain rfl := Option.some.inj h
    · exact .stopWorker hi
    · exact .stopped hi
  case destroyListener rest =>
    cases rest <;> obtain rfl := Option.some.inj h
    · exact .listenersDestroyed
    · exact .destroyListener
  case destroyIo i =>
    split at h <;> rename_i hi <;> obtain rfl := Option.some.inj h
    · exact .destroyIo hi
    · exact .ioDestroyed hi
  case poolStop i =>
    split at h <;> rename_i hi <;> obtain rfl := Option.some.inj h
    · exact .poolStop hi
    · exact .poolStopped hi
  case workerStop i =>
    split at h <;> rename_i hi <;> obtain rfl := Option.some.inj h
    · exact .workerStop hi
    · exact .destroyed hi
  case workerSend i =>
    obtain rfl := Option.some.inj h
    exact .workerSend
  case workerJoin i =>
    split at h
    next hexited =>
      obtain rfl := Option.some.inj h
      exact .workerJoin hexited
    next => cases h

/-- The instructions of `io_thread_entry`, one case for each branch of `entry`. -/
inductive EntryStep (ctl : EpollCtl) (x : Lifetime) (t : Nat) :
    EntryPc → Lifetime × EntryPc → Prop
  | lead (ht : t = 0) :
      EntryStep ctl x t .asyncs
        ({ x with io := update x.io t { x.io t with asyncStart := true } }, .addFirst)
  | follow (ht : t ≠ 0) :
      EntryStep ctl x t .asyncs
        ({ x with io := update x.io t { x.io t with asyncStart := true } }, .loop)
  | addFirst : EntryStep ctl x t .addFirst (x, .add x.listeners)
  | add {l : Nat} {rest : List Nat} (hfreed : (x.listener l).freed = false) :
      EntryStep ctl x t (.add (l :: rest)) (x.addListener ctl t l, .add rest)
  | added : EntryStep ctl x t (.add []) (x, .loop)
  | leaderBroken (ht : t = 0) (hloop : (x.io t).loop.start = false) :
      EntryStep ctl x t .loop (x, .delFirst)
  | broken (ht : t ≠ 0) (hloop : (x.io t).loop.start = false) :
      EntryStep ctl x t .loop (x, .exited)
  | delFirst : EntryStep ctl x t .delFirst (x, .del x.listeners)
  | del {l : Nat} {rest : List Nat} (hfreed : (x.listener l).freed = false) :
      EntryStep ctl x t (.del (l :: rest)) (x.delListener ctl t l, .del rest)
  | deleted : EntryStep ctl x t (.del []) (x, .exited)

theorem entry_step {t : Nat} {pc : EntryPc} {next : Lifetime × EntryPc}
    (h : x.entry ctl t pc = some next) : EntryStep ctl x t pc next := by
  cases pc with
  | asyncs =>
      obtain rfl := Option.some.inj h
      by_cases ht : t = 0
      · rw [if_pos ht]
        exact .lead ht
      · rw [if_neg ht]
        exact .follow ht
  | addFirst => exact Option.some.inj h ▸ .addFirst
  | add rest =>
      cases rest with
      | nil => exact Option.some.inj h ▸ .added
      | cons l rest =>
          simp only [entry, Option.ite_none_left_eq_some] at h
          exact Option.some.inj h.2 ▸ .add (by simpa using h.1)
  | loop =>
      simp only [entry, Option.ite_none_left_eq_some] at h
      have hloop : (x.io t).loop.start = false := by simpa using h.1
      obtain rfl := Option.some.inj h.2
      by_cases ht : t = 0
      · rw [if_pos ht]
        exact .leaderBroken ht hloop
      · rw [if_neg ht]
        exact .broken ht hloop
  | delFirst => exact Option.some.inj h ▸ .delFirst
  | del rest =>
      cases rest with
      | nil => exact Option.some.inj h ▸ .deleted
      | cons l rest =>
          simp only [entry, Option.ite_none_left_eq_some] at h
          exact Option.some.inj h.2 ▸ .del (by simpa using h.1)
  | exited => cases h

/-! ### What an instruction leaves alone -/

/-- The call that runs leaves the list and every `io_thread` as they are, mends no loop, and
threads only come to be: workers in `xv_thread_pool_start`. -/
structure Goes (x next : Lifetime) : Prop where
  listeners : next.listeners = x.listeners
  ioThread : ∀ l, (next.listener l).ioThread = (x.listener l).ioThread
  loops : ∀ t, (next.io t).loop.start = true → (x.io t).loop.start = true
  threads : ∃ new, next.threads = x.threads ++ new ∧ ∀ e ∈ new, e.pc = .asyncs
  created : ∀ i, (x.workers i).pc.created = true → (next.workers i).pc.created = true
  absent : (∀ i, x.pc ≠ .startWorker i) →
    ∀ i, (x.workers i).pc.created = false → (next.workers i).pc.created = false

theorem Goes.refl (x : Lifetime) : x.Goes x where
  listeners := rfl
  ioThread := fun _ => rfl
  loops := fun _ h => h
  threads := ⟨[], (List.append_nil _).symm, by simp⟩
  created := fun _ h => h
  absent := fun _ _ h => h

/-- Where the call is and what it returned do not matter. -/
theorem Goes.goto {next : Lifetime} (h : x.Goes next) (pc : CallPc) : x.Goes (next.goto pc) :=
  ⟨h.listeners, h.ioThread, h.loops, h.threads, h.created, h.absent⟩

/-- A worker other than the one that is written is as it was. -/
theorem setWorker_created (x : Lifetime) (i : Nat) (thread : WorkerThread PoolTask) (j : Nat) :
    ((x.setWorker i thread).workers j).pc.created =
      if j = i then thread.pc.created else (x.workers j).pc.created := by
  simp only [setWorker, update_apply]
  split <;> rfl

theorem Goes.startWorker {i : Nat} {thread : WorkerThread PoolTask} (hpc : x.pc = .startWorker i)
    (h : (x.workers i).pc.created = true → thread.pc.created = true) :
    x.Goes (x.setWorker i thread) where
  listeners := rfl
  ioThread := fun _ => rfl
  loops := fun _ hloop => hloop
  threads := ⟨[], (List.append_nil _).symm, by simp⟩
  created := by
    intro j hj
    rw [setWorker_created]
    split
    · rename_i hji
      exact h (hji ▸ hj)
    · exact hj
  absent := fun hne => absurd hpc (hne i)

theorem Goes.setWorker {i : Nat} {thread : WorkerThread PoolTask}
    (h : thread.pc.created = (x.workers i).pc.created) : x.Goes (x.setWorker i thread) := by
  have hsame : ∀ j, ((x.setWorker i thread).workers j).pc.created = (x.workers j).pc.created := by
    intro j
    rw [setWorker_created]
    split
    · rename_i hji
      rw [h, hji]
    · rfl
  exact { Goes.refl x with
    created := fun j hj => (hsame j).trans hj
    absent := fun _ j hj => (hsame j).trans hj }

theorem stopListener_loop (ctl : EpollCtl) (x : Lifetime) (t l u : Nat) :
    ((x.stopListener ctl t l).io u).loop.start = (x.io u).loop.start :=
  update_same x.io t _ (fun io => io.loop.start) (xvIoStop_start ..) u

theorem stopListener_ioThread (ctl : EpollCtl) (x : Lifetime) (t l m : Nat) :
    ((x.stopListener ctl t l).listener m).ioThread = (x.listener m).ioThread :=
  update_same x.listener l _ Listener.ioThread (by rfl) m

theorem Goes.stopListener (ctl : EpollCtl) (x : Lifetime) (t l : Nat) :
    x.Goes (x.stopListener ctl t l) where
  listeners := rfl
  ioThread := x.stopListener_ioThread ctl t l
  loops := fun u hu => x.stopListener_loop ctl t l u ▸ hu
  threads := ⟨[], (List.append_nil _).symm, by simp⟩
  created := fun _ hi => hi
  absent := fun _ _ hi => hi

theorem Goes.stopIoThread (x : Lifetime) (t : Nat) : x.Goes (x.stopIoThread t) where
  listeners := rfl
  ioThread := fun _ => rfl
  loops := by
    intro u hu
    by_cases hut : u = t
    · subst hut
      simp [Lifetime.stopIoThread, xvLoopBreak] at hu
    · simpa only [Lifetime.stopIoThread, update_of_ne hut] using hu
  threads := ⟨[], (List.append_nil _).symm, by simp⟩
  created := fun _ hi => hi
  absent := fun _ _ hi => hi

theorem Goes.free (x : Lifetime) (l : Nat) :
    x.Goes (x.setListener l { x.listener l with freed := true }) where
  listeners := rfl
  ioThread := update_same x.listener l _ Listener.ioThread (by rfl)
  loops := fun _ hu => hu
  threads := ⟨[], (List.append_nil _).symm, by simp⟩
  created := fun _ hi => hi
  absent := fun _ _ hi => hi

theorem Goes.stopBack {next : Lifetime} (h : x.Goes next) (ret : Int) (caller : Caller) :
    x.Goes (next.stopBack ret caller) := by
  cases caller with
  | user => exact ⟨h.listeners, h.ioThread, h.loops, h.threads, h.created, h.absent⟩
  | destroy => exact h.goto _

/-- Every instruction of a call. -/
theorem go_goes {watched created : Bool} (h : x.go cfg ctl watched created = some x') :
    x.Goes x' := by
  have hstop : ∀ i, (xvWorkerThreadStop (x.workers i)).pc.created = (x.workers i).pc.created :=
    fun _ => rfl
  have hsend : ∀ i, (x.workers i).send.pc.created = (x.workers i).pc.created := fun _ => rfl
  have hstep := go_step h
  generalize hpc : x.pc = pc at hstep
  cases hstep with
  | startWorker watched created =>
      refine (Goes.startWorker hpc fun hi => ?_).goto _
      exact WorkerThread.startWith_created hi watched created
  | startIo => exact { Goes.refl x with threads := ⟨[⟨_, .asyncs⟩], rfl, by simp⟩ }
  | startFailed | started | destroyIo => exact { Goes.refl x with }
  | stopListener => exact (Goes.stopListener ctl x _ _).goto _
  | stopIo => exact (Goes.stopIoThread x _).goto _
  | stopWorker | poolStop | workerStop => exact (Goes.setWorker (hstop _)).goto _
  | workerSend => exact (Goes.setWorker (hsend _)).goto _
  | destroyListener => exact (Goes.free x _).goto _
  | stopped => exact (Goes.refl x).stopBack _ _
  | workersStarted | listenersStopped | ioStopped | listenersDestroyed | ioDestroyed
  | poolStopped | destroyed | workerJoin => exact (Goes.refl x).goto _

/-- A thread in `io_thread_entry` leaves the list, the calls and the workers alone, and breaks
no loop. -/
structure Enters (x next : Lifetime) : Prop where
  start : next.start = x.start
  listeners : next.listeners = x.listeners
  loops : ∀ t, (next.io t).loop.start = (x.io t).loop.start
  ioFreed : next.ioFreed = x.ioFreed
  workers : next.workers = x.workers
  pc : next.pc = x.pc
  freed : ∀ l, (next.listener l).freed = (x.listener l).freed

theorem Enters.refl (x : Lifetime) : x.Enters x :=
  ⟨rfl, rfl, fun _ => rfl, rfl, rfl, rfl, fun _ => rfl⟩

theorem addListener_enters (ctl : EpollCtl) (x : Lifetime) (t l : Nat) :
    x.Enters (x.addListener ctl t l) := by
  refine ⟨rfl, rfl, ?_, rfl, rfl, rfl, ?_⟩
  · exact update_same x.io t _ (fun io => io.loop.start) (xvIoStart_start ..)
  · exact update_same x.listener l _ Listener.freed (by rfl)

theorem delListener_enters (ctl : EpollCtl) (x : Lifetime) (t l : Nat) :
    x.Enters (x.delListener ctl t l) := by
  refine ⟨rfl, rfl, ?_, rfl, rfl, rfl, ?_⟩
  · exact update_same x.io t _ (fun io => io.loop.start) (xvIoStop_start ..)
  · exact update_same x.listener l _ Listener.freed (by rfl)

theorem addListener_ioThread (ctl : EpollCtl) (x : Lifetime) (t l m : Nat) :
    ((x.addListener ctl t l).listener m).ioThread =
      if m = l then some t else (x.listener m).ioThread := by
  simp only [addListener, setLoop, setListener, update_apply]
  split <;> rfl

theorem delListener_ioThread (ctl : EpollCtl) (x : Lifetime) (t l m : Nat) :
    ((x.delListener ctl t l).listener m).ioThread =
      if m = l then none else (x.listener m).ioThread := by
  simp only [delListener, setLoop, setListener, update_apply]
  split <;> rfl

theorem entry_enters {t : Nat} {pc : EntryPc} {next : Lifetime × EntryPc}
    (h : x.entry ctl t pc = some next) : x.Enters next.1 := by
  cases entry_step h with
  | lead | follow =>
      exact { Enters.refl x with
        loops := update_same x.io t _ (fun io => io.loop.start) (by rfl) }
  | add => exact addListener_enters ctl x t _
  | del => exact delListener_enters ctl x t _
  | addFirst | added | leaderBroken | broken | delFirst | deleted => exact Enters.refl x

theorem thread_some {k : Nat} (h : x.step cfg ctl (.thread k) = some x') :
    ∃ e next, x.threads[k]? = some e ∧ x.ioFreed e.idx = false ∧
      x.entry ctl e.idx e.pc = some next ∧
      x' = { next.1 with threads := x.threads.set k { e with pc := next.2 } } := by
  simp only [step] at h
  split at h
  · simp at h
  · rename_i e he
    simp only [Option.ite_none_left_eq_some, Option.map_eq_some_iff] at h
    obtain ⟨hfreed, next, hnext, rfl⟩ := h
    exact ⟨e, next, he, by simpa using hfreed, hnext, rfl⟩

end Lifetime

/-! ### The pointer is there -/

/-- The thread has left its loop and deletes listeners. -/
def EntryPc.deleting : EntryPc → Bool
  | .delFirst | .del _ => true
  | _ => false

/-- The call is `xv_service_destroy`. -/
def CallPc.destroying : CallPc → Bool
  | .idle | .startWorker _ | .startIo _ => false
  | .stopListener _ caller | .stopIo _ caller | .stopWorker _ caller => caller = .destroy
  | _ => true

namespace Lifetime

/-- Every worker has been created. -/
def AllCreated (cfg : Config) (x : Lifetime) : Prop :=
  ∀ i, i < cfg.workerThreadCount → (x.workers i).pc.created = true

/-- The leader has set `io_thread` of every listener and its loop is not broken. -/
def AllAdded (x : Lifetime) : Prop :=
  (x.io 0).loop.start = true ∧ ∀ l ∈ x.listeners, (x.listener l).ioThread ≠ none

/-- What a call needs: to stop a started service with listeners, that the leader has added them
all; to destroy any, that its workers were created. -/
def Permits (cfg : Config) (x : Lifetime) : LifeLabel → Prop
  | .call .stop => x.start = true → x.listeners ≠ [] → x.AllAdded
  | .call .destroy =>
      (x.start = true → x.listeners ≠ [] → x.AllAdded) ∧ x.AllCreated cfg
  | _ => True

instance (cfg : Config) (x : Lifetime) : DecidablePred (x.Permits cfg)
  | .call .stop => inferInstanceAs (Decidable (_ → _ → _ ∧ ∀ l ∈ _, _))
  | .call .destroy =>
      inferInstanceAs (Decidable ((_ → _ → _ ∧ ∀ l ∈ _, _) ∧ ∀ i, i < _ → _))
  | .call (.addListen _) | .call .start | .go _ _ | .thread _ | .worker _ _ =>
      inferInstanceAs (Decidable True)

/-- The next instruction follows `listener->io_thread` of a listener where it is `NULL`. -/
def UsesNull (x : Lifetime) : Prop :=
  ∃ l rest caller, x.pc = .stopListener (l :: rest) caller ∧ (x.listener l).ioThread = none

/-- The next instruction joins a worker that was never created. -/
def JoinsAbsent (x : Lifetime) : Prop :=
  ∃ i, x.pc = .workerJoin i ∧ (x.workers i).pc.created = false

structure Sound (cfg : Config) (x : Lifetime) : Prop where
  /-- No thread deletes listeners before the leader's loop is broken. -/
  entering : (x.io 0).loop.start = true → ∀ e ∈ x.threads, e.pc.deleting = false
  stopping : ∀ rest caller, x.pc = .stopListener rest caller → rest ≠ [] →
    (x.io 0).loop.start = true ∧ ∀ l ∈ rest, (x.listener l).ioThread ≠ none
  created : x.pc.destroying = true → x.AllCreated cfg
  joining : ∀ i, x.pc = .workerSend i ∨ x.pc = .workerJoin i → i < cfg.workerThreadCount
/-- Where the next instruction of a call leads. -/
theorem go_pc {watched created : Bool} (h : x.go cfg ctl watched created = some x') :
    (x'.pc.destroying = true → x.pc.destroying = true) ∧
      (∀ rest caller, x'.pc = .stopListener rest caller →
        ∃ l t, x.pc = .stopListener (l :: rest) caller ∧
          x' = (x.stopListener ctl t l).goto (.stopListener rest caller)) ∧
      ∀ i, x'.pc = .workerSend i ∨ x'.pc = .workerJoin i →
        i < cfg.workerThreadCount ∨ x.pc = .workerSend i := by
  have hstep := go_step h
  generalize x.pc = pc at hstep
  cases hstep with
  | @stopListener l t rest caller =>
      refine ⟨by simp [goto, CallPc.destroying], ?_, by simp [goto]⟩
      intro rest' caller' heq
      simp only [goto, CallPc.stopListener.injEq] at heq
      obtain ⟨rfl, rfl⟩ := heq
      exact ⟨l, t, rfl, rfl⟩
  | workerStop hi =>
      refine ⟨by simp [CallPc.destroying], by simp [goto], ?_⟩
      intro j hj
      simp only [goto, CallPc.workerSend.injEq, reduceCtorEq, or_false] at hj
      exact Or.inl (hj ▸ hi)
  | @stopped _ caller => cases caller <;> simp [stopBack, back, goto, CallPc.destroying]
  | startFailed | started => simp [back, CallPc.destroying]
  | startWorker | workersStarted | startIo | listenersStopped | stopIo | ioStopped
  | stopWorker | destroyListener | listenersDestroyed | destroyIo | ioDestroyed | poolStop
  | poolStopped | destroyed | workerSend | workerJoin => simp [goto, CallPc.destroying]

theorem Sound.go (hs : x.Sound cfg) {watched created : Bool}
    (h : x.go cfg ctl watched created = some x') : x'.Sound cfg := by
  have hgoes := go_goes h
  obtain ⟨hdestroying, hstopping, hjoining⟩ := go_pc h
  refine ⟨fun hloop e he => ?_, fun rest caller hpc hne => ?_, fun hpc i hi => ?_, fun i hi => ?_⟩
  · obtain ⟨new, hnew, hasyncs⟩ := hgoes.threads
    rw [hnew] at he
    rcases List.mem_append.mp he with hold | hfresh
    · exact hs.entering (hgoes.loops 0 hloop) e hold
    · rw [hasyncs e hfresh]
      rfl
  · obtain ⟨l, t, hold, rfl⟩ := hstopping rest caller hpc
    obtain ⟨hloop, hset⟩ := hs.stopping _ _ hold (by simp)
    refine ⟨(x.stopListener_loop ctl t l 0).trans hloop, fun m hm => ?_⟩
    rw [hgoes.ioThread]
    exact hset m (List.mem_cons_of_mem _ hm)
  · exact hgoes.created i (hs.created (hdestroying hpc) i hi)
  · exact (hjoining i hi).elim id fun hsend => hs.joining i (Or.inl hsend)

/-- A thread that does not delete clears no `io_thread`. -/
theorem entry_ioThread {t : Nat} {pc : EntryPc} {next : Lifetime × EntryPc}
    (h : x.entry ctl t pc = some next) (hpc : pc.deleting = false) {l : Nat}
    (hl : (x.listener l).ioThread ≠ none) : (next.1.listener l).ioThread ≠ none := by
  cases entry_step h with
  | @add m rest =>
      rw [addListener_ioThread]
      split
      · simp
      · exact hl
  | del => cases hpc
  | lead | follow | addFirst | added | leaderBroken | broken | delFirst | deleted => exact hl

/-- A thread begins to delete when it finds its loop broken. -/
theorem entry_deleting {t : Nat} {pc : EntryPc} {next : Lifetime × EntryPc}
    (h : x.entry ctl t pc = some next) (hpc : pc.deleting = false)
    (hnext : next.2.deleting = true) : t = 0 ∧ (x.io 0).loop.start = false := by
  cases entry_step h with
  | leaderBroken ht hloop => exact ⟨ht, ht ▸ hloop⟩
  | delFirst | del | deleted => cases hpc
  | lead | follow | addFirst | add | added | broken => cases hnext

theorem Sound.thread (hs : x.Sound cfg) {k : Nat}
    (h : x.step cfg ctl (.thread k) = some x') : x'.Sound cfg := by
  obtain ⟨e, next, hk, -, hnext, rfl⟩ := thread_some h
  have henters := entry_enters hnext
  have he : e ∈ x.threads := List.mem_of_getElem? hk
  refine ⟨fun hloop f hf => ?_, fun rest caller hpc hne => ?_, fun hpc => ?_, fun i hi => ?_⟩
  · have hloop : (x.io 0).loop.start = true := henters.loops 0 ▸ hloop
    rcases List.mem_or_eq_of_mem_set hf with hold | rfl
    · exact hs.entering hloop f hold
    · by_contra hdeleting
      have hbroken := entry_deleting hnext (hs.entering hloop e he) (by simpa using hdeleting)
      exact absurd (hbroken.2.symm.trans hloop) (by simp)
  · obtain ⟨hloop, hset⟩ := hs.stopping rest caller (henters.pc ▸ hpc) hne
    refine ⟨(henters.loops 0).trans hloop, fun l hl => ?_⟩
    exact entry_ioThread hnext (hs.entering hloop e he) (hset l hl)
  · have hcreated := hs.created (henters.pc ▸ hpc)
    exact fun i hi => (congrArg (fun w => (w i).pc.created) henters.workers).trans (hcreated i hi)
  · exact hs.joining i (henters.pc ▸ hi)

theorem Sound.worker (hs : x.Sound cfg) {i : Nat} {move : WorkerMove}
    (h : x.step cfg ctl (.worker i move) = some x') : x'.Sound cfg := by
  obtain ⟨thread, hmove, rfl⟩ := Option.map_eq_some_iff.mp h
  refine ⟨hs.entering, hs.stopping, fun hpc j hj => ?_, hs.joining⟩
  rw [setWorker_created]
  split
  · rename_i hji
    exact WorkerThread.move_created (hji ▸ hs.created hpc j hj) hmove
  · exact hs.created hpc j hj

theorem Sound.call (hs : x.Sound cfg) {call : ApiCall} (hok : x.Permits cfg (.call call)) :
    (x.call call).Sound cfg := by
  have hquiet : ∀ {next : Lifetime}, next.pc = .idle → next.threads = x.threads →
      next.io = x.io → next.Sound cfg := by
    intro next hpc hthreads hio
    refine ⟨fun hloop => ?_, fun rest caller heq => ?_, fun hdestroying => ?_, fun i hi => ?_⟩
    · exact hthreads ▸ hs.entering (hio ▸ hloop)
    · exact absurd (hpc.symm.trans heq) (by simp)
    · cases hpc ▸ hdestroying
    · exact absurd hi (by simp [hpc])
  cases call with
  | addListen fd => cases fd <;> exact hquiet rfl rfl rfl
  | start =>
      simp only [Lifetime.call, startCall]
      split
      · exact hquiet rfl rfl rfl
      · exact ⟨hs.entering, by simp, nofun, by simp⟩
  | stop =>
      simp only [Lifetime.call, stopCall]
      split
      · exact hquiet rfl rfl rfl
      · rename_i hstart
        refine ⟨hs.entering, fun rest caller heq hne => ?_, nofun, by simp⟩
        simp only [CallPc.stopListener.injEq] at heq
        obtain ⟨rfl, -⟩ := heq
        exact hok (by simpa using hstart) hne
  | destroy =>
      obtain ⟨hadded, hcreated⟩ := hok
      simp only [Lifetime.call, stopCall]
      split
      · exact ⟨hs.entering, nofun, fun _ => hcreated, by simp [stopBack, goto]⟩
      · rename_i hstart
        refine ⟨hs.entering, fun rest caller heq hne => ?_, fun _ => hcreated, by simp⟩
        simp only [CallPc.stopListener.injEq] at heq
        obtain ⟨rfl, -⟩ := heq
        exact hadded (by simpa using hstart) hne

theorem Sound.step (hs : x.Sound cfg) {label : LifeLabel} (hok : x.Permits cfg label)
    (h : x.step cfg ctl label = some x') : x'.Sound cfg := by
  cases label with
  | call call =>
      simp only [Lifetime.step, Option.ite_none_right_eq_some] at h
      exact Option.some.inj h.2 ▸ hs.call hok
  | go watched created => exact hs.go h
  | thread k => exact hs.thread h
  | worker i move => exact hs.worker h

theorem Sound.init : init.Sound cfg := ⟨fun _ => nofun, nofun, nofun, by simp [Lifetime.init]⟩

/-- **In a run whose calls all meet what they need, no call follows `NULL` or joins a worker
that was never created.** -/
theorem safe (h : Reach (Lifetime.step cfg ctl) (Permits cfg) (· = Lifetime.init) x) :
    ¬ x.UsesNull ∧ ¬ x.JoinsAbsent := by
  have hs : x.Sound cfg := by
    refine h.invariant (I := Sound cfg) ?_ fun _ _ _ hy hok hstep => hy.step hok hstep
    intro y hy
    subst hy
    exact Sound.init
  constructor
  · rintro ⟨l, rest, caller, hpc, hnull⟩
    exact (hs.stopping _ _ hpc (by simp)).2 l List.mem_cons_self hnull
  · rintro ⟨i, hpc, habsent⟩
    have hi := hs.joining i (Or.inr hpc)
    exact absurd (habsent.symm.trans (hs.created (by rw [hpc]; rfl) i hi)) (by simp)

end Lifetime

end Libxv
