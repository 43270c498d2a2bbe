/-
Starting a service.

`xv_service_start` sets its flag and starts the pool, whose result it does not look at, before
it creates the io threads; when one of these cannot be created it returns with the flag set and
the earlier threads at work.  Nothing mends the loops that `xv_service_stop` has broken, so the
io threads of a service that is started again leave at once.  What remains is the first start,
when every call succeeds: then all threads run by the time it returns, in any interleaving.
-/
import Libxv.Poll
import Libxv.Proofs.Service.PoolStart

namespace Libxv

open Function Transition WorkerThread

/-- The thread has not come to the end of its loop. -/
def EntryPc.serving : EntryPc → Bool
  | .asyncs | .addFirst | .add _ | .loop => true
  | .delFirst | .del _ | .exited => false

namespace Lifetime

variable {cfg : Config} {ctl : EpollCtl} {ω : StartOutcomes} {x x' y y' : Lifetime}

/-- What may happen while `xv_service_start` runs. -/
def During (ω : StartOutcomes) (x : Lifetime) : LifeLabel → Prop
  | .call _ => False
  | .go watched created =>
      (∀ i, x.pc = .startWorker i → watched = ω.watched i ∧ created = ω.worker i) ∧
        ∀ t, x.pc = .startIo t → created = ω.io t
  | .thread _ | .worker _ _ => True

/-- The call has begun at `x`. -/
abbrev Starts (cfg : Config) (ctl : EpollCtl) (ω : StartOutcomes) (x : Lifetime) :
    Lifetime → Prop :=
  Reach (step cfg ctl) (During ω) (· = x.startCall)

/-- A thread is on its way into the loop of io thread `t`, or in it. -/
def Serving (x : Lifetime) (t : Nat) : Prop :=
  ∃ (k : Nat) (pc : EntryPc), x.threads[k]? = some ⟨t, pc⟩ ∧ pc.serving = true

/-- The io thread is there, and goes on until its loop is broken. -/
structure IoRunning (x : Lifetime) (t : Nat) : Prop where
  loop : (x.io t).loop.start = true
  serving : x.Serving t

/-- What is asked of a call that has returned: `XV_OK` means that the service was not started and
all its threads run, `XV_ERR` on a stopped service that the flags are as before and that no
thread is left that was not there. -/
structure AllOrNothing (cfg : Config) (x y : Lifetime) : Prop where
  ok : y.ret = xvOk → x.start = false ∧
    (∀ i, i < cfg.workerThreadCount → (y.workers i).Running) ∧
      ∀ t, t < cfg.ioThreadCount → y.IoRunning t
  err : y.ret = xvErr → x.start = false → y.start = x.start ∧
    (∀ i, i < cfg.workerThreadCount → (y.workers i).start = (x.workers i).start ∧
      ((y.workers i).alive = true → (x.workers i).alive = true)) ∧
    ∀ e ∈ y.threads.drop x.threads.length, e.pc = .exited

/-- A started service is left alone, and on any service every run of the call to its return is
as it should be. -/
structure StartsWhole (cfg : Config) (ctl : EpollCtl) (ω : StartOutcomes) (x : Lifetime) :
    Prop where
  started : x.start = true → x.startCall = { x with ret := xvErr }
  returns : ∀ y, Starts cfg ctl ω x y → y.pc = .idle → AllOrNothing cfg x y

/-- When `xv_service_start` is in order: on a started service, or where no loop has been broken
and every call succeeds. -/
def StartFits (cfg : Config) (ω : StartOutcomes) (x : Lifetime) : Prop :=
  x.start = true ∨
    (∀ t, t < cfg.ioThreadCount → (x.io t).loop.start = true) ∧
      (∀ i, i < cfg.workerThreadCount → ω.watched i = true ∧ ω.worker i = true) ∧
        ∀ t, t < cfg.ioThreadCount → ω.io t = true

/-! ### A service that has not been started -/

/-- `xv_service_stop` has yet to break the first loop. -/
def CallPc.Stopping : CallPc → Prop
  | .stopListener _ _ | .stopIo 0 _ => True
  | _ => False

/-- The workers are new as long as the flag has not been set, and once it has been, it is still
set, or the first loop is broken or about to be. -/
structure Begun (x : Lifetime) : Prop where
  starting : ∀ i, x.pc = .startWorker i → x.start = true
  begun : x.start = true ∨ (x.io 0).loop.start = false ∨ CallPc.Stopping x.pc ∨
    ∀ i, (x.workers i).Fresh

theorem Begun.init : Lifetime.init.Begun := by
  refine ⟨fun i hi => absurd hi (by simp [Lifetime.init]), .inr (.inr (.inr fun i => ?_))⟩
  exact ⟨rfl, rfl, rfl⟩

/-- Writing one worker. -/
theorem fresh_setWorker (h : ∀ j, (x.workers j).Fresh) {i : Nat}
    {thread : WorkerThread PoolTask} (hi : thread.Fresh) (j : Nat) :
    ((x.setWorker i thread).workers j).Fresh := by
  by_cases hji : j = i
  · subst hji
    simpa only [setWorker, update_self] using hi
  · simpa only [setWorker, update_of_ne hji] using h j

/-- What an instruction of a call does to the flag, to new workers and to the place before the
first loop is broken. -/
structure GoesOn (x next : Lifetime) : Prop where
  start : next.start = x.start
  starting : ∀ i, next.pc = .startWorker i → ∃ j, x.pc = .startWorker j
  stopping : CallPc.Stopping x.pc →
    CallPc.Stopping next.pc ∨ (next.io 0).loop.start = false
  fresh : (∀ i, x.pc ≠ .startWorker i) → (∀ i, (x.workers i).Fresh) →
    ∀ i, (next.workers i).Fresh

/-- The pool is starting its workers. -/
def CallPc.StartsWorker : CallPc → Prop
  | .startWorker _ => True
  | _ => False

/-- An instruction that does not go on to start a worker. -/
theorem GoesOn.of_calm {next : Lifetime} (hne : ¬ CallPc.StartsWorker next.pc)
    (hstart : next.start = x.start)
    (hstopping : CallPc.Stopping x.pc → CallPc.Stopping next.pc ∨ (next.io 0).loop.start = false)
    (hfresh : (∀ i, (x.workers i).Fresh) → ∀ i, (next.workers i).Fresh) : x.GoesOn next where
  start := hstart
  starting := by
    intro i hi
    rw [hi] at hne
    exact absurd trivial hne
  stopping := hstopping
  fresh := fun _ => hfresh

/-- Nor is it a stop before the first broken loop. -/
theorem GoesOn.of_later {next : Lifetime} {pc : CallPc} (hpc : x.pc = pc)
    (hpcs : ¬ CallPc.Stopping pc) (hne : ¬ CallPc.StartsWorker next.pc)
    (hstart : next.start = x.start)
    (hfresh : (∀ i, (x.workers i).Fresh) → ∀ i, (next.workers i).Fresh) : x.GoesOn next := by
  refine .of_calm hne hstart (fun hs => ?_) hfresh
  rw [hpc] at hs
  exact absurd hs hpcs

theorem go_goesOn {watched created : Bool} (h : x.go cfg ctl watched created = some x') :
    x.GoesOn x' := by
  have hstop : (∀ i, (x.workers i).Fresh) → ∀ i, (xvWorkerThreadStop (x.workers i)).Fresh :=
    fun hfresh i => ⟨rfl, (hfresh i).asyncStart, (hfresh i).pc⟩
  have hsend : (∀ i, (x.workers i).Fresh) → ∀ i, (x.workers i).send.Fresh :=
    fun hfresh i => ⟨(hfresh i).start, (hfresh i).asyncStart, (hfresh i).pc⟩
  have hstep := go_step h
  generalize hpc : x.pc = pc at hstep
  -- With the program counters in sight, what `of_calm` and `of_later` deny is `False`.
  cases hstep with
  | @startWorker i =>
      refine ⟨rfl, fun _ _ => ⟨i, hpc⟩, fun hs => ?_, fun hne => absurd hpc (hne i)⟩
      rw [hpc] at hs
      exact hs.elim
  | stopListener | listenersStopped => exact .of_calm id rfl (fun _ => .inl trivial) id
  | @stopIo i caller =>
      cases i with
      | zero =>
          refine .of_calm id rfl (fun _ => .inr ?_) id
          simp [goto, stopIoThread, xvLoopBreak]
      | succ i => exact .of_later hpc id id rfl id
  | @ioStopped i caller hi =>
      cases i with
      | zero => exact absurd cfg.ioPos hi
      | succ i => exact .of_later hpc id id rfl id
  | @stopped i caller => cases caller <;> exact .of_later hpc id id rfl id
  | stopWorker | poolStop | workerStop =>
      exact .of_later hpc id id rfl fun hfresh => fresh_setWorker hfresh (hstop hfresh _)
  | workerSend =>
      exact .of_later hpc id id rfl fun hfresh => fresh_setWorker hfresh (hsend hfresh _)
  | workersStarted | startIo | startFailed | started | destroyListener | listenersDestroyed
  | destroyIo | ioDestroyed | poolStopped | destroyed | workerJoin =>
      exact .of_later hpc id id rfl id

theorem Begun.go (hx : x.Begun) {watched created : Bool}
    (h : x.go cfg ctl watched created = some x') : x'.Begun := by
  have hon := go_goesOn h
  refine ⟨fun i hi => ?_, ?_⟩
  · obtain ⟨j, hj⟩ := hon.starting i hi
    exact hon.start.trans (hx.starting j hj)
  · rcases hx.begun with hstart | hbroken | hstopping | hfresh
    · exact .inl (hon.start.trans hstart)
    · refine .inr (.inl (Bool.eq_false_iff.mpr fun hloop => ?_))
      exact absurd (hbroken.symm.trans ((go_goes h).loops 0 hloop)) (by simp)
    · rcases hon.stopping hstopping with hstill | hbroken
      · exact .inr (.inr (.inl hstill))
      · exact .inr (.inl hbroken)
    · by_cases hne : ∀ i, x.pc ≠ .startWorker i
      · exact .inr (.inr (.inr (hon.fresh hne hfresh)))
      · obtain ⟨i, hi⟩ : ∃ i, x.pc = .startWorker i := by simpa using hne
        exact .inl (hon.start.trans (hx.starting i hi))

/-- A step that leaves alone what counts, and starts no worker. -/
theorem Begun.of_same {next : Lifetime} (hx : x.Begun) (hstopping : ¬ CallPc.Stopping x.pc)
    (hstart : next.start = x.start) (hio : next.io = x.io) (hworkers : next.workers = x.workers)
    (hne : ∀ i, next.pc ≠ .startWorker i) : next.Begun := by
  refine ⟨fun i hi => absurd hi (hne i), ?_⟩
  rw [hstart, hio, hworkers]
  exact hx.begun.imp_right fun h => h.imp_right fun h => .inr (h.resolve_left hstopping)

theorem Begun.call (hx : x.Begun) (hidle : x.pc = .idle) (call : ApiCall) :
    (x.call call).Begun := by
  have hquiet : ¬ CallPc.Stopping x.pc := by simp [hidle, CallPc.Stopping]
  have hstop : ∀ caller, (x.stopCall caller).Begun := by
    intro caller
    unfold stopCall
    split
    · cases caller with
      | user => exact hx.of_same hquiet rfl rfl rfl nofun
      | destroy => exact hx.of_same hquiet rfl rfl rfl nofun
    · exact ⟨by simp, .inr (.inr (.inl trivial))⟩
  cases call with
  | addListen fd =>
      cases fd with
      | none => exact hx.of_same hquiet rfl rfl rfl nofun
      | some fd => exact hx.of_same hquiet rfl rfl rfl nofun
  | start =>
      show x.startCall.Begun
      unfold startCall
      split
      next hstart => exact ⟨nofun, .inl hstart⟩
      next _ => exact ⟨fun _ _ => rfl, .inl rfl⟩
  | stop => exact hstop .user
  | destroy => exact hstop .destroy

theorem Begun.step (hx : x.Begun) {label : LifeLabel} (h : x.step cfg ctl label = some x') :
    x'.Begun := by
  cases label with
  | call call =>
      simp only [Lifetime.step, Option.ite_none_right_eq_some] at h
      exact Option.some.inj h.2 ▸ hx.call h.1 call
  | go watched created => exact hx.go h
  | thread k =>
      obtain ⟨e, next, -, -, hnext, rfl⟩ := thread_some h
      have henters := entry_enters hnext
      refine ⟨fun i hi => henters.start.trans (hx.starting i (henters.pc ▸ hi)), ?_⟩
      show next.1.start = true ∨ (next.1.io 0).loop.start = false ∨ CallPc.Stopping next.1.pc ∨
        ∀ i, (next.1.workers i).Fresh
      rw [henters.start, henters.loops, henters.pc, henters.workers]
      exact hx.begun
  | worker i m =>
      obtain ⟨thread, hmove, rfl⟩ := Option.map_eq_some_iff.mp h
      refine ⟨hx.starting, hx.begun.imp_right fun h => h.imp_right fun h => h.imp_right ?_⟩
      exact fun hfresh => fresh_setWorker hfresh ((hfresh i).move hmove)

/-- The workers of a service that stands still, unstarted and with its loops whole, are new. -/
theorem fresh_of_reachable (h : Reachable (Lifetime.step cfg ctl) (· = Lifetime.init) x)
    (hidle : x.pc = .idle) (hstart : x.start = false) (hloop : (x.io 0).loop.start = true)
    (i : Nat) : (x.workers i).Fresh := by
  have hx : x.Begun := by
    refine h.invariant (I := Begun) ?_ fun _ _ _ hy _ hstep => hy.step hstep
    rintro _ rfl
    exact .init
  rcases hx.begun with hstarted | hbroken | hstopping | hfresh
  · exact absurd (hstart.symm.trans hstarted) (by simp)
  · exact absurd (hloop.symm.trans hbroken) (by simp)
  · rw [hidle] at hstopping
    exact absurd hstopping id
  · exact hfresh i

/-! ### A call that is left alone -/

/-- The io threads are created up to the first that cannot be. -/
theorem creates_alone (k : Nat) : ∀ {s : Lifetime} {t : Nat}, Starts cfg ctl ω x s →
    s.pc = .startIo t → t + k = cfg.ioThreadCount → (∀ u, u < t → ω.io u = true) →
    ∃ y, Starts cfg ctl ω x y ∧ y.pc = .idle ∧ y.start = s.start ∧ y.io = s.io ∧
      y.workers = s.workers ∧
      (y.ret = xvErr ∨ y.ret = xvOk ∧ ∀ u, u < cfg.ioThreadCount → ω.io u = true) := by
  have hgoes : ∀ {s s' : Lifetime} {t : Nat}, Starts cfg ctl ω x s → s.pc = .startIo t →
      s.go cfg ctl true (ω.io t) = some s' → Starts cfg ctl ω x s' := by
    intro s s' t hs hpc hgo
    refine .next (i := .go true (ω.io t)) hs ⟨fun i hi => ?_, fun u hu => ?_⟩ hgo
    · cases hpc.symm.trans hi
    · obtain rfl := CallPc.startIo.inj (hpc.symm.trans hu)
      rfl
  induction k with
  | zero =>
      intro s t hs hpc ht hall
      have hgo : s.go cfg ctl true (ω.io t) = some (s.back xvOk) := by
        have hge : ¬ t < cfg.ioThreadCount := by omega
        simp [go, hpc, hge]
      refine ⟨_, hgoes hs hpc hgo, rfl, rfl, rfl, rfl, .inr ⟨rfl, fun u hu => hall u ?_⟩⟩
      omega
  | succ k ih =>
      intro s t hs hpc ht hall
      have hlt : t < cfg.ioThreadCount := by omega
      cases hcreated : ω.io t with
      | false =>
          have hgo : s.go cfg ctl true (ω.io t) = some (s.back xvErr) := by
            simp [go, hpc, hlt, hcreated]
          exact ⟨_, hgoes hs hpc hgo, rfl, rfl, rfl, rfl, .inl rfl⟩
      | true =>
          have hgo : s.go cfg ctl true (ω.io t) =
              some { s with threads := s.threads ++ [⟨t, .asyncs⟩], pc := .startIo (t + 1) } := by
            simp [go, hpc, hlt, hcreated]
          have hnow : ∀ u, u < t + 1 → ω.io u = true := by
            intro u hu
            rcases Nat.lt_succ_iff_lt_or_eq.mp hu with hbefore | rfl
            · exact hall u hbefore
            · exact hcreated
          obtain ⟨y, hy, hidle, hset, hio, hworkers, hret⟩ :=
            ih (hgoes hs hpc hgo) rfl (by omega) hnow
          exact ⟨y, hy, hidle, hset, hio, hworkers, hret⟩

/-- The rounds of the call, one after the other. -/
theorem starts_alone (cfg : Config) (ctl : EpollCtl) (ω : StartOutcomes)
    (hstart : x.start = false) :
    ∃ y, Starts cfg ctl ω x y ∧ y.pc = .idle ∧ y.start = true ∧ y.io = x.io ∧
      y.workers = startAll ω.watched ω.worker cfg.workerThreadCount x.workers ∧
      (y.ret = xvErr ∨ y.ret = xvOk ∧ ∀ u, u < cfg.ioThreadCount → ω.io u = true) := by
  have hcall : x.startCall = { x with start := true, pc := .startWorker 0 } := by
    simp [startCall, hstart]
  have hgoes : ∀ {s s' : Lifetime} {i : Nat}, Starts cfg ctl ω x s → s.pc = .startWorker i →
      s.go cfg ctl (ω.watched i) (ω.worker i) = some s' → Starts cfg ctl ω x s' := by
    intro s s' i hs hpc hgo
    refine .next (i := .go (ω.watched i) (ω.worker i)) hs ⟨fun j hj => ?_, fun t ht => ?_⟩ hgo
    · obtain rfl := CallPc.startWorker.inj (hpc.symm.trans hj)
      exact ⟨rfl, rfl⟩
    · cases hpc.symm.trans ht
  have hround : ∀ i (s : Lifetime), i < cfg.workerThreadCount → Starts cfg ctl ω x s →
      s.pc = .startWorker i ∧ s.start = true ∧ s.io = x.io ∧
        s.workers = startAll ω.watched ω.worker i x.workers →
      ∃ s', Starts cfg ctl ω x s' ∧ s'.pc = .startWorker (i + 1) ∧ s'.start = true ∧
        s'.io = x.io ∧ s'.workers = startAll ω.watched ω.worker (i + 1) x.workers := by
    intro i s hi hs hnow
    obtain ⟨hpc, hset, hio, hworkers⟩ := hnow
    have hgo : s.go cfg ctl (ω.watched i) (ω.worker i) =
        some ((s.setWorker i ((s.workers i).startWith (ω.watched i) (ω.worker i)).2).goto
          (.startWorker (i + 1))) := by
      simp [go, hpc, hi]
    refine ⟨_, hgoes hs hpc hgo, rfl, hset, hio, ?_⟩
    show update s.workers i _ = _
    rw [startAll_succ, hworkers]
  obtain ⟨s, hs, hpc, hset, hio, hworkers⟩ := Reach.count hround (Nat.zero_le _)
    (.start rfl) (by rw [hcall]; exact ⟨rfl, rfl, rfl, rfl⟩)
  have hgo : s.go cfg ctl (ω.watched cfg.workerThreadCount) (ω.worker cfg.workerThreadCount) =
      some (s.goto (.startIo 0)) := by
    simp [go, hpc]
  have hnone : ∀ u, u < 0 → ω.io u = true := fun u hu => absurd hu (Nat.not_lt_zero u)
  obtain ⟨y, hy, hidle, hyset, hyio, hyworkers, hret⟩ :=
    creates_alone cfg.ioThreadCount (hgoes hs hpc hgo) rfl (by omega) hnone
  exact ⟨y, hy, hidle, hyset.trans hset, hyio.trans hio, hyworkers.trans hworkers, hret⟩

/-! ### A call on a new service -/

/-- Before its loop is broken no thread leaves it. -/
theorem entry_serving {t : Nat} {pc : EntryPc} {next : Lifetime × EntryPc}
    (h : x.entry ctl t pc = some next) (hpc : pc.serving = true)
    (hloop : (x.io t).loop.start = true) : next.2.serving = true := by
  cases entry_step h with
  | lead | follow | addFirst | add | added => rfl
  | leaderBroken _ hbroken | broken _ hbroken => cases hloop.symm.trans hbroken
  | delFirst | del | deleted => cases hpc

/-- The threads the call has come past run; the workers it has not come to are new. -/
structure Halfway (cfg : Config) (y : Lifetime) : Prop where
  loops : ∀ t, t < cfg.ioThreadCount → (y.io t).loop.start = true
  phase : match y.pc with
    | .startWorker k => StartedTo cfg.workerThreadCount k y.workers
    | .startIo t => StartedTo cfg.workerThreadCount cfg.workerThreadCount y.workers ∧
        ∀ u, u < cfg.ioThreadCount → u < t → y.Serving u
    | .idle => y.ret = xvOk ∧
        StartedTo cfg.workerThreadCount cfg.workerThreadCount y.workers ∧
          ∀ u, u < cfg.ioThreadCount → y.Serving u
    | _ => False

theorem Serving.append {u : Nat} (h : y.Serving u) (new : List Entry) (pc : CallPc) :
    ({ y with threads := y.threads ++ new, pc := pc } : Lifetime).Serving u := by
  obtain ⟨k, entryPc, hk, hserving⟩ := h
  refine ⟨k, entryPc, ?_, hserving⟩
  show (y.threads ++ new)[k]? = _
  rw [List.getElem?_append_left (List.getElem?_eq_some_iff.mp hk).1]
  exact hk

/-- A thread that moves keeps its io thread served while the loop is whole. -/
theorem Serving.thread {k u : Nat} (h : y.Serving u) (hloop : (y.io u).loop.start = true)
    (hstep : y.step cfg ctl (.thread k) = some y') : y'.Serving u := by
  obtain ⟨e, next, hk, -, hnext, rfl⟩ := thread_some hstep
  obtain ⟨j, pc, hj, hserving⟩ := h
  by_cases hjk : j = k
  · subst hjk
    obtain rfl := Option.some.inj (hj.symm.trans hk)
    refine ⟨j, next.2, ?_, entry_serving hnext hserving hloop⟩
    exact List.getElem?_set_self (List.getElem?_eq_some_iff.mp hj).1
  · exact ⟨j, pc, (List.getElem?_set_ne (Ne.symm hjk)).trans hj, hserving⟩

theorem Halfway.go (h : y.Halfway cfg)
    (hworkers : ∀ i, i < cfg.workerThreadCount → ω.watched i = true ∧ ω.worker i = true)
    (hios : ∀ t, t < cfg.ioThreadCount → ω.io t = true) {watched created : Bool}
    (hduring : During ω y (.go watched created))
    (hgo : y.go cfg ctl watched created = some y') : y'.Halfway cfg := by
  have hphase := h.phase
  cases hpc : y.pc with
  | idle => exact absurd hgo (by simp [Lifetime.go, hpc])
  | startWorker k =>
      simp only [hpc] at hphase
      simp only [Lifetime.go, hpc] at hgo
      split at hgo
      next hk =>
        obtain rfl := Option.some.inj hgo
        obtain ⟨hwatched, hcreated⟩ := hduring.1 k hpc
        obtain ⟨hwatches, hcreates⟩ := hworkers k hk
        exact ⟨h.loops, hphase.next hk (hwatched.trans hwatches) (hcreated.trans hcreates)⟩
      next hk =>
        obtain rfl := Option.some.inj hgo
        refine ⟨h.loops, fun i hi => ?_, fun u _ hu => absurd hu (Nat.not_lt_zero u)⟩
        rw [if_pos hi]
        exact hphase.all (Nat.not_lt.mp hk) hi
  | startIo t =>
      simp only [hpc] at hphase
      simp only [Lifetime.go, hpc] at hgo
      split at hgo
      next ht =>
        rw [if_pos ((hduring.2 t hpc).trans (hios t ht))] at hgo
        obtain rfl := Option.some.inj hgo
        refine ⟨h.loops, hphase.1, fun u hlt hu => ?_⟩
        rcases Nat.lt_succ_iff_lt_or_eq.mp hu with hbefore | rfl
        · exact (hphase.2 u hlt hbefore).append _ _
        · refine ⟨y.threads.length, .asyncs, ?_, rfl⟩
          show (y.threads ++ [⟨u, .asyncs⟩])[y.threads.length]? = _
          simp
      next ht =>
        obtain rfl := Option.some.inj hgo
        exact ⟨h.loops, rfl, hphase.1, fun u hu => hphase.2 u hu (by omega)⟩
  | stopListener _ _ | stopIo _ _ | stopWorker _ _ | destroyListener _ | destroyIo _ | poolStop _
  | workerStop _ | workerSend _ | workerJoin _ | destroyed =>
      simp only [hpc] at hphase

/-- What the threads do by themselves leaves the call where it is. -/
theorem Halfway.of_keeps (h : y.Halfway cfg) (hpc : y'.pc = y.pc) (hret : y'.ret = y.ret)
    (hloops : ∀ t, (y'.io t).loop.start = (y.io t).loop.start)
    (hworkers : ∀ k, StartedTo cfg.workerThreadCount k y.workers →
      StartedTo cfg.workerThreadCount k y'.workers)
    (hserving : ∀ u, u < cfg.ioThreadCount → y.Serving u → y'.Serving u) : y'.Halfway cfg := by
  refine ⟨fun t ht => (hloops t).trans (h.loops t ht), ?_⟩
  have hphase := h.phase
  rw [hpc, hret]
  cases hnow : y.pc with
  | idle =>
      simp only [hnow] at hphase
      obtain ⟨hok, hstarted, hserved⟩ := hphase
      exact ⟨hok, hworkers _ hstarted, fun u hu => hserving u hu (hserved u hu)⟩
  | startWorker k =>
      simp only [hnow] at hphase
      exact hworkers k hphase
  | startIo t =>
      simp only [hnow] at hphase
      obtain ⟨hstarted, hserved⟩ := hphase
      exact ⟨hworkers _ hstarted, fun u hlt hu => hserving u hlt (hserved u hlt hu)⟩
  | stopListener _ _ | stopIo _ _ | stopWorker _ _ | destroyListener _ | destroyIo _ | poolStop _
  | workerStop _ | workerSend _ | workerJoin _ | destroyed =>
      simp only [hnow] at hphase

theorem entry_ret {t : Nat} {pc : EntryPc} {next : Lifetime × EntryPc}
    (h : x.entry ctl t pc = some next) : next.1.ret = x.ret := by
  cases entry_step h <;> rfl

theorem Halfway.thread (h : y.Halfway cfg) {k : Nat}
    (hstep : y.step cfg ctl (.thread k) = some y') : y'.Halfway cfg := by
  have hserving : ∀ u, u < cfg.ioThreadCount → y.Serving u → y'.Serving u :=
    fun u hu hy => hy.thread (h.loops u hu) hstep
  obtain ⟨e, next, -, -, hnext, rfl⟩ := thread_some hstep
  have henters := entry_enters hnext
  refine h.of_keeps henters.pc (entry_ret hnext) henters.loops (fun k hk => ?_) hserving
  exact henters.workers ▸ hk

theorem Halfway.worker (h : y.Halfway cfg) {i : Nat} {thread : WorkerThread PoolTask}
    {m : WorkerMove} (hmove : (y.workers i).move m = some thread) :
    (y.setWorker i thread).Halfway cfg :=
  h.of_keeps rfl rfl (fun _ => rfl) (fun _ hk => hk.move hmove) fun _ _ => id

theorem halfway_of_fits (hstart : x.start = false) (hfresh : ∀ i, (x.workers i).Fresh)
    (hloops : ∀ t, t < cfg.ioThreadCount → (x.io t).loop.start = true)
    (hworkers : ∀ i, i < cfg.workerThreadCount → ω.watched i = true ∧ ω.worker i = true)
    (hios : ∀ t, t < cfg.ioThreadCount → ω.io t = true) (hy : Starts cfg ctl ω x y) :
    y.Halfway cfg := by
  refine hy.invariant (I := Halfway cfg) ?_ ?_
  · rintro _ rfl
    unfold startCall
    rw [hstart]
    refine ⟨hloops, fun i hi => ?_⟩
    rw [if_neg (Nat.not_lt_zero i)]
    exact hfresh i
  · intro z label z' hz hduring hstep
    cases label with
    | call call => exact absurd hduring id
    | go watched created => exact hz.go hworkers hios hduring hstep
    | thread k => exact hz.thread hstep
    | worker i m =>
        obtain ⟨thread, hmove, rfl⟩ := Option.map_eq_some_iff.mp hstep
        exact hz.worker hmove

/-! ### All or nothing -/

/-- A call on a started service has returned when it begins. -/
theorem refused (hstart : x.start = true) (hy : Starts cfg ctl ω x y) :
    y.ret = xvErr := by
  have hdone : y.pc = .idle ∧ y.ret = xvErr := by
    refine hy.invariant (I := fun y => y.pc = .idle ∧ y.ret = xvErr) ?_ ?_
    · rintro _ rfl
      rw [startCall, if_pos hstart]
      exact ⟨rfl, rfl⟩
    · intro z label z' hz hduring hstep
      cases label with
      | call call => exact absurd hduring id
      | go watched created => exact absurd hstep (by simp [step, go, hz.1])
      | thread k =>
          obtain ⟨e, next, -, -, hnext, rfl⟩ := thread_some hstep
          exact ⟨(entry_enters hnext).pc.trans hz.1, (entry_ret hnext).trans hz.2⟩
      | worker i m =>
          obtain ⟨thread, -, rfl⟩ := Option.map_eq_some_iff.mp hstep
          exact hz
  exact hdone.2

/-- **When a service is started or left alone.** -/
theorem start_iff (h : Reachable (Lifetime.step cfg ctl) (· = Lifetime.init) x)
    (hidle : x.pc = .idle) (ω : StartOutcomes) :
    StartsWhole cfg ctl ω x ↔ x.StartFits cfg ω := by
  cases hstart : x.start with
  | true =>
      refine iff_of_true ⟨fun _ => ?_, fun y hy _ => ?_⟩ (.inl hstart)
      · rw [startCall, if_pos hstart, back, ← hidle]
      · refine ⟨fun hok => ?_, fun _ hstopped => absurd (hstart.symm.trans hstopped) (by simp)⟩
        exact absurd (hok.symm.trans (refused hstart hy)) xvOk_ne_xvErr
  | false =>
      constructor
      · intro hwhole
        obtain ⟨y, hy, hypc, hset, hio, hworkers, hret⟩ := starts_alone cfg ctl ω hstart
        have hall := hwhole.returns y hy hypc
        rcases hret with herr | ⟨hok, hios⟩
        · have hflag := (hall.err herr hstart).1
          cases hset.symm.trans (hflag.trans hstart)
        obtain ⟨-, hrunning, hserving⟩ := hall.ok hok
        have hloops : ∀ t, t < cfg.ioThreadCount → (x.io t).loop.start = true := by
          intro t ht
          rw [← hio]
          exact (hserving t ht).loop
        refine .inr ⟨hloops, fun i hi => ?_, hios⟩
        have hfresh := fresh_of_reachable h hidle hstart (hloops 0 cfg.ioPos) i
        have hrun := hrunning i hi
        rw [hworkers, startAll, if_pos hi] at hrun
        by_contra hnot
        refine startWith_dead hfresh.start hfresh.dead (fun hstartable => hnot ?_) hrun
        exact ⟨hstartable.watched, hstartable.created⟩
      · rintro (hstarted | ⟨hloops, hworkers, hios⟩)
        · cases hstart.symm.trans hstarted
        have hfresh := fresh_of_reachable h hidle hstart (hloops 0 cfg.ioPos)
        refine ⟨fun hstarted => absurd (hstart.symm.trans hstarted) (by simp), fun y hy hypc => ?_⟩
        have hhalfway := halfway_of_fits hstart hfresh hloops hworkers hios hy
        have hphase := hhalfway.phase
        simp only [hypc] at hphase
        obtain ⟨hok, hstarted, hserved⟩ := hphase
        refine ⟨fun _ => ⟨hstart, fun i hi => hstarted.all (Nat.le_refl _) hi, fun t ht => ?_⟩, ?_⟩
        · exact ⟨hhalfway.loops t ht, hserved t ht⟩
        · exact fun herr => absurd (hok.symm.trans herr) xvOk_ne_xvErr

end Lifetime

/-- **When start-up is all or nothing**: a worker, a pool in use and a service in use, for every
outcome of the calls that may fail. -/
theorem start_up_iff {A : Type} (cfg : Config) (ctl : EpollCtl) (ω : StartOutcomes) (n : Nat) :
    (∀ (thread : WorkerThread A) watched created,
      thread.StartsWhole (thread.startWith watched created) ↔
        thread.start = true ∨ thread.Startable watched created) ∧
    (∀ x : PoolLife, Reachable PoolLife.step (· = .init n) x → x.pc = .idle →
      (PoolLife.StartsWhole ω x ↔ x.started = false ∧ ∀ i, i < x.pool.threadCount →
        (x.pool.threads i).Startable (ω.watched i) (ω.worker i))) ∧
    (∀ x : Lifetime, Reachable (Lifetime.step cfg ctl) (· = .init) x → x.pc = .idle →
      (Lifetime.StartsWhole cfg ctl ω x ↔ x.StartFits cfg ω)) :=
  ⟨startWith_iff, fun _ h hidle => PoolLife.start_iff h hidle ω,
    fun _ h hidle => Lifetime.start_iff h hidle ω⟩

/-- Every call succeeds. -/
def StartOutcomes.succeed : StartOutcomes :=
  { watched := fun _ => true, worker := fun _ => true, io := fun _ => true }

/-- A new service with two io threads and three workers. -/
theorem start_up_iff_new :
    Lifetime.StartsWhole ⟨2, 3, by decide⟩ epollKernel .succeed .init := by
  have hfits : Lifetime.init.StartFits ⟨2, 3, by decide⟩ .succeed :=
    .inr ⟨fun _ _ => rfl, fun _ _ => ⟨rfl, rfl⟩, fun _ _ => rfl⟩
  exact ((start_up_iff (A := Unit) _ epollKernel .succeed 0).2.2 .init (.start rfl) rfl).mpr hfits

/-- A worker, a pool of one and a service with one io thread, each of which cannot create its
thread; and a pool of one that has been started and is started again. -/
theorem start_up_halfway :
    ¬ (xvWorkerThreadInit : WorkerThread Unit).StartsWhole
        (xvWorkerThreadInit.startWith true false) ∧
    ¬ PoolLife.StartsWhole { StartOutcomes.succeed with worker := fun _ => false } (.init 1) ∧
    ¬ Lifetime.StartsWhole ⟨1, 0, by decide⟩ epollKernel
        { StartOutcomes.succeed with io := fun _ => false } .init ∧
    ∃ x, play PoolLife.step (.init 1) [.start, .go true true, .go true true] = some x ∧
      ¬ PoolLife.StartsWhole .succeed x := by
  refine ⟨fun h => ?_, fun h => ?_, fun h => ?_, _, rfl, fun h => ?_⟩
  · rcases (startWith_iff _ true false).mp h with hstart | hstartable
    · cases hstart
    · exact absurd hstartable.created (by simp)
  · have hall := ((PoolLife.start_iff (.start rfl) rfl _).mp h).2 0 (by decide)
    exact absurd hall.created (by simp)
  · rcases (Lifetime.start_iff (.start rfl) rfl _).mp h with hstart | ⟨-, -, hios⟩
    · cases hstart
    · exact absurd (hios 0 (by decide)) (by simp)
  · have hstopped := (h.started rfl)
    cases congrArg PoolLife.pc hstopped

end Libxv
