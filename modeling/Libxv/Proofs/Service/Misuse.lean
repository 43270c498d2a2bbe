/-
When a call of a service's life goes wrong.

What `calls_safe` asks of a call is no more than it needs: if a call is made without it, the
threads can move so that this very call follows a pointer that is `NULL` or joins a thread
that does not exist.  Either the call runs alone and comes to a listener nobody has added, or
the loop is broken already and the leader, on its way out, clears the first listener before
the call gets there.  A call of `xv_service_destroy` gets to its joins because a worker that
has been told to stop, and woken, exits.
-/
import Libxv.Service.Program
import Libxv.Proofs.Service.Leader
import Libxv.Proofs.Join

namespace Libxv

open Function Transition

variable {cfg : Config} {ctl : EpollCtl} {x x' : Lifetime}

/-! ### A worker that is stopped and woken exits -/

namespace WorkerThread

variable {thread mid : WorkerThread PoolTask}

/-- Left to itself, the worker can exit. -/
def Exits (thread : WorkerThread PoolTask) : Prop :=
  ∃ last, Reachable move (· = thread) last ∧ last.pc.hasExited = true

theorem Exits.of_move (m : WorkerMove) (hmove : thread.move m = some mid) (h : mid.Exits) :
    thread.Exits := by
  obtain ⟨last, hlast, hexited⟩ := h
  have hmid : Reachable move (· = thread) mid := .next (.start rfl) trivial hmove
  exact ⟨last, hmid.trans hlast, hexited⟩

theorem Exits.of_canExit (h : thread.CanExit) : thread.Exits := by
  induction h with
  | exited hexited => exact ⟨_, .start rfl, hexited⟩
  | step hstep _ ih => exact .of_move .step hstep ih
  | taskReturns hreturns _ ih => exact .of_move .taskReturns hreturns ih

/-- **A worker that has been stopped and sent to exits**, wherever it was. -/
theorem exits (hstart : thread.start = false) (hevfd : 0 < thread.evfd)
    (hcreated : thread.pc.created = true) : thread.Exits := by
  have hway : thread.WayOut := ⟨hcreated, hstart, fun _ => hevfd, fun _ _ => hevfd⟩
  exact .of_canExit hway.canExit

end WorkerThread

/-! ### The call on its own -/

namespace Lifetime

variable {start : Lifetime → Prop}

theorem goes_on (h : Meanwhile cfg ctl start x) {next : Lifetime}
    (hgo : x.go cfg ctl true true = some next) : Meanwhile cfg ctl start next :=
  .next (i := .go true true) h trivial hgo

/-- A walk over a list with an unset listener follows `NULL`. -/
theorem walks_null {caller : Caller} (rest : List Nat) :
    ∀ {x : Lifetime}, Meanwhile cfg ctl start x → x.pc = .stopListener rest caller →
      (∃ l ∈ rest, (x.listener l).ioThread = none) →
      ∃ y, Meanwhile cfg ctl start y ∧ y.UsesNull := by
  induction rest with
  | nil => exact fun _ _ ⟨_, hl, _⟩ => absurd hl List.not_mem_nil
  | cons m rest ih =>
      intro x h hpc hnull
      cases hm : (x.listener m).ioThread with
      | none => exact ⟨x, h, m, rest, caller, hpc, hm⟩
      | some t =>
          have hgo : x.go cfg ctl true true =
              some ((x.stopListener ctl t m).goto (.stopListener rest caller)) := by
            simp [go, hpc, hm]
          refine ih (goes_on h hgo) rfl ?_
          obtain ⟨l, hl, hnone⟩ := hnull
          have hrest : l ∈ rest := by
            refine (List.mem_cons.mp hl).resolve_left ?_
            rintro rfl
            cases hm.symm.trans hnone
          exact ⟨l, hrest, (x.stopListener_ioThread ctl t m l).trans hnone⟩

/-- **A stop of a started service can follow `NULL`** unless the leader has added every
listener and its loop is not broken. -/
theorem stop_unsafe (hx : x.Held) (hidle : x.pc = .idle) (caller : Caller)
    (hlisteners : x.listeners ≠ []) (hadded : ¬ x.AllAdded)
    (h : Meanwhile cfg ctl start
      { x with start := false, pc := .stopListener x.listeners caller }) :
    ∃ y, Meanwhile cfg ctl start y ∧ y.UsesNull := by
  by_cases hall : ∀ l ∈ x.listeners, (x.listener l).ioThread ≠ none
  · -- The leader is on its way out, and clears the first listener before the call reads it.
    have hbroken : (x.io 0).loop.start = false := by
      rw [← Bool.not_eq_true]
      exact fun hloop => hadded ⟨hloop, hall⟩
    obtain ⟨l, rest, hlist⟩ := List.exists_cons_of_ne_nil hlisteners
    have hl : l ∈ x.listeners := hlist ▸ List.mem_cons_self
    obtain ⟨k, pc, hk, hholds⟩ := hx.held l hl (hall l hl)
    have hunfreed := hx.unfreed (by rw [hidle]; rfl)
    obtain ⟨y, hy, henters, hnull⟩ := clears h hunfreed hbroken hl hk hholds
    exact ⟨y, hy, l, rest, caller, henters.pc.trans (by rw [hlist]), hnull⟩
  · refine walks_null x.listeners h rfl ?_
    simpa using hall

/-- The same workers have been created. -/
def SameWorkers (x next : Lifetime) : Prop :=
  ∀ i, (next.workers i).pc.created = (x.workers i).pc.created

theorem SameWorkers.trans {mid next : Lifetime} (h : x.SameWorkers mid)
    (h' : mid.SameWorkers next) : x.SameWorkers next := fun i => (h' i).trans (h i)

/-- `xv_service_destroy` creates no worker. -/
theorem go_sameWorkers {watched created : Bool} (h : x.go cfg ctl watched created = some x')
    (hpc : x.pc.destroying = true) : x.SameWorkers x' := by
  intro i
  have hgoes := go_goes h
  have hstart : ∀ j, x.pc ≠ .startWorker j := by
    intro j hj
    rw [hj] at hpc
    cases hpc
  cases hi : (x.workers i).pc.created with
  | true => exact hgoes.created i hi
  | false => exact hgoes.absent hstart i hi

/-- A loop of `xv_service_destroy` that counts up to `n` is gone through. -/
theorem counts (p : Nat → CallPc) (q : Lifetime → CallPc) (n : Nat)
    (hp : ∀ i, (p i).destroying = true)
    (hnext : ∀ (x : Lifetime) (i : Nat), x.pc = p i → i < n →
      (x.go cfg ctl true true).map Lifetime.pc = some (p (i + 1)))
    (hend : ∀ x : Lifetime, x.pc = p n → (x.go cfg ctl true true).map Lifetime.pc = some (q x))
    (h : Meanwhile cfg ctl start x) (hpc : x.pc = p 0) :
    ∃ y, Meanwhile cfg ctl start y ∧ (∃ last, y.pc = q last) ∧ x.SameWorkers y := by
  have hround : ∀ i (y : Lifetime), i < n → Meanwhile cfg ctl start y →
      y.pc = p i ∧ x.SameWorkers y →
      ∃ z, Meanwhile cfg ctl start z ∧ z.pc = p (i + 1) ∧ x.SameWorkers z := by
    intro i y hi hy hnow
    obtain ⟨hypc, hsame⟩ := hnow
    obtain ⟨z, hgo, hzpc⟩ := Option.map_eq_some_iff.mp (hnext y i hypc hi)
    exact ⟨z, goes_on hy hgo, hzpc, hsame.trans (go_sameWorkers hgo (by rw [hypc]; exact hp i))⟩
  obtain ⟨y, hy, hypc, hsame⟩ := Reach.count hround (Nat.zero_le n) h ⟨hpc, fun _ => rfl⟩
  obtain ⟨z, hgo, hq⟩ := Option.map_eq_some_iff.mp (hend y hypc)
  exact ⟨z, goes_on hy hgo, ⟨y, hq⟩,
    hsame.trans (go_sameWorkers hgo (by rw [hypc]; exact hp n))⟩

/-- A walk over listeners that have all been added comes to its end. -/
theorem walks_all (rest : List Nat) :
    ∀ {x : Lifetime}, Meanwhile cfg ctl start x → x.pc = .stopListener rest .destroy →
      (∀ l ∈ rest, (x.listener l).ioThread ≠ none) →
      ∃ y, Meanwhile cfg ctl start y ∧ y.pc = .stopIo 0 .destroy ∧ x.SameWorkers y := by
  induction rest with
  | nil =>
      intro x h hpc _
      have hgo : x.go cfg ctl true true = some (x.goto (.stopIo 0 .destroy)) := by
        simp [go, hpc]
      exact ⟨_, goes_on h hgo, rfl, go_sameWorkers hgo (by rw [hpc]; rfl)⟩
  | cons l rest ih =>
      intro x h hpc hset
      obtain ⟨t, ht⟩ := Option.ne_none_iff_exists'.mp (hset l List.mem_cons_self)
      have hgo : x.go cfg ctl true true =
          some ((x.stopListener ctl t l).goto (.stopListener rest .destroy)) := by
        simp [go, hpc, ht]
      obtain ⟨y, hy, hypc, hsame⟩ := ih (goes_on h hgo) rfl fun m hm => by
        show ((x.stopListener ctl t l).listener m).ioThread ≠ none
        rw [stopListener_ioThread]
        exact hset m (List.mem_cons_of_mem _ hm)
      exact ⟨y, hy, hypc, (go_sameWorkers hgo (by rw [hpc]; rfl)).trans hsame⟩

theorem destroys_listeners (rest : List Nat) :
    ∀ {x : Lifetime}, Meanwhile cfg ctl start x → x.pc = .destroyListener rest →
      ∃ y, Meanwhile cfg ctl start y ∧ y.pc = .destroyIo 0 ∧ x.SameWorkers y := by
  induction rest with
  | nil =>
      intro x h hpc
      have hgo : x.go cfg ctl true true = some (x.goto (.destroyIo 0)) := by
        simp [go, hpc]
      exact ⟨_, goes_on h hgo, rfl, go_sameWorkers hgo (by rw [hpc]; rfl)⟩
  | cons l rest ih =>
      intro x h hpc
      have hgo : x.go cfg ctl true true =
          some ((x.setListener l { x.listener l with freed := true }).goto
            (.destroyListener rest)) := by
        simp [go, hpc]
      obtain ⟨y, hy, hypc, hsame⟩ := ih (goes_on h hgo) rfl
      exact ⟨y, hy, hypc, (go_sameWorkers hgo (by rw [hpc]; rfl)).trans hsame⟩

/-- From the io threads of `xv_service_stop` to the listeners of `xv_service_destroy`. -/
theorem comes_to_listeners (h : Meanwhile cfg ctl start x) (hpc : x.pc = .stopIo 0 .destroy) :
    ∃ y, Meanwhile cfg ctl start y ∧ (∃ rest, y.pc = .destroyListener rest) ∧
      x.SameWorkers y := by
  obtain ⟨y, hy, ⟨-, hypc⟩, hsame⟩ := counts (.stopIo · .destroy)
    (fun _ => .stopWorker 0 .destroy) cfg.ioThreadCount (fun _ => rfl)
    (fun y i hy hi => by simp [go, hy, hi, goto]) (fun y hy => by simp [go, hy, goto])
    h hpc
  obtain ⟨z, hz, ⟨last, hzpc⟩, hfurther⟩ := counts (.stopWorker · .destroy)
    (fun y => .destroyListener y.listeners) cfg.workerThreadCount (fun _ => rfl)
    (fun y i hy hi => by simp [go, hy, hi, goto])
    (fun y hy => by simp [go, hy, stopBack, goto]) hy hypc
  exact ⟨z, hz, ⟨_, hzpc⟩, hsame.trans hfurther⟩

/-- From there to the workers. -/
theorem comes_to_workers {rest : List Nat} (h : Meanwhile cfg ctl start x)
    (hpc : x.pc = .destroyListener rest) :
    ∃ y, Meanwhile cfg ctl start y ∧ y.pc = .workerStop 0 ∧ x.SameWorkers y := by
  obtain ⟨y, hy, hypc, hfirst⟩ := destroys_listeners rest h hpc
  obtain ⟨z, hz, ⟨-, hzpc⟩, hsecond⟩ := counts .destroyIo (fun _ => .poolStop 0)
    cfg.ioThreadCount (fun _ => rfl) (fun y i hy hi => by simp [go, hy, hi])
    (fun y hy => by simp [go, hy, goto]) hy hypc
  obtain ⟨w, hw, ⟨-, hwpc⟩, hthird⟩ := counts .poolStop (fun _ => .workerStop 0)
    cfg.workerThreadCount (fun _ => rfl) (fun y i hy hi => by simp [go, hy, hi, goto])
    (fun y hy => by simp [go, hy, goto]) hz hzpc
  exact ⟨w, hw, hwpc, (hfirst.trans hsecond).trans hthird⟩

/-- A worker moves on its own. -/
theorem worker_moves (h : Meanwhile cfg ctl start x) {i : Nat} {last : WorkerThread PoolTask}
    (hmoves : Reachable WorkerThread.move (· = x.workers i) last) :
    Meanwhile cfg ctl start (x.setWorker i last) := by
  refine hmoves.invariant (I := fun thread => Meanwhile cfg ctl start (x.setWorker i thread)) ?_ ?_
  · intro thread hthread
    subst hthread
    have hself : x.setWorker i (x.workers i) = x := by
      simp only [setWorker, update_eq_self]
    rw [hself]
    exact h
  · intro thread move next hthread _ hmove
    have hstep : (x.setWorker i thread).step cfg ctl (.worker i move) =
        some (x.setWorker i next) := by
      simp [step, setWorker, hmove]
    exact .next hthread (by trivial) hstep

/-- The joins come to a worker that was never created. -/
theorem joins_absent {j : Nat} (hj : j < cfg.workerThreadCount) (k : Nat) :
    ∀ {x : Lifetime} {i : Nat}, Meanwhile cfg ctl start x → x.pc = .workerStop i → i + k = j →
      (x.workers j).pc.created = false → ∃ y, Meanwhile cfg ctl start y ∧ y.JoinsAbsent := by
  have hjoin : ∀ {x : Lifetime} {i : Nat}, Meanwhile cfg ctl start x → x.pc = .workerStop i →
      i < cfg.workerThreadCount → ∃ y, Meanwhile cfg ctl start y ∧ y.pc = .workerJoin i ∧
        x.SameWorkers y ∧ (y.workers i).start = false ∧ 0 < (y.workers i).evfd := by
    intro x i h hpc hi
    have hstop : x.go cfg ctl true true =
        some ((x.setWorker i (xvWorkerThreadStop (x.workers i))).goto (.workerSend i)) := by
      simp [go, hpc, hi]
    have hsend := goes_on h hstop
    have hgo : ((x.setWorker i (xvWorkerThreadStop (x.workers i))).goto
        (.workerSend i)).go cfg ctl true true = some _ := rfl
    refine ⟨_, goes_on hsend hgo, rfl, ?_, ?_, ?_⟩
    · exact (go_sameWorkers hstop (by rw [hpc]; rfl)).trans (go_sameWorkers hgo rfl)
    · simp [goto, setWorker, xvWorkerThreadStop, WorkerThread.send]
    · simp only [goto, setWorker, update_self, WorkerThread.send]
      exact xvAsyncSend_pos _
  induction k with
  | zero =>
      intro x i h hpc hi habsent
      obtain rfl : i = j := by omega
      obtain ⟨y, hy, hypc, hsame, -, -⟩ := hjoin h hpc hj
      exact ⟨y, hy, i, hypc, (hsame i).trans habsent⟩
  | succ k ih =>
      intro x i h hpc hi habsent
      obtain ⟨y, hy, hypc, hsame, hstart, hevfd⟩ := hjoin h hpc (by omega)
      cases hcreated : (y.workers i).pc.created with
      | false => exact ⟨y, hy, i, hypc, hcreated⟩
      | true =>
          obtain ⟨last, hmoves, hexited⟩ := WorkerThread.exits hstart hevfd hcreated
          have hworked := worker_moves hy hmoves
          have hgo : (y.setWorker i last).go cfg ctl true true =
              some ((y.setWorker i last).goto (.workerStop (i + 1))) := by
            have hlast : ((y.setWorker i last).workers i).pc.hasExited = true := by
              simp only [setWorker, update_self, hexited]
            have hjoining : (y.setWorker i last).pc = .workerJoin i := hypc
            simp only [go, hjoining, hlast, if_true]
          refine ih (goes_on hworked hgo) rfl (by omega) ?_
          show ((y.setWorker i last).workers j).pc.created = false
          rw [setWorker_created, if_neg (by omega)]
          exact (hsame j).trans habsent

/-- **A service can join a worker that was never created** when it is destroyed while there is
one. -/
theorem destroy_unsafe (h : Meanwhile cfg ctl start x) (hcreated : ¬ x.AllCreated cfg)
    (hpc : (∃ rest, x.pc = .stopListener rest .destroy ∧
        ∀ l ∈ rest, (x.listener l).ioThread ≠ none) ∨
      ∃ rest, x.pc = .destroyListener rest) :
    ∃ y, Meanwhile cfg ctl start y ∧ y.JoinsAbsent := by
  have hlisteners : ∃ y, Meanwhile cfg ctl start y ∧ (∃ rest, y.pc = .destroyListener rest) ∧
      x.SameWorkers y := by
    rcases hpc with ⟨rest, hpc, hset⟩ | hpc
    · obtain ⟨y, hy, hypc, hsame⟩ := walks_all rest h hpc hset
      obtain ⟨z, hz, hzpc, hfurther⟩ := comes_to_listeners hy hypc
      exact ⟨z, hz, hzpc, hsame.trans hfurther⟩
    · exact ⟨x, h, hpc, fun _ => rfl⟩
  obtain ⟨y, hy, ⟨rest, hypc⟩, hsame⟩ := hlisteners
  obtain ⟨z, hz, hzpc, hfurther⟩ := comes_to_workers hy hypc
  obtain ⟨j, hj, habsent⟩ : ∃ j, j < cfg.workerThreadCount ∧
      (x.workers j).pc.created = false := by
    simpa [AllCreated] using hcreated
  exact joins_absent hj j hz hzpc (by omega) (((hsame.trans hfurther) j).trans habsent)

theorem call_unsafe (hx : x.Held) (hidle : x.pc = .idle) {call : ApiCall}
    (hok : ¬ x.Permits cfg (.call call)) :
    ∃ y, Meanwhile cfg ctl (· = x.call call) y ∧ (y.UsesNull ∨ y.JoinsAbsent) := by
  have hcalled : Meanwhile cfg ctl (· = x.call call) (x.call call) := .start rfl
  cases call with
  | addListen fd => exact absurd trivial hok
  | start => exact absurd trivial hok
  | stop =>
      obtain ⟨hstart, hlisteners, hadded⟩ :
          x.start = true ∧ x.listeners ≠ [] ∧ ¬ x.AllAdded := by
        simpa [Permits] using hok
      simp only [Lifetime.call, stopCall, hstart, Bool.not_true, Bool.false_eq_true,
        if_false] at hcalled ⊢
      obtain ⟨y, hy, hnull⟩ := stop_unsafe hx hidle .user hlisteners hadded hcalled
      exact ⟨y, hy, Or.inl hnull⟩
  | destroy =>
      by_cases hadded : x.start = true → x.listeners ≠ [] → x.AllAdded
      · have hcreated : ¬ x.AllCreated cfg := fun hall => hok ⟨hadded, hall⟩
        cases hstart : x.start with
        | false =>
            simp only [Lifetime.call, stopCall, hstart, Bool.not_false, if_true] at hcalled ⊢
            obtain ⟨y, hy, habsent⟩ := destroy_unsafe hcalled hcreated (Or.inr ⟨_, rfl⟩)
            exact ⟨y, hy, Or.inr habsent⟩
        | true =>
            simp only [Lifetime.call, stopCall, hstart, Bool.not_true, Bool.false_eq_true,
              if_false] at hcalled ⊢
            have hset : ∀ l ∈ x.listeners, (x.listener l).ioThread ≠ none := fun l hl =>
              (hadded hstart (List.ne_nil_of_mem hl)).2 l hl
            obtain ⟨y, hy, habsent⟩ :=
              destroy_unsafe hcalled hcreated (Or.inl ⟨x.listeners, rfl, hset⟩)
            exact ⟨y, hy, Or.inr habsent⟩
      · simp only [Classical.not_imp] at hadded
        obtain ⟨hstart, hlisteners, hnot⟩ := hadded
        simp only [Lifetime.call, stopCall, hstart, Bool.not_true, Bool.false_eq_true,
          if_false] at hcalled ⊢
        obtain ⟨y, hy, hnull⟩ := stop_unsafe hx hidle .destroy hlisteners hnot hcalled
        exact ⟨y, hy, Or.inl hnull⟩

end Lifetime

/--
**The calls of a service's life are safe when the leader has caught up, and only then**: in every
run in which a started service with listeners is stopped or destroyed only when the leader has
added every listener and its loop is not broken, and a service is destroyed only when all its
workers have been created, no call follows an `io_thread` that is `NULL` or joins a worker that
was never created; and a call made without that can do so before it returns.
-/
theorem calls_safe
    (h : Reach (Lifetime.step cfg ctl) (Lifetime.Permits cfg) (· = Lifetime.init) x) :
    (¬ x.UsesNull ∧ ¬ x.JoinsAbsent) ∧
      ∀ call, x.pc = .idle → ¬ x.Permits cfg (.call call) →
        ∃ y, Lifetime.Meanwhile cfg ctl (· = x.call call) y ∧ (y.UsesNull ∨ y.JoinsAbsent) := by
  refine ⟨Lifetime.safe h, fun call hidle hok => ?_⟩
  exact Lifetime.call_unsafe (Lifetime.held h.reachable) hidle hok

/-- The call that runs makes its next `n` instructions. -/
def goesOn (n : Nat) : List LifeLabel := .replicate n (.go true true)

/-- A service with one listener is started. -/
def listenAndStart : List LifeLabel :=
  [.call (.addListen (some 5)), .call .start] ++ goesOn 4

/-- The leader adds the listener, and the service is destroyed: the call comes to the join. -/
theorem calls_safe_destroy :
    ∃ x : Lifetime, x.pc = .workerJoin 0 ∧ (¬ x.UsesNull ∧ ¬ x.JoinsAbsent) ∧
      ∀ call, x.pc = .idle → ¬ x.Permits workerConfig (.call call) →
        ∃ y, Lifetime.Meanwhile workerConfig acceptAll (· = x.call call) y ∧
          (y.UsesNull ∨ y.JoinsAbsent) := by
  have hrun : ∃ x : Lifetime,
      Reach (Lifetime.step workerConfig acceptAll) (Lifetime.Permits workerConfig)
        (· = Lifetime.init) x ∧ x.pc = .workerJoin 0 :=
    ⟨_, Reach.play (listenAndStart ++ .replicate 4 (.thread 0) ++ .call .destroy :: goesOn 14)
      (.start rfl) (by decide) rfl, rfl⟩
  obtain ⟨x, hreach, hpc⟩ := hrun
  exact ⟨x, hpc, calls_safe hreach⟩

/-- A service is stopped before its leader has run, and one is destroyed that was never
started. -/
theorem stopped_too_early :
    (∃ x : Lifetime, Reachable (Lifetime.step workerConfig acceptAll) (· = Lifetime.init) x ∧
        x.UsesNull) ∧
      ∃ x : Lifetime, Reachable (Lifetime.step workerConfig acceptAll) (· = Lifetime.init) x ∧
        x.JoinsAbsent := by
  have hstop : ∃ x : Lifetime,
      Transition.play (Lifetime.step workerConfig acceptAll) Lifetime.init
        (listenAndStart ++ [.call .stop]) = some x ∧
      x.pc = .stopListener [0] .user ∧ (x.listener 0).ioThread = none := ⟨_, rfl, rfl, rfl⟩
  have hdestroy : ∃ x : Lifetime,
      Transition.play (Lifetime.step workerConfig acceptAll) Lifetime.init
        (.call .destroy :: goesOn 7) = some x ∧
      x.pc = .workerJoin 0 ∧ (x.workers 0).pc.created = false := ⟨_, rfl, rfl, rfl⟩
  obtain ⟨x, hplay, hpc, hnull⟩ := hstop
  obtain ⟨y, hplay', hpc', habsent⟩ := hdestroy
  exact ⟨⟨x, Reachable.play _ (.start rfl) hplay, 0, [], .user, hpc, hnull⟩,
    ⟨y, Reachable.play _ (.start rfl) hplay', 0, hpc', habsent⟩⟩

end Libxv
