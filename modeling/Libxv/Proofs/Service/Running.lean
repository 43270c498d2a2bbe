/-
`xv_service_run` waits for the io threads, and no longer.

A service that is started once has one thread for each io thread, created in order.  The join loop
passes each of them when it has left `io_thread_entry`, so nothing uses what `xv_service_destroy`
frees afterwards.  Once the loops are broken the join loop cannot get stuck: a thread that has not
left can go on, and before and after its event loop it has only so many instructions to make.
-/
import Libxv.Service.Program
import Libxv.Service.Running
import Libxv.Proofs.Service.Leader
import Libxv.Session
import Libxv.Lib.Potential

namespace Libxv

open Function Transition

variable {cfg : Config} {ctl : EpollCtl}

namespace Lifetime

variable {x x' : Lifetime}

/-- Every thread has left `io_thread_entry`. -/
def AllExited (x : Lifetime) : Prop := ∀ e ∈ x.threads, e.pc = .exited

/-- The instruction of a call that creates a thread, and the others. -/
theorem go_threads {watched created : Bool} (h : x.go cfg ctl watched created = some x') :
    (∃ i, x.pc = .startIo i ∧ i < cfg.ioThreadCount ∧ x'.pc = .startIo (i + 1) ∧
      x'.threads = x.threads ++ [⟨i, .asyncs⟩]) ∨
    (x'.threads = x.threads ∧ (∀ i, x'.pc = .startIo i → i = 0 ∧ ∃ j, x.pc = .startWorker j) ∧
      ∀ i, x'.pc = .startWorker i → ∃ j, x.pc = .startWorker j) := by
  have hstep := go_step h
  generalize x.pc = pc at hstep ⊢
  cases hstep with
  | @startIo i hi => exact Or.inl ⟨i, rfl, hi, rfl, rfl⟩
  | @stopped _ caller =>
      refine Or.inr ⟨by cases caller <;> rfl, ?_, ?_⟩ <;> cases caller <;>
        simp [stopBack, back, goto]
  | startWorker | workersStarted | startFailed | started | listenersStopped | stopIo | ioStopped
  | stopWorker | stopListener | destroyListener | listenersDestroyed | destroyIo | ioDestroyed
  | poolStop | poolStopped | workerStop | destroyed | workerSend | workerJoin =>
      refine Or.inr ⟨rfl, ?_, ?_⟩ <;> simp [goto, back]

/-- A call starts no thread before its first instruction. -/
theorem call_threads (x : Lifetime) (call : ApiCall) : (x.call call).threads = x.threads ∧
    (∀ i, (x.call call).pc ≠ .startIo i) ∧
    (∀ i, (x.call call).pc = .startWorker i → call = .start ∧ (x.call call).start = true) ∧
    ((x.call call).pc.destroying = true → call = .destroy) := by
  cases call with
  | addListen fd =>
      cases fd <;> simp [Lifetime.call, addListen, setListener, back, CallPc.destroying]
  | start =>
      simp only [Lifetime.call, startCall]
      split <;> simp [back, CallPc.destroying]
  | stop | destroy =>
      simp only [Lifetime.call, stopCall]
      split <;> simp [stopBack, back, goto, CallPc.destroying]

/-- How many loops `xv_service_stop` has broken, on a service that has been stopped. -/
def brokenTo (n : Nat) : CallPc → Nat
  | .stopListener .. => 0
  | .stopIo i _ => i
  | _ => n

/-- The calls create threads only while the service is started, and break the loops in order. -/
theorem go_breaks {watched created : Bool} (h : x.go cfg ctl watched created = some x') :
    x'.start = x.start ∧
      ∀ t, t < cfg.ioThreadCount → t < brokenTo cfg.ioThreadCount x'.pc →
        t < brokenTo cfg.ioThreadCount x.pc ∨ (x'.io t).loop.start = false := by
  have hstep := go_step h
  generalize x.pc = pc at hstep ⊢
  cases hstep with
  | @stopIo i caller hi =>
      refine ⟨rfl, fun t _ hlt => ?_⟩
      have hlt : t < i + 1 := hlt
      by_cases ht : t = i
      · subst ht
        refine Or.inr ?_
        simp [goto, stopIoThread, xvLoopBreak]
      · exact Or.inl (show t < i by omega)
  | @ioStopped i caller hi =>
      refine ⟨rfl, fun t ht _ => Or.inl (show t < i by omega)⟩
  | @stopped _ caller => exact ⟨by cases caller <;> rfl, fun t ht _ => Or.inl ht⟩
  | @stopListener l t rest caller ht =>
      exact ⟨rfl, fun _ _ hlt => absurd hlt (Nat.not_lt_zero _)⟩
  | listenersStopped => exact ⟨rfl, fun _ _ hlt => absurd hlt (Nat.not_lt_zero _)⟩
  | startWorker | workersStarted | startIo | startFailed | started | stopWorker | destroyListener
  | listenersDestroyed | destroyIo | ioDestroyed | poolStop | poolStopped | workerStop | destroyed
  | workerSend | workerJoin => exact ⟨rfl, fun t ht _ => Or.inl ht⟩

theorem call_listeners (x : Lifetime) (call : ApiCall) :
    x.listeners.length ≤ (x.call call).listeners.length := by
  cases call with
  | addListen fd => cases fd <;> simp [Lifetime.call, addListen, setListener, back]
  | start =>
      simp only [Lifetime.call, startCall]
      split <;> exact Nat.le_refl _
  | stop | destroy =>
      simp only [Lifetime.call, stopCall]
      split <;> exact Nat.le_refl _

/-- A call breaks no loop before its first instruction. -/
theorem call_breaks (cfg : Config) (hidle : x.pc = .idle) (call : ApiCall)
    (hstart : (x.call call).start = false) : (x.call call).io = x.io ∧
      ∀ t, t < brokenTo cfg.ioThreadCount (x.call call).pc →
        x.start = false ∧ t < brokenTo cfg.ioThreadCount x.pc := by
  rw [hidle]
  cases call with
  | addListen fd =>
      cases fd <;> exact ⟨rfl, fun t ht => ⟨hstart, ht⟩⟩
  | start =>
      simp only [Lifetime.call, startCall] at hstart ⊢
      split at hstart
      · rename_i hstarted
        exact absurd (hstarted.symm.trans hstart) (by simp)
      · cases hstart
  | stop | destroy =>
      simp only [Lifetime.call, stopCall] at hstart ⊢
      split
      · rename_i hstopped
        exact ⟨rfl, fun t ht => ⟨by simpa using hstopped, ht⟩⟩
      · exact ⟨rfl, fun t ht => absurd ht (Nat.not_lt_zero t)⟩

/-- An io thread is known by its index. -/
theorem eq_of_idx (horder : x.threads.map Entry.idx = List.range x.threads.length) {e f : Entry}
    (he : e ∈ x.threads) (hf : f ∈ x.threads) (h : e.idx = f.idx) : e = f :=
  List.inj_on_of_nodup_map (horder ▸ List.nodup_range) he hf h

theorem idx_lt (horder : x.threads.map Entry.idx = List.range x.threads.length) {e : Entry}
    (he : e ∈ x.threads) : e.idx < x.threads.length := by
  have hmem : e.idx ∈ x.threads.map Entry.idx := List.mem_map_of_mem he
  rw [horder] at hmem
  exact List.mem_range.mp hmem

/-- What `pthread_join` waits for. -/
theorem joinable_mem {i : Nat} {e : Entry} (h : x.joinable i = some e) :
    e ∈ x.threads ∧ e.idx = i := by
  have hmem := List.mem_of_getLast? h
  simpa using hmem

theorem joinable_isSome (horder : x.threads.map Entry.idx = List.range x.threads.length) {i : Nat}
    (hi : i < x.threads.length) : ∃ e, x.joinable i = some e := by
  have hmem : i ∈ x.threads.map Entry.idx := by
    rw [horder]
    exact List.mem_range.mpr hi
  obtain ⟨e, he, hidx⟩ := List.mem_map.mp hmem
  have hfilter : e ∈ x.threads.filter fun thread => thread.idx = i := by simp [he, hidx]
  exact ⟨_, List.getLast?_eq_some_getLast (List.ne_nil_of_mem hfilter)⟩

/-- A step of a thread: what it was and what it is. -/
theorem thread_step {k : Nat} (h : x.step cfg ctl (.thread k) = some x') :
    ∃ e pc, x.threads[k]? = some e ∧ e.pc ≠ .exited ∧
      x'.threads = x.threads.set k { e with pc := pc } ∧ x.Enters x' := by
  obtain ⟨e, next, hk, -, hnext, rfl⟩ := thread_some h
  refine ⟨e, next.2, hk, ?_, rfl, { entry_enters hnext with }⟩
  intro hexited
  rw [hexited] at hnext
  cases hnext

end Lifetime

namespace Running

variable {x x' : Running}

structure Kept (cfg : Config) (x : Running) : Prop where
  /-- The threads have been created one after the other, one for each io thread. -/
  order : x.life.threads.map Entry.idx = List.range x.life.threads.length
  fresh : ∀ i, x.life.pc = .startWorker i → x.life.threads = []
  starting : ∀ i, x.life.pc = .startIo i → x.life.threads.length = i
  started : ∀ i, x.life.pc = .startWorker i ∨ x.life.pc = .startIo i → x.life.start = true
  broken : x.life.start = false → x.life.threads ≠ [] → ∀ t, t < cfg.ioThreadCount →
    t < Lifetime.brokenTo cfg.ioThreadCount x.life.pc → (x.life.io t).loop.start = false
  joining : ∀ i, x.run = .joining i → x.life.threads.length = cfg.ioThreadCount ∧
    ∀ e ∈ x.life.threads, e.idx < i → e.pc = .exited
  returned : x.run = .returned xvOk → x.life.threads.length = cfg.ioThreadCount ∧ x.life.AllExited
  destroying : x.life.pc.destroying = true → x.life.AllExited

theorem Kept.init : Running.init.Kept cfg where
  order := rfl
  fresh := fun i h => by cases h
  starting := fun i h => by cases h
  started := fun i h => by rcases h with h | h <;> cases h
  broken := fun _ h => absurd rfl h
  joining := fun i h => by cases h
  returned := fun h => by cases h
  destroying := fun h => by cases h

theorem Kept.call (h : x.Kept cfg) (hidle : x.life.pc = .idle) {call : ApiCall}
    (hok : x.Follows cfg (.life (.call call))) : Kept cfg { x with life := x.life.call call } := by
  obtain ⟨hthreads, hio, hworker, hdestroying⟩ := x.life.call_threads call
  refine ⟨hthreads ▸ h.order, fun i hpc => ?_, fun i hpc => absurd hpc (hio i), fun i hpc => ?_,
    fun hstart hne t ht hlt => ?_, fun i hrun => ?_, fun hrun => ?_, fun hpc => ?_⟩
  · obtain ⟨rfl, -⟩ := hworker i hpc
    exact hthreads.trans hok
  · rcases hpc with hpc | hpc
    · exact (hworker i hpc).2
    · exact absurd hpc (hio i)
  · obtain ⟨hsame, hbroken⟩ := Lifetime.call_breaks cfg hidle call hstart
    obtain ⟨hbefore, hlt⟩ := hbroken t hlt
    show ((x.life.call call).io t).loop.start = false
    rw [hsame]
    exact h.broken hbefore (fun hnil => hne (hthreads.trans hnil)) t ht hlt
  · exact hthreads ▸ h.joining i hrun
  · exact ⟨hthreads ▸ (h.returned hrun).1, fun e he => (h.returned hrun).2 e (hthreads ▸ he)⟩
  · obtain rfl := hdestroying hpc
    intro e he
    rcases hok with hnone | hrun
    · have he : e ∈ x.life.threads := hthreads ▸ he
      rw [hnone] at he
      exact absurd he List.not_mem_nil
    · exact (h.returned hrun).2 e (hthreads ▸ he)

theorem Kept.go (h : x.Kept cfg) {watched created : Bool} {life : Lifetime}
    (hstep : x.life.go cfg ctl watched created = some life) : Kept cfg { x with life := life } := by
  obtain ⟨hstart, hbreaks⟩ := Lifetime.go_breaks hstep
  have hbroken : x.life.threads ≠ [] → life.start = false → ∀ t, t < cfg.ioThreadCount →
      t < Lifetime.brokenTo cfg.ioThreadCount life.pc → (life.io t).loop.start = false := by
    intro hne hstopped t ht hlt
    rcases hbreaks t ht hlt with hbefore | hbroken
    · have hloop := h.broken (hstart ▸ hstopped) hne t ht hbefore
      have hmends := (Lifetime.go_goes hstep).loops t
      rw [hloop] at hmends
      exact Bool.eq_false_iff.mpr fun hset => absurd (hmends hset) (by simp)
    · exact hbroken
  rcases Lifetime.go_threads hstep with ⟨i, hpc, hi, hnext, hthreads⟩ | ⟨hthreads, hio, hworker⟩
  · have hlength := h.starting i hpc
    have hlife : ∀ {pc : CallPc}, life.pc = pc → .startIo (i + 1) = pc := fun h => hnext ▸ h
    have hset := h.started i (Or.inr hpc)
    refine ⟨?_, fun j hj => absurd (hlife hj) (by simp), fun j hj => ?_,
      fun _ _ => hstart.trans hset,
      fun hstopped => absurd (hstart.symm.trans hstopped) (by simp [hset]), fun j hrun => ?_,
      fun hrun => ?_, fun hpc => ?_⟩
    · show life.threads.map Entry.idx = List.range life.threads.length
      rw [hthreads, List.map_append, h.order, List.length_append, List.length_singleton,
        List.range_succ, hlength]
      rfl
    · obtain rfl := CallPc.startIo.inj (hlife hj)
      simp [hthreads, hlength]
    · have hfull := (h.joining j hrun).1
      omega
    · have hfull := (h.returned hrun).1
      omega
    · have hpc : life.pc.destroying = true := hpc
      rw [hnext] at hpc
      cases hpc
  · refine ⟨hthreads ▸ h.order, fun i hpc => ?_, fun i hpc => ?_, fun i hpc => ?_,
      fun hstopped hne => hbroken (fun hnil => hne (hthreads.trans hnil)) hstopped,
      fun i hrun => ?_, fun hrun => ?_, fun hpc => ?_⟩
    · obtain ⟨j, hj⟩ := hworker i hpc
      exact hthreads.trans (h.fresh j hj)
    · obtain ⟨rfl, j, hj⟩ := hio i hpc
      show life.threads.length = 0
      rw [hthreads, h.fresh j hj]
      rfl
    · show life.start = true
      rw [hstart]
      rcases hpc with hpc | hpc
      · obtain ⟨j, hj⟩ := hworker i hpc
        exact h.started j (Or.inl hj)
      · obtain ⟨-, j, hj⟩ := hio i hpc
        exact h.started j (Or.inl hj)
    · exact hthreads ▸ h.joining i hrun
    · exact ⟨hthreads ▸ (h.returned hrun).1, fun e he => (h.returned hrun).2 e (hthreads ▸ he)⟩
    · exact fun e he => h.destroying ((Lifetime.go_pc hstep).1 hpc) e (hthreads ▸ he)

theorem Kept.thread (h : x.Kept cfg) {k : Nat} {life : Lifetime}
    (hstep : x.life.step cfg ctl (.thread k) = some life) : Kept cfg { x with life := life } := by
  obtain ⟨e, pc, hk, hrunning, hthreads, henters⟩ := Lifetime.thread_step hstep
  have hpc := henters.pc
  have he : e ∈ x.life.threads := List.mem_of_getElem? hk
  have hlength : life.threads.length = x.life.threads.length := by rw [hthreads, List.length_set]
  -- A thread that has left stays where it is.
  have hkept : ∀ {p : Entry → Prop}, (∀ f ∈ x.life.threads, p f → f.pc = .exited) →
      (p { e with pc := pc } → p e) → ∀ f ∈ life.threads, p f → f.pc = .exited := by
    intro p hall hsame f hf hpf
    rw [hthreads] at hf
    rcases List.mem_or_eq_of_mem_set hf with hold | rfl
    · exact hall f hold hpf
    · exact absurd (hall e he (hsame hpf)) hrunning
  refine ⟨?_, fun i hi => ?_, fun i hi => ?_, fun i hi => ?_, fun hstopped _ t ht hlt => ?_,
    fun i hrun => ?_, fun hrun => ?_, fun hdestroy => ?_⟩
  · show life.threads.map Entry.idx = List.range life.threads.length
    rw [hlength, ← h.order, hthreads]
    apply List.ext_getElem?
    intro j
    rw [List.getElem?_map, List.getElem?_map, List.getElem?_set]
    split
    · subst ‹k = j›
      split
      · rw [hk]
        rfl
      · rename_i hlt
        exact absurd (List.getElem?_eq_some_iff.mp hk).1 hlt
    · rfl
  · have hnone := h.fresh i (hpc ▸ hi)
    rw [hnone] at he
    exact absurd he List.not_mem_nil
  · exact hlength.trans (h.starting i (hpc ▸ hi))
  · exact henters.start.trans (h.started i (hpc ▸ hi))
  · have hstopped : life.start = false := hstopped
    have hne : x.life.threads ≠ [] := List.ne_nil_of_mem he
    exact (henters.loops t).trans
      (h.broken (henters.start ▸ hstopped) hne t ht (henters.pc ▸ hlt))
  · obtain ⟨hfull, hall⟩ := h.joining i hrun
    exact ⟨hlength.trans hfull, hkept hall id⟩
  · obtain ⟨hfull, hall⟩ := h.returned hrun
    refine ⟨hlength.trans hfull, fun f hf => ?_⟩
    exact hkept (p := fun _ => True) (fun f hf _ => hall f hf) id f hf trivial
  · have hall := h.destroying (hpc ▸ hdestroy)
    exact fun f hf => hkept (p := fun _ => True) (fun f hf _ => hall f hf) id f hf trivial

theorem Kept.run (h : x.Kept cfg) (hok : x.Follows cfg .run) {run : RunPc}
    (hstep : xvServiceRun cfg x.life x.run = some run) : Kept cfg { x with run := run } := by
  have hok : x.run = .idle → x.life.threads.length = cfg.ioThreadCount := hok
  have hjoining := h.joining
  generalize x.run = pc at hstep hok hjoining
  unfold xvServiceRun at hstep
  split at hstep
  · obtain rfl := Option.some.inj hstep
    refine ⟨h.order, h.fresh, h.starting, h.started, h.broken, fun i hi => ?_, fun hret => ?_,
      h.destroying⟩
    · have hi : (if !x.life.start then RunPc.returned xvErr else .joining 0) = .joining i := hi
      split at hi
      · cases hi
      · obtain rfl := RunPc.joining.inj hi
        exact ⟨hok rfl, fun e _ hlt => absurd hlt (Nat.not_lt_zero _)⟩
    · have hret : (if !x.life.start then RunPc.returned xvErr else .joining 0) =
        .returned xvOk := hret
      split at hret
      · simp [xvErr, xvOk] at hret
      · cases hret
  · rename_i i
    obtain ⟨hfull, hall⟩ := hjoining i rfl
    split at hstep
    · split at hstep
      · cases hstep
      · rename_i e he
        simp only [Option.ite_none_right_eq_some, Option.some.injEq] at hstep
        obtain ⟨hexited, rfl⟩ := hstep
        obtain ⟨hmem, hidx⟩ := Lifetime.joinable_mem he
        refine ⟨h.order, h.fresh, h.starting, h.started, h.broken,
          fun j hj => ⟨hfull, fun f hf hlt => ?_⟩, fun hret => absurd hret (by simp), h.destroying⟩
        have hj : RunPc.joining (i + 1) = .joining j := hj
        obtain rfl := RunPc.joining.inj hj
        by_cases hlast : f.idx = i
        · rw [Lifetime.eq_of_idx h.order hf hmem (hlast.trans hidx.symm)]
          exact hexited
        · exact hall f hf (by omega)
    · rename_i hi
      obtain rfl := Option.some.inj hstep
      refine ⟨h.order, h.fresh, h.starting, h.started, h.broken, fun j hj => absurd hj (by simp),
        fun _ => ⟨hfull, ?_⟩, h.destroying⟩
      intro e he
      have hlt := Lifetime.idx_lt h.order he
      exact hall e he (by omega)
  · cases hstep

theorem Kept.step (h : x.Kept cfg) {label : RunLabel} (hok : x.Follows cfg label)
    (hstep : x.step cfg ctl label = some x') : x'.Kept cfg := by
  cases label with
  | run =>
      obtain ⟨run, hrun, rfl⟩ := Option.map_eq_some_iff.mp hstep
      exact h.run hok hrun
  | life label =>
      obtain ⟨life, hlife, rfl⟩ := Option.map_eq_some_iff.mp hstep
      cases label with
      | call call =>
          simp only [Lifetime.step, Option.ite_none_right_eq_some, Option.some.injEq] at hlife
          obtain ⟨hidle, rfl⟩ := hlife
          exact h.call hidle hok
      | go watched created => exact h.go hlife
      | thread k => exact h.thread hlife
      | worker i move =>
          obtain ⟨thread, -, rfl⟩ := Option.map_eq_some_iff.mp hlife
          exact ⟨h.order, h.fresh, h.starting, h.started, h.broken, h.joining, h.returned,
            h.destroying⟩

theorem kept (h : Reach (Running.step cfg ctl) (Running.Follows cfg) (· = Running.init) x) :
    x.Kept cfg := by
  apply h.invariant
  · intro x hx
    subst hx
    exact Kept.init
  · exact fun x label x' hkept hok hstep => hkept.step hok hstep

/-- What the other thread does is a run of the calls. -/
theorem life_reachable {ok : Running → RunLabel → Prop}
    (h : Reach (Running.step cfg ctl) ok (· = Running.init) x) :
    Reachable (Lifetime.step cfg ctl) (· = Lifetime.init) x.life := by
  refine h.invariant (I := fun x => Reachable (Lifetime.step cfg ctl) (· = Lifetime.init) x.life)
    ?_ ?_
  · intro x hx
    subst hx
    exact .start rfl
  · intro x label x' hlife _ hstep
    cases label with
    | run =>
        obtain ⟨run, -, rfl⟩ := Option.map_eq_some_iff.mp hstep
        exact hlife
    | life label =>
        obtain ⟨life, hnext, rfl⟩ := Option.map_eq_some_iff.mp hstep
        exact .next hlife trivial hnext

/-! ### The join loop goes on -/

/-- A thread that has not left can go on once its loop is broken. -/
theorem entry_isSome (ctl : EpollCtl) {x : Lifetime} (hunfreed : x.Unfreed) {t : Nat} {pc : EntryPc}
    (hbroken : (x.io t).loop.start = false) (hpc : pc ≠ .exited) :
    (x.entry ctl t pc).isSome = true := by
  cases pc with
  | exited => exact absurd rfl hpc
  | asyncs | addFirst | delFirst => rfl
  | loop => simp [Lifetime.entry, hbroken]
  | add rest | del rest =>
      cases rest with
      | nil => rfl
      | cons l rest => simp [Lifetime.entry, hunfreed.1 l]

/-- What `xv_service_destroy` has freed, no thread uses any more. -/
theorem Kept.exited_of_freed (h : x.Kept cfg) (hheld : x.life.Held)
    (hfreed : ¬ x.life.Unfreed) : x.life.AllExited := by
  apply h.destroying
  have hfreeing : x.life.pc.freeing = true := by
    by_contra hnot
    exact hfreed (hheld.unfreed (Bool.eq_false_iff.mpr hnot))
  generalize x.life.pc = pc at hfreeing
  cases pc <;> simp_all [CallPc.freeing, CallPc.destroying]

/-- The thread that runs the service, or the one it waits for, can go on. -/
theorem Kept.goes (h : x.Kept cfg) (hheld : x.life.Held) {i : Nat} (hrun : x.run = .joining i)
    (hstopped : x.life.start = false) (hidle : x.life.pc = .idle) :
    (x.step cfg ctl .run).isSome = true ∨
      ∃ (k : Nat) (e : Entry), x.life.threads[k]? = some e ∧ x.life.joinable i = some e ∧
        (x.step cfg ctl (.life (.thread k))).isSome = true := by
  obtain ⟨hfull, -⟩ := h.joining i hrun
  by_cases hi : i < cfg.ioThreadCount
  · obtain ⟨e, he⟩ := Lifetime.joinable_isSome h.order (hfull ▸ hi)
    obtain ⟨hmem, hidx⟩ := Lifetime.joinable_mem he
    by_cases hexited : e.pc = .exited
    · left
      simp [Running.step, xvServiceRun, hrun, hi, he, hexited]
    · right
      have hunfreed : x.life.Unfreed := by
        by_contra hfreed
        exact hexited (h.exited_of_freed hheld hfreed e hmem)
      have hbroken : (x.life.io i).loop.start = false := by
        refine h.broken hstopped (List.ne_nil_of_mem hmem) i hi ?_
        rw [hidle]
        exact hi
      obtain ⟨k, hk⟩ := List.mem_iff_getElem?.mp hmem
      obtain ⟨next, hnext⟩ := Option.isSome_iff_exists.mp
        (entry_isSome ctl hunfreed (hidx ▸ hbroken) hexited)
      refine ⟨k, e, hk, he, ?_⟩
      simp [Running.step, Lifetime.step, hk, hunfreed.2, hnext]
  · left
    simp [Running.step, xvServiceRun, hrun, hi]

end Running

/-! ### And comes to its end -/

/-- The instructions of `io_thread_entry` that are behind a thread, where there are `n`
listeners. -/
def EntryPc.done (n : Nat) : EntryPc → Nat
  | .asyncs => 0
  | .addFirst => 1
  | .add rest => 2 + (n - rest.length)
  | .loop => n + 3
  | .delFirst => n + 4
  | .del rest => n + 5 + (n - rest.length)
  | .exited => 2 * n + 6

theorem EntryPc.done_mono {n m : Nat} (h : n ≤ m) (pc : EntryPc) : pc.done n ≤ pc.done m := by
  cases pc <;> simp only [EntryPc.done] <;> omega

theorem EntryPc.done_le (n : Nat) (pc : EntryPc) : pc.done n ≤ 2 * n + 6 := by
  cases pc <;> simp only [EntryPc.done] <;> omega

/-- What a thread has before it of the list of listeners. -/
def EntryPc.rest : EntryPc → List Nat
  | .add rest | .del rest => rest
  | _ => []

theorem Lifetime.entry_done {x : Lifetime} {t : Nat} {pc : EntryPc} {next : Lifetime × EntryPc}
    (h : x.entry ctl t pc = some next) (hrest : pc.rest.length ≤ x.listeners.length) :
    pc.done x.listeners.length < next.2.done x.listeners.length ∧
      next.2.rest.length ≤ x.listeners.length := by
  cases entry_step h with
  | add | del =>
      simp only [EntryPc.rest, List.length_cons] at hrest
      simp only [EntryPc.done, EntryPc.rest, List.length_cons]
      omega
  | lead | follow | addFirst | added | leaderBroken | broken | delFirst | deleted =>
      simp only [EntryPc.done, EntryPc.rest, List.length_nil]
      omega

/-- The joins that are behind `xv_service_run`. -/
def RunPc.done (n : Nat) : RunPc → Nat
  | .idle => 0
  | .joining i => min i n + 1
  | .returned _ => n + 2

theorem xvServiceRun_done {x : Lifetime} {pc next : RunPc}
    (h : xvServiceRun cfg x pc = some next) :
    pc.done cfg.ioThreadCount < next.done cfg.ioThreadCount := by
  unfold xvServiceRun at h
  split at h
  · obtain rfl := Option.some.inj h
    split <;> simp only [RunPc.done] <;> omega
  · split at h
    · split at h
      · cases h
      · simp only [Option.ite_none_right_eq_some, Option.some.injEq] at h
        obtain ⟨-, rfl⟩ := h
        simp only [RunPc.done]
        omega
    · obtain rfl := Option.some.inj h
      simp only [RunPc.done]
      omega
  · cases h

/-- A step of an io thread outside its event loop, or of the thread that runs the service. -/
def RunLabel.own : RunLabel → Bool
  | .run | .life (.thread _) => true
  | .life (.call _) | .life (.go ..) | .life (.worker ..) => false

namespace Running

variable {x x' : Running}

def done (cfg : Config) (x : Running) : Nat :=
  (x.life.threads.map fun e => e.pc.done x.life.listeners.length).sum + x.run.done cfg.ioThreadCount

theorem done_le (cfg : Config) (x : Running) : x.done cfg ≤
    x.life.threads.length * (2 * x.life.listeners.length + 6) + cfg.ioThreadCount + 2 := by
  have hthreads : (x.life.threads.map fun e => e.pc.done x.life.listeners.length).sum ≤
      x.life.threads.length * (2 * x.life.listeners.length + 6) := by
    have hsum := List.sum_le_card_nsmul (x.life.threads.map fun e =>
      e.pc.done x.life.listeners.length) (2 * x.life.listeners.length + 6) (by
        intro n hn
        obtain ⟨e, -, rfl⟩ := List.mem_map.mp hn
        exact EntryPc.done_le _ _)
    simpa using hsum
  have hrun : x.run.done cfg.ioThreadCount ≤ cfg.ioThreadCount + 2 := by
    cases x.run <;> simp only [RunPc.done] <;> omega
  unfold done
  omega

/-- What a thread has before it is part of the list. -/
def Listed (x : Running) : Prop :=
  ∀ e ∈ x.life.threads, e.pc.rest.length ≤ x.life.listeners.length

theorem Listed.init : Running.init.Listed := fun _ he => absurd he List.not_mem_nil

/-- More threads that have yet to begin, and more listeners. -/
theorem Listed.grows (cfg : Config) (h : x.Listed) {life : Lifetime} {new : List Entry}
    (hthreads : life.threads = x.life.threads ++ new) (hnew : ∀ e ∈ new, e.pc = .asyncs)
    (hlisteners : x.life.listeners.length ≤ life.listeners.length) :
    Listed { x with life := life } ∧ x.done cfg ≤ done cfg { x with life := life } := by
  constructor
  · intro e he
    have he : e ∈ life.threads := he
    rw [hthreads] at he
    rcases List.mem_append.mp he with hold | hfresh
    · exact Nat.le_trans (h e hold) hlisteners
    · rw [hnew e hfresh]
      exact Nat.zero_le _
  · have hsum : (x.life.threads.map fun e => e.pc.done x.life.listeners.length).sum ≤
        (x.life.threads.map fun e => e.pc.done life.listeners.length).sum :=
      List.sum_le_sum fun e _ => EntryPc.done_mono hlisteners e.pc
    show _ + x.run.done cfg.ioThreadCount ≤
      (life.threads.map fun e => e.pc.done life.listeners.length).sum +
        x.run.done cfg.ioThreadCount
    rw [hthreads, List.map_append, List.sum_append]
    omega

theorem Listed.step (h : x.Listed) {label : RunLabel} (hstep : x.step cfg ctl label = some x') :
    x'.Listed ∧ x.done cfg ≤ x'.done cfg ∧ (label.own = true → x.done cfg < x'.done cfg) := by
  cases label with
  | run =>
      obtain ⟨run, hrun, rfl⟩ := Option.map_eq_some_iff.mp hstep
      have hless := xvServiceRun_done hrun
      refine ⟨h, ?_, fun _ => ?_⟩ <;> unfold done <;> dsimp only <;> omega
  | life label =>
      obtain ⟨life, hlife, rfl⟩ := Option.map_eq_some_iff.mp hstep
      have hgrows := fun (new : List Entry) (hthreads : life.threads = x.life.threads ++ new) =>
        h.grows cfg hthreads
      cases label with
      | call call =>
          simp only [Lifetime.step, Option.ite_none_right_eq_some, Option.some.injEq] at hlife
          obtain ⟨-, rfl⟩ := hlife
          obtain ⟨hlisted, hdone⟩ := hgrows [] (by simp [(x.life.call_threads call).1]) (by simp)
            (x.life.call_listeners call)
          exact ⟨hlisted, hdone, fun hown => by cases hown⟩
      | go watched created =>
          have hgoes := Lifetime.go_goes hlife
          obtain ⟨new, hthreads, hnew⟩ := hgoes.threads
          obtain ⟨hlisted, hdone⟩ := hgrows new hthreads hnew
            (Nat.le_of_eq (congrArg List.length hgoes.listeners.symm))
          exact ⟨hlisted, hdone, fun hown => by cases hown⟩
      | thread k =>
          obtain ⟨e, next, hk, -, hnext, rfl⟩ := Lifetime.thread_some hlife
          have hlisteners : next.1.listeners = x.life.listeners :=
            (Lifetime.entry_enters hnext).listeners
          obtain ⟨hless, hrest⟩ := Lifetime.entry_done hnext (h e (List.mem_of_getElem? hk))
          have hsum := Potential.sum_set_lt (b := { e with pc := next.2 })
            (fun e : Entry => e.pc.done x.life.listeners.length) hk hless
          refine ⟨fun f hf => ?_, ?_, fun _ => ?_⟩
          · rw [hlisteners]
            rcases List.mem_or_eq_of_mem_set hf with hold | rfl
            · exact h f hold
            · exact hrest
          · unfold done
            dsimp only
            rw [hlisteners]
            omega
          · unfold done
            dsimp only
            rw [hlisteners]
            omega
      | worker i move =>
          obtain ⟨thread, -, rfl⟩ := Option.map_eq_some_iff.mp hlife
          exact ⟨h, Nat.le_refl _, fun hown => by cases hown⟩

end Running

/-- **`xv_service_run` returns when the io threads are gone.**  In every run in which the service
is started once, run when its io threads have been created, and destroyed only when
`xv_service_run` has returned `XV_OK` or if it was never started, whatever is called meanwhile from
the other thread: when `xv_service_run` has returned `XV_OK`, and as soon as anything of the service
has been freed, every io thread has left `io_thread_entry`; once `xv_service_stop` has returned,
`xv_service_run` or the io thread that it waits for can make its next step; and together
`xv_service_run` and the io threads, before and after their event loops, make only so many steps.
What an io thread does inside its event loop is not counted. -/
theorem service_run_returns {x : Running}
    (h : Reach (Running.step cfg ctl) (Running.Follows cfg) (· = Running.init) x) :
    (x.run = .returned xvOk → x.life.AllExited) ∧ (¬ x.life.Unfreed → x.life.AllExited) ∧
    (∀ i, x.run = .joining i → x.life.start = false → x.life.pc = .idle →
      (x.step cfg ctl .run).isSome = true ∨
        ∃ (k : Nat) (e : Entry), x.life.threads[k]? = some e ∧ x.life.joinable i = some e ∧
          (x.step cfg ctl (.life (.thread k))).isSome = true) ∧
    ∀ moves y, Transition.play (Running.step cfg ctl) x moves = some y →
      moves.countP RunLabel.own ≤
        y.life.threads.length * (2 * y.life.listeners.length + 6) + cfg.ioThreadCount + 2 := by
  have hkept := Running.kept h
  have hheld := Lifetime.held (Running.life_reachable h)
  refine ⟨fun hrun => (hkept.returned hrun).2, hkept.exited_of_freed hheld,
    fun i hrun hstopped hidle => hkept.goes hheld hrun hstopped hidle, fun moves y hplay => ?_⟩
  have hlisted : x.Listed := by
    refine h.invariant (I := Running.Listed) ?_ fun x label x' hx _ hstep => (hx.step hstep).1
    intro x hx
    subst hx
    exact Running.Listed.init
  have hcount := Potential.count_le (Running.step cfg ctl) (Running.done cfg)
    (fun x label x' hx hstep => (hx.step hstep).1)
    (fun x label x' hx hown hstep => (Running.Listed.step hx hstep).2.2 hown)
    (fun x label x' hx hstep => (Running.Listed.step hx hstep).2.1) hlisted hplay
  have hmost := y.done_le cfg
  omega

/-- Creating the only io thread, running the service, and the io thread up to its loop. -/
def startAndRun : List RunLabel :=
  .life (.call .start) :: .replicate 3 (.life (.go true true)) ++ [.run] ++
    .replicate 3 (.life (.thread 0))

/-- `xv_service_stop`, the io thread leaving its loop, and `xv_service_run` joining it. -/
def stopAndJoin : List RunLabel :=
  .life (.call .stop) :: .replicate 4 (.life (.go true true)) ++
    .replicate 3 (.life (.thread 0)) ++ [.run, .run]

/-- The service of a single io thread is started, run, stopped and destroyed. -/
theorem service_run_returns_destroyed : ∃ x : Running,
    Reach (Running.step inlineConfig acceptAll) (Running.Follows inlineConfig)
      (· = Running.init) x ∧ x.run = .returned xvOk ∧ x.life.pc = .destroyed ∧
        x.life.ioFreed 0 = true ∧ x.life.AllExited := by
  obtain ⟨x, hreach, hrun, hpc, hfreed⟩ : ∃ x : Running,
      Reach (Running.step inlineConfig acceptAll) (Running.Follows inlineConfig)
        (· = Running.init) x ∧
        x.run = .returned xvOk ∧ x.life.pc = .destroyed ∧ x.life.ioFreed 0 = true :=
    ⟨_, Reach.play (startAndRun ++ stopAndJoin ++ .life (.call .destroy) ::
      .replicate 5 (.life (.go true true))) (.start rfl) (by decide) rfl, rfl, rfl, rfl⟩
  exact ⟨x, hreach, hrun, hpc, hfreed, (service_run_returns hreach).1 hrun⟩

end Libxv
