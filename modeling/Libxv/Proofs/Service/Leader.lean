/-
What the leader will do to a listener.

A listener has an io thread because some leader has come by it, and that leader comes by once
more: from the moment it adds the first listener to the end of `io_thread_entry` it holds all
that are listed.  Left to itself, and with its loop broken, it clears every one of them.
-/
import Libxv.Proofs.Service.Lifetime

namespace Libxv

open Function Transition

variable {cfg : Config} {ctl : EpollCtl} {x x' : Lifetime}

/-! ### Who holds a listener -/

/-- The thread has yet to delete the listener. -/
def EntryPc.Holds (l : Nat) : EntryPc → Prop
  | .add _ | .loop | .delFirst => True
  | .del rest => l ∈ rest
  | _ => False

/-- Only the leader comes here. -/
def EntryPc.leads : EntryPc → Bool
  | .addFirst | .add _ | .delFirst | .del _ => true
  | _ => false

/-- `xv_service_destroy` has come to free things. -/
def CallPc.freeing : CallPc → Bool
  | .destroyListener _ | .destroyIo _ | .poolStop _ | .workerStop _ | .workerSend _
  | .workerJoin _ | .destroyed => true
  | _ => false

namespace Lifetime

/-- Nothing has been freed. -/
def Unfreed (x : Lifetime) : Prop :=
  (∀ l, (x.listener l).freed = false) ∧ ∀ t, x.ioFreed t = false

theorem entry_leads {t : Nat} {pc : EntryPc} {next : Lifetime × EntryPc}
    (h : x.entry ctl t pc = some next) (hnext : next.2.leads = true) :
    pc.leads = true ∨ t = 0 := by
  cases entry_step h with
  | lead ht | leaderBroken ht => exact Or.inr ht
  | addFirst | add | added | delFirst | del | deleted => exact Or.inl rfl
  | follow | broken => cases hnext

/-- What is set afterwards was set before, or has just been set by a thread that holds it. -/
theorem entry_sets {t l : Nat} {pc : EntryPc} {next : Lifetime × EntryPc}
    (h : x.entry ctl t pc = some next) (hset : (next.1.listener l).ioThread ≠ none) :
    (x.listener l).ioThread ≠ none ∨ pc.leads = true ∧ next.2.Holds l := by
  cases entry_step h with
  | add => exact Or.inr ⟨rfl, trivial⟩
  | del =>
      rw [delListener_ioThread] at hset
      split at hset
      · exact absurd rfl hset
      · exact Or.inl hset
  | lead | follow | addFirst | added | leaderBroken | broken | delFirst | deleted =>
      exact Or.inl hset

/-- The leader keeps holding a listener until it clears it. -/
theorem entry_holds {l : Nat} {pc : EntryPc} {next : Lifetime × EntryPc}
    (h : x.entry ctl 0 pc = some next) (hl : l ∈ x.listeners) (hpc : pc.Holds l) :
    next.2.Holds l ∨ (next.1.listener l).ioThread = none := by
  cases entry_step h with
  | lead | follow | addFirst => exact absurd hpc id
  | add | added | leaderBroken => exact Or.inl trivial
  | broken ht => exact absurd rfl ht
  | delFirst => exact Or.inl hl
  | deleted => exact absurd hpc List.not_mem_nil
  | del =>
      rcases List.mem_cons.mp hpc with rfl | hrest
      · refine Or.inr ?_
        rw [delListener_ioThread, if_pos rfl]
      · exact Or.inl hrest

structure Held (x : Lifetime) : Prop where
  /-- A listener with an io thread is one that some leader has yet to delete. -/
  held : ∀ l ∈ x.listeners, (x.listener l).ioThread ≠ none →
    ∃ (k : Nat) (pc : EntryPc), x.threads[k]? = some ⟨0, pc⟩ ∧ pc.Holds l
  leads : ∀ e ∈ x.threads, e.pc.leads = true → e.idx = 0
  unfreed : x.pc.freeing = false → x.Unfreed

/-- Nothing is freed before `xv_service_destroy` comes to it. -/
theorem go_unfreed {watched created : Bool} (h : x.go cfg ctl watched created = some x')
    (hfreeing : x'.pc.freeing = false) :
    x.pc.freeing = false ∧ (∀ l, (x'.listener l).freed = (x.listener l).freed) ∧
      x'.ioFreed = x.ioFreed := by
  have hstep := go_step h
  generalize x.pc = pc at hstep ⊢
  cases hstep with
  | startWorker | workersStarted | startIo | startFailed | started | listenersStopped
  | stopIo | ioStopped | stopWorker => exact ⟨rfl, fun _ => rfl, rfl⟩
  | @stopListener l =>
      exact ⟨rfl, update_same x.listener l _ Listener.freed (by rfl), rfl⟩
  | @stopped _ caller =>
      cases caller with
      | user => exact ⟨rfl, fun _ => rfl, rfl⟩
      | destroy => cases hfreeing
  | destroyListener | listenersDestroyed | destroyIo | ioDestroyed | poolStop | poolStopped
  | workerStop | destroyed | workerSend | workerJoin => cases hfreeing

theorem Held.go (hx : x.Held) {watched created : Bool}
    (h : x.go cfg ctl watched created = some x') : x'.Held := by
  have hgoes := go_goes h
  obtain ⟨new, hnew, hasyncs⟩ := hgoes.threads
  refine ⟨fun l hl hset => ?_, fun e he hleads => ?_, fun hfreeing => ?_⟩
  · obtain ⟨k, pc, hk, hholds⟩ := hx.held l (hgoes.listeners ▸ hl) (hgoes.ioThread l ▸ hset)
    refine ⟨k, pc, ?_, hholds⟩
    rw [hnew]
    exact List.getElem?_append_left (List.getElem?_eq_some_iff.mp hk).1 ▸ hk
  · rw [hnew] at he
    rcases List.mem_append.mp he with hold | hfresh
    · exact hx.leads e hold hleads
    · rw [hasyncs e hfresh] at hleads
      cases hleads
  · obtain ⟨hbefore, hfreed, hioFreed⟩ := go_unfreed h hfreeing
    obtain ⟨hlisteners, hios⟩ := hx.unfreed hbefore
    exact ⟨fun l => (hfreed l).trans (hlisteners l), fun t => hioFreed ▸ hios t⟩

theorem Held.thread (hx : x.Held) {k : Nat} (h : x.step cfg ctl (.thread k) = some x') :
    x'.Held := by
  obtain ⟨e, next, hk, -, hnext, rfl⟩ := thread_some h
  have henters := entry_enters hnext
  have he : e ∈ x.threads := List.mem_of_getElem? hk
  have hlt : k < x.threads.length := (List.getElem?_eq_some_iff.mp hk).1
  have hself : ∀ f : Entry, (x.threads.set k f)[k]? = some f := fun f => by
    rw [List.getElem?_set_self hlt]
  refine ⟨fun l hl hset => ?_, fun f hf hleads => ?_, fun hfreeing => ?_⟩
  · have hmem : l ∈ x.listeners := henters.listeners ▸ hl
    rcases entry_sets hnext hset with hbefore | ⟨hleads, hholds⟩
    · obtain ⟨j, pc, hj, hholds⟩ := hx.held l hmem hbefore
      by_cases hjk : j = k
      · -- The holder itself moves, and `l` is not what it clears.
        subst hjk
        obtain rfl := Option.some.inj (hj.symm.trans hk)
        rcases entry_holds hnext hmem hholds with hstill | hcleared
        · exact ⟨j, next.2, hself _, hstill⟩
        · exact absurd hcleared hset
      · exact ⟨j, pc, (List.getElem?_set_ne (Ne.symm hjk)).trans hj, hholds⟩
    · exact ⟨k, next.2, by rw [hself, hx.leads e he hleads], hholds⟩
  · rcases List.mem_or_eq_of_mem_set hf with hold | rfl
    · exact hx.leads f hold hleads
    · exact (entry_leads hnext hleads).elim (hx.leads e he) id
  · obtain ⟨hlisteners, hios⟩ := hx.unfreed (henters.pc ▸ hfreeing)
    exact ⟨fun l => (henters.freed l).trans (hlisteners l), fun t => henters.ioFreed ▸ hios t⟩

theorem Held.call (hx : x.Held) (hidle : x.pc = .idle) (call : ApiCall) : (x.call call).Held := by
  have hunfreed := hx.unfreed (by rw [hidle]; rfl)
  cases call with
  | addListen fd =>
      cases fd with
      | none => exact ⟨hx.held, hx.leads, fun _ => hunfreed⟩
      | some fd =>
          refine ⟨fun l hl hset => ?_, hx.leads, fun _ => ⟨fun l => ?_, hunfreed.2⟩⟩
          · by_cases hnew : l = x.listeners.length
            · subst hnew
              simp [Lifetime.call, addListen, setListener, xvListenerInit] at hset
            · have hold : l ∈ x.listeners := (List.mem_cons.mp hl).resolve_left hnew
              refine hx.held l hold ?_
              simpa only [Lifetime.call, addListen, setListener, update_of_ne hnew] using hset
          · by_cases hnew : l = x.listeners.length
            · subst hnew
              simp [Lifetime.call, addListen, setListener, xvListenerInit]
            · simp only [Lifetime.call, addListen, setListener, update_of_ne hnew]
              exact hunfreed.1 l
  | start =>
      simp only [Lifetime.call, startCall]
      split <;> exact ⟨hx.held, hx.leads, fun _ => hunfreed⟩
  | stop | destroy =>
      simp only [Lifetime.call, stopCall]
      split <;> exact ⟨hx.held, hx.leads, fun _ => hunfreed⟩

theorem held (h : Reachable (Lifetime.step cfg ctl) (· = Lifetime.init) x) : x.Held := by
  refine h.invariant (I := Held) ?_ fun y label y' hy _ hstep => ?_
  · intro y hy
    subst hy
    exact ⟨nofun, nofun, fun _ => ⟨fun _ => rfl, fun _ => rfl⟩⟩
  · cases label with
    | call call =>
        simp only [Lifetime.step, Option.ite_none_right_eq_some] at hstep
        exact Option.some.inj hstep.2 ▸ hy.call hstep.1 call
    | go watched created => exact hy.go hstep
    | thread k => exact hy.thread hstep
    | worker i move =>
        obtain ⟨thread, -, rfl⟩ := Option.map_eq_some_iff.mp hstep
        exact ⟨hy.held, hy.leads, hy.unfreed⟩

end Lifetime

/-! ### The leader on its own -/

/-- The label is not a new call. -/
def LifeLabel.Quiet : LifeLabel → Prop
  | .call _ => False
  | _ => True

namespace Lifetime

/-- The states a run comes to without a new call. -/
abbrev Meanwhile (cfg : Config) (ctl : EpollCtl) (start : Lifetime → Prop) : Lifetime → Prop :=
  Reach (step cfg ctl) (fun _ label => label.Quiet) start

variable {start : Lifetime → Prop}

theorem Enters.trans {mid next : Lifetime} (h : x.Enters mid) (h' : mid.Enters next) :
    x.Enters next where
  start := h'.start.trans h.start
  listeners := h'.listeners.trans h.listeners
  loops := fun t => (h'.loops t).trans (h.loops t)
  ioFreed := h'.ioFreed.trans h.ioFreed
  workers := h'.workers.trans h.workers
  pc := h'.pc.trans h.pc
  freed := fun l => (h'.freed l).trans (h.freed l)

theorem Enters.unfreed {next : Lifetime} (h : x.Enters next) (hx : x.Unfreed) : next.Unfreed :=
  ⟨fun l => (h.freed l).trans (hx.1 l), fun t => h.ioFreed ▸ hx.2 t⟩

/-- The leader moves. -/
theorem leader_moves (h : Meanwhile cfg ctl start x) (hx : x.Unfreed) {k : Nat} {pc : EntryPc}
    (hk : x.threads[k]? = some ⟨0, pc⟩) {next : Lifetime × EntryPc}
    (hnext : x.entry ctl 0 pc = some next) :
    ∃ y, Meanwhile cfg ctl start y ∧ x.Enters y ∧ y.threads[k]? = some ⟨0, next.2⟩ ∧
      y.listener = next.1.listener := by
  have hlt : k < x.threads.length := (List.getElem?_eq_some_iff.mp hk).1
  have henters := entry_enters hnext
  have hstep : x.step cfg ctl (.thread k) =
      some { next.1 with threads := x.threads.set k ⟨0, next.2⟩ } := by
    simp [step, hk, hx.2 0, hnext]
  refine ⟨_, .next h (by trivial) hstep, { henters with }, ?_, rfl⟩
  show (x.threads.set k ⟨0, next.2⟩)[k]? = _
  rw [List.getElem?_set_self hlt]

/-- The leader that deletes the rest of the list clears what is on it. -/
theorem clears_rest {k l : Nat} (rest : List Nat) :
    ∀ {x : Lifetime}, Meanwhile cfg ctl start x → x.Unfreed →
      x.threads[k]? = some ⟨0, .del rest⟩ → l ∈ rest →
      ∃ y, Meanwhile cfg ctl start y ∧ x.Enters y ∧ (y.listener l).ioThread = none := by
  induction rest with
  | nil => exact fun _ _ _ hl => absurd hl List.not_mem_nil
  | cons m rest ih =>
      intro x h hx hk hl
      have hnext : x.entry ctl 0 (.del (m :: rest)) = some (x.delListener ctl 0 m, .del rest) := by
        simp [entry, hx.1 m]
      obtain ⟨y, hy, henters, hky, hlistener⟩ := leader_moves h hx hk hnext
      rcases List.mem_cons.mp hl with rfl | hrest
      · refine ⟨y, hy, henters, ?_⟩
        rw [hlistener, delListener_ioThread, if_pos rfl]
      · obtain ⟨z, hz, hfurther, hnull⟩ := ih hy (henters.unfreed hx) hky hrest
        exact ⟨z, hz, henters.trans hfurther, hnull⟩

/-- A leader that has its loop broken deletes the listeners. -/
theorem clears_loop {k l : Nat} (h : Meanwhile cfg ctl start x) (hx : x.Unfreed)
    (hbroken : (x.io 0).loop.start = false) (hl : l ∈ x.listeners)
    (hk : x.threads[k]? = some ⟨0, .loop⟩) :
    ∃ y, Meanwhile cfg ctl start y ∧ x.Enters y ∧ (y.listener l).ioThread = none := by
  have hnext : x.entry ctl 0 .loop = some (x, .delFirst) := by
    simp [entry, hbroken]
  obtain ⟨y, hy, henters, hky, -⟩ := leader_moves h hx hk hnext
  obtain ⟨z, hz, hfurther, hkz, -⟩ := leader_moves hy (henters.unfreed hx) hky rfl
  obtain ⟨w, hw, hlast, hnull⟩ := clears_rest y.listeners hz
    (hfurther.unfreed (henters.unfreed hx)) hkz (henters.listeners ▸ hl)
  exact ⟨w, hw, (henters.trans hfurther).trans hlast, hnull⟩

/-- A leader that is still adding adds the rest first. -/
theorem clears_add {k l : Nat} (rest : List Nat) :
    ∀ {x : Lifetime}, Meanwhile cfg ctl start x → x.Unfreed → (x.io 0).loop.start = false →
      l ∈ x.listeners → x.threads[k]? = some ⟨0, .add rest⟩ →
      ∃ y, Meanwhile cfg ctl start y ∧ x.Enters y ∧ (y.listener l).ioThread = none := by
  induction rest with
  | nil =>
      intro x h hx hbroken hl hk
      obtain ⟨y, hy, henters, hky, -⟩ := leader_moves h hx hk rfl
      obtain ⟨z, hz, hfurther, hnull⟩ := clears_loop hy (henters.unfreed hx)
        ((henters.loops 0).trans hbroken) (henters.listeners ▸ hl) hky
      exact ⟨z, hz, henters.trans hfurther, hnull⟩
  | cons m rest ih =>
      intro x h hx hbroken hl hk
      have hnext : x.entry ctl 0 (.add (m :: rest)) = some (x.addListener ctl 0 m, .add rest) := by
        simp [entry, hx.1 m]
      obtain ⟨y, hy, henters, hky, -⟩ := leader_moves h hx hk hnext
      obtain ⟨z, hz, hfurther, hnull⟩ := ih hy (henters.unfreed hx)
        ((henters.loops 0).trans hbroken) (henters.listeners ▸ hl) hky
      exact ⟨z, hz, henters.trans hfurther, hnull⟩

/-- **A leader whose loop is broken clears every listener it holds.** -/
theorem clears {k l : Nat} {pc : EntryPc} (h : Meanwhile cfg ctl start x) (hx : x.Unfreed)
    (hbroken : (x.io 0).loop.start = false) (hl : l ∈ x.listeners)
    (hk : x.threads[k]? = some ⟨0, pc⟩) (hholds : pc.Holds l) :
    ∃ y, Meanwhile cfg ctl start y ∧ x.Enters y ∧ (y.listener l).ioThread = none := by
  cases pc with
  | asyncs | addFirst | exited => exact absurd hholds id
  | add rest => exact clears_add rest h hx hbroken hl hk
  | loop => exact clears_loop h hx hbroken hl hk
  | delFirst =>
      obtain ⟨y, hy, henters, hky, -⟩ := leader_moves h hx hk rfl
      obtain ⟨z, hz, hfurther, hnull⟩ := clears_rest x.listeners hy (henters.unfreed hx) hky hl
      exact ⟨z, hz, henters.trans hfurther, hnull⟩
  | del rest => exact clears_rest rest h hx hk hholds

end Lifetime

end Libxv
