/-
A service that is being stopped.

The thread in `xv_service_stop` takes ios out of loops, breaks loops and clears flags, and
touches neither the queues nor the table, so everything that holds of a running service holds
of one that is being stopped.

What that thread and the user threads rely on is `conn->io_thread`.  A connection is in the
table and known to the user before it is assigned, and with several io threads the assignment
is made by another thread, which gets the connection through its queue.
-/
import Libxv.Service.Stop
import Libxv.Proofs.Service.Table

namespace Libxv

open Function Transition

variable {P : Type} {cfg : Config} {ctl : EpollCtl} {s : State P} {x : Stopping P}

/-! ### What `xv_service_stop` does to the service -/

/-- The states differ in ios, loops and start flags at most, and no loop has gained an io but
one of a connection that is its own. -/
structure State.Stilled (s next : State P) : Prop where
  nextConn : next.nextConn = s.nextConn
  msgs : next.msgs = s.msgs
  nextMsg : next.nextMsg = s.nextMsg
  pc : next.pc = s.pc
  table : next.table = s.table
  openFds : next.openFds = s.openFds
  conns : ∀ c, (s.conns c).conn.Same (next.conns c).conn ∧
    (next.conns c).userRefs = (s.conns c).userRefs ∧
    (next.conns c).cleaned = (s.conns c).cleaned
  queues : ∀ t, (next.io t).connQueue = (s.io t).connQueue ∧
    (next.io t).messageQueue = (s.io t).messageQueue
  slots : ∀ t fd c, ((next.io t).loop.slot fd).readIo = some c ∨
      ((next.io t).loop.slot fd).writeIo = some c →
    (((s.io t).loop.slot fd).readIo = some c ∨ ((s.io t).loop.slot fd).writeIo = some c) ∨
      s.owner c = some t
  workers : ∀ i, (next.workers i).taskQueue = (s.workers i).taskQueue ∧
    (next.workers i).pc = (s.workers i).pc

theorem State.Stilled.refl (s : State P) : s.Stilled s where
  nextConn := rfl
  msgs := rfl
  nextMsg := rfl
  pc := rfl
  table := rfl
  openFds := rfl
  conns := fun _ => ⟨.refl _, rfl, rfl⟩
  queues := fun _ => ⟨rfl, rfl⟩
  slots := fun _ _ _ => Or.inl
  workers := fun _ => ⟨rfl, rfl⟩

theorem xvConnectionStop_same (ctl : EpollCtl) (loop : Loop) (conn : Conn) :
    conn.Same (xvConnectionStop ctl loop conn).2 :=
  ⟨rfl, rfl, rfl, rfl, rfl, xvIoStop_id _ _, xvIoStop_id _ _⟩

theorem xvConnectionStop_addsOnly (ctl : EpollCtl) (loop : Loop) (conn : Conn) (id : Nat) :
    loop.AddsOnly (xvConnectionStop ctl loop conn).1 id :=
  (xvIoStop_addsOnly ctl loop _ id).trans (xvIoStop_addsOnly ctl _ _ id)

theorem State.stopConn_stilled (ctl : EpollCtl) {t c : Nat} (howner : s.owner c = some t) :
    s.Stilled (s.stopConn ctl t c) where
  nextConn := rfl
  msgs := rfl
  nextMsg := rfl
  pc := rfl
  table := rfl
  openFds := rfl
  conns := by
    intro c'
    by_cases hc : c' = c
    · subst hc
      simp only [State.stopConn, State.setConn, State.setLoop, update_self]
      exact ⟨xvConnectionStop_same .., trivial, rfl⟩
    · simp only [State.stopConn, State.setConn, State.setLoop, update_of_ne hc]
      exact ⟨.refl _, trivial, trivial⟩
  queues := fun t' =>
    ⟨update_same s.io t _ IoThread.connQueue (by rfl) t',
      update_same s.io t _ IoThread.messageQueue (by rfl) t'⟩
  slots := by
    intro t' fd c' hslot
    by_cases ht : t' = t
    · subst ht
      have hadds := xvConnectionStop_addsOnly ctl (s.io t').loop (s.conns c).conn c
      simp only [State.stopConn, State.setConn, State.setLoop, update_self] at hslot
      rcases hslot with hread | hwrite
      · rcases hadds.read fd c' hread with hold | rfl
        · exact Or.inl (Or.inl hold)
        · exact Or.inr howner
      · rcases hadds.write fd c' hwrite with hold | rfl
        · exact Or.inl (Or.inr hold)
        · exact Or.inr howner
    · simp only [State.stopConn, State.setConn, State.setLoop, update_of_ne ht] at hslot
      exact Or.inl hslot
  workers := fun _ => ⟨rfl, rfl⟩

theorem State.stopIoThread_stilled (s : State P) (t : Nat) : s.Stilled (s.stopIoThread t) where
  nextConn := rfl
  msgs := rfl
  nextMsg := rfl
  pc := rfl
  table := rfl
  openFds := rfl
  conns := fun _ => ⟨.refl _, rfl, rfl⟩
  queues := fun t' =>
    ⟨update_same s.io t _ IoThread.connQueue (by rfl) t',
      update_same s.io t _ IoThread.messageQueue (by rfl) t'⟩
  slots := by
    intro t' fd c hslot
    have hsame : ((s.stopIoThread t).io t').loop.slot = (s.io t').loop.slot :=
      update_same s.io t _ (fun io => io.loop.slot) (by rfl) t'
    rw [hsame] at hslot
    exact Or.inl hslot
  workers := fun _ => ⟨rfl, rfl⟩

theorem State.stopWorker_stilled (s : State P) (i : Nat) : s.Stilled (s.stopWorker i) where
  nextConn := rfl
  msgs := rfl
  nextMsg := rfl
  pc := rfl
  table := rfl
  openFds := rfl
  conns := fun _ => ⟨.refl _, rfl, rfl⟩
  queues := fun _ => ⟨rfl, rfl⟩
  slots := fun _ _ _ => Or.inl
  workers := fun i' =>
    ⟨update_same s.workers i _ WorkerThread.taskQueue (by rfl) i',
      update_same s.workers i _ WorkerThread.pc (by rfl) i'⟩

/-- **`xv_service_stop` stills the service** and does nothing else to it. -/
theorem xvServiceStop_stilled {pc : StopPc} {next : State P × StopPc}
    (h : xvServiceStop cfg ctl s pc = some next) : s.Stilled next.1 := by
  cases pc with
  | running => cases h
  | stopped => cases h
  | listeners =>
      obtain rfl := Option.some.inj h
      exact .refl s
  | connTest i =>
      simp only [xvServiceStop] at h
      split at h
      · split at h <;> obtain rfl := Option.some.inj h <;> exact .refl s
      · obtain rfl := Option.some.inj h
        exact .refl s
  | connStop i =>
      simp only [xvServiceStop] at h
      split at h
      · simp at h
      · split at h
        · simp at h
        · split at h
          · simp at h
          · rename_i howner
            obtain rfl := Option.some.inj h
            exact State.stopConn_stilled ctl howner
  | ioStop i =>
      simp only [xvServiceStop] at h
      split at h <;> obtain rfl := Option.some.inj h
      · exact s.stopIoThread_stilled i
      · exact .refl s
  | workerStop i =>
      simp only [xvServiceStop] at h
      split at h <;> obtain rfl := Option.some.inj h
      · exact s.stopWorker_stilled i
      · exact .refl s

/-! ### What holds of the service all the while -/

theorem State.Stilled.owner {next : State P} (h : s.Stilled next) (c : Nat) :
    next.owner c = s.owner c := (h.conns c).1.ioThread

theorem State.Stilled.live {next : State P} (h : s.Stilled next) (m : Nat) :
    next.live m = s.live m := by
  unfold State.live
  rw [h.msgs, h.nextMsg]

theorem State.Stilled.alive {next : State P} (h : s.Stilled next) (c : Nat) :
    next.alive c = s.alive c := by
  unfold State.alive
  rw [h.nextConn, (Prod.mk.inj (Prod.mk.inj (h.conns c).2.2).2).2]

theorem State.Owned.stilled (hs : s.Owned) {next : State P} (h : s.Stilled next) :
    next.Owned :=
  hs.congr h.pc h.live (fun t => (h.queues t).2) h.workers

theorem State.Adopted.stilled (hs : s.Adopted) {next : State P} (h : s.Stilled next) :
    next.Adopted where
  known := by
    intro c t hc
    rw [h.nextConn]
    exact hs.known c t ((h.owner c).symm.trans hc)
  placed := by
    refine hs.placed.congr (fun c => ?_) fun p => ?_
    · unfold State.isNew
      rw [h.nextConn, h.owner]
    · cases p with
      | held a => exact congrArg (fun pc : Agent → Pc P => (pc a).adopts.toList) h.pc
      | queued t => exact (h.queues t).1

theorem State.Affine.stilled (hs : s.Affine) {next : State P} (h : s.Stilled next) :
    next.Affine where
  ids := by
    intro c hc
    rw [(h.conns c).1.readId, (h.conns c).1.writeId]
    exact hs.ids c (h.nextConn ▸ hc)
  slots := by
    intro t fd c hslot
    rw [h.owner]
    rcases h.slots t fd c hslot with hold | howner
    · exact hs.slots t fd c hold
    · exact howner
  queued := by
    intro t m hm
    rw [h.owner, h.msgs]
    exact hs.queued t m ((h.queues t).2 ▸ hm)
  serving := by
    intro a c hc
    rw [h.pc, h.msgs] at hc
    rw [h.owner]
    exact hs.serving a c hc
  pushing := by
    intro a t m hm
    rw [h.pc] at hm
    rw [h.owner, h.msgs]
    exact hs.pushing a t m hm
  linked := by
    intro a c m hm
    rw [h.pc] at hm
    rw [h.msgs]
    exact hs.linked a c m hm

theorem State.Sound.stilled (hs : s.Sound) {next : State P} (h : s.Stilled next) :
    next.Sound where
  owned := hs.owned.stilled h
  counted := hs.counted.frame h.nextConn h.nextMsg h.live (fun m => by rw [h.msgs])
    (fun c => (h.conns c).1.refCount) fun c => (h.conns c).2.1
  adopted := hs.adopted.stilled h
  affine := hs.affine.stilled h

theorem State.Listed.stilled (hs : s.Listed) {next : State P} (h : s.Stilled next) :
    next.Listed :=
  hs.frame h.nextConn h.pc h.table h.openFds fun c =>
    ⟨(h.conns c).1.fd, h.owner c, (h.conns c).2.2⟩

/-- What a step of the whole is. -/
theorem Stopping.step_cases {label : StopLabel P} {x' : Stopping P}
    (h : x.step cfg ctl label = some x') :
    (∃ inner state, label = .run inner ∧ x.admits inner = true ∧
        x.state.step cfg ctl inner = some state ∧ x' = { x with state := state }) ∨
      (∃ t, label = .exit t ∧ x.state.pc (.io t) = .poll ∧ t < cfg.ioThreadCount ∧
        x' = { x with exited := update x.exited t true }) ∨
      (label = .call ∧ x.pc = .running ∧ x' = { x with pc := .listeners }) ∨
      ∃ next, label = .go ∧ xvServiceStop cfg ctl x.state x.pc = some next ∧
        x' = { x with state := next.1, pc := next.2 } := by
  cases label with
  | run inner =>
      simp only [Stopping.step, Option.ite_none_right_eq_some, Option.map_eq_some_iff] at h
      obtain ⟨hadmits, state, hstep, rfl⟩ := h
      exact Or.inl ⟨inner, state, rfl, hadmits, hstep, rfl⟩
  | exit t =>
      simp only [Stopping.step] at h
      split at h
      · rename_i hpc
        simp only [Option.ite_none_right_eq_some, Option.some.injEq] at h
        obtain ⟨⟨ht, -⟩, rfl⟩ := h
        exact Or.inr (Or.inl ⟨t, rfl, hpc, ht, rfl⟩)
      · simp at h
  | call =>
      simp only [Stopping.step, Option.ite_none_right_eq_some, Option.some.injEq] at h
      obtain ⟨hpc, rfl⟩ := h
      exact Or.inr (Or.inr (Or.inl ⟨rfl, hpc, rfl⟩))
  | go =>
      simp only [Stopping.step, Option.map_eq_some_iff] at h
      obtain ⟨next, hnext, rfl⟩ := h
      exact Or.inr (Or.inr (Or.inr ⟨next, rfl, hnext, rfl⟩))

/-- **A service that is being stopped is as sound as a running one.** -/
theorem Stopping.sound (h : Reachable (Stopping.step cfg ctl) (· = Stopping.init) x) :
    x.state.Sound ∧ x.state.Listed := by
  refine h.invariant (I := fun x => x.state.Sound ∧ x.state.Listed) ?_ ?_
  · intro x hx
    subst hx
    exact ⟨State.Sound.init, State.Listed.init⟩
  · rintro x label x' ⟨hsound, hlisted⟩ - hstep
    rcases Stopping.step_cases hstep with ⟨inner, state, -, -, hinner, rfl⟩ |
        ⟨t, -, -, -, rfl⟩ | ⟨-, -, rfl⟩ | ⟨next, -, hnext, rfl⟩
    · exact ⟨hsound.step hinner, hlisted.step hsound hinner⟩
    · exact ⟨hsound, hlisted⟩
    · exact ⟨hsound, hlisted⟩
    · have hstilled := xvServiceStop_stilled hnext
      exact ⟨hsound.stilled hstilled, hlisted.stilled hstilled⟩

/-! ### The io thread of a published connection -/

/-- The next instruction of a thread reads `conn->io_thread` of an open connection: that of a
user thread in `xv_service_send_message`, or that of the connection loop of
`xv_service_stop`. -/
def Stopping.Reads (x : Stopping P) (c : Nat) : Prop :=
  x.state.alive c = true ∧ (x.state.conns c).conn.status = .opened ∧
    ((∃ u m, x.state.pc (.sender u) = .sendFetch c m) ∨
      ∃ i, x.pc = .connStop i ∧ x.state.table.slots i = some c)

/-- The connection is between `xv_connection_init` and its adoption: in the hands of the leader
or of the io thread that takes it over, or in the queue between them. -/
def State.HandingOff (s : State P) (c : Nat) : Prop :=
  (∃ a, (s.pc a).adopts = some c) ∨ ∃ t, c ∈ (s.io t).connQueue

/-- A connection is without an io thread exactly as long as it is handed off. -/
theorem State.Adopted.handingOff (h : s.Adopted) {c : Nat} (hc : c < s.nextConn) :
    s.owner c = none ↔ s.HandingOff c := by
  constructor
  · intro hnone
    obtain ⟨p, hp⟩ := h.placed.placed (m := c) ⟨hc, hnone⟩
    cases p with
    | held a => exact Or.inl ⟨a, by simpa [State.newcomers] using hp⟩
    | queued t => exact Or.inr ⟨t, hp⟩
  · rintro (⟨a, ha⟩ | ⟨t, ht⟩)
    · exact (h.lt_of_adopts ha).2
    · exact (h.placed.live (p := .queued t) ht).2

/--
**A published connection has its io thread once it is handed over**: whenever
`xv_service_send_message` or `xv_service_stop` reads `conn->io_thread` of an open connection,
the field is set exactly when the connection is not on its way to its io thread.
-/
theorem io_thread_set_iff (h : Reachable (Stopping.step cfg ctl) (· = Stopping.init) x) {c : Nat}
    (hreads : x.Reads c) :
    (x.state.conns c).conn.ioThread ≠ none ↔ ¬ x.state.HandingOff c := by
  have hadopted := (Stopping.sound h).1.adopted
  have hnew := hadopted.handingOff (State.lt_of_alive hreads.1)
  exact not_congr hnew

/-- A user thread calls `xv_service_send_message` and comes to the read of the io thread. -/
def sendUpToFetch : List (Label Unit) :=
  .act (.sender 0) (.call 0 (some ())) :: goes (.sender 0) 2

/-- The leader starts, accepts a connection and shows it to the user. -/
def acceptUpToAssign : List (Label Unit) :=
  goes (.io 0) 1 ++ [.act (.io 0) (.accept 5 fullHandle fun _ => 0),
    .act (.io 0) (.table fun _ => none)]

/-- A user thread sends on a connection that the only io thread has adopted. -/
theorem io_thread_set_iff_adopted :
    ∃ x : Stopping Unit, x.state.pc (.sender 0) = .sendFetch 0 0 ∧
      ((x.state.conns 0).conn.ioThread ≠ none ↔ ¬ x.state.HandingOff 0) := by
  have hrun : ∃ x : Stopping Unit,
      Transition.play (Stopping.step inlineConfig acceptAll) Stopping.init
        ((acceptOne ++ sendUpToFetch).map .run) = some x ∧
      x.state.pc (.sender 0) = .sendFetch 0 0 ∧ x.state.alive 0 = true ∧
      (x.state.conns 0).conn.status = .opened := ⟨_, rfl, rfl, rfl, rfl⟩
  obtain ⟨x, hplay, hpc, halive, hopen⟩ := hrun
  exact ⟨x, hpc, io_thread_set_iff (Reachable.play _ (.start rfl) hplay)
    ⟨halive, hopen, Or.inl ⟨0, 0, hpc⟩⟩⟩

/-- The user sends from `on_connect`, before the leader has assigned the connection. -/
theorem sent_before_adoption :
    ∃ x : Stopping Unit,
      Reachable (Stopping.step inlineConfig acceptAll) (· = Stopping.init) x ∧ x.Reads 0 ∧
      x.state.pc (.io 0) = .assign 0 ∧ (x.state.conns 0).conn.ioThread = none := by
  have hrun : ∃ x : Stopping Unit,
      Transition.play (Stopping.step inlineConfig acceptAll) Stopping.init
        ((acceptUpToAssign ++ sendUpToFetch).map .run) = some x ∧
      x.state.pc (.sender 0) = .sendFetch 0 0 ∧ x.state.alive 0 = true ∧
      (x.state.conns 0).conn.status = .opened ∧ x.state.pc (.io 0) = .assign 0 ∧
      (x.state.conns 0).conn.ioThread = none := ⟨_, rfl, rfl, rfl, rfl, rfl, rfl⟩
  obtain ⟨x, hplay, hpc, halive, hopen, hassign, hnone⟩ := hrun
  exact ⟨x, Reachable.play _ (.start rfl) hplay, ⟨halive, hopen, Or.inl ⟨0, 0, hpc⟩⟩, hassign,
    hnone⟩

end Libxv
