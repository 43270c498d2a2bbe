/-
What `xv_service_destroy` has done by the time it is where it is.

A connection is freed from the table and from the queue it waits in, a message is destroyed
after every connection is gone, and a worker that still has a task pushes it when it likes.
`Destroying.Tracks` keeps count of all of it over a whole call, and of what is still to come.
-/
import Libxv.Service.Destroy
import Libxv.Proofs.Service.Stop
import Libxv.Proofs.Service.Conservation

namespace Libxv

open Function Transition

variable {P : Type} {cfg : Config} {ctl : EpollCtl} {s : State P} {x : Destroying P}

/-! ### A service whose io threads are joined -/

/-- What the threads of a service that is being stopped keep to. -/
structure Stopping.Threads (cfg : Config) (x : Stopping P) : Prop where
  exited : ∀ t, x.exited t = true → x.state.pc (.io t) = .poll
  beyond : ∀ t, cfg.ioThreadCount ≤ t → x.state.pc (.io t) = .entry
  adopting : ∀ a c, (x.state.pc a).adopts = some c → ∃ t, a = .io t

theorem Stopping.Threads.instr {x : Stopping P} (h : x.Threads cfg) {a : Agent} {act : Act P}
    {next : State P} {pc' : Pc P} (hadmits : x.admits (.act a act) = true)
    (hruns : a.runs cfg = true)
    (hinstr : Instr cfg ctl x.state a (x.state.pc a) act next pc') :
    Stopping.Threads cfg { x with state := next.goto a pc' } where
  exited := by
    intro t ht
    have hne : Agent.io t ≠ a := by
      rintro rfl
      have hexited : x.exited t = true := ht
      cases act <;> simp [Stopping.admits, hexited] at hadmits
    show (next.goto a pc').pc (.io t) = .poll
    rw [State.goto_pc_of_ne _ _ hne, hinstr.pc_eq]
    exact h.exited t ht
  beyond := by
    intro t ht
    have hne : Agent.io t ≠ a := by
      rintro rfl
      simp [Agent.runs] at hruns
      omega
    show (next.goto a pc').pc (.io t) = .entry
    rw [State.goto_pc_of_ne _ _ hne, hinstr.pc_eq]
    exact h.beyond t ht
  adopting := by
    intro b c hc
    by_cases hb : b = a
    · subst hb
      have hc : ((next.goto b pc').pc b).adopts = some c := hc
      rw [State.goto_pc_self] at hc
      rcases hinstr.adopts_cases hc with ⟨rfl, -⟩ | ⟨hpc, -⟩ | ⟨t, -, rfl, -⟩
      · exact ⟨0, rfl⟩
      · exact h.adopting b c (by rw [hpc]; rfl)
      · exact ⟨t, rfl⟩
    · have hc : ((next.goto a pc').pc b).adopts = some c := hc
      rw [State.goto_pc_of_ne _ _ hb, hinstr.pc_eq] at hc
      exact h.adopting b c hc

theorem Stopping.threads {x : Stopping P}
    (h : Reachable (Stopping.step cfg ctl) (· = Stopping.init) x) : x.Threads cfg := by
  refine h.invariant (I := Stopping.Threads cfg) ?_ ?_
  · intro x hx
    subst hx
    exact ⟨fun t ht => absurd ht nofun, fun t _ => rfl, fun a c hc => by
      cases a <;> exact absurd hc nofun⟩
  · intro x label x' hthreads _ hstep
    rcases Stopping.step_cases hstep with ⟨inner, state, -, hadmits, hinner, rfl⟩ |
        ⟨t, -, hpc, -, rfl⟩ | ⟨-, -, rfl⟩ | ⟨next, -, hnext, rfl⟩
    · rcases State.step_cases hinner with ⟨a, act, next, pc, rfl, -, hruns, hinstr, rfl⟩ |
          ⟨c, -, -, rfl⟩ | ⟨c, -, -, -, rfl⟩
      · exact hthreads.instr hadmits hruns hinstr
      · exact ⟨hthreads.exited, hthreads.beyond, hthreads.adopting⟩
      · exact ⟨hthreads.exited, hthreads.beyond, hthreads.adopting⟩
    · refine ⟨fun t' ht' => ?_, hthreads.beyond, hthreads.adopting⟩
      by_cases htt : t' = t
      · rw [htt]
        exact hpc
      · exact hthreads.exited t' ((update_of_ne htt ..).symm.trans ht')
    · exact ⟨hthreads.exited, hthreads.beyond, hthreads.adopting⟩
    · have hpc : next.1.pc = x.state.pc := (xvServiceStop_stilled hnext).pc
      refine ⟨fun t ht => ?_, fun t ht => ?_, fun a c hc => ?_⟩
      · exact (congrFun hpc (.io t)).trans (hthreads.exited t ht)
      · exact (congrFun hpc (.io t)).trans (hthreads.beyond t ht)
      · exact hthreads.adopting a c (by rw [← hpc]; exact hc)

/-- Every connection that is still allocated is in the slot of its fd. -/
def State.InTable (s : State P) : Prop :=
  ∀ c, s.alive c = true →
    (s.conns c).conn.fd < s.table.setsize ∧ s.table.slots (s.conns c).conn.fd = some c

/-- Once the io threads are joined no connection is about to enter or to leave the table. -/
theorem Stopping.inTable {x : Stopping P}
    (h : Reachable (Stopping.step cfg ctl) (· = Stopping.init) x) (hjoined : x.Joined cfg) :
    x.state.InTable := by
  obtain ⟨hsound, hlisted⟩ := Stopping.sound h
  have hthreads := Stopping.threads h
  have hidle : ∀ t, x.state.pc (.io t) = .poll ∨ x.state.pc (.io t) = .entry := by
    intro t
    by_cases ht : t < cfg.ioThreadCount
    · exact Or.inl (hthreads.exited t (hjoined.2 t ht))
    · exact Or.inr (hthreads.beyond t (Nat.not_lt.mp ht))
  intro c halive
  have hadding : ¬ ∃ a, x.state.pc a = .addConnection c := by
    rintro ⟨a, ha⟩
    obtain ⟨t, rfl⟩ := hthreads.adopting a c (by rw [ha]; rfl)
    rcases hidle t with ht | ht <;> exact absurd (ht.symm.trans ha) (by simp)
  have hdeleted : (x.state.conns c).deleted = 0 := by
    rcases hlisted.idle c halive with hzero | ⟨a, p, hp⟩
    · exact (Prod.mk.inj hzero).1
    · obtain ⟨t, rfl, -⟩ := hsound.affine.serving a c (Pc.serves_of_withdraws hp)
      rcases hidle t with ht | ht <;> rw [ht] at hp <;> cases hp
  have hlt := State.lt_of_alive halive
  exact ⟨(hlisted.registered c hlt).resolve_left hadding,
    (hlisted.slot c hlt hdeleted).resolve_left hadding⟩

/-! ### What a step can do -/

/-- One step of a service that is being destroyed. -/
inductive Destroying.Next (cfg : Config) (ctl : EpollCtl) (x : Destroying P) :
    Destroying P → Prop
  | worker {i : Nat} {act : Act P} {next : State P} {pc' : Pc P}
      (h : Instr cfg ctl x.state (.worker i) (x.state.pc (.worker i)) act next pc') :
      Next cfg ctl x
        { x with state := next.goto (.worker i) pc', pushes := x.pushes ++ x.pushed i }
  | connNone {i : Nat} (hpc : x.pc = .conns i) (hi : i < x.state.table.setsize)
      (hslot : x.state.table.slots i = none) : Next cfg ctl x { x with pc := .conns (i + 1) }
  | connFree {i c : Nat} (hpc : x.pc = .conns i) (hi : i < x.state.table.setsize)
      (hslot : x.state.table.slots i = some c) :
      Next cfg ctl x
        { x with state := x.state.freeConn c, freed := x.freed ++ [c], pc := .conns (i + 1) }
  | connsDone {i : Nat} (hpc : x.pc = .conns i) (hi : ¬ i < x.state.table.setsize) :
      Next cfg ctl x { x with pc := .connQueue 0 }
  | queueFree {t c : Nat} {rest : List Nat} (hpc : x.pc = .connQueue t)
      (ht : t < cfg.ioThreadCount) (hqueue : (x.state.io t).connQueue = c :: rest) :
      Next cfg ctl x { x with state := (x.state.popConn t).freeConn c, freed := x.freed ++ [c] }
  | queueDone {t : Nat} (hpc : x.pc = .connQueue t) (ht : t < cfg.ioThreadCount)
      (hqueue : (x.state.io t).connQueue = []) : Next cfg ctl x { x with pc := .messageQueue t }
  | threadsDone {t : Nat} (hpc : x.pc = .connQueue t) (ht : ¬ t < cfg.ioThreadCount) :
      Next cfg ctl x { x with pc := .poolStop 0 }
  | messageDestroy {t m : Nat} {rest : List Nat} {own cleanup : Bool}
      (hpc : x.pc = .messageQueue t) (hqueue : (x.state.io t).messageQueue = m :: rest) :
      Next cfg ctl x
        { x with
          state := (x.state.popMessage t).xvMessageDestroyWith m cleanup
          destroyed := x.destroyed ++ [⟨m, own, x.state.alive (x.state.msgs m).conn⟩] }
  | messagesDone {t : Nat} (hpc : x.pc = .messageQueue t)
      (hqueue : (x.state.io t).messageQueue = []) :
      Next cfg ctl x { x with gone := update x.gone t true, pc := .connQueue (t + 1) }
  | pool {next : State P} {pc' : DestroyPc} (hpc : x.pc.pooling = true)
      (hpc' : pc'.pooling = true) (h : x.state.Stilled next) :
      Next cfg ctl x { x with state := next, pc := pc' }

theorem State.sendWorker_stilled (s : State P) (i : Nat) :
    s.Stilled (s.setWorker i (s.workers i).send) where
  nextConn := rfl
  msgs := rfl
  nextMsg := rfl
  pc := rfl
  table := rfl
  openFds := rfl
  conns := fun _ => ⟨.refl _, rfl, rfl⟩
  queues := fun _ => ⟨rfl, rfl⟩
  slots := fun _ _ _ => Or.inl
  workers := fun i' =>
    ⟨update_same s.workers i _ WorkerThread.taskQueue (by rfl) i',
      update_same s.workers i _ WorkerThread.pc (by rfl) i'⟩

theorem Destroying.step_next {label : DestroyLabel P} {x' : Destroying P}
    (h : x.step cfg label = some x') : Destroying.Next cfg ctl x x' := by
  cases label with
  | worker i act =>
      simp only [Destroying.step, Option.ite_none_right_eq_some, Option.map_eq_some_iff] at h
      obtain ⟨-, next, hnext, rfl⟩ := h
      exact .worker (workerStep_instr hnext)
  | go own =>
      simp only [Destroying.step, xvServiceDestroy] at h
      split at h
      · rename_i i hpc
        split at h
        · rename_i hi
          split at h <;> rename_i hslot <;> obtain rfl := Option.some.inj h
          · exact .connNone hpc hi hslot
          · exact .connFree hpc hi hslot
        · rename_i hi
          obtain rfl := Option.some.inj h
          exact .connsDone hpc hi
      · rename_i t hpc
        split at h
        · rename_i ht
          split at h <;> rename_i hqueue <;> obtain rfl := Option.some.inj h
          · exact .queueDone hpc ht hqueue
          · exact .queueFree hpc ht hqueue
        · rename_i ht
          obtain rfl := Option.some.inj h
          exact .threadsDone hpc ht
      · rename_i t hpc
        split at h <;> rename_i hqueue <;> obtain rfl := Option.some.inj h
        · exact .messagesDone hpc hqueue
        · exact .messageDestroy hpc hqueue
      · rename_i i hpc
        split at h <;> obtain rfl := Option.some.inj h
        · exact .pool (by rw [hpc]; rfl) rfl (x.state.stopWorker_stilled i)
        · exact .pool (by rw [hpc]; rfl) rfl (.refl _)
      · rename_i i hpc
        split at h <;> obtain rfl := Option.some.inj h
        · exact .pool (by rw [hpc]; rfl) rfl (x.state.stopWorker_stilled i)
        · exact .pool (by rw [hpc]; rfl) rfl (.refl _)
      · rename_i i hpc
        obtain rfl := Option.some.inj h
        exact .pool (by rw [hpc]; rfl) rfl (x.state.sendWorker_stilled i)
      · rename_i i hpc
        split at h
        · obtain rfl := Option.some.inj h
          exact .pool (by rw [hpc]; rfl) rfl (.refl _)
        · simp at h
      · simp at h

/-- What an instruction of a worker leaves alone. -/
theorem Instr.worker_frame {i : Nat} {pc pc' : Pc P} {act : Act P} {next : State P}
    (h : Instr cfg ctl s (.worker i) pc act next pc') :
    next.conns = s.conns ∧ next.nextConn = s.nextConn ∧ next.table = s.table ∧
      next.nextMsg = s.nextMsg ∧ ∀ t, (next.io t).connQueue = (s.io t).connQueue := by
  cases h
  case taskPush t m =>
    exact ⟨rfl, rfl, rfl, rfl, fun t' => update_same s.io t _ IoThread.connQueue (by rfl) t'⟩
  case taskSend t thread hstep =>
    exact ⟨rfl, rfl, rfl, rfl, fun t' => update_same s.io t _ IoThread.connQueue (by rfl) t'⟩
  all_goals exact ⟨rfl, rfl, rfl, rfl, fun _ => rfl⟩

/-! ### The connections that are left -/

/-- The entries of the table from slot `i` on. -/
def State.tableFrom (s : State P) (i : Nat) : List Nat :=
  (List.range' i (s.table.setsize - i)).filterMap s.table.slots

/-- The connections in the hand-off queues from io thread `t` on. -/
def State.queuesFrom (cfg : Config) (s : State P) (t : Nat) : List Nat :=
  (List.range' t (cfg.ioThreadCount - t)).flatMap fun t => (s.io t).connQueue

/-- What `xv_service_destroy` will call `xv_connection_destroy` with. -/
def State.leftovers (cfg : Config) (s : State P) : List Nat :=
  s.tableFrom 0 ++ s.queuesFrom cfg 0

/-- What it still has to call it with. -/
def Destroying.pending (cfg : Config) (x : Destroying P) : List Nat :=
  match x.pc with
  | .conns i => x.state.tableFrom i ++ x.state.queuesFrom cfg 0
  | .connQueue t => x.state.queuesFrom cfg t
  | .messageQueue t => x.state.queuesFrom cfg (t + 1)
  | _ => []

theorem State.tableFrom_lt {i : Nat} (hi : i < s.table.setsize) :
    s.tableFrom i = (s.table.slots i).toList ++ s.tableFrom (i + 1) := by
  unfold State.tableFrom
  rw [show s.table.setsize - i = s.table.setsize - (i + 1) + 1 by omega, List.range'_succ,
    List.filterMap_cons]
  cases s.table.slots i <;> rfl

theorem State.tableFrom_ge {i : Nat} (hi : ¬ i < s.table.setsize) : s.tableFrom i = [] := by
  unfold State.tableFrom
  rw [show s.table.setsize - i = 0 by omega]
  rfl

theorem State.queuesFrom_lt {t : Nat} (ht : t < cfg.ioThreadCount) :
    s.queuesFrom cfg t = (s.io t).connQueue ++ s.queuesFrom cfg (t + 1) := by
  unfold State.queuesFrom
  rw [show cfg.ioThreadCount - t = cfg.ioThreadCount - (t + 1) + 1 by omega, List.range'_succ,
    List.flatMap_cons]

theorem State.queuesFrom_ge {t : Nat} (ht : ¬ t < cfg.ioThreadCount) :
    s.queuesFrom cfg t = [] := by
  unfold State.queuesFrom
  rw [show cfg.ioThreadCount - t = 0 by omega]
  rfl

theorem State.queuesFrom_congr {next : State P} {t : Nat}
    (h : ∀ u, t ≤ u → (next.io u).connQueue = (s.io u).connQueue) :
    next.queuesFrom cfg t = s.queuesFrom cfg t := by
  unfold State.queuesFrom
  refine List.flatMap_congr fun u hu => h u ?_
  exact (List.mem_range'_1.mp hu).1

theorem Destroying.pending_pooling (h : x.pc.pooling = true) : x.pending cfg = [] := by
  unfold Destroying.pending
  cases hpc : x.pc <;> rw [hpc] at h <;> first | rfl | cases h

/-! ### What a whole call keeps -/

/-- The slot has not been looked at. -/
def DestroyPc.Awaits (fd : Nat) : DestroyPc → Prop
  | .conns i => i ≤ fd
  | _ => False

/-- What a call of `xv_service_destroy` keeps to. -/
structure Destroying.Tracks (cfg : Config) (x : Destroying P) : Prop where
  inTable : x.entered.InTable
  owned : x.state.Owned
  table : x.state.table = x.entered.table
  /-- A connection stays allocated until its slot is looked at. -/
  alive : ∀ c, x.state.alive c = true →
    x.entered.alive c = true ∧ x.pc.Awaits (x.entered.conns c).conn.fd
  released : x.freed ++ x.pending cfg = x.entered.leftovers cfg
  /-- No message is destroyed before its connection. -/
  late : ∀ d ∈ x.destroyed, d.alive = false
  /-- Without messages nothing is destroyed and nothing pushed. -/
  quiet : (∀ m, x.entered.live m = false) →
    (∀ m, x.state.live m = false) ∧ x.destroyed = [] ∧ x.pushes = []

theorem State.alive_freeConn {c c' : Nat} (h : (s.freeConn c').alive c = true) :
    s.alive c = true ∧ c ≠ c' := by
  by_cases hc : c = c'
  · subst hc
    simp [State.alive, State.freeConn] at h
  · simp only [State.alive, State.freeConn, update_of_ne hc] at h
    exact ⟨h, hc⟩

theorem State.alive_destroyWith (s : State P) (m : Nat) (cleanup : Bool) (c : Nat) :
    (s.xvMessageDestroyWith m cleanup).alive c = s.alive c :=
  congrArg (fun n => decide (c < s.nextConn) && n == 0)
    (update_same s.conns (s.msgs m).conn _ Connection.freed (by rfl) c)

theorem State.live_destroyWith (s : State P) (m : Nat) (cleanup : Bool) (x : Nat) :
    (s.xvMessageDestroyWith m cleanup).live x = true ↔ s.live x = true ∧ x ≠ m := by
  by_cases hx : x = m
  · subst hx
    simp [State.live, State.xvMessageDestroyWith, State.addRef, State.setConn]
  · simp [State.live, State.xvMessageDestroyWith, State.addRef, State.setConn, hx]

/-- The message at the head of a queue is taken out and destroyed. -/
theorem State.Owned.dropHead (h : s.Owned) {t m : Nat} {rest : List Nat} {cleanup : Bool}
    (hqueue : (s.io t).messageQueue = m :: rest) :
    ((s.popMessage t).xvMessageDestroyWith m cleanup).Owned where
  resting := h.resting
  callbacks := h.callbacks
  placed := by
    refine h.placed.destroy (m := m) (l := rest) (p := .messages t) hqueue
      (fun x => (s.popMessage t).live_destroyWith m cleanup x) ?_ ?_
    · show (update s.io t _ t).messageQueue = rest
      rw [update_self, hqueue]
      rfl
    · intro q hq
      cases q with
      | held a => rfl
      | tasks i => rfl
      | messages u =>
          have hu : u ≠ t := fun hu => hq (congrArg Place.messages hu)
          exact congrArg IoThread.messageQueue (update_of_ne hu ..)

/-- A service without messages has none in a worker's hands. -/
theorem State.Owned.pushes_nothing (h : x.state.Owned) (hnone : ∀ m, x.state.live m = false)
    (i : Nat) : x.pushed i = [] := by
  unfold Destroying.pushed
  split
  · rename_i t m hpc
    have hlive := (h.held (a := .worker i) (m := m) (by rw [hpc]; rfl)).1
    exact absurd (hnone m) (by simp [hlive])
  · rfl

theorem Destroying.Tracks.worker (h : x.Tracks cfg) {i : Nat} {act : Act P} {next : State P}
    {pc' : Pc P}
    (hinstr : Instr cfg ctl x.state (.worker i) (x.state.pc (.worker i)) act next pc') :
    Destroying.Tracks cfg
      { x with state := next.goto (.worker i) pc', pushes := x.pushes ++ x.pushed i } := by
  obtain ⟨hconns, hnext, htable, hmsgs, hqueues⟩ := hinstr.worker_frame
  refine ⟨h.inTable, h.owned.instr hinstr, htable.trans h.table, fun c hc => ?_, ?_, h.late, ?_⟩
  · refine h.alive c ?_
    have hc : next.alive c = true := hc
    unfold State.alive at hc ⊢
    rw [hconns, hnext] at hc
    exact hc
  · rw [← h.released]
    refine congrArg (x.freed ++ ·) ?_
    have hfrom : ∀ i, (next.goto (.worker i) pc').tableFrom i = x.state.tableFrom i := fun i => by
      unfold State.tableFrom
      rw [show (next.goto (.worker i) pc').table = x.state.table from htable]
    have hrest : ∀ t, State.queuesFrom cfg (next.goto (.worker i) pc') t =
        x.state.queuesFrom cfg t := fun t => State.queuesFrom_congr fun u _ => hqueues u
    unfold Destroying.pending
    cases x.pc with
    | conns j =>
        dsimp only
        rw [hrest]
        exact congrArg (· ++ _) (hfrom j)
    | connQueue t => exact hrest t
    | messageQueue t => exact hrest (t + 1)
    | _ => rfl
  · intro hnone
    obtain ⟨hquiet, hdestroyed, hpushes⟩ := h.quiet hnone
    refine ⟨fun m => ?_, hdestroyed, ?_⟩
    · by_contra hne
      have hlive : (next.goto (.worker i) pc').live m = true := by simpa using hne
      have hlive : next.live m = true := hlive
      have hm : m < x.state.nextMsg := hmsgs ▸ State.lt_of_live hlive
      exact absurd (hinstr.live_before hm hlive) (by simp [hquiet m])
    · show x.pushes ++ x.pushed i = []
      rw [hpushes, h.owned.pushes_nothing hquiet]
      rfl

/-- A connection that is not the one in slot `i` is in a later slot. -/
theorem Destroying.Tracks.later (h : x.Tracks cfg) {i c : Nat} (hpc : x.pc = .conns i)
    (hslot : x.state.table.slots i ≠ some c) (hc : x.state.alive c = true) :
    x.entered.alive c = true ∧ i + 1 ≤ (x.entered.conns c).conn.fd := by
  obtain ⟨halive, hawaits⟩ := h.alive c hc
  rw [hpc] at hawaits
  have hle : i ≤ (x.entered.conns c).conn.fd := hawaits
  have hne : i ≠ (x.entered.conns c).conn.fd := by
    rintro rfl
    rw [h.table] at hslot
    exact hslot (h.inTable c halive).2
  exact ⟨halive, Nat.lt_of_le_of_ne hle hne⟩

/-- Past the table every connection is freed. -/
theorem Destroying.Tracks.dead (h : x.Tracks cfg) (hpast : ∀ fd, ¬ x.pc.Awaits fd) (c : Nat) :
    x.state.alive c = false := by
  by_contra halive
  exact hpast _ (h.alive c (by simpa using halive)).2

theorem Destroying.Tracks.connFree (h : x.Tracks cfg) {i c : Nat} (hpc : x.pc = .conns i)
    (hi : i < x.state.table.setsize) (hslot : x.state.table.slots i = some c) :
    Destroying.Tracks cfg
      { x with state := x.state.freeConn c, freed := x.freed ++ [c], pc := .conns (i + 1) } := by
  refine ⟨h.inTable, ?_, h.table, fun c' hc' => ?_, ?_, h.late, h.quiet⟩
  · exact h.owned.congr rfl (fun _ => rfl) (fun _ => rfl) fun _ => ⟨rfl, rfl⟩
  · obtain ⟨hbefore, hne⟩ := State.alive_freeConn hc'
    refine h.later hpc (fun hsame => hne ?_) hbefore
    exact Option.some.inj (hsame.symm.trans hslot)
  · have hreleased := h.released
    simp only [Destroying.pending, hpc] at hreleased ⊢
    rw [State.tableFrom_lt hi, hslot] at hreleased
    simpa [State.tableFrom, State.queuesFrom, State.freeConn] using hreleased

theorem Destroying.Tracks.queueFree (h : x.Tracks cfg) {t c : Nat} {rest : List Nat}
    (hpc : x.pc = .connQueue t) (ht : t < cfg.ioThreadCount)
    (hqueue : (x.state.io t).connQueue = c :: rest) :
    Destroying.Tracks cfg
      { x with state := (x.state.popConn t).freeConn c, freed := x.freed ++ [c] } := by
  refine ⟨h.inTable, ?_, h.table, fun c' hc' => ?_, ?_, h.late, h.quiet⟩
  · refine h.owned.congr rfl (fun _ => rfl) (fun u => ?_) fun _ => ⟨rfl, rfl⟩
    exact update_same x.state.io t _ IoThread.messageQueue (by rfl) u
  · obtain ⟨hbefore, -⟩ := State.alive_freeConn hc'
    exact h.alive c' hbefore
  · have hreleased := h.released
    simp only [Destroying.pending, hpc] at hreleased ⊢
    rw [State.queuesFrom_lt ht, hqueue] at hreleased
    rw [State.queuesFrom_lt ht]
    have hpop : (((x.state.popConn t).freeConn c).io t).connQueue = rest := by
      simp [State.popConn, State.freeConn, hqueue]
    have hrest : State.queuesFrom cfg ((x.state.popConn t).freeConn c) (t + 1) =
        x.state.queuesFrom cfg (t + 1) := by
      refine State.queuesFrom_congr fun u hu => ?_
      have hne : u ≠ t := by omega
      exact congrArg IoThread.connQueue (update_of_ne hne ..)
    rw [hpop, hrest]
    simpa using hreleased

/-- A message is destroyed when the table is done, so its connection is gone. -/
theorem Destroying.Tracks.messageDestroy (h : x.Tracks cfg) {t m : Nat} {rest : List Nat}
    {own cleanup : Bool} (hpc : x.pc = .messageQueue t)
    (hqueue : (x.state.io t).messageQueue = m :: rest) :
    Destroying.Tracks cfg
      { x with
        state := (x.state.popMessage t).xvMessageDestroyWith m cleanup
        destroyed := x.destroyed ++ [⟨m, own, x.state.alive (x.state.msgs m).conn⟩] } := by
  have hdead := h.dead (by rw [hpc]; exact fun _ => id)
  refine ⟨h.inTable, h.owned.dropHead hqueue, h.table, fun c hc => ?_, ?_, fun d hd => ?_,
    fun hnone => ?_⟩
  · rw [State.alive_destroyWith] at hc
    exact absurd ((hdead c).symm.trans hc) (by simp)
  · have hreleased := h.released
    simp only [Destroying.pending, hpc] at hreleased ⊢
    rw [State.queuesFrom_congr (s := x.state)]
    · exact hreleased
    · intro u hu
      exact update_same x.state.io t _ IoThread.connQueue (by rfl) u
  · rcases List.mem_append.mp hd with hold | hnew
    · exact h.late d hold
    · obtain rfl := List.mem_singleton.mp hnew
      exact hdead _
  · have hlive := h.owned.queued_live (t := t) (m := m)
      (by rw [hqueue]; exact List.mem_cons_self)
    exact absurd ((h.quiet hnone).1 m) (by simp [hlive])

/-- A step that only goes on keeps the invariant if nothing is skipped. -/
theorem Destroying.Tracks.goOn (h : x.Tracks cfg) {pc : DestroyPc} (gone : Nat → Bool)
    (halive : ∀ c, x.state.alive c = true → pc.Awaits (x.entered.conns c).conn.fd)
    (hpending : Destroying.pending cfg { x with gone := gone, pc := pc } = x.pending cfg) :
    Destroying.Tracks cfg { x with gone := gone, pc := pc } where
  inTable := h.inTable
  owned := h.owned
  table := h.table
  alive := fun c hc => ⟨(h.alive c hc).1, halive c hc⟩
  released := by
    rw [hpending]
    exact h.released
  late := h.late
  quiet := h.quiet

/-- **One step.** -/
theorem Destroying.Tracks.step (h : x.Tracks cfg) {x' : Destroying P}
    (hnext : Destroying.Next cfg ctl x x') : x'.Tracks cfg := by
  cases hnext with
  | worker hinstr => exact h.worker hinstr
  | connNone hpc hi hslot =>
      refine h.goOn x.gone (fun c hc => (h.later hpc (by rw [hslot]; nofun) hc).2) ?_
      simp only [Destroying.pending, hpc]
      rw [State.tableFrom_lt hi, hslot]
      rfl
  | connFree hpc hi hslot => exact h.connFree hpc hi hslot
  | @connsDone i hpc hi =>
      refine h.goOn x.gone (fun c hc => ?_) ?_
      · obtain ⟨halive, hawaits⟩ := h.alive c hc
        rw [hpc] at hawaits
        have hle : i ≤ (x.entered.conns c).conn.fd := hawaits
        have hlt := (h.inTable c halive).1
        rw [h.table] at hi
        omega
      · simp only [Destroying.pending, hpc]
        rw [State.tableFrom_ge hi]
        rfl
  | queueFree hpc ht hqueue => exact h.queueFree hpc ht hqueue
  | queueDone hpc ht hqueue =>
      have hdead := h.dead (by rw [hpc]; exact fun _ => id)
      refine h.goOn x.gone (fun c hc => absurd ((hdead c).symm.trans hc) (by simp)) ?_
      simp only [Destroying.pending, hpc]
      rw [State.queuesFrom_lt ht, hqueue]
      rfl
  | threadsDone hpc ht =>
      have hdead := h.dead (by rw [hpc]; exact fun _ => id)
      refine h.goOn x.gone (fun c hc => absurd ((hdead c).symm.trans hc) (by simp)) ?_
      simp only [Destroying.pending, hpc]
      exact (State.queuesFrom_ge ht).symm
  | messageDestroy hpc hqueue => exact h.messageDestroy hpc hqueue
  | messagesDone hpc hqueue =>
      have hdead := h.dead (by rw [hpc]; exact fun _ => id)
      refine h.goOn _ (fun c hc => absurd ((hdead c).symm.trans hc) (by simp)) ?_
      simp only [Destroying.pending, hpc]
  | pool hpc hpc' hstilled =>
      have hdead := h.dead fun fd hawaits => by
        cases hat : x.pc <;> rw [hat] at hpc hawaits <;>
          first | exact hawaits.elim | cases hpc
      refine ⟨h.inTable, h.owned.stilled hstilled, hstilled.table.trans h.table, fun c hc => ?_, ?_,
        h.late, fun hnone => ?_⟩
      · rw [hstilled.alive] at hc
        exact absurd ((hdead c).symm.trans hc) (by simp)
      · have hreleased := h.released
        rw [Destroying.pending_pooling hpc] at hreleased
        rw [Destroying.pending_pooling hpc']
        exact hreleased
      · obtain ⟨hquiet, hnothing⟩ := h.quiet hnone
        exact ⟨fun m => (hstilled.live m).trans (hquiet m), hnothing⟩

/-- **Every run.** -/
theorem Destroying.tracks (h : Reachable (Destroying.step cfg) (Destroying.Start cfg ctl) x) :
    x.Tracks cfg := by
  refine h.invariant (I := Destroying.Tracks cfg) ?_ ?_
  · intro x hnow
    obtain ⟨y, hy, hjoined, rfl⟩ := hnow
    exact ⟨Stopping.inTable hy hjoined, (Stopping.sound hy).1.owned, rfl,
      fun c hc => ⟨hc, Nat.zero_le _⟩, rfl, nofun, fun hnone => ⟨hnone, rfl, rfl⟩⟩
  · intro x label x' htracks _ hstep
    have hnext : Destroying.Next cfg ctl x x' := Destroying.step_next hstep
    exact htracks.step hnext

end Libxv
