/-
Stopping and destroying a service come to their end.

`xv_service_stop` returns when it is called with every connection of the table adopted, and the
io threads can then be joined; `xv_service_destroy` returns on what that leaves when the workers
have exited.  Both calls are loops that count, over the table, the io threads and the workers,
with the two queues of each io thread emptied in between.
-/
import Libxv.Proofs.Service.Destroy

namespace Libxv

open Function Transition

variable {P : Type} {cfg : Config} {ctl : EpollCtl} {s : State P}

/-! ### `xv_service_stop` -/

theorem State.Stilled.trans {mid next : State P} (h : s.Stilled mid) (h' : mid.Stilled next) :
    s.Stilled next where
  nextConn := h'.nextConn.trans h.nextConn
  msgs := h'.msgs.trans h.msgs
  nextMsg := h'.nextMsg.trans h.nextMsg
  pc := h'.pc.trans h.pc
  table := h'.table.trans h.table
  openFds := h'.openFds.trans h.openFds
  conns := fun c =>
    ⟨(h.conns c).1.trans (h'.conns c).1, (h'.conns c).2.1.trans (h.conns c).2.1,
      (h'.conns c).2.2.trans (h.conns c).2.2⟩
  queues := fun t =>
    ⟨(h'.queues t).1.trans (h.queues t).1, (h'.queues t).2.trans (h.queues t).2⟩
  slots := by
    intro t fd c hslot
    rcases h'.slots t fd c hslot with hmid | howner
    · exact h.slots t fd c hmid
    · exact Or.inr ((h.owner c).symm.trans howner)
  workers := fun i =>
    ⟨(h'.workers i).1.trans (h.workers i).1, (h'.workers i).2.trans (h.workers i).2⟩

/-- Every connection in the table is allocated and has its io thread. -/
def State.AllAdopted (s : State P) : Prop :=
  ∀ i c, i < s.table.setsize → s.table.slots i = some c →
    s.alive c = true ∧ s.owner c ≠ none

theorem State.AllAdopted.stilled (hs : s.AllAdopted) {next : State P} (h : s.Stilled next) :
    next.AllAdopted := by
  intro i c hi hslot
  rw [h.alive, h.owner]
  exact hs i c (h.table ▸ hi) (h.table ▸ hslot)

/-- Every loop below `i` is broken. -/
def State.BrokenBelow (s : State P) (i : Nat) : Prop :=
  ∀ t, t < i → (s.io t).loop.start = false

section Stop

variable {x : Stopping P}

theorem Stopping.go (h : Reachable (Stopping.step cfg ctl) (· = Stopping.init) x)
    (state : State P) (pc : StopPc)
    (hnext : xvServiceStop cfg ctl x.state x.pc = some (state, pc)) :
    Reachable (Stopping.step cfg ctl) (· = Stopping.init)
      { x with state := state, pc := pc } :=
  .next (i := .go) h trivial (by simp [Stopping.step, hnext])

/-- What the call keeps while it runs alone. -/
structure Stopping.Onward (x y : Stopping P) : Prop where
  stilled : x.state.Stilled y.state
  exited : y.exited = x.exited

theorem Stopping.Onward.refl (x : Stopping P) : x.Onward x := ⟨.refl _, rfl⟩

theorem Stopping.Onward.next {y : Stopping P} (h : x.Onward y) {state : State P} {pc : StopPc}
    (hstilled : y.state.Stilled state) : x.Onward { y with state := state, pc := pc } :=
  ⟨h.stilled.trans hstilled, h.exited⟩

theorem Stopping.stops_conns
    (h : Reachable (Stopping.step cfg ctl) (· = Stopping.init) x) (hpc : x.pc = .connTest 0)
    (hadopted : x.state.AllAdopted) :
    ∃ y, Reachable (Stopping.step cfg ctl) (· = Stopping.init) y ∧ y.pc = .ioStop 0 ∧
      x.Onward y := by
  have hround : ∀ i (y : Stopping P), i < x.state.table.setsize →
      Reachable (Stopping.step cfg ctl) (· = Stopping.init) y →
      y.pc = .connTest i ∧ x.Onward y →
      ∃ z, Reachable (Stopping.step cfg ctl) (· = Stopping.init) z ∧
        z.pc = .connTest (i + 1) ∧ x.Onward z := by
    intro i y hi hy hnow
    obtain ⟨hypc, honward⟩ := hnow
    have hi : i < y.state.table.setsize := honward.stilled.table ▸ hi
    cases hslot : y.state.table.slots i with
    | none =>
        have hgo := Stopping.go hy y.state (.connTest (i + 1))
          (by rw [hypc]; simp only [xvServiceStop, if_pos hi, hslot])
        exact ⟨_, hgo, rfl, honward.next (.refl _)⟩
    | some c =>
        obtain ⟨halive, howner⟩ := hadopted.stilled honward.stilled i c hi hslot
        obtain ⟨t, ht⟩ := Option.ne_none_iff_exists'.mp howner
        have ht : (y.state.conns c).conn.ioThread = some t := ht
        have htest := Stopping.go hy y.state (.connStop i)
          (by rw [hypc]; simp only [xvServiceStop, if_pos hi, hslot])
        have hgo := Stopping.go htest (y.state.stopConn ctl t c) (.connTest (i + 1))
          (by simp [xvServiceStop, hslot, halive, ht])
        exact ⟨_, hgo, rfl, honward.next (State.stopConn_stilled ctl ht)⟩
  obtain ⟨y, hy, hypc, honward⟩ := Reach.count hround (Nat.zero_le _) h ⟨hpc, .refl x⟩
  have hend : ¬ x.state.table.setsize < y.state.table.setsize := by
    rw [honward.stilled.table]
    exact Nat.lt_irrefl _
  have hgo := Stopping.go hy y.state (.ioStop 0)
    (by rw [hypc]; simp only [xvServiceStop, if_neg hend])
  exact ⟨_, hgo, rfl, honward.next (.refl _)⟩

theorem Stopping.stops_ios
    (h : Reachable (Stopping.step cfg ctl) (· = Stopping.init) x) (hpc : x.pc = .ioStop 0) :
    ∃ y, Reachable (Stopping.step cfg ctl) (· = Stopping.init) y ∧ y.pc = .workerStop 0 ∧
      x.Onward y ∧ y.state.BrokenBelow cfg.ioThreadCount := by
  have hround : ∀ i (y : Stopping P), i < cfg.ioThreadCount →
      Reachable (Stopping.step cfg ctl) (· = Stopping.init) y →
      y.pc = .ioStop i ∧ x.Onward y ∧ y.state.BrokenBelow i →
      ∃ z, Reachable (Stopping.step cfg ctl) (· = Stopping.init) z ∧
        z.pc = .ioStop (i + 1) ∧ x.Onward z ∧ z.state.BrokenBelow (i + 1) := by
    intro i y hi hy hnow
    obtain ⟨hypc, honward, hbroken⟩ := hnow
    have hgo := Stopping.go hy (y.state.stopIoThread i) (.ioStop (i + 1))
      (by rw [hypc]; simp only [xvServiceStop, if_pos hi])
    refine ⟨_, hgo, rfl, honward.next (y.state.stopIoThread_stilled i), fun t ht => ?_⟩
    by_cases hti : t = i
    · subst hti
      simp [State.stopIoThread, xvLoopBreak]
    · simp only [State.stopIoThread, update_of_ne hti]
      exact hbroken t (by omega)
  obtain ⟨y, hy, hypc, honward, hbroken⟩ := Reach.count hround (Nat.zero_le _) h
    ⟨hpc, .refl x, fun t ht => absurd ht (Nat.not_lt_zero t)⟩
  have hgo := Stopping.go hy y.state (.workerStop 0)
    (by rw [hypc]; simp only [xvServiceStop, if_neg (Nat.lt_irrefl _)])
  exact ⟨_, hgo, rfl, honward.next (.refl _), hbroken⟩

theorem Stopping.stops_workers
    (h : Reachable (Stopping.step cfg ctl) (· = Stopping.init) x) (hpc : x.pc = .workerStop 0) :
    ∃ y, Reachable (Stopping.step cfg ctl) (· = Stopping.init) y ∧ y.pc = .stopped ∧
      x.Onward y ∧ y.state.io = x.state.io := by
  have hround : ∀ i (y : Stopping P), i < cfg.workerThreadCount →
      Reachable (Stopping.step cfg ctl) (· = Stopping.init) y →
      y.pc = .workerStop i ∧ x.Onward y ∧ y.state.io = x.state.io →
      ∃ z, Reachable (Stopping.step cfg ctl) (· = Stopping.init) z ∧
        z.pc = .workerStop (i + 1) ∧ x.Onward z ∧ z.state.io = x.state.io := by
    intro i y hi hy hnow
    obtain ⟨hypc, honward, hio⟩ := hnow
    have hgo := Stopping.go hy (y.state.stopWorker i) (.workerStop (i + 1))
      (by rw [hypc]; simp only [xvServiceStop, if_pos hi])
    exact ⟨_, hgo, rfl, honward.next (y.state.stopWorker_stilled i), hio⟩
  obtain ⟨y, hy, hypc, honward, hio⟩ :=
    Reach.count hround (Nat.zero_le _) h ⟨hpc, .refl x, rfl⟩
  have hgo := Stopping.go hy y.state .stopped
    (by rw [hypc]; simp only [xvServiceStop, if_neg (Nat.lt_irrefl _)])
  exact ⟨_, hgo, rfl, honward.next (.refl _), hio⟩

/-- The io threads find their loops broken. -/
theorem Stopping.exits (h : Reachable (Stopping.step cfg ctl) (· = Stopping.init) x)
    (hexited : ∀ t, x.exited t = false)
    (hpoll : ∀ t, t < cfg.ioThreadCount → x.state.pc (.io t) = .poll)
    (hbroken : x.state.BrokenBelow cfg.ioThreadCount) :
    ∃ y, Reachable (Stopping.step cfg ctl) (· = Stopping.init) y ∧ y.pc = x.pc ∧
      y.state = x.state ∧ ∀ t, t < cfg.ioThreadCount → y.exited t = true := by
  have hround : ∀ i (y : Stopping P), i < cfg.ioThreadCount →
      Reachable (Stopping.step cfg ctl) (· = Stopping.init) y →
      y.pc = x.pc ∧ y.state = x.state ∧ (∀ t, y.exited t = decide (t < i)) →
      ∃ z, Reachable (Stopping.step cfg ctl) (· = Stopping.init) z ∧
        z.pc = x.pc ∧ z.state = x.state ∧ ∀ t, z.exited t = decide (t < i + 1) := by
    intro i y hi hy hnow
    obtain ⟨hypc, hstate, hyexited⟩ := hnow
    have hnot : y.exited i = false := by
      rw [hyexited]
      exact decide_eq_false (Nat.lt_irrefl i)
    have hexit : Reachable (Stopping.step cfg ctl) (· = Stopping.init)
        { y with exited := update y.exited i true } :=
      .next (i := .exit i) hy trivial
        (by simp [Stopping.step, hstate, hpoll i hi, hi, hnot, hbroken i hi])
    refine ⟨_, hexit, hypc, hstate, fun t => ?_⟩
    by_cases hti : t = i
    · simp [hti]
    · have hiff : t < i ↔ t < i + 1 := by omega
      simp only [update_of_ne hti, hyexited, hiff]
  obtain ⟨y, hy, hypc, hstate, hall⟩ := Reach.count hround (Nat.zero_le _) h
    ⟨rfl, rfl, fun t => by simp [hexited]⟩
  exact ⟨y, hy, hypc, hstate, fun t ht => (hall t).trans (decide_eq_true ht)⟩

/-- **`xv_service_stop` returns and the io threads can be joined** if it is called when every
connection in the table has its io thread and every io thread is in its loop. -/
theorem Stopping.joins (h : Reachable (Stopping.step cfg ctl) (· = Stopping.init) x)
    (hpc : x.pc = .running) (hexited : ∀ t, x.exited t = false)
    (hpoll : ∀ t, t < cfg.ioThreadCount → x.state.pc (.io t) = .poll)
    (hadopted : x.state.AllAdopted) :
    ∃ y, Reachable (Stopping.step cfg ctl) (· = Stopping.init) y ∧ y.Joined cfg ∧
      x.state.Stilled y.state := by
  have hcall : Reachable (Stopping.step cfg ctl) (· = Stopping.init) { x with pc := .listeners } :=
    .next (i := .call) h trivial (by simp [Stopping.step, hpc])
  have hstart := Stopping.go hcall x.state (.connTest 0) rfl
  obtain ⟨y₁, h₁, hpc₁, honward₁⟩ := Stopping.stops_conns hstart rfl hadopted
  obtain ⟨y₂, h₂, hpc₂, honward₂, hbroken⟩ := Stopping.stops_ios h₁ hpc₁
  obtain ⟨y₃, h₃, hpc₃, honward₃, hio⟩ := Stopping.stops_workers h₂ hpc₂
  have hstilled : x.state.Stilled y₃.state :=
    (honward₁.stilled.trans honward₂.stilled).trans honward₃.stilled
  obtain ⟨y, hy, hpc₄, hstate, hall⟩ := Stopping.exits h₃
    (fun t => by simp [honward₃.exited, honward₂.exited, honward₁.exited, hexited])
    (fun t ht => (congrFun hstilled.pc (.io t)).trans (hpoll t ht))
    (fun t ht => by rw [hio]; exact hbroken t ht)
  exact ⟨y, hy, ⟨hpc₄.trans hpc₃, hall⟩, hstate ▸ hstilled⟩

end Stop

/-! ### `xv_service_destroy` -/

section Destroy

variable {x : Destroying P}

/-- The workers have all returned from `worker_entry`. -/
def State.WorkersExited (cfg : Config) (s : State P) : Prop :=
  ∀ i, i < cfg.workerThreadCount → (s.workers i).pc.hasExited = true

/-- What the call keeps while it runs alone. -/
structure Destroying.Onward (cfg : Config) (x y : Destroying P) : Prop where
  entered : y.entered = x.entered
  table : y.state.table = x.state.table
  exited : y.state.WorkersExited cfg

theorem Destroying.Onward.trans {y z : Destroying P} (h : x.Onward cfg y) (h' : y.Onward cfg z) :
    x.Onward cfg z :=
  ⟨h'.entered.trans h.entered, h'.table.trans h.table, h'.exited⟩

/-- An instruction that leaves the table and the workers' places alone. -/
theorem Destroying.go (h : Reachable (Destroying.step cfg) (Destroying.Start cfg ctl) x)
    (hexited : x.state.WorkersExited cfg) (y : Destroying P)
    (hnext : xvServiceDestroy cfg x false = some y) (hentered : y.entered = x.entered)
    (htable : y.state.table = x.state.table)
    (hworkers : ∀ i, (y.state.workers i).pc = (x.state.workers i).pc) :
    Reachable (Destroying.step cfg) (Destroying.Start cfg ctl) y ∧ x.Onward cfg y := by
  refine ⟨.next (i := .go false) h trivial hnext, hentered, htable, fun i hi => ?_⟩
  rw [hworkers]
  exact hexited i hi

theorem Destroying.returns_workers
    (h : Reachable (Destroying.step cfg) (Destroying.Start cfg ctl) x)
    (hpc : x.pc = .workerStop 0) (hexited : x.state.WorkersExited cfg) :
    ∃ y, Reachable (Destroying.step cfg) (Destroying.Start cfg ctl) y ∧ y.pc = .returned ∧
      x.Onward cfg y := by
  have hround : ∀ i (y : Destroying P), i < cfg.workerThreadCount →
      Reachable (Destroying.step cfg) (Destroying.Start cfg ctl) y →
      y.pc = .workerStop i ∧ x.Onward cfg y →
      ∃ z, Reachable (Destroying.step cfg) (Destroying.Start cfg ctl) z ∧
        z.pc = .workerStop (i + 1) ∧ x.Onward cfg z := by
    intro i y hi hy hnow
    obtain ⟨hypc, honward⟩ := hnow
    let stopped := y.state.stopWorker i
    let woken := stopped.setWorker i (stopped.workers i).send
    obtain ⟨h₁, honward₁⟩ := Destroying.go hy honward.exited
      { y with state := stopped, pc := .workerSend i }
      (by simp only [xvServiceDestroy, hypc, if_pos hi, stopped]) rfl rfl
      fun j => ((y.state.stopWorker_stilled i).workers j).2
    obtain ⟨h₂, honward₂⟩ := Destroying.go h₁ honward₁.exited
      { y with state := woken, pc := .workerJoin i } rfl rfl rfl
      fun j => ((stopped.sendWorker_stilled i).workers j).2
    obtain ⟨h₃, honward₃⟩ := Destroying.go h₂ honward₂.exited
      { y with state := woken, pc := .workerStop (i + 1) }
      (by simp only [xvServiceDestroy, honward₂.exited i hi, if_true]) rfl rfl fun _ => rfl
    exact ⟨_, h₃, rfl, ((honward.trans honward₁).trans honward₂).trans honward₃⟩
  obtain ⟨y, hy, hypc, honward⟩ :=
    Reach.count hround (Nat.zero_le _) h ⟨hpc, rfl, rfl, hexited⟩
  obtain ⟨hz, hlast⟩ := Destroying.go hy honward.exited { y with pc := .returned }
    (by simp only [xvServiceDestroy, hypc, if_neg (Nat.lt_irrefl _)]) rfl rfl fun _ => rfl
  exact ⟨_, hz, rfl, honward.trans hlast⟩

theorem Destroying.returns_pool
    (h : Reachable (Destroying.step cfg) (Destroying.Start cfg ctl) x) (hpc : x.pc = .poolStop 0)
    (hexited : x.state.WorkersExited cfg) :
    ∃ y, Reachable (Destroying.step cfg) (Destroying.Start cfg ctl) y ∧ y.pc = .workerStop 0 ∧
      x.Onward cfg y := by
  have hround : ∀ i (y : Destroying P), i < cfg.workerThreadCount →
      Reachable (Destroying.step cfg) (Destroying.Start cfg ctl) y →
      y.pc = .poolStop i ∧ x.Onward cfg y →
      ∃ z, Reachable (Destroying.step cfg) (Destroying.Start cfg ctl) z ∧
        z.pc = .poolStop (i + 1) ∧ x.Onward cfg z := by
    intro i y hi hy hnow
    obtain ⟨hypc, honward⟩ := hnow
    obtain ⟨hz, hnext⟩ := Destroying.go hy honward.exited
      { y with state := y.state.stopWorker i, pc := .poolStop (i + 1) }
      (by simp only [xvServiceDestroy, hypc, if_pos hi]) rfl rfl
      fun j => ((y.state.stopWorker_stilled i).workers j).2
    exact ⟨_, hz, rfl, honward.trans hnext⟩
  obtain ⟨y, hy, hypc, honward⟩ :=
    Reach.count hround (Nat.zero_le _) h ⟨hpc, rfl, rfl, hexited⟩
  obtain ⟨hz, hlast⟩ := Destroying.go hy honward.exited { y with pc := .workerStop 0 }
    (by simp only [xvServiceDestroy, hypc, if_neg (Nat.lt_irrefl _)]) rfl rfl fun _ => rfl
  exact ⟨_, hz, rfl, honward.trans hlast⟩

/-- `message_queue` of io thread `t` is emptied. -/
theorem Destroying.returns_messages {t : Nat} (messages : List Nat) :
    ∀ {x : Destroying P}, Reachable (Destroying.step cfg) (Destroying.Start cfg ctl) x →
      x.pc = .messageQueue t → (x.state.io t).messageQueue = messages →
      x.state.WorkersExited cfg →
      ∃ y, Reachable (Destroying.step cfg) (Destroying.Start cfg ctl) y ∧
        y.pc = .connQueue (t + 1) ∧ x.Onward cfg y := by
  induction messages with
  | nil =>
      intro x h hpc hqueue hexited
      obtain ⟨hy, honward⟩ := Destroying.go h hexited
        { x with gone := update x.gone t true, pc := .connQueue (t + 1) }
        (by simp only [xvServiceDestroy, hpc, hqueue]) rfl rfl fun _ => rfl
      exact ⟨_, hy, rfl, honward⟩
  | cons m messages ih =>
      intro x h hpc hqueue hexited
      obtain ⟨hy, honward⟩ := Destroying.go h hexited
        { x with
          state := (x.state.popMessage t).xvMessageDestroyWith m false
          destroyed := x.destroyed ++ [⟨m, false, x.state.alive (x.state.msgs m).conn⟩] }
        (by simp only [xvServiceDestroy, hpc, hqueue, Bool.false_and]) rfl rfl fun _ => rfl
      obtain ⟨z, hz, hzpc, hrest⟩ := ih hy hpc
        (by simp [State.xvMessageDestroyWith, State.popMessage, State.addRef, State.setConn,
          hqueue])
        honward.exited
      exact ⟨z, hz, hzpc, honward.trans hrest⟩

/-- Both queues of io thread `t` are emptied. -/
theorem Destroying.returns_conns {t : Nat} (ht : t < cfg.ioThreadCount) (conns : List Nat) :
    ∀ {x : Destroying P}, Reachable (Destroying.step cfg) (Destroying.Start cfg ctl) x →
      x.pc = .connQueue t → (x.state.io t).connQueue = conns → x.state.WorkersExited cfg →
      ∃ y, Reachable (Destroying.step cfg) (Destroying.Start cfg ctl) y ∧
        y.pc = .connQueue (t + 1) ∧ x.Onward cfg y := by
  induction conns with
  | nil =>
      intro x h hpc hqueue hexited
      obtain ⟨hy, honward⟩ := Destroying.go h hexited { x with pc := .messageQueue t }
        (by simp only [xvServiceDestroy, hpc, if_pos ht, hqueue]) rfl rfl fun _ => rfl
      obtain ⟨z, hz, hzpc, hrest⟩ := Destroying.returns_messages _ hy rfl rfl honward.exited
      exact ⟨z, hz, hzpc, honward.trans hrest⟩
  | cons c conns ih =>
      intro x h hpc hqueue hexited
      obtain ⟨hy, honward⟩ := Destroying.go h hexited
        { x with state := (x.state.popConn t).freeConn c, freed := x.freed ++ [c] }
        (by simp only [xvServiceDestroy, hpc, if_pos ht, hqueue]) rfl rfl fun _ => rfl
      obtain ⟨z, hz, hzpc, hrest⟩ := ih hy hpc (by simp [State.freeConn, State.popConn, hqueue])
        honward.exited
      exact ⟨z, hz, hzpc, honward.trans hrest⟩

theorem Destroying.returns_threads
    (h : Reachable (Destroying.step cfg) (Destroying.Start cfg ctl) x) (hpc : x.pc = .connQueue 0)
    (hexited : x.state.WorkersExited cfg) :
    ∃ y, Reachable (Destroying.step cfg) (Destroying.Start cfg ctl) y ∧ y.pc = .poolStop 0 ∧
      x.Onward cfg y := by
  have hround : ∀ t (y : Destroying P), t < cfg.ioThreadCount →
      Reachable (Destroying.step cfg) (Destroying.Start cfg ctl) y →
      y.pc = .connQueue t ∧ x.Onward cfg y →
      ∃ z, Reachable (Destroying.step cfg) (Destroying.Start cfg ctl) z ∧
        z.pc = .connQueue (t + 1) ∧ x.Onward cfg z := by
    intro t y ht hy hnow
    obtain ⟨hypc, honward⟩ := hnow
    obtain ⟨z, hz, hzpc, hnext⟩ := Destroying.returns_conns ht _ hy hypc rfl honward.exited
    exact ⟨z, hz, hzpc, honward.trans hnext⟩
  obtain ⟨y, hy, hypc, honward⟩ :=
    Reach.count hround (Nat.zero_le _) h ⟨hpc, rfl, rfl, hexited⟩
  obtain ⟨hz, hlast⟩ := Destroying.go hy honward.exited { y with pc := .poolStop 0 }
    (by simp only [xvServiceDestroy, hypc, if_neg (Nat.lt_irrefl _)]) rfl rfl fun _ => rfl
  exact ⟨_, hz, rfl, honward.trans hlast⟩

theorem Destroying.returns_table
    (h : Reachable (Destroying.step cfg) (Destroying.Start cfg ctl) x) (hpc : x.pc = .conns 0)
    (hexited : x.state.WorkersExited cfg) :
    ∃ y, Reachable (Destroying.step cfg) (Destroying.Start cfg ctl) y ∧ y.pc = .connQueue 0 ∧
      x.Onward cfg y := by
  have hround : ∀ i (y : Destroying P), i < x.state.table.setsize →
      Reachable (Destroying.step cfg) (Destroying.Start cfg ctl) y →
      y.pc = .conns i ∧ x.Onward cfg y →
      ∃ z, Reachable (Destroying.step cfg) (Destroying.Start cfg ctl) z ∧
        z.pc = .conns (i + 1) ∧ x.Onward cfg z := by
    intro i y hi hy hnow
    obtain ⟨hypc, honward⟩ := hnow
    have hi : i < y.state.table.setsize := honward.table ▸ hi
    cases hslot : y.state.table.slots i with
    | none =>
        obtain ⟨hz, hnext⟩ := Destroying.go hy honward.exited { y with pc := .conns (i + 1) }
          (by simp only [xvServiceDestroy, hypc, if_pos hi, hslot]) rfl rfl fun _ => rfl
        exact ⟨_, hz, rfl, honward.trans hnext⟩
    | some c =>
        obtain ⟨hz, hnext⟩ := Destroying.go hy honward.exited
          { y with state := y.state.freeConn c, freed := y.freed ++ [c], pc := .conns (i + 1) }
          (by simp only [xvServiceDestroy, hypc, if_pos hi, hslot]) rfl rfl fun _ => rfl
        exact ⟨_, hz, rfl, honward.trans hnext⟩
  obtain ⟨y, hy, hypc, honward⟩ :=
    Reach.count hround (Nat.zero_le _) h ⟨hpc, rfl, rfl, hexited⟩
  have hend : ¬ x.state.table.setsize < y.state.table.setsize := by
    rw [honward.table]
    exact Nat.lt_irrefl _
  obtain ⟨hz, hlast⟩ := Destroying.go hy honward.exited { y with pc := .connQueue 0 }
    (by simp only [xvServiceDestroy, hypc, if_neg hend]) rfl rfl fun _ => rfl
  exact ⟨_, hz, rfl, honward.trans hlast⟩

/-- **`xv_service_destroy` returns** once the workers have. -/
theorem Destroying.returns {y : Stopping P}
    (h : Reachable (Stopping.step cfg ctl) (· = Stopping.init) y) (hjoined : y.Joined cfg)
    (hexited : y.state.WorkersExited cfg) :
    ∃ x, Reachable (Destroying.step cfg) (Destroying.Start cfg ctl) x ∧ x.pc = .returned ∧
      x.entered = y.state := by
  have hstart : Reachable (Destroying.step cfg) (Destroying.Start cfg ctl) (.enter y.state) :=
    .start ⟨y, h, hjoined, rfl⟩
  obtain ⟨x₁, h₁, hpc₁, honward₁⟩ := Destroying.returns_table hstart rfl hexited
  obtain ⟨x₂, h₂, hpc₂, honward₂⟩ := Destroying.returns_threads h₁ hpc₁ honward₁.exited
  obtain ⟨x₃, h₃, hpc₃, honward₃⟩ := Destroying.returns_pool h₂ hpc₂ honward₂.exited
  obtain ⟨x, hx, hpc, honward⟩ := Destroying.returns_workers h₃ hpc₃ honward₃.exited
  exact ⟨x, hx, hpc,
    (((honward₁.trans honward₂).trans honward₃).trans honward).entered⟩

end Destroy

end Libxv
