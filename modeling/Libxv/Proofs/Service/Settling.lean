/-
A service comes to rest.

Each thing that is on its way has a number of instructions ahead of it: a message in the hands
of a thread or in a queue, a connection that is handed over, a counter that has been raised.
Every instruction that a thread makes by itself lowers the sum, whichever thread makes it, and
what comes from outside raises it by a constant.  So a service makes a bounded number of
instructions for each event from outside, in every interleaving.  And it does not stop early: a
service no thread of which can go on has nothing on its way, unless a thread has come to an
instruction with undefined behaviour.
-/
import Libxv.Proofs.Service.Progress
import Libxv.Lib.Potential

namespace Libxv

open Function Transition Placement Wakeup

variable {P : Type} {cfg : Config} {ctl : EpollCtl} {s : State P}

/-! ### Where a service can stop -/

/-- No thread can go on by itself. -/
def State.Stuck (cfg : Config) (ctl : EpollCtl) (s : State P) : Prop :=
  ∀ label, label.outside = false → s.step cfg ctl label = none

/-- The next instruction of a thread touches a connection that is not allocated, or writes past
the end of the connection table. -/
def State.Undefined (cfg : Config) (s : State P) : Prop :=
  ∃ a, a.runs cfg = true ∧ (s.safe a = false ∨ s.Overruns a)

/-- Nothing is on its way. -/
structure State.AtRest (cfg : Config) (s : State P) : Prop where
  /-- Every io thread waits in `epoll_wait`, its two queues empty. -/
  io : ∀ t, t < cfg.ioThreadCount →
    s.pc (.io t) = .poll ∧ (s.io t).connQueue = [] ∧ (s.io t).messageQueue = []
  /-- Every worker does, its queue empty. -/
  worker : ∀ i, i < cfg.workerThreadCount →
    (s.workers i).pc = .epollWait ∧ (s.workers i).taskQueue = []
  sender : ∀ u, s.pc (.sender u) = .rest
  /-- Every connection has its io thread. -/
  adopted : ∀ c, c < s.nextConn → s.owner c = some (s.home cfg c)
  /-- Every message has been destroyed. -/
  messages : ∀ m, s.live m = false

/-- Where a thread can be when no thread can go on. -/
theorem State.Stuck.rests (h : s.Stuck cfg ctl) (hready : s.Ready cfg)
    (hdefined : ¬ s.Undefined cfg) {a : Agent} (ha : a.runs cfg = true) :
    s.safe a = true ∧ (s.Waits a ∨ s.FollowsNull a) := by
  have hsafe : s.safe a = true := by
    by_contra hunsafe
    exact hdefined ⟨a, ha, Or.inl (Bool.eq_false_iff.mpr hunsafe)⟩
  refine ⟨hsafe, ?_⟩
  rcases hready.moves ctl a with hwaits | hover | hnull | ⟨act, hact, hstep⟩
  · exact Or.inl hwaits
  · exact absurd ⟨a, ha, Or.inr hover⟩ hdefined
  · exact Or.inr hnull
  · have hnone := h (.act a act) hact
    simp only [State.step, ha, hsafe, Bool.and_self, if_true, Option.map_eq_none_iff] at hnone
    rw [hnone] at hstep
    simp at hstep

/-- A thread is at no instruction that can always be made. -/
theorem State.Stuck.not_at (h : s.Stuck cfg ctl) (hready : s.Ready cfg) (hresting : s.Resting)
    (hdefined : ¬ s.Undefined cfg) (a : Agent) :
    s.pc a = .poll ∨ s.pc a = .rest ∨ s.pc a = .entry ∨ s.FollowsNull a := by
  cases hruns : a.runs cfg with
  | true =>
      rcases (h.rests hready hdefined hruns).2 with hwaits | hnull
      · cases a with
        | io t => exact Or.inl hwaits.1
        | worker i => exact Or.inr (Or.inl (hresting i (by simp [hwaits.1])))
        | sender u => exact Or.inr (Or.inl hwaits)
      · exact Or.inr (Or.inr (Or.inr hnull))
  | false =>
      rw [hready.absent a hruns]
      cases a with
      | io t => exact Or.inr (Or.inr (Or.inl rfl))
      | worker i => exact Or.inr (Or.inl rfl)
      | sender u => exact Or.inr (Or.inl rfl)

/-- An io thread follows no null pointer: the connections it closes are its own. -/
theorem State.Stuck.io_waits (h : s.Stuck cfg ctl) (hready : s.Ready cfg) (hsound : s.Sound)
    (hdefined : ¬ s.Undefined cfg) {t : Nat} (ht : t < cfg.ioThreadCount) : s.Waits (.io t) := by
  have hruns : (Agent.io t).runs cfg = true := decide_eq_true ht
  rcases (h.rests hready hdefined hruns).2 with hwaits | ⟨c, hc, hnone⟩
  · exact hwaits
  · have hio := hready.io t
    have hserves := hsound.lt_of_serves (a := .io t) (c := c)
    generalize s.pc (.io t) = pc at hc hio hserves
    cases pc
    case close c' resume =>
      obtain rfl : c' = c := Option.some.inj hc
      exact absurd hnone (hserves rfl).2
    case taskFetch | sendFetch => exact hio.elim
    all_goals cases hc

/-- The consumer of a queue waits, and nobody is about to signal it: the queue is empty. -/
theorem empty_of_asleep {ρ : Type} {v : View ρ} (h : NotLost v) (hasleep : v.asleep)
    (hcounter : v.counter = 0) (hunsent : v.unsent = ∅) : v.queued = 0 := by
  by_contra hqueued
  have hcount := h.served.awake hasleep (Nat.pos_of_ne_zero hqueued) hunsent
  omega

/-- Where no thread can go on, none is about to signal another, or has a new connection. -/
theorem State.Stuck.signals (h : s.Stuck cfg ctl) (hready : s.Ready cfg) (hresting : s.Resting)
    (hdefined : ¬ s.Undefined cfg) (a : Agent) :
    (s.pc a).sendsConn = none ∧ (s.pc a).sendsMessage = none ∧ (∀ i, s.pc a ≠ .sendTask i) ∧
      (s.pc a).adopts = none := by
  rcases h.not_at hready hresting hdefined a with hpc | hpc | hpc | ⟨c, hc, -⟩
  · rw [hpc]
    exact ⟨rfl, rfl, by simp, rfl⟩
  · rw [hpc]
    exact ⟨rfl, rfl, by simp, rfl⟩
  · rw [hpc]
    exact ⟨rfl, rfl, by simp, rfl⟩
  · generalize s.pc a = pc at hc
    cases pc
    case close | taskFetch | sendFetch => exact ⟨rfl, rfl, by simp, rfl⟩
    all_goals cases hc

theorem Config.home_lt (cfg : Config) (fd : Nat) : cfg.home fd < cfg.ioThreadCount := by
  have hpos := cfg.ioPos
  by_cases hone : cfg.ioThreadCount = 1
  · rw [Config.home_one hone]
    omega
  · have hmany := Config.home_many hone fd
    omega

theorem State.home_lt (s : State P) (c : Nat) : s.home cfg c < cfg.ioThreadCount :=
  cfg.home_lt _

/-- Where no thread can go on, the queues of the io threads are empty. -/
theorem State.Stuck.io_empty (h : s.Stuck cfg ctl)
    (hreach : Reachable (State.step cfg ctl) (· = State.init) s) (hdefined : ¬ s.Undefined cfg)
    {t : Nat} (ht : t < cfg.ioThreadCount) :
    (s.io t).connQueue = [] ∧ (s.io t).messageQueue = [] := by
  have hready := State.ready hreach
  have hsound := State.sound hreach
  have hwakes := State.wakes hreach
  have hsignals := h.signals hready hsound.owned.resting hdefined
  obtain ⟨hpoll, hadd, hreturn⟩ := h.io_waits hready hsound hdefined ht
  constructor
  · refine List.length_eq_zero_iff.mp (empty_of_asleep (hwakes.conns t) hpoll hadd ?_)
    refine Set.eq_empty_of_forall_notMem fun a ha => ?_
    have hsends : (s.pc a).sendsConn = some t := ha
    rw [(hsignals a).1] at hsends
    cases hsends
  · refine List.length_eq_zero_iff.mp (empty_of_asleep (hwakes.messages t) hpoll hreturn ?_)
    refine Set.eq_empty_of_forall_notMem fun a ha => ?_
    have hsends : (s.pc a).sendsMessage = some t := ha
    rw [(hsignals a).2.1] at hsends
    cases hsends

/-- Where no thread can go on, every connection has been adopted. -/
theorem State.Stuck.owned (h : s.Stuck cfg ctl)
    (hreach : Reachable (State.step cfg ctl) (· = State.init) s) (hdefined : ¬ s.Undefined cfg)
    {c : Nat} (hc : c < s.nextConn) : s.owner c = some (s.home cfg c) := by
  have hready := State.ready hreach
  have hsound := State.sound hreach
  have hhomed := State.homed hreach
  have hsignals := h.signals hready hsound.owned.resting hdefined
  cases howner : s.owner c with
  | some t => rw [← hhomed.owned c t howner]
  | none =>
      have hadopts : ∀ a pc, s.pc a = pc → pc.adopts = some c → False := by
        rintro a pc rfl hpc
        rw [(hsignals a).2.2.2] at hpc
        cases hpc
      rcases hhomed.onWay hsound hc howner with hpc | hpc | hqueued | hpc
      · exact (hadopts _ _ hpc rfl).elim
      · exact (hadopts _ _ hpc rfl).elim
      · rw [(h.io_empty hreach hdefined (s.home_lt c)).1] at hqueued
        exact absurd hqueued List.not_mem_nil
      · exact (hadopts _ _ hpc rfl).elim

/-- Where no thread can go on, every thread waits. -/
theorem State.Stuck.waits (h : s.Stuck cfg ctl)
    (hreach : Reachable (State.step cfg ctl) (· = State.init) s) (hdefined : ¬ s.Undefined cfg)
    {a : Agent} (ha : a.runs cfg = true) : s.Waits a := by
  obtain ⟨hsafe, hwaits | ⟨c, hc, hnone⟩⟩ := h.rests (State.ready hreach) hdefined ha
  · exact hwaits
  · have hc' : c < s.nextConn := by
      unfold State.safe at hsafe
      generalize s.pc a = pc at hc hsafe
      cases pc
      case close | taskFetch | sendFetch =>
        obtain rfl := Option.some.inj hc
        simp only [Pc.touches, State.alive, Bool.and_eq_true, decide_eq_true_eq] at hsafe
        exact hsafe.1
      all_goals cases hc
    rw [h.owned hreach hdefined hc'] at hnone
    cases hnone

/-- **Nothing is left on its way where no thread can go on.** -/
theorem State.Stuck.atRest (h : s.Stuck cfg ctl)
    (hreach : Reachable (State.step cfg ctl) (· = State.init) s)
    (hdefined : ¬ s.Undefined cfg) : s.AtRest cfg := by
  have hready := State.ready hreach
  have hsound := State.sound hreach
  have hwakes := State.wakes hreach
  have hsignals := h.signals hready hsound.owned.resting hdefined
  have hwaits := fun a ha => h.waits hreach hdefined (a := a) ha
  have hworker : ∀ i, i < cfg.workerThreadCount →
      (s.workers i).pc = .epollWait ∧ (s.workers i).taskQueue = [] := by
    intro i hi
    obtain ⟨hpc, hevfd⟩ := hwaits (.worker i) (decide_eq_true hi)
    refine ⟨hpc, List.length_eq_zero_iff.mp (empty_of_asleep (hwakes.tasks i) hpc hevfd ?_)⟩
    exact Set.eq_empty_of_forall_notMem fun a ha => (hsignals a).2.2.1 i ha
  have hsender : ∀ u, s.pc (.sender u) = .rest := fun u => hwaits (.sender u) rfl
  have hpoll : ∀ t, t < cfg.ioThreadCount → s.pc (.io t) = .poll :=
    fun t ht => (hwaits (.io t) (decide_eq_true ht)).1
  refine ⟨fun t ht => ⟨hpoll t ht, h.io_empty hreach hdefined ht⟩, hworker, hsender,
    fun c hc => h.owned hreach hdefined hc, fun m => Bool.eq_false_iff.mpr fun hlive => ?_⟩
  obtain ⟨place, hplace⟩ := hsound.owned.placed.placed hlive
  cases place with
  | held a =>
      have hholds : (s.pc a).holds = none := by
        cases hruns : a.runs cfg with
        | true =>
            cases a with
            | io t => rw [hpoll t (of_decide_eq_true hruns)]; rfl
            | worker i =>
                have hpc := (hworker i (of_decide_eq_true hruns)).1
                rw [hsound.owned.resting i (by simp [hpc])]
                rfl
            | sender u => rw [hsender u]; rfl
        | false =>
            rw [hready.absent a hruns]
            cases a <;> rfl
      simp [State.contents, hholds] at hplace
  | tasks i =>
      have hqueue : (s.workers i).taskQueue = [] := by
        by_cases hi : i < cfg.workerThreadCount
        · exact (hworker i hi).2
        · exact hready.tasks i (by omega)
      simp [State.contents, hqueue] at hplace
  | messages t =>
      have howner := hsound.affine.queued t m hplace
      have ht := (State.homed hreach).owned _ t howner
      have hqueue := (h.io_empty hreach hdefined (ht ▸ s.home_lt _)).2
      simp [State.contents, hqueue] at hplace

/-! ### The work that is left -/

/-- The instructions a thread has ahead of it before it waits, what they bring to other threads
included. -/
def Pc.work : Pc P → Nat
  | .rest | .addConnRead | .returnRead => 0
  | .poll | .addConnPop | .returnPop => 1
  | .entry | .addConnSize | .returnSize => 2
  | .adopt _ | .freeReturned _ | .finish .. => 3
  | .closeFree .. => 4
  | .closeFd .. => 5
  | .closeDel .. => 6
  | .closeRef .. => 7
  | .close .. => 8
  | .respond .. => 9
  | .returned _ | .process _ => 10
  | .sendConn _ => 5
  | .assign _ => 9
  | .addConnection _ => 10
  | .sendTask _ => 7
  | .pushTask _ => 29
  | .taskSend _ => 8
  | .taskPush .. => 19
  | .taskFetch _ => 20
  | .taskProcess _ => 21
  | .sendSignal _ => 4
  | .sendPush .. => 15
  | .sendFetch .. => 16
  | .sendInit .. => 17
  | .sendTest .. => 18

/-- The same for a worker's own loop. -/
def WorkerPc.work {A : Type} : WorkerPc A → Nat
  | .absent | .exited | .eventfdRead | .run _ => 0
  | .epollWait | .pop => 1
  | .loopTest => 2
  | .entryTest | .flagTest => 3
  | .sizeTest => 4

/-- What a raised counter costs the thread that it wakes. -/
def wakeWork (counter n : Nat) : Nat := if 0 < counter then n else 0

/-- What is queued for an io thread. -/
def IoThread.work (thread : IoThread) : Nat :=
  3 * thread.connQueue.length + 10 * thread.messageQueue.length +
    wakeWork thread.addConnEvfd 3 + wakeWork thread.returnEvfd 3

def WorkerThread.work {A : Type} (thread : WorkerThread A) : Nat :=
  thread.pc.work + 21 * thread.taskQueue.length + wakeWork thread.evfd 5

/-- The threads of a service, with the first `users` user threads. -/
def Config.agents (cfg : Config) (users : Nat) : Finset Agent :=
  (Finset.range cfg.ioThreadCount).image Agent.io ∪
    (Finset.range cfg.workerThreadCount).image Agent.worker ∪
      (Finset.range users).image Agent.sender

/-- What is queued in a service. -/
def queuedWork (cfg : Config) (io : Nat → IoThread) (workers : Nat → WorkerThread PoolTask) : Nat :=
  (∑ t ∈ Finset.range cfg.ioThreadCount, (io t).work) +
    ∑ i ∈ Finset.range cfg.workerThreadCount, (workers i).work

/-- The work that is left in a service. -/
def State.work (cfg : Config) (users : Nat) (s : State P) : Nat :=
  (∑ a ∈ cfg.agents users, (s.pc a).work) + queuedWork cfg s.io s.workers

/-- The most that one event from outside brings in. -/
def outsideWork : Nat := 28

theorem Config.mem_agents {users : Nat} {a : Agent} : a ∈ cfg.agents users ↔
    a.runs cfg = true ∧ ∀ u, a = .sender u → u < users := by
  cases a <;> simp [Config.agents, Agent.runs]

/-- One instruction changes the work of its thread, and what is queued. -/
theorem State.work_goto {users : Nat} {a : Agent} (ha : a ∈ cfg.agents users) {next : State P}
    (pc' : Pc P) (hpc : next.pc = s.pc) :
    (next.goto a pc').work cfg users + ((s.pc a).work + queuedWork cfg s.io s.workers) =
      s.work cfg users + (pc'.work + queuedWork cfg next.io next.workers) := by
  have hsum := Potential.sum_update (cfg.agents users) Pc.work s.pc ha pc'
  have hgoto : ∑ b ∈ cfg.agents users, ((next.goto a pc').pc b).work =
      ∑ b ∈ cfg.agents users, (update s.pc a pc' b).work := by
    rw [← hpc]
    rfl
  have hqueued : queuedWork cfg (next.goto a pc').io (next.goto a pc').workers =
      queuedWork cfg next.io next.workers := rfl
  unfold State.work
  omega

section Queues

variable {io : Nat → IoThread} {workers : Nat → WorkerThread PoolTask} {i n : Nat}

theorem queuedWork_io_le {thread : IoThread} (h : thread.work ≤ (io i).work + n) :
    queuedWork cfg (update io i thread) workers ≤ queuedWork cfg io workers + n := by
  have hsum := Potential.sum_update_le (Finset.range cfg.ioThreadCount) IoThread.work io h
  unfold queuedWork
  omega

theorem queuedWork_io_add_le {thread : IoThread} (hi : i < cfg.ioThreadCount)
    (h : thread.work + n ≤ (io i).work) :
    queuedWork cfg (update io i thread) workers + n ≤ queuedWork cfg io workers := by
  have hsum := Potential.sum_update_add_le (Finset.range cfg.ioThreadCount) IoThread.work io
    (Finset.mem_range.mpr hi) h
  unfold queuedWork
  omega

theorem queuedWork_workers_le {thread : WorkerThread PoolTask}
    (h : thread.work ≤ (workers i).work + n) :
    queuedWork cfg io (update workers i thread) ≤ queuedWork cfg io workers + n := by
  have hsum := Potential.sum_update_le (Finset.range cfg.workerThreadCount) WorkerThread.work
    workers h
  unfold queuedWork
  omega

theorem queuedWork_workers_add_le {thread : WorkerThread PoolTask}
    (hi : i < cfg.workerThreadCount) (h : thread.work + n ≤ (workers i).work) :
    queuedWork cfg io (update workers i thread) + n ≤ queuedWork cfg io workers := by
  have hsum := Potential.sum_update_add_le (Finset.range cfg.workerThreadCount) WorkerThread.work
    workers (Finset.mem_range.mpr hi) h
  unfold queuedWork
  omega

end Queues

theorem Resume.work_le (resume : Resume) : (resume.pc : Pc P).work ≤ 3 := by
  cases resume <;> simp [Resume.pc, Pc.work]

theorem Origin.work_le (origin : Origin) : (origin.pc : Pc P).work ≤ 2 := by
  cases origin <;> simp [Origin.pc, Pc.work]

theorem wakeWork_le (counter n : Nat) : wakeWork counter n ≤ n := by
  unfold wakeWork
  split <;> omega

theorem wakeWork_pos {counter : Nat} (h : 0 < counter) (n : Nat) : wakeWork counter n = n :=
  if_pos h

theorem wakeWork_zero (n : Nat) : wakeWork 0 n = 0 := rfl

/-- A step of a worker's own loop, with the task it may begin. -/
theorem WorkerThread.Ready.step_work {thread thread' : WorkerThread PoolTask} {pc : Pc P}
    (h : thread.Ready pc) (hstep : thread.step = some thread') :
    (thread'.pc.callback : Pc P).work + thread'.work < thread.work := by
  unfold WorkerThread.work
  cases WorkerThread.step_moves hstep with
  | leave _ hloop => exact absurd (h.loopStart.symm.trans hloop) (by simp)
  | popNone hpc hqueue => exact absurd hqueue (h.popping hpc)
  | reset hpc =>
      have hwake := wakeWork_pos (h.reading hpc) 5
      simp [hpc, WorkerPc.callback, Pc.work, WorkerPc.work, eventfdRead, wakeWork_zero, hwake]
      omega
  | run hpc hqueue _ | skip hpc hqueue _ =>
      simp [hpc, hqueue, WorkerPc.callback, Pc.work, WorkerPc.work]
      omega
  | enter hpc _ | exit hpc _ | poll hpc _ | wake hpc _ | more hpc _ | drained hpc _
  | stopLoop hpc _ | again hpc _ =>
      simp [hpc, WorkerPc.callback, Pc.work, WorkerPc.work]

/-- An instruction that a thread makes by itself, and what it puts into the queues. -/
theorem Instr.work_own {a : Agent} {pc pc' : Pc P} {act : Act P} {next : State P}
    (h : Instr cfg ctl s a pc act next pc') (hruns : a.runs cfg = true)
    (hio : ∀ t, a = .io t → (s.io t).Ready pc)
    (hworker : ∀ i, a = .worker i → (s.workers i).Ready pc)
    (hown : act.outside = false) :
    pc'.work + queuedWork cfg next.io next.workers < pc.work + queuedWork cfg s.io s.workers := by
  have hkeep : ∀ {q : Nat}, q = queuedWork cfg s.io s.workers → pc'.work < pc.work →
      pc'.work + q < pc.work + queuedWork cfg s.io s.workers := fun hq hpc => by omega
  have hless : ∀ {n q : Nat}, q ≤ queuedWork cfg s.io s.workers + n → pc'.work + n < pc.work →
      pc'.work + q < pc.work + queuedWork cfg s.io s.workers := fun hq hpc => by omega
  have hpaid : ∀ {n q : Nat}, q + n ≤ queuedWork cfg s.io s.workers → pc'.work < pc.work + n →
      pc'.work + q < pc.work + queuedWork cfg s.io s.workers := fun hq hpc => by omega
  have hsame : ∀ {i : Nat} {thread : IoThread}, thread.work = (s.io i).work →
      queuedWork cfg (update s.io i thread) s.workers ≤ queuedWork cfg s.io s.workers + 0 :=
    fun h => queuedWork_io_le (Nat.le_of_eq h)
  have hthread : ∀ {t : Nat}, a = .io t → t < cfg.ioThreadCount := by
    rintro t rfl
    exact of_decide_eq_true hruns
  cases h
  -- What is queued stays as it is.
  case closeLast | closeDel | closeFd | process | addConnection | addConnReady | addConnMore
      | addConnDone | returnReady | returnMore | returnDone | returnedOpen | returnedClosed
      | freeReturned | taskProcess | taskFetch | sendClosed | sendOpen | sendInit | sendFetch =>
    exact hkeep rfl (by simp [Pc.work])
  case closeBusy resume _ =>
    exact hkeep rfl (Nat.lt_of_le_of_lt resume.work_le (by simp [Pc.work]))
  case closeFree c resume =>
    exact hkeep rfl (Nat.lt_of_le_of_lt resume.work_le (by simp [Pc.work]))
  case finish m origin =>
    exact hkeep rfl (Nat.lt_of_le_of_lt origin.work_le (by simp [Pc.work]))
  case entry | close | assignSelf | adopt => exact hless (hsame rfl) (by simp [Pc.work])
  case respond => exact hless (hsame rfl) (by split <;> simp [Pc.work])
  -- A thread puts something into a queue, or raises a counter.
  case pushTask t m i addr hi =>
    refine hless (n := 21) (queuedWork_workers_le ?_) (by simp [Pc.work])
    simp [WorkerThread.push, WorkerThread.work]
    omega
  case sendTask t i =>
    refine hless (n := 5) (queuedWork_workers_le ?_) (by simp [Pc.work])
    have hwake := wakeWork_le (xvAsyncSend (s.workers i).evfd).2 5
    simp only [WorkerThread.send, WorkerThread.work]
    omega
  case assignOther t c index hmany hindex =>
    refine hless (n := 3) (queuedWork_io_le ?_) (by simp [Pc.work])
    simp [IoThread.work]
    omega
  case sendConn t index =>
    refine hless (n := 3) (queuedWork_io_le ?_) (by simp [Pc.work])
    have hwake := wakeWork_le (xvAsyncSend (s.io index).addConnEvfd).2 3
    simp only [IoThread.work]
    omega
  case taskPush i t m =>
    refine hless (n := 10) (queuedWork_io_le ?_) (by simp [Pc.work])
    simp [IoThread.work]
    omega
  case sendPush u t m =>
    refine hless (n := 10) (queuedWork_io_le ?_) (by simp [Pc.work])
    simp [IoThread.work]
    omega
  case sendSignal u t =>
    refine hless (n := 3) (queuedWork_io_le ?_) (by simp [Pc.work])
    have hwake := wakeWork_le (xvAsyncSend (s.io t).returnEvfd).2 3
    simp only [IoThread.work]
    omega
  case taskSend i t thread hstep =>
    obtain ⟨task, hpc, rfl⟩ := WorkerThread.taskReturns_some hstep
    have hqueue : queuedWork cfg (s.sendReturn t).io s.workers ≤
        queuedWork cfg s.io s.workers + 3 := by
      refine queuedWork_io_le ?_
      have hwake := wakeWork_le (xvAsyncSend (s.io t).returnEvfd).2 3
      simp only [IoThread.work]
      omega
    have hback : queuedWork cfg (s.sendReturn t).io
        (update s.workers i { s.workers i with pc := .sizeTest }) ≤
        queuedWork cfg (s.sendReturn t).io s.workers + 4 := by
      refine queuedWork_workers_le ?_
      simp only [WorkerThread.work, hpc, WorkerPc.work]
      omega
    exact hless (n := 7) (by exact Nat.le_trans hback (by omega)) (by simp [Pc.work])
  -- A thread takes something out of its queue, or resets its counter.
  case addConnRead t =>
    refine hpaid (n := 3) (queuedWork_io_add_le (hthread rfl) ?_) (by simp [Pc.work])
    have hwake := wakeWork_pos (hio t rfl).2 3
    simp only [IoThread.work, eventfdRead, wakeWork_zero]
    omega
  case returnRead t =>
    refine hpaid (n := 3) (queuedWork_io_add_le (hthread rfl) ?_) (by simp [Pc.work])
    have hwake := wakeWork_pos (hio t rfl).2 3
    simp only [IoThread.work, eventfdRead, wakeWork_zero]
    omega
  case addConnPop t c rest hqueue =>
    refine hpaid (n := 3) (queuedWork_io_add_le (hthread rfl) ?_) (by simp [Pc.work])
    simp [IoThread.work, hqueue]
    omega
  case returnPop t m rest hqueue =>
    refine hpaid (n := 10) (queuedWork_io_add_le (hthread rfl) ?_) (by simp [Pc.work])
    simp [IoThread.work, hqueue]
    omega
  case addConnNull t hnull => exact absurd hnull (hio t rfl).2
  case returnNull t hnull => exact absurd hnull (hio t rfl).2
  case work i thread hrun hstep =>
    have hstep_work := (hworker i rfl).step_work hstep
    have hi : i < cfg.workerThreadCount := of_decide_eq_true hruns
    have hqueue : queuedWork cfg (s.setWorker i thread).io (s.setWorker i thread).workers +
        ((thread.pc.callback : Pc P).work + 1) ≤ queuedWork cfg s.io s.workers :=
      queuedWork_workers_add_le hi (by omega)
    omega
  all_goals cases hown

/-- An instruction that brings something in from outside. -/
theorem Instr.work_outside {a : Agent} {pc pc' : Pc P} {act : Act P} {next : State P}
    (h : Instr cfg ctl s a pc act next pc') (houtside : act.outside = true) :
    pc'.work + queuedWork cfg next.io next.workers ≤
      pc.work + queuedWork cfg s.io s.workers + outsideWork := by
  have hless : ∀ {n q : Nat}, q ≤ queuedWork cfg s.io s.workers + n →
      pc'.work + n ≤ pc.work + 28 →
      pc'.work + q ≤ pc.work + queuedWork cfg s.io s.workers + 28 := fun hq hpc => by omega
  cases h
  case readBack | readClose | accept | call =>
    exact hless (n := 0) (Nat.le_refl _) (by simp [Pc.work])
  case request =>
    exact hless (n := 0) (Nat.le_refl _) (by split <;> simp [Pc.work])
  case write =>
    exact hless (n := 0) (queuedWork_io_le (Nat.le_refl _)) (by split <;> simp [Pc.work])
  case interrupt i thread hrun hstep =>
    obtain ⟨hpc, rfl⟩ := WorkerThread.interrupt_some hstep
    refine hless (n := 1) (queuedWork_workers_le ?_) (by simp only [Pc.work]; omega)
    simp only [WorkerThread.work, hpc, WorkerPc.work]
    omega
  all_goals cases houtside

/-- The user threads of the label are among the first `users`. -/
def Label.Within (users : Nat) (label : Label P) : Prop :=
  ∀ u act, label = .act (.sender u) act → u < users

theorem State.SameButRefs.work {next : State P} (h : s.SameButRefs next) (users : Nat) :
    next.work cfg users = s.work cfg users := by
  unfold State.work
  rw [h.io, h.workers, h.pc]

theorem State.step_work {users : Nat} {label : Label P} (hwithin : label.Within users)
    (hready : s.Ready cfg) {s' : State P} (hstep : s.step cfg ctl label = some s') :
    (label.outside = false → s'.work cfg users < s.work cfg users) ∧
      (label.outside = true → s'.work cfg users ≤ s.work cfg users + outsideWork) := by
  rcases State.step_cases hstep with ⟨a, act, next, pc, rfl, -, hruns, hinstr, rfl⟩ |
      ⟨c, rfl, -, rfl⟩ | ⟨c, rfl, -, -, rfl⟩
  · have ha : a ∈ cfg.agents users :=
      Config.mem_agents.mpr ⟨hruns, fun u hu => hwithin u act (by rw [hu])⟩
    have hgoto := State.work_goto ha pc hinstr.pc_eq
    constructor
    · intro hown
      have hless := hinstr.work_own hruns (fun t ht => ht ▸ hready.io t)
        (fun i hi => hi ▸ hready.worker i) hown
      omega
    · intro houtside
      have hmore := hinstr.work_outside houtside
      omega
  · have hsame : (s.incrRef c).work cfg users = s.work cfg users := (s.incrRef_same c).work users
    exact ⟨fun h => absurd h (by simp [Label.outside]), fun _ => by omega⟩
  · have hsame : (s.decrRef c).work cfg users = s.work cfg users := (s.decrRef_same c).work users
    exact ⟨fun h => absurd h (by simp [Label.outside]), fun _ => by omega⟩

/-- A sum over the threads of a service. -/
theorem Config.sum_agents (users : Nat) (f : Agent → Nat) : ∑ a ∈ cfg.agents users, f a =
    (∑ t ∈ Finset.range cfg.ioThreadCount, f (.io t)) +
      (∑ i ∈ Finset.range cfg.workerThreadCount, f (.worker i)) +
        ∑ u ∈ Finset.range users, f (.sender u) := by
  unfold Config.agents
  rw [Finset.sum_union, Finset.sum_union, Finset.sum_image, Finset.sum_image, Finset.sum_image]
  · exact fun _ _ _ _ h => Agent.sender.inj h
  · exact fun _ _ _ _ h => Agent.worker.inj h
  · exact fun _ _ _ _ h => Agent.io.inj h
  · exact Finset.disjoint_left.mpr fun a ha hb => by cases a <;> simp at ha hb
  · exact Finset.disjoint_left.mpr fun a ha hb => by cases a <;> simp at ha hb

theorem State.init_work (users : Nat) : (State.init : State P).work cfg users =
    2 * cfg.ioThreadCount + 3 * cfg.workerThreadCount := by
  unfold State.work queuedWork
  rw [Config.sum_agents]
  simp [State.init, Pc.work, xvIoThreadInit, IoThread.work, wakeWork_zero, xvWorkerThreadStart,
    WorkerThread.startWith, xvWorkerThreadInit, WorkerThread.work, WorkerPc.work]
  omega

/-! ### Every run -/

/-- User threads that are among the first of some number. -/
theorem Label.within_all (moves : List (Label P)) :
    ∃ users, ∀ label ∈ moves, Label.Within users label := by
  induction moves with
  | nil => exact ⟨0, by simp⟩
  | cons label rest ih =>
      obtain ⟨users, husers⟩ := ih
      obtain ⟨more, hmore⟩ : ∃ more, Label.Within more label := by
        cases label with
        | act a act =>
            cases a with
            | sender u =>
                refine ⟨u + 1, fun u' act' h => ?_⟩
                simp only [Label.act.injEq, Agent.sender.injEq] at h
                omega
            | io t | worker i => exact ⟨0, fun u' act' h => by simp at h⟩
        | incrRef c | decrRef c => exact ⟨0, fun u' act' h => by simp at h⟩
      refine ⟨max users more, fun other hother u act h => ?_⟩
      rcases List.mem_cons.mp hother with rfl | hmem
      · exact Nat.lt_of_lt_of_le (hmore u act h) (Nat.le_max_right ..)
      · exact Nat.lt_of_lt_of_le (husers other hmem u act h) (Nat.le_max_left ..)

/-- A thread that waits cannot go on by itself. -/
theorem State.Waits.not_moves {a : Agent} (h : s.Waits a) (hresting : s.Resting) :
    ¬ s.Moves cfg ctl a := by
  rintro ⟨act, hown, hstep⟩
  obtain ⟨⟨next, pc'⟩, hnext⟩ := Option.isSome_iff_exists.mp hstep
  have hinstr : Instr cfg ctl s a (s.pc a) act next pc' := State.program_instr hnext
  cases a with
  | io t =>
      obtain ⟨hpc, hadd, hreturn⟩ := h
      rw [hpc] at hinstr
      cases hinstr
      case addConnReady hready => omega
      case returnReady hready => omega
      all_goals cases hown
  | worker i =>
      obtain ⟨hpc, hevfd⟩ := h
      rw [hresting i (by simp [hpc])] at hinstr
      cases hinstr
      case work thread hrun hthread => simp [WorkerThread.step, hpc, hevfd] at hthread
      case interrupt => cases hown
  | sender u =>
      have hpc : s.pc (.sender u) = .rest := h
      rw [hpc] at hinstr
      cases hinstr
      cases hown

/-- Where every thread waits, none can go on. -/
theorem State.stuck_of_waits (hresting : s.Resting)
    (h : ∀ a, a.runs cfg = true → s.Waits a) : s.Stuck cfg ctl := by
  intro label hown
  cases label with
  | incrRef c | decrRef c => cases hown
  | act a act =>
      rw [Option.eq_none_iff_forall_ne_some]
      intro s' hstep
      simp only [State.step, Option.ite_none_right_eq_some, Option.map_eq_some_iff,
        Bool.and_eq_true] at hstep
      obtain ⟨⟨hruns, -⟩, next, hnext, -⟩ := hstep
      exact (h a hruns).not_moves hresting ⟨act, hown, Option.isSome_iff_exists.mpr ⟨next, hnext⟩⟩

/-- Where every thread waits, none is about to have undefined behaviour. -/
theorem State.not_undefined_of_waits (hresting : s.Resting)
    (h : ∀ a, a.runs cfg = true → s.Waits a) : ¬ s.Undefined cfg := by
  rintro ⟨a, ha, hundefined⟩
  have hpc : s.pc a = .poll ∨ s.pc a = .rest := by
    have hwaits := h a ha
    cases a with
    | io t => exact Or.inl hwaits.1
    | worker i => exact Or.inr (hresting i (by simp [hwaits.1]))
    | sender u => exact Or.inr hwaits
  rcases hundefined with hunsafe | ⟨c, hc, -⟩
  · rcases hpc with hpc | hpc <;> simp [State.safe, hpc, Pc.touches] at hunsafe
  · rcases hpc with hpc | hpc <;> simp [hpc] at hc

/-- **A service settles.**  In every run, in whatever order the threads go on, the instructions
that they make by themselves are at most 28 for each event from outside (a client accepted, a
read or write event, a signal, a call of the user), and two for each io thread and three for each
worker to start it.  And where no thread can go on, in a reachable state, nothing is left on its
way: every message has been destroyed, every connection has its io thread, every queue is empty
and every thread waits; unless some thread is about to touch a connection that is not allocated
or to write past the end of the connection table. -/
theorem service_settles (cfg : Config) (ctl : EpollCtl) :
    (∀ (moves : List (Label P)) (s : State P),
      Transition.play (State.step cfg ctl) State.init moves = some s →
      moves.countP (!·.outside) ≤
        2 * cfg.ioThreadCount + 3 * cfg.workerThreadCount + 28 * moves.countP Label.outside) ∧
    ∀ s : State P, Reachable (State.step cfg ctl) (· = State.init) s →
      (∀ label, label.outside = false → s.step cfg ctl label = none) →
      s.AtRest cfg ∨ s.Undefined cfg := by
  constructor
  · intro moves s hplay
    obtain ⟨users, husers⟩ := Label.within_all moves
    have hbound := Potential.count_bound (State.step cfg ctl) (State.work cfg users)
      (fun s label s' hs hstep => Reach.next hs trivial hstep)
      (fun s label s' hs hwithin hown hstep =>
        (State.step_work hwithin (State.ready hs) hstep).1 hown)
      (fun s label s' hs hwithin houtside hstep =>
        (State.step_work hwithin (State.ready hs) hstep).2 houtside)
      husers (.start rfl : Reachable (State.step cfg ctl) (· = State.init) State.init) hplay
    rw [State.init_work] at hbound
    unfold outsideWork at hbound
    omega
  · intro s hreach hstuck
    by_cases hundefined : s.Undefined cfg
    · exact Or.inr hundefined
    · exact Or.inl (State.Stuck.atRest hstuck hreach hundefined)

/-- The io thread takes the message that was sent, answers it and destroys it. -/
def returnSent : List (Label Unit) :=
  popReturned ++ goes (.io 0) 1 ++ [.act (.io 0) (.respond [] .retry)] ++ goes (.io 0) 2

/-- A client is accepted and a user thread sends a message: 16 instructions after two events, and
nothing is left on its way. -/
theorem service_settles_answered : ∃ (moves : List (Label Unit)) (s : State Unit),
    moves.countP Label.outside = 2 ∧ moves.countP (!·.outside) = 16 ∧
      moves.countP (!·.outside) ≤ 2 * 1 + 3 * 0 + 28 * moves.countP Label.outside ∧
      Transition.play (State.step inlineConfig acceptAll) State.init moves = some s ∧
      s.nextMsg = 1 ∧ s.AtRest inlineConfig := by
  have hrun : ∃ s : State Unit, Transition.play (State.step inlineConfig acceptAll) State.init
      (acceptOne ++ sendOne ++ returnSent) = some s ∧ s.nextMsg = 1 ∧ s.pc (.io 0) = .poll ∧
      (s.io 0).addConnEvfd = 0 ∧ (s.io 0).returnEvfd = 0 ∧ ∀ u, s.pc (.sender u) = .rest := by
    refine ⟨_, rfl, rfl, rfl, rfl, rfl, fun u => ?_⟩
    cases u <;> rfl
  obtain ⟨s, hplay, hnext, hpoll, hadd, hreturn, hsender⟩ := hrun
  have hreach : Reachable (State.step inlineConfig acceptAll) (· = State.init) s :=
    Reachable.play _ (.start rfl) hplay
  have hsettles := service_settles (P := Unit) inlineConfig acceptAll
  have hresting := (State.sound hreach).owned.resting
  have hwaits : ∀ a, a.runs inlineConfig = true → s.Waits a := by
    intro a ha
    cases a with
    | io t =>
        obtain rfl : t = 0 := by simpa [Agent.runs, inlineConfig] using ha
        exact ⟨hpoll, hadd, hreturn⟩
    | worker i => simp [Agent.runs, inlineConfig] at ha
    | sender u => exact hsender u
  have hrest := (hsettles.2 s hreach (State.stuck_of_waits hresting hwaits)).resolve_right
    (State.not_undefined_of_waits hresting hwaits)
  exact ⟨_, s, by decide, by decide, hsettles.1 _ s hplay, hplay, hnext, hrest⟩

end Libxv
