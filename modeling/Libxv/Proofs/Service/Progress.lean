/-
A thread that has something to do can do it.

Each thread of a running service is where its program says, and finds there what it has seen on
the way: an io thread that goes to read an eventfd has seen its counter positive, and one that
pops has seen its queue non-empty, since only the thread itself resets the one and empties the
other.  So a thread cannot be stuck but in `epoll_wait`, or before an instruction that has
undefined behaviour.
-/
import Libxv.Proofs.Service.Wakeups
import Libxv.Proofs.Service.Homes

namespace Libxv

open Function Transition

variable {P : Type} {cfg : Config} {ctl : EpollCtl} {s : State P}

/-! ### Where a thread can be -/

/-- The io thread has come to `pc`. -/
def IoThread.Ready (thread : IoThread) : Pc P → Prop
  | .entry => True
  | .addConnRead => thread.asyncStart = true ∧ 0 < thread.addConnEvfd
  | .addConnPop => thread.asyncStart = true ∧ thread.connQueue ≠ []
  | .returnRead => thread.asyncStart = true ∧ 0 < thread.returnEvfd
  | .returnPop => thread.asyncStart = true ∧ thread.messageQueue ≠ []
  | .poll | .addConnection _ | .assign _ | .sendConn _ | .addConnSize | .adopt _ | .returnSize
  | .returned _ | .freeReturned _ | .process _ | .respond .. | .finish .. | .pushTask _
  | .sendTask _ | .close .. | .closeRef .. | .closeDel .. | .closeFd .. | .closeFree .. =>
      thread.asyncStart = true
  | .rest | .taskProcess _ | .taskFetch _ | .taskPush .. | .taskSend _ | .sendTest .. | .sendInit ..
  | .sendFetch .. | .sendPush .. | .sendSignal _ => False

/-- In `thread_pool_task_cb`. -/
def Pc.inTask : Pc P → Bool
  | .taskProcess _ | .taskFetch _ | .taskPush .. | .taskSend _ => true
  | _ => false

/-- In `xv_service_send_message`, or outside the service. -/
def Pc.inSend : Pc P → Bool
  | .rest | .sendTest .. | .sendInit .. | .sendFetch .. | .sendPush .. | .sendSignal _ => true
  | _ => false

/-- The worker is started and not stopped, and has come to its place. -/
structure WorkerThread.Ready (thread : WorkerThread PoolTask) (pc : Pc P) : Prop where
  start : thread.start = true
  loopStart : thread.loopStart = true
  present : thread.pc ≠ .absent ∧ thread.pc ≠ .exited
  reading : thread.pc = .eventfdRead → 0 < thread.evfd
  popping : thread.pc = .pop → thread.taskQueue ≠ []
  running : ∀ task, thread.pc = .run task → pc.inTask = true

structure State.Ready (cfg : Config) (s : State P) : Prop where
  io : ∀ t, (s.io t).Ready (s.pc (.io t))
  worker : ∀ i, (s.workers i).Ready (s.pc (.worker i))
  sender : ∀ u, (s.pc (.sender u)).inSend = true
  /-- A thread the service does not have has not moved. -/
  absent : ∀ a, a.runs cfg = false → s.pc a = State.init.pc a
  offered : ∀ t m, s.pc (.io t) = .pushTask m → cfg.workerThreadCount ≠ 0
  tasks : ∀ i, cfg.workerThreadCount ≤ i → (s.workers i).taskQueue = []

/-! ### Other threads only add -/

/-- What other threads do to an io thread's queues and counters. -/
structure IoThread.Fed (thread next : IoThread) : Prop where
  asyncStart : next.asyncStart = thread.asyncStart
  addConnEvfd : 0 < thread.addConnEvfd → 0 < next.addConnEvfd
  connQueue : thread.connQueue ≠ [] → next.connQueue ≠ []
  returnEvfd : 0 < thread.returnEvfd → 0 < next.returnEvfd
  messageQueue : thread.messageQueue ≠ [] → next.messageQueue ≠ []

theorem IoThread.Fed.refl (thread : IoThread) : thread.Fed thread := ⟨rfl, id, id, id, id⟩

theorem IoThread.Fed.update {t i : Nat} {next : IoThread} (h : (s.io i).Fed next) :
    (s.io t).Fed (update s.io i next t) := by
  by_cases ht : t = i
  · subst ht
    rw [update_self]
    exact h
  · rw [update_of_ne ht]
    exact .refl _

theorem IoThread.Fed.ready {thread next : IoThread} (h : thread.Fed next) {pc : Pc P}
    (hready : thread.Ready pc) : next.Ready pc := by
  unfold IoThread.Ready at hready ⊢
  rw [h.asyncStart]
  cases pc
  case addConnRead => exact ⟨hready.1, h.addConnEvfd hready.2⟩
  case addConnPop => exact ⟨hready.1, h.connQueue hready.2⟩
  case returnRead => exact ⟨hready.1, h.returnEvfd hready.2⟩
  case returnPop => exact ⟨hready.1, h.messageQueue hready.2⟩
  all_goals exact hready

/-- An io thread among the instructions of the others. -/
theorem Instr.fed {a : Agent} {pc pc' : Pc P} {act : Act P} {next : State P}
    (h : Instr cfg ctl s a pc act next pc') {t : Nat} (hne : a ≠ .io t) :
    (s.io t).Fed (next.io t) := by
  have hother : ∀ {i : Nat} {thread : IoThread}, a = .io i →
      (s.io t).Fed (update s.io i thread t) := by
    rintro i thread rfl
    rw [update_of_ne fun ht => hne (by rw [ht])]
    exact .refl _
  cases h
  case entry | addConnRead | addConnPop | returnRead | returnPop => exact hother rfl
  case respond | write => exact hother rfl
  case assignSelf | adopt => exact hother rfl
  case close => exact .update ⟨rfl, id, id, id, id⟩
  case assignOther => exact .update ⟨rfl, id, fun _ => by simp, id, id⟩
  case sendConn => exact .update ⟨rfl, fun _ => xvAsyncSend_pos _, id, id, id⟩
  case taskPush | sendPush => exact .update ⟨rfl, id, id, id, fun _ => by simp⟩
  case taskSend | sendSignal => exact .update ⟨rfl, id, id, fun _ => xvAsyncSend_pos _, id⟩
  all_goals exact .refl _

/-! ### The thread's own instructions -/

theorem Resume.ready {thread : IoThread} (resume : Resume) (h : thread.asyncStart = true) :
    thread.Ready (resume.pc : Pc P) := by
  cases resume <;> exact h

theorem Origin.ready {thread : IoThread} (origin : Origin) (h : thread.asyncStart = true) :
    thread.Ready (origin.pc : Pc P) := by
  cases origin <;> exact h

theorem Instr.io_ready {t : Nat} {pc pc' : Pc P} {act : Act P} {next : State P}
    (h : Instr cfg ctl s (.io t) pc act next pc') (hready : (s.io t).Ready pc) :
    (next.io t).Ready pc' := by
  have hset : ∀ {i : Nat} {thread : IoThread}, thread.asyncStart = (s.io i).asyncStart →
      (s.io t).asyncStart = true → (update s.io i thread t).asyncStart = true := by
    intro i thread hsame hstart
    rw [← hstart]
    exact update_same s.io i _ IoThread.asyncStart hsame t
  cases h
  case entry => simp [State.startIoThread, IoThread.Ready]
  case close | assignSelf | assignOther | sendConn | adopt => exact hset rfl hready
  case respond | write => split <;> exact hset rfl hready
  case closeBusy resume _ => exact resume.ready hready
  case closeFree c resume => exact resume.ready hready
  case finish m origin => exact origin.ready hready
  case request => split <;> exact hready
  case addConnReady hevfd => exact hevfd
  case returnReady hevfd => exact hevfd
  case addConnMore hqueue => exact ⟨hready, List.ne_nil_of_length_pos hqueue⟩
  case returnMore hqueue => exact ⟨hready, List.ne_nil_of_length_pos hqueue⟩
  case addConnRead | addConnPop | returnRead | returnPop => exact hset rfl hready.1
  case addConnNull hnull => exact absurd hnull hready.2
  case returnNull hnull => exact absurd hnull hready.2
  all_goals exact hready

theorem WorkerThread.Ready.step {thread thread' : WorkerThread PoolTask} {pc : Pc P}
    (h : thread.Ready pc) (hstep : thread.step = some thread') :
    thread'.Ready (thread'.pc.callback : Pc P) := by
  cases WorkerThread.step_moves hstep with
  | exit _ hstart => exact absurd (h.start.symm.trans hstart) (by simp)
  | leave _ hloop => exact absurd (h.loopStart.symm.trans hloop) (by simp)
  | stopLoop _ hstart => exact absurd (h.start.symm.trans hstart) (by simp)
  | popNone hpc hqueue => exact absurd hqueue (h.popping hpc)
  | wake _ hevfd => exact ⟨h.start, h.loopStart, by simp, fun _ => hevfd, by simp, by simp⟩
  | more _ hqueue =>
      exact ⟨h.start, h.loopStart, by simp, by simp,
        fun _ => List.ne_nil_of_length_pos hqueue, by simp⟩
  | run => exact ⟨h.start, h.loopStart, by simp, by simp, by simp, fun _ _ => rfl⟩
  | enter | poll | reset | drained | skip | again =>
      exact ⟨h.start, h.loopStart, by simp, by simp, by simp, by simp⟩

theorem WorkerThread.Ready.interrupt {thread thread' : WorkerThread PoolTask} {pc : Pc P}
    (h : thread.Ready pc) (hstep : thread.interrupt = some thread') :
    thread'.Ready (.rest : Pc P) := by
  obtain ⟨-, rfl⟩ := WorkerThread.interrupt_some hstep
  exact ⟨h.start, h.loopStart, by simp, by simp, by simp, by simp⟩

theorem WorkerThread.Ready.taskReturns {thread thread' : WorkerThread PoolTask} {pc : Pc P}
    (h : thread.Ready pc) (hstep : thread.taskReturns = some thread') :
    thread'.Ready (.rest : Pc P) := by
  obtain ⟨task, -, rfl⟩ := WorkerThread.taskReturns_some hstep
  exact ⟨h.start, h.loopStart, by simp, by simp, by simp, by simp⟩

/-- A worker goes on in the task it runs. -/
theorem WorkerThread.Ready.inTask {thread : WorkerThread PoolTask} {pc pc' : Pc P}
    (h : thread.Ready pc) (hpc : pc'.inTask = true) : thread.Ready pc' :=
  ⟨h.start, h.loopStart, h.present, h.reading, h.popping, fun _ _ => hpc⟩

theorem Instr.worker_ready {a : Agent} {act : Act P} {next : State P} {pc' : Pc P}
    (hinstr : Instr cfg ctl s a (s.pc a) act next pc')
    (h : ∀ i, (s.workers i).Ready (s.pc (.worker i))) (hresting : s.Resting) (i : Nat) :
    (next.workers i).Ready ((next.goto a pc').pc (.worker i)) := by
  by_cases ha : a = .worker i
  · subst ha
    rw [State.goto_pc_self]
    have hi := h i
    have hrest := hresting i
    generalize s.pc (.worker i) = pc at hinstr hi hrest
    cases hinstr
    case work thread hrun hstep => simpa [State.setWorker] using hi.step hstep
    case interrupt thread hrun hstep => simpa [State.setWorker] using hi.interrupt hstep
    case taskSend t thread hstep => simpa [State.setWorker] using hi.taskReturns hstep
    case taskProcess | taskFetch | taskPush => exact hi.inTask rfl
  · rw [State.goto_pc_of_ne _ _ fun heq => ha heq.symm, hinstr.pc_eq]
    have hi := h i
    generalize s.pc a = pc at hinstr
    cases hinstr
    case pushTask t m j addr hj =>
      by_cases hij : i = j
      · subst hij
        simp only [State.setWorker, update_self]
        exact ⟨hi.start, hi.loopStart, hi.present, hi.reading, fun _ => by simp [WorkerThread.push],
          hi.running⟩
      · simpa [State.setWorker, update_of_ne hij] using hi
    case sendTask t j =>
      by_cases hij : i = j
      · subst hij
        simp only [State.setWorker, update_self]
        exact ⟨hi.start, hi.loopStart, hi.present, fun _ => xvAsyncSend_pos _, hi.popping,
          hi.running⟩
      · simpa [State.setWorker, update_of_ne hij] using hi
    case work j thread hrun hstep | interrupt j thread hrun hstep | taskSend j t thread hstep =>
      have hij : i ≠ j := fun heq => ha (by rw [heq])
      simpa [State.setWorker, State.sendReturn, update_of_ne hij] using hi
    all_goals exact hi

theorem Instr.sender_ready {u : Nat} {pc pc' : Pc P} {act : Act P} {next : State P}
    (h : Instr cfg ctl s (.sender u) pc act next pc') : pc'.inSend = true := by
  cases h <;> rfl

/-- A task is pushed only where there are workers. -/
theorem Instr.offers {t m : Nat} {pc : Pc P} {act : Act P} {next : State P}
    (h : Instr cfg ctl s (.io t) pc act next (.pushTask m)) : cfg.workerThreadCount ≠ 0 := by
  generalize hpc : Pc.pushTask m = pc' at h
  cases h
  case request =>
    split at hpc
    · simp at hpc
    · assumption
  case respond | write => split at hpc <;> simp at hpc
  case closeBusy c resume _ | closeFree c resume => cases resume <;> simp [Resume.pc] at hpc
  case finish m' origin => cases origin <;> simp [Origin.pc] at hpc
  all_goals simp at hpc

/-- No task comes to a worker that the service does not have. -/
theorem Instr.tasks {a : Agent} {pc pc' : Pc P} {act : Act P} {next : State P}
    (h : Instr cfg ctl s a pc act next pc') (hruns : a.runs cfg = true)
    (hoffered : ∀ t m, a = .io t → pc = .pushTask m → cfg.workerThreadCount ≠ 0) {i : Nat}
    (hi : cfg.workerThreadCount ≤ i) :
    (next.workers i).taskQueue = (s.workers i).taskQueue := by
  have hother : ∀ {j : Nat} {thread : WorkerThread PoolTask}, j < cfg.workerThreadCount →
      (update s.workers j thread i).taskQueue = (s.workers i).taskQueue := by
    intro j thread hj
    rw [update_of_ne (by omega)]
  cases h
  case pushTask t m j addr hj =>
    have hpos := hoffered t m rfl rfl
    exact hother (hj ▸ Nat.mod_lt _ (Nat.pos_of_ne_zero hpos))
  case sendTask t j => exact update_same s.workers j _ WorkerThread.taskQueue (by rfl) i
  case work | interrupt | taskSend => exact hother (by simpa [Agent.runs] using hruns)
  all_goals rfl

/-! ### Every run -/

theorem State.Ready.instr (h : s.Ready cfg) (hresting : s.Resting) {a : Agent} {act : Act P}
    {next : State P} {pc' : Pc P} (hruns : a.runs cfg = true)
    (hinstr : Instr cfg ctl s a (s.pc a) act next pc') : (next.goto a pc').Ready cfg := by
  have hother : ∀ {b : Agent}, b ≠ a → (next.goto a pc').pc b = s.pc b := by
    intro b hb
    rw [State.goto_pc_of_ne _ _ hb, hinstr.pc_eq]
  refine ⟨fun t => ?_, hinstr.worker_ready h.worker hresting, fun u => ?_, fun b hb => ?_,
    fun t m hpc => ?_, fun i hi => ?_⟩
  · by_cases ha : a = .io t
    · subst ha
      rw [State.goto_pc_self]
      exact hinstr.io_ready (h.io t)
    · rw [hother fun heq => ha heq.symm]
      exact (hinstr.fed ha).ready (h.io t)
  · by_cases ha : a = .sender u
    · subst ha
      rw [State.goto_pc_self]
      exact hinstr.sender_ready
    · rw [hother fun heq => ha heq.symm]
      exact h.sender u
  · rw [hother]
    · exact h.absent b hb
    · rintro rfl
      exact absurd (hruns.symm.trans hb) (by simp)
  · by_cases ha : a = .io t
    · subst ha
      rw [State.goto_pc_self] at hpc
      exact (hpc ▸ hinstr).offers
    · rw [hother fun heq => ha heq.symm] at hpc
      exact h.offered t m hpc
  · refine (hinstr.tasks hruns ?_ hi).trans (h.tasks i hi)
    rintro t m rfl hpc
    exact h.offered t m hpc

theorem State.Ready.refs (h : s.Ready cfg) {next : State P} (hsame : s.SameButRefs next) :
    next.Ready cfg := by
  refine ⟨?_, ?_, ?_, ?_, ?_, ?_⟩
  · rw [hsame.io, hsame.pc]
    exact h.io
  · rw [hsame.workers, hsame.pc]
    exact h.worker
  · rw [hsame.pc]
    exact h.sender
  · rw [hsame.pc]
    exact h.absent
  · rw [hsame.pc]
    exact h.offered
  · rw [hsame.workers]
    exact h.tasks

theorem State.Ready.init : (State.init : State P).Ready cfg where
  io := fun t => trivial
  worker := fun i => by
    refine ⟨rfl, rfl, ?_, ?_, ?_, ?_⟩ <;>
      simp [State.init, xvWorkerThreadStart, WorkerThread.startWith, xvWorkerThreadInit]
  sender := fun u => rfl
  absent := fun a h => rfl
  offered := fun t m h => by cases h
  tasks := fun i h => rfl

theorem State.ready {ok : State P → Label P → Prop}
    (h : Reach (State.step cfg ctl) ok (· = State.init) s) : s.Ready cfg := by
  refine State.invariant h .init fun s label s' hsound hready _ hstep => ?_
  rcases State.step_cases hstep with ⟨a, act, next, pc, -, -, hruns, hinstr, rfl⟩ |
      ⟨c, -, -, rfl⟩ | ⟨c, -, -, -, rfl⟩
  · exact hready.instr hsound.owned.resting hruns hinstr
  · exact hready.refs (s.incrRef_same c)
  · exact hready.refs (s.decrRef_same c)

/-! ### What a thread can do -/

/-- The act brings something in from outside: a client, an event of one of its sockets, a signal,
or a call of the user. -/
def Act.outside : Act P → Bool
  | .accept .. | .read .. | .write .. | .interrupt | .call .. => true
  | .go | .table _ | .addConnReady | .returnReady | .process _ | .respond .. | .malloc _ => false

def Label.outside : Label P → Bool
  | .act _ a => a.outside
  | .incrRef _ | .decrRef _ => true

/-- The thread can go on by itself. -/
def State.Moves (cfg : Config) (ctl : EpollCtl) (s : State P) (a : Agent) : Prop :=
  ∃ act, act.outside = false ∧ (s.program cfg ctl a act).isSome = true

/-- The connection whose `io_thread` the next instruction follows. -/
def Pc.follows (msgs : Nat → Message P) : Pc P → Option Nat
  | .close c _ | .sendFetch c _ => some c
  | .taskFetch m => some (msgs m).conn
  | _ => none

/-- The thread follows the `io_thread` of a connection that has none. -/
def State.FollowsNull (s : State P) (a : Agent) : Prop :=
  ∃ c, (s.pc a).follows s.msgs = some c ∧ s.owner c = none

/-- The leader is about to write past the end of the connection table. -/
def State.Overruns (s : State P) (a : Agent) : Prop :=
  ∃ c, s.pc a = .addConnection c ∧ s.table.setsize ≤ (s.conns c).conn.fd

/-- The thread waits in `epoll_wait` with nothing to wake it, or outside the service. -/
def State.Waits (s : State P) : Agent → Prop
  | .io t => s.pc (.io t) = .poll ∧ (s.io t).addConnEvfd = 0 ∧ (s.io t).returnEvfd = 0
  | .worker i => (s.workers i).pc = .epollWait ∧ (s.workers i).evfd = 0
  | .sender u => s.pc (.sender u) = .rest

/-- An io thread goes on when the function it is in does. -/
theorem ioStep_isSome {t : Nat} {pc : Pc P} {act : Act P}
    (h : (xvConnectionClose ctl s pc act).isSome = true ∨
      (onNewConnection cfg ctl s t pc act).isSome = true ∨
      (ioThreadAddConnCb ctl s t pc act).isSome = true ∨
      (ioThreadReturnMessageCb s t pc act).isSome = true) :
    (ioStep cfg ctl s t pc act).isSome = true := by
  simp only [ioStep, Option.orElse_eq_orElse, Option.orElse_eq_or, Option.isSome_or,
    Bool.or_eq_true]
  rcases h with h | h | h | h <;> simp [h]

theorem State.Ready.io_moves (h : s.Ready cfg) (t : Nat) :
    s.Waits (.io t) ∨ s.Overruns (.io t) ∨ s.FollowsNull (.io t) ∨ s.Moves cfg ctl (.io t) := by
  have hready := h.io t
  have hgoes : ∀ act, act.outside = false → (ioStep cfg ctl s t (s.pc (.io t)) act).isSome = true →
      s.Waits (.io t) ∨ s.Overruns (.io t) ∨ s.FollowsNull (.io t) ∨ s.Moves cfg ctl (.io t) :=
    fun act hact hstep => Or.inr (Or.inr (Or.inr ⟨act, hact, hstep⟩))
  simp only [State.Waits, State.Overruns, State.FollowsNull] at hgoes ⊢
  generalize s.pc (.io t) = pc at hready hgoes ⊢
  cases pc
  case rest | taskProcess | taskFetch | taskPush | taskSend | sendTest | sendInit | sendFetch
      | sendPush | sendSignal => exact hready.elim
  case poll =>
    have hstart : (s.io t).asyncStart = true := hready
    by_cases hadd : 0 < (s.io t).addConnEvfd
    · refine hgoes .addConnReady rfl (ioStep_isSome (Or.inr (Or.inr (Or.inl ?_))))
      simp [ioThreadAddConnCb, hstart, hadd]
    by_cases hreturn : 0 < (s.io t).returnEvfd
    · refine hgoes .returnReady rfl (ioStep_isSome (Or.inr (Or.inr (Or.inr ?_))))
      simp [ioThreadReturnMessageCb, hstart, hreturn]
    · exact Or.inl ⟨rfl, by omega, by omega⟩
  case addConnection c =>
    by_cases hfd : s.table.setsize ≤ (s.conns c).conn.fd
    · exact Or.inr (Or.inl ⟨c, rfl, hfd⟩)
    · refine hgoes (.table fun _ => none) rfl (ioStep_isSome (Or.inr (Or.inl ?_)))
      have hsmall : ¬ (s.conns c).conn.fd > s.table.setsize := by omega
      simp [onNewConnection, xvServiceAddConnection, hsmall, Nat.lt_of_not_le hfd]
  case close c resume =>
    cases howner : s.owner c with
    | none => exact Or.inr (Or.inr (Or.inl ⟨c, rfl, howner⟩))
    | some owner =>
        refine hgoes .go rfl (ioStep_isSome (Or.inl ?_))
        have howner : (s.conns c).conn.ioThread = some owner := howner
        simp [xvConnectionClose, howner]
  case closeRef c resume =>
    refine hgoes .go rfl (ioStep_isSome (Or.inl ?_))
    simp only [xvConnectionClose]
    split <;> rfl
  case assign c =>
    refine hgoes .go rfl (ioStep_isSome (Or.inr (Or.inl ?_)))
    simp only [onNewConnection]
    split <;> rfl
  case addConnPop =>
    refine hgoes .go rfl (ioStep_isSome (Or.inr (Or.inr (Or.inl ?_))))
    simp only [ioThreadAddConnCb]
    split <;> rfl
  case returnPop =>
    refine hgoes .go rfl (ioStep_isSome (Or.inr (Or.inr (Or.inr ?_))))
    simp only [ioThreadReturnMessageCb]
    split <;> rfl
  case returned m =>
    refine hgoes .go rfl (ioStep_isSome (Or.inr (Or.inr (Or.inr ?_))))
    simp only [ioThreadReturnMessageCb]
    split <;> rfl
  case process m => exact hgoes (.process none) rfl rfl
  case respond m origin => exact hgoes (.respond [] .retry) rfl rfl
  case pushTask m => exact hgoes (.malloc 0) rfl rfl
  all_goals exact hgoes .go rfl rfl

theorem State.Ready.worker_moves (h : s.Ready cfg) (i : Nat) :
    s.Waits (.worker i) ∨ s.FollowsNull (.worker i) ∨ s.Moves cfg ctl (.worker i) := by
  have hready := h.worker i
  have hloop : (∀ task, (s.workers i).pc ≠ .run task) → (s.workers i).step.isSome = true →
      s.Moves cfg ctl (.worker i) := by
    intro hrun hstep
    obtain ⟨thread, hthread⟩ := Option.isSome_iff_exists.mp hstep
    refine ⟨.go, rfl, ?_⟩
    simp only [State.program, workerStep, hthread, Option.isSome_some]
  have htask : ∀ task act, (s.workers i).pc = .run task → act.outside = false →
      (threadPoolTaskCb s i (s.pc (.worker i)) act).isSome = true →
      s.Moves cfg ctl (.worker i) := by
    intro task act hrun hact hstep
    refine ⟨act, hact, ?_⟩
    simpa only [State.program, workerStep, hrun] using hstep
  cases hpc : (s.workers i).pc
  case absent => exact absurd hpc hready.present.1
  case exited => exact absurd hpc hready.present.2
  case epollWait =>
    by_cases hevfd : 0 < (s.workers i).evfd
    · refine Or.inr (Or.inr (hloop (by simp [hpc]) ?_))
      simp [WorkerThread.step, hpc, hevfd]
    · exact Or.inl ⟨hpc, by omega⟩
  case run task =>
    have hin := hready.running task hpc
    have htask := fun act => htask task act hpc
    simp only [State.FollowsNull]
    generalize s.pc (.worker i) = pc at hin htask ⊢
    cases pc
    case taskProcess m => exact Or.inr (Or.inr (htask (.process none) rfl rfl))
    case taskPush t m => exact Or.inr (Or.inr (htask .go rfl rfl))
    case taskSend t =>
      refine Or.inr (Or.inr (htask .go rfl ?_))
      simp [threadPoolTaskCb, WorkerThread.taskReturns, hpc]
    case taskFetch m =>
      cases howner : s.owner (s.msgs m).conn with
      | none => exact Or.inr (Or.inl ⟨_, rfl, howner⟩)
      | some t =>
          refine Or.inr (Or.inr (htask .go rfl ?_))
          have howner : (s.conns (s.msgs m).conn).conn.ioThread = some t := howner
          simp [threadPoolTaskCb, howner]
    all_goals simp [Pc.inTask] at hin
  case pop =>
    refine Or.inr (Or.inr (hloop (by simp [hpc]) ?_))
    simp only [WorkerThread.step, hpc]
    split <;> rfl
  case flagTest =>
    refine Or.inr (Or.inr (hloop (by simp [hpc]) ?_))
    simp only [WorkerThread.step, hpc]
    split <;> rfl
  all_goals exact Or.inr (Or.inr (hloop (by simp [hpc]) (by simp [WorkerThread.step, hpc])))

theorem State.Ready.sender_moves (h : s.Ready cfg) (u : Nat) :
    s.Waits (.sender u) ∨ s.FollowsNull (.sender u) ∨ s.Moves cfg ctl (.sender u) := by
  have hready := h.sender u
  have hgoes : (xvServiceSendMessage s (s.pc (.sender u)) .go).isSome = true →
      s.Waits (.sender u) ∨ s.FollowsNull (.sender u) ∨ s.Moves cfg ctl (.sender u) :=
    fun hstep => Or.inr (Or.inr ⟨.go, rfl, hstep⟩)
  simp only [State.Waits, State.FollowsNull] at hgoes ⊢
  generalize s.pc (.sender u) = pc at hready hgoes ⊢
  cases pc
  case rest => exact Or.inl rfl
  case sendTest c package =>
    refine hgoes ?_
    simp only [xvServiceSendMessage]
    split <;> rfl
  case sendFetch c m =>
    cases howner : s.owner c with
    | none => exact Or.inr (Or.inl ⟨c, rfl, howner⟩)
    | some t =>
        refine hgoes ?_
        have howner : (s.conns c).conn.ioThread = some t := howner
        simp [xvServiceSendMessage, howner]
  case sendInit | sendPush | sendSignal => exact hgoes rfl
  all_goals simp [Pc.inSend] at hready

/-- **A thread waits, goes on, or is about to have undefined behaviour.** -/
theorem State.Ready.moves (h : s.Ready cfg) (ctl : EpollCtl) (a : Agent) :
    s.Waits a ∨ s.Overruns a ∨ s.FollowsNull a ∨ s.Moves cfg ctl a := by
  cases a with
  | io t => exact h.io_moves t
  | worker i => exact (h.worker_moves i).imp_right Or.inr
  | sender u => exact (h.sender_moves u).imp_right Or.inr

end Libxv
