/-
No lost wake-up.

Three queues are drained on the signal of an async: a worker's `task_queue`, and the
`conn_queue` and `message_queue` of an io thread.  All producers push before they send, and
all consumers read their eventfd before they look at the queue and leave only when it is
empty; so every step is a move of `Wakeup`, and no item is left with everyone asleep.
-/
import Libxv.Proofs.Service.Ownership
import Libxv.Lib.Wakeup

namespace Libxv

open Function Transition Wakeup

/-! ### A worker and any threads that use it -/

section worker

variable {A : Type}

theorem WorkerPc.not_draining_epollWait {pc : WorkerPc A} (h : pc = .epollWait) :
    ¬ pc.draining = true := by
  rw [h]
  simp [WorkerPc.draining]

/-- The task queue of a worker among its users. -/
def WorkerSystem.wakeup (s : WorkerSystem A) : View Nat where
  queued := s.worker.taskQueue.length
  counter := s.worker.evfd
  unsent := { p | ∃ task, s.producers p = .sending task }
  draining := s.worker.pc.draining = true
  asleep := s.worker.pc = .epollWait
  apart := WorkerPc.not_draining_epollWait

/-- A step of the worker: into or inside its drain, out of it because the queue is empty, or
outside. -/
theorem WorkerThread.step_drains {thread thread' : WorkerThread A}
    (hstep : thread.step = some thread') :
    thread'.pc.draining = true ∨ thread'.taskQueue.length = 0 ∨
      (thread.pc.draining = false ∧ thread'.taskQueue = thread.taskQueue ∧
        thread'.evfd = thread.evfd) := by
  cases WorkerThread.step_moves hstep with
  | reset | more | popNone | run | skip => exact Or.inl rfl
  | drained hpc hqueue => exact Or.inr (Or.inl (by simp [hqueue]))
  | enter hpc | exit hpc | poll hpc | leave hpc | wake hpc | stopLoop hpc | again hpc =>
      exact Or.inr (Or.inr ⟨by rw [hpc]; rfl, rfl, rfl⟩)

theorem WorkerThread.interrupt_drains {thread thread' : WorkerThread A}
    (hstep : thread.interrupt = some thread') :
    thread.pc.draining = false ∧ thread'.taskQueue = thread.taskQueue ∧
      thread'.evfd = thread.evfd := by
  obtain ⟨hpc, rfl⟩ := WorkerThread.interrupt_some hstep
  exact ⟨by rw [hpc]; rfl, rfl, rfl⟩

theorem WorkerThread.taskReturns_drains {thread thread' : WorkerThread A}
    (hstep : thread.taskReturns = some thread') : thread'.pc.draining = true := by
  obtain ⟨task, -, rfl⟩ := WorkerThread.taskReturns_some hstep
  rfl

/-- A step that leaves the worker's queue, counter and drain alone. -/
theorem WorkerSystem.move_other {s s' : WorkerSystem A}
    (hqueue : s'.worker.taskQueue = s.worker.taskQueue) (hevfd : s'.worker.evfd = s.worker.evfd)
    (hsent : ∀ p task, s.producers p = .sending task → s'.producers p = .sending task)
    (hdrain : s.worker.pc.draining = true → s'.worker.pc.draining = true) :
    Move s.wakeup s'.wakeup := by
  refine .other ?_ ?_ ?_ hdrain
  · exact Nat.le_of_eq (congrArg List.length hqueue)
  · exact Nat.le_of_eq hevfd.symm
  · intro p hnow
    obtain ⟨task, htask⟩ := hnow
    exact ⟨task, hsent p task htask⟩

theorem WorkerSystem.move {s s' : WorkerSystem A} {label : WorkerLabel A}
    (hstep : s.step label = some s') : Move s.wakeup s'.wakeup := by
  cases WorkerSystem.step_moves hstep with
  | start hcreated hstart =>
      refine move_other ?_ ?_ (fun _ _ h => h) fun hdrain => ?_
      · rw [xvWorkerThreadStart_taskQueue]
      · rcases xvWorkerThreadStart_cases hstart with hsame | hstarted
        · rw [hsame]
        · rw [hstarted]
      · cases hpc : s.worker.pc <;>
          simp [hpc, WorkerPc.created, WorkerPc.draining] at hcreated hdrain
  | @call p _ _ hidle =>
      refine move_other rfl rfl (fun q task hq => ?_) id
      have hne : q ≠ p := fun hqp => by simp [hqp, hidle] at hq
      exact (update_of_ne hne ..).trans hq
  | @push p task => exact .push p ⟨task, update_self ..⟩
  | send | destroySend => exact .signal (xvAsyncSend_pos _)
  | worker hthread =>
      rcases WorkerThread.step_drains hthread with hdrain | hempty | ⟨hout, hqueue, hevfd⟩
      · exact .drain hdrain
      · exact .rest hempty
      · exact move_other hqueue hevfd (fun _ _ h => h) fun h => absurd h (by simp [hout])
  | interrupt hthread =>
      obtain ⟨hout, hqueue, hevfd⟩ := WorkerThread.interrupt_drains hthread
      exact move_other hqueue hevfd (fun _ _ h => h) fun h => absurd h (by simp [hout])
  | taskReturns hthread => exact .drain (WorkerThread.taskReturns_drains hthread)
  | stop | destroy | destroyStop | destroyJoin =>
      exact move_other rfl rfl (fun _ _ h => h) id

theorem WorkerSystem.notLost {s : WorkerSystem A}
    (h : Reachable WorkerSystem.step (· = WorkerSystem.init) s) : NotLost s.wakeup := by
  refine h.invariant (I := fun s => NotLost s.wakeup) ?_ ?_
  · intro s hs
    subst hs
    exact fun hpos => absurd hpos (Nat.lt_irrefl 0)
  · exact fun _ _ _ hs _ hstep => (WorkerSystem.move hstep).notLost hs

end worker

/-! ### The queues of a service -/

section service

variable {P : Type} {cfg : Config} {ctl : EpollCtl} {s next : State P} {a : Agent} {pc' : Pc P}

/-- The task queue of worker `i`. -/
def State.taskWakeup (s : State P) (i : Nat) : View Agent where
  queued := (s.workers i).taskQueue.length
  counter := (s.workers i).evfd
  unsent := { a | s.pc a = .sendTask i }
  draining := (s.workers i).pc.draining = true
  asleep := (s.workers i).pc = .epollWait
  apart := WorkerPc.not_draining_epollWait

/-- A queue of an io thread and the async that goes with it. -/
structure IoAsync (P : Type) where
  queue : IoThread → List Nat
  evfd : IoThread → Nat
  /-- The io thread whose async the next instruction signals, after a push. -/
  sends : Pc P → Option Nat
  /-- The io thread is in the loop of the async's callback. -/
  drains : Pc P → Bool
  apart : drains .poll = false

/-- `io_thread_add_conn_cb`. -/
def Pc.addsConns : Pc P → Bool
  | .addConnSize | .addConnPop | .adopt _ => true
  | _ => false

/-- `io_thread_return_message_cb`, with what it calls. -/
def Pc.returnsMessages : Pc P → Bool
  | .returnSize | .returnPop | .returned _ | .freeReturned _ | .respond _ .returned
  | .finish _ .returned | .close _ (.finish _ .returned) | .closeRef _ (.finish _ .returned)
  | .closeDel _ (.finish _ .returned) | .closeFd _ (.finish _ .returned)
  | .closeFree _ (.finish _ .returned) => true
  | _ => false

def Pc.sendsConn : Pc P → Option Nat
  | .sendConn t => some t
  | _ => none

def Pc.sendsMessage : Pc P → Option Nat
  | .taskSend t | .sendSignal t => some t
  | _ => none

/-- `conn_queue` and `async_add_conn`. -/
def asyncAddConn : IoAsync P :=
  { queue := IoThread.connQueue, evfd := IoThread.addConnEvfd, sends := Pc.sendsConn,
    drains := Pc.addsConns, apart := rfl }

/-- `message_queue` and `async_return_message`. -/
def asyncReturnMessage : IoAsync P :=
  { queue := IoThread.messageQueue, evfd := IoThread.returnEvfd, sends := Pc.sendsMessage,
    drains := Pc.returnsMessages, apart := rfl }

def State.wakeup (s : State P) (q : IoAsync P) (t : Nat) : View Agent where
  queued := (q.queue (s.io t)).length
  counter := q.evfd (s.io t)
  unsent := { a | q.sends (s.pc a) = some t }
  draining := q.drains (s.pc (.io t)) = true
  asleep := s.pc (.io t) = .poll
  apart := fun h => by simp [h, q.apart]

/-- A step that concerns another queue. -/
theorem State.wakeup_other {q : IoAsync P} {t : Nat} (hpc : next.pc = s.pc)
    (hqueue : q.queue (next.io t) = q.queue (s.io t)) (hevfd : q.evfd (next.io t) = q.evfd (s.io t))
    (hsends : q.sends (s.pc a) ≠ some t)
    (hdrains : a = .io t → q.drains (s.pc a) = true → q.drains pc' = true) :
    Move (s.wakeup q t) ((next.goto a pc').wakeup q t) := by
  refine .other ?_ ?_ ?_ fun hdrain => ?_
  · exact Nat.le_of_eq (congrArg List.length hqueue)
  · exact Nat.le_of_eq hevfd.symm
  · intro b hb
    have hne : b ≠ a := by
      rintro rfl
      exact hsends hb
    show q.sends ((next.goto a pc').pc b) = some t
    rw [State.goto_pc_of_ne _ _ hne, hpc]
    exact hb
  · show q.drains ((next.goto a pc').pc (.io t)) = true
    have hdrain : q.drains (s.pc (.io t)) = true := hdrain
    by_cases ht : .io t = a
    · subst ht
      rw [State.goto_pc_self]
      exact hdrains rfl hdrain
    · rw [State.goto_pc_of_ne _ _ ht, hpc]
      exact hdrain

/-- A push: the thread goes on to its send. -/
theorem State.wakeup_push {q : IoAsync P} {t : Nat} (hsends : q.sends pc' = some t) :
    Move (s.wakeup q t) ((next.goto a pc').wakeup q t) :=
  .push a (by
    show q.sends ((next.goto a pc').pc a) = some t
    rw [State.goto_pc_self]
    exact hsends)

/-- A step of an io thread that stays in the loop of the async's callback. -/
theorem State.wakeup_inside {q : IoAsync P} {t t' : Nat} (hpc : next.pc = s.pc)
    (hio : t' ≠ t → q.queue (next.io t) = q.queue (s.io t) ∧ q.evfd (next.io t) = q.evfd (s.io t))
    (hsends : q.sends (s.pc (.io t')) = none) (hdrains : q.drains pc' = true) :
    Move (s.wakeup q t) ((next.goto (.io t') pc').wakeup q t) := by
  by_cases ht : t' = t
  · subst ht
    refine .drain ?_
    show q.drains ((next.goto (.io t') pc').pc (.io t')) = true
    rw [State.goto_pc_self]
    exact hdrains
  · exact State.wakeup_other hpc (hio ht).1 (hio ht).2 (by simp [hsends]) fun _ _ => hdrains

/-- It leaves the loop when the queue is empty. -/
theorem State.wakeup_leave {q : IoAsync P} {t t' : Nat}
    (hempty : ¬ (q.queue (s.io t')).length > 0) (hsends : q.sends (s.pc (.io t')) = none) :
    Move (s.wakeup q t) ((s.goto (.io t') pc').wakeup q t) := by
  by_cases ht : t' = t
  · subst ht
    refine .rest ?_
    show (q.queue (s.io t')).length = 0
    omega
  · refine State.wakeup_other rfl rfl rfl (by simp [hsends]) fun hself => ?_
    exact absurd (Agent.io.inj hself) ht

/-- A step on the queue of another io thread. -/
theorem update_io_of_ne {β : Type} {i t : Nat} {thread : IoThread} (f : IoThread → β)
    (h : i ≠ t) : f (update s.io i thread t) = f (s.io t) := by
  rw [update_of_ne h.symm]

theorem Instr.addConn_move {act : Act P} (hresting : s.Resting)
    (hinstr : Instr cfg ctl s a (s.pc a) act next pc') (t : Nat) :
    Move (s.wakeup asyncAddConn t) ((next.goto a pc').wakeup asyncAddConn t) := by
  generalize hpc : s.pc a = pc at hinstr
  have hsends : asyncAddConn.sends (s.pc a) = pc.sendsConn := congrArg Pc.sendsConn hpc
  have hdrains : asyncAddConn.drains (s.pc a) = pc.addsConns := congrArg Pc.addsConns hpc
  have hother : pc.sendsConn ≠ some t → (pc.addsConns = true → pc'.addsConns = true) →
      next.pc = s.pc → (next.io t).connQueue = (s.io t).connQueue →
      (next.io t).addConnEvfd = (s.io t).addConnEvfd →
      Move (s.wakeup asyncAddConn t) ((next.goto a pc').wakeup asyncAddConn t) :=
    fun hsend hdrain hpc hqueue hevfd => State.wakeup_other hpc hqueue hevfd
      (by rw [hsends]; exact hsend) fun _ hd => hdrain (hdrains.symm.trans hd)
  cases hinstr
  case assignOther t' c index hmany hindex =>
    by_cases ht : index = t
    · exact State.wakeup_push (congrArg some ht)
    · exact hother (by simp [Pc.sendsConn]) (by simp [Pc.addsConns]) rfl
        (update_io_of_ne IoThread.connQueue ht) (update_io_of_ne IoThread.addConnEvfd ht)
  case sendConn t' index =>
    by_cases ht : index = t
    · subst ht
      refine .signal ?_
      show 0 < ((s.sendAddConn index).io index).addConnEvfd
      simpa [State.sendAddConn] using xvAsyncSend_pos _
    · exact hother (by simpa [Pc.sendsConn] using ht) (by simp [Pc.addsConns]) rfl
        (update_io_of_ne IoThread.connQueue ht) (update_io_of_ne IoThread.addConnEvfd ht)
  case addConnRead t' | addConnPop t' c rest hqueue | adopt t' c =>
    exact State.wakeup_inside rfl (fun ht => ⟨update_io_of_ne IoThread.connQueue ht,
      update_io_of_ne IoThread.addConnEvfd ht⟩) hsends rfl
  case addConnMore t' hsize | addConnNull t' hqueue =>
    exact State.wakeup_inside rfl (fun _ => ⟨rfl, rfl⟩) hsends rfl
  case addConnDone t' hsize => exact State.wakeup_leave hsize hsends
  case work i thread hrun hstep | interrupt i thread hrun hstep =>
    obtain rfl : .rest = pc := (hresting i hrun).symm.trans hpc
    exact hother (by simp [Pc.sendsConn]) (by simp [Pc.addsConns]) rfl rfl rfl
  case entry | close | respond | write | assignSelf | taskPush | sendPush | returnPop | returnRead
      | sendSignal | taskSend =>
    exact hother (by simp [Pc.sendsConn]) (by simp [Pc.addsConns]) rfl
      (update_same s.io _ _ IoThread.connQueue (by rfl) t)
      (update_same s.io _ _ IoThread.addConnEvfd (by rfl) t)
  all_goals exact hother (by simp [Pc.sendsConn]) (by simp [Pc.addsConns]) rfl rfl rfl

theorem Instr.returnMessage_move {act : Act P} (hresting : s.Resting)
    (hinstr : Instr cfg ctl s a (s.pc a) act next pc') (t : Nat) :
    Move (s.wakeup asyncReturnMessage t) ((next.goto a pc').wakeup asyncReturnMessage t) := by
  generalize hpc : s.pc a = pc at hinstr
  have hsends : asyncReturnMessage.sends (s.pc a) = pc.sendsMessage :=
    congrArg Pc.sendsMessage hpc
  have hdrains : asyncReturnMessage.drains (s.pc a) = pc.returnsMessages :=
    congrArg Pc.returnsMessages hpc
  have hother : pc.sendsMessage ≠ some t →
      (pc.returnsMessages = true → pc'.returnsMessages = true) → next.pc = s.pc →
      (next.io t).messageQueue = (s.io t).messageQueue →
      (next.io t).returnEvfd = (s.io t).returnEvfd →
      Move (s.wakeup asyncReturnMessage t) ((next.goto a pc').wakeup asyncReturnMessage t) :=
    fun hsend hdrain hpc hqueue hevfd => State.wakeup_other hpc hqueue hevfd
      (by rw [hsends]; exact hsend) fun _ hd => hdrain (hdrains.symm.trans hd)
  cases hinstr
  case taskPush i t' m | sendPush u t' m =>
    by_cases ht : t' = t
    · exact State.wakeup_push (congrArg some ht)
    · exact hother (by simp [Pc.sendsMessage]) (by simp [Pc.returnsMessages]) rfl
        (update_io_of_ne IoThread.messageQueue ht) (update_io_of_ne IoThread.returnEvfd ht)
  case taskSend i t' thread hstep | sendSignal u t' =>
    by_cases ht : t' = t
    · subst ht
      refine .signal ?_
      show 0 < ((s.sendReturn t').io t').returnEvfd
      simpa [State.sendReturn] using xvAsyncSend_pos _
    · exact hother (by simpa [Pc.sendsMessage] using ht) (by simp [Pc.returnsMessages]) rfl
        (update_io_of_ne IoThread.messageQueue ht) (update_io_of_ne IoThread.returnEvfd ht)
  case returnRead t' | returnPop t' m rest hqueue =>
    exact State.wakeup_inside rfl (fun ht => ⟨update_io_of_ne IoThread.messageQueue ht,
      update_io_of_ne IoThread.returnEvfd ht⟩) hsends rfl
  case returnMore t' hsize | returnNull t' hqueue =>
    exact State.wakeup_inside rfl (fun _ => ⟨rfl, rfl⟩) hsends rfl
  case returnDone t' hsize => exact State.wakeup_leave hsize hsends
  case respond t' m c origin pieces out sent encodes hc hsent hencodes =>
    refine hother (by simp [Pc.sendsMessage]) ?_ rfl
      (update_same s.io _ _ IoThread.messageQueue (by rfl) t)
      (update_same s.io _ _ IoThread.returnEvfd (by rfl) t)
    cases origin <;> split <;> simp [Pc.returnsMessages]
  case close t' c owner resume howner =>
    refine hother (by simp [Pc.sendsMessage]) ?_ rfl
      (update_same s.io _ _ IoThread.messageQueue (by rfl) t)
      (update_same s.io _ _ IoThread.returnEvfd (by rfl) t)
    rcases resume with _ | ⟨m, _ | _⟩ <;> simp [Pc.returnsMessages]
  case closeBusy t' c resume _ | closeFree t' c resume =>
    refine hother (by simp [Pc.sendsMessage]) ?_ rfl rfl rfl
    rcases resume with _ | ⟨m, _ | _⟩ <;> simp [Pc.returnsMessages, Resume.pc]
  case closeLast t' c resume _ | closeDel t' c resume | closeFd t' c resume =>
    refine hother (by simp [Pc.sendsMessage]) ?_ rfl rfl rfl
    rcases resume with _ | ⟨m, _ | _⟩ <;> simp [Pc.returnsMessages]
  case finish t' m origin =>
    refine hother (by simp [Pc.sendsMessage]) ?_ rfl rfl rfl
    cases origin <;> simp [Pc.returnsMessages, Origin.pc]
  case work i thread hrun hstep | interrupt i thread hrun hstep =>
    obtain rfl : .rest = pc := (hresting i hrun).symm.trans hpc
    exact hother (by simp [Pc.sendsMessage]) (by simp [Pc.returnsMessages]) rfl rfl rfl
  case entry | write | assignSelf | assignOther | sendConn | addConnRead | addConnPop | adopt =>
    exact hother (by simp [Pc.sendsMessage]) (by simp [Pc.returnsMessages]) rfl
      (update_same s.io _ _ IoThread.messageQueue (by rfl) t)
      (update_same s.io _ _ IoThread.returnEvfd (by rfl) t)
  all_goals
    exact hother (by simp [Pc.sendsMessage]) (by simp [Pc.returnsMessages]) rfl rfl rfl

/-- A step that leaves the worker's queue, counter and drain alone. -/
theorem State.taskWakeup_other {i : Nat} (hpc : next.pc = s.pc)
    (hsends : s.pc a ≠ .sendTask i)
    (hqueue : (next.workers i).taskQueue = (s.workers i).taskQueue)
    (hevfd : (next.workers i).evfd = (s.workers i).evfd)
    (hdrain : (s.workers i).pc.draining = true → (next.workers i).pc.draining = true) :
    Move (s.taskWakeup i) ((next.goto a pc').taskWakeup i) := by
  refine .other ?_ ?_ ?_ hdrain
  · exact Nat.le_of_eq (congrArg List.length hqueue)
  · exact Nat.le_of_eq hevfd.symm
  · intro b hb
    have hne : b ≠ a := by
      rintro rfl
      exact hsends hb
    show (next.goto a pc').pc b = .sendTask i
    rw [State.goto_pc_of_ne _ _ hne, hpc]
    exact hb

theorem Instr.task_move {act : Act P} (hresting : s.Resting)
    (hinstr : Instr cfg ctl s a (s.pc a) act next pc') (i : Nat) :
    Move (s.taskWakeup i) ((next.goto a pc').taskWakeup i) := by
  generalize hpc : s.pc a = pc at hinstr
  have hother : pc ≠ .sendTask i → next.workers i = s.workers i → next.pc = s.pc →
      Move (s.taskWakeup i) ((next.goto a pc').taskWakeup i) :=
    fun hsend hworker hpc' => State.taskWakeup_other hpc' (hpc ▸ hsend) (by rw [hworker])
      (by rw [hworker]) (by rw [hworker]; exact id)
  cases hinstr
  case pushTask t m j addr hj =>
    by_cases hij : j = i
    · subst hij
      exact .push (.io t) (State.goto_pc_self ..)
    · exact hother (by simp) (update_of_ne (Ne.symm hij) ..) rfl
  case sendTask t j =>
    by_cases hij : j = i
    · subst hij
      refine .signal ?_
      show 0 < ((s.setWorker j (s.workers j).send).workers j).evfd
      simpa [State.setWorker, WorkerThread.send] using xvAsyncSend_pos _
    · exact hother (by simpa using hij) (update_of_ne (Ne.symm hij) ..) rfl
  case work j thread hrun hstep =>
    obtain rfl : .rest = pc := (hresting j hrun).symm.trans hpc
    by_cases hij : j = i
    · subst hij
      have hthread : (s.setWorker j thread).workers j = thread := update_self ..
      rcases WorkerThread.step_drains hstep with hdrain | hempty | ⟨hout, hqueue, hevfd⟩
      · exact .drain (by simpa [State.taskWakeup, State.goto, hthread] using hdrain)
      · exact .rest (by simpa [State.taskWakeup, State.goto, hthread] using hempty)
      · exact State.taskWakeup_other rfl (by simp [hpc]) (by rw [hthread, hqueue])
          (by rw [hthread, hevfd]) fun h => absurd h (by simp [hout])
    · exact hother (by simp) (update_of_ne (Ne.symm hij) ..) rfl
  case interrupt j thread hrun hstep =>
    obtain rfl : .rest = pc := (hresting j hrun).symm.trans hpc
    by_cases hij : j = i
    · subst hij
      have hthread : (s.setWorker j thread).workers j = thread := update_self ..
      obtain ⟨hout, hqueue, hevfd⟩ := WorkerThread.interrupt_drains hstep
      exact State.taskWakeup_other rfl (by simp [hpc]) (by rw [hthread, hqueue])
        (by rw [hthread, hevfd]) fun h => absurd h (by simp [hout])
    · exact hother (by simp) (update_of_ne (Ne.symm hij) ..) rfl
  case taskSend j t thread hstep =>
    by_cases hij : j = i
    · subst hij
      have hthread : ((s.sendReturn t).setWorker j thread).workers j = thread := update_self ..
      refine .drain ?_
      simpa [State.taskWakeup, State.goto, hthread] using WorkerThread.taskReturns_drains hstep
    · exact hother (by simp) (update_of_ne (Ne.symm hij) ..) rfl
  all_goals exact hother (by simp) rfl rfl

/-! ### Runs -/

/-- No item of any queue of the service is lost. -/
structure State.Wakes (s : State P) : Prop where
  tasks : ∀ i, NotLost (s.taskWakeup i)
  conns : ∀ t, NotLost (s.wakeup asyncAddConn t)
  messages : ∀ t, NotLost (s.wakeup asyncReturnMessage t)

theorem State.SameButRefs.wakes (hsame : s.SameButRefs next) (h : s.Wakes) : next.Wakes := by
  refine ⟨fun i => ?_, fun t => ?_, fun t => ?_⟩
  · have hview : next.taskWakeup i = s.taskWakeup i := by
      simp only [State.taskWakeup, hsame.workers, hsame.pc]
    exact hview ▸ h.tasks i
  · have hview : next.wakeup asyncAddConn t = s.wakeup asyncAddConn t := by
      simp only [State.wakeup, hsame.io, hsame.pc]
    exact hview ▸ h.conns t
  · have hview : next.wakeup asyncReturnMessage t = s.wakeup asyncReturnMessage t := by
      simp only [State.wakeup, hsame.io, hsame.pc]
    exact hview ▸ h.messages t

theorem State.Wakes.step (h : s.Wakes) (hresting : s.Resting) {label : Label P} {s' : State P}
    (hstep : s.step cfg ctl label = some s') : s'.Wakes := by
  rcases State.step_split hstep with ⟨a, act, next, pc, -, -, hinstr, rfl⟩ | hsame
  · exact ⟨fun i => (hinstr.task_move hresting i).notLost (h.tasks i),
      fun t => (hinstr.addConn_move hresting t).notLost (h.conns t),
      fun t => (hinstr.returnMessage_move hresting t).notLost (h.messages t)⟩
  · exact hsame.wakes h

theorem State.wakes (h : Reachable (State.step cfg ctl) (· = State.init) s) : s.Wakes := by
  refine (h.invariant (I := fun s => s.Owned ∧ s.Wakes) ?_ ?_).2
  · intro s hs
    subst hs
    exact ⟨State.Owned.init, fun _ hpos => absurd hpos (Nat.lt_irrefl 0),
      fun _ hpos => absurd hpos (Nat.lt_irrefl 0), fun _ hpos => absurd hpos (Nat.lt_irrefl 0)⟩
  · exact fun _ _ _ hs _ hstep => ⟨hs.1.step hstep, hs.2.step hs.1.resting hstep⟩

/--
**No wake-up is lost**: whenever an item is in the queue of a worker, whatever threads use
it, or in one of the queues of a service, the eventfd counter is positive, or a producer has
yet to send, or the consumer is in its drain loop; so no consumer waits in `epoll_wait` with
an item queued, no producer on the way and the counter at zero.
-/
theorem no_wakeup_lost {A : Type} (cfg : Config) (ctl : EpollCtl) :
    (∀ s : WorkerSystem A, Reachable WorkerSystem.step (· = WorkerSystem.init) s →
        Served s.wakeup) ∧
      ∀ s : State P, Reachable (State.step cfg ctl) (· = State.init) s →
        (∀ i, Served (s.taskWakeup i)) ∧ (∀ t, Served (s.wakeup asyncAddConn t)) ∧
          ∀ t, Served (s.wakeup asyncReturnMessage t) := by
  refine ⟨fun s h => (WorkerSystem.notLost h).served, fun s h => ?_⟩
  have hwakes := State.wakes h
  exact ⟨fun i => (hwakes.tasks i).served, fun t => (hwakes.conns t).served,
    fun t => (hwakes.messages t).served⟩

/-- A task waits for a worker that has not looked yet, and a message for an io thread in
`epoll_wait`. -/
theorem no_wakeup_lost_sleeping :
    (∃ s : WorkerSystem Unit, s.wakeup.queued = 1 ∧ Served s.wakeup) ∧
      ∃ s : State Unit, s.pc (.io 0) = .poll ∧ (s.wakeup asyncReturnMessage 0).queued = 1 ∧
        Served (s.wakeup asyncReturnMessage 0) := by
  have hworker : ∃ s : WorkerSystem Unit,
      Reachable WorkerSystem.step (· = WorkerSystem.init) s ∧ s.wakeup.queued = 1 :=
    ⟨_, Reachable.play [.start, .call 0 true (), .push 0] (.start rfl) rfl, rfl⟩
  have hio : ∃ s : State Unit, Reachable (State.step inlineConfig acceptAll) (· = State.init) s ∧
      s.pc (.io 0) = .poll ∧ (s.wakeup asyncReturnMessage 0).queued = 1 :=
    ⟨_, Reachable.play (acceptOne ++ sendOne) (.start rfl) rfl, rfl, rfl⟩
  obtain ⟨w, hw, hqueued⟩ := hworker
  obtain ⟨s, hs, hpc, hwaiting⟩ := hio
  have hserved := no_wakeup_lost (A := Unit) (P := Unit) inlineConfig acceptAll
  exact ⟨⟨w, hqueued, hserved.1 w hw⟩, s, hpc, hwaiting, (hserved.2 s hs).2.2 0⟩

end service

end Libxv
