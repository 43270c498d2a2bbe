/-
Where the messages of a service are.

A message is made by the thread that holds it, and from then on it goes from hand to queue
and from queue to hand until a thread that holds it destroys it.  `Place` names the hands
and the queues; the invariant is `Placed` of the live messages, and every instruction is
one of the library's rules or leaves all places as they are.
-/
import Libxv.Proofs.Service.Instr
import Libxv.Proofs.Service.Frame
import Libxv.Proofs.Worker
import Libxv.Lib.Placement

namespace Libxv

open Function Transition Placement

variable {P : Type} {cfg : Config} {ctl : EpollCtl} {s : State P}

@[simp] theorem State.goto_pc_self (s : State P) (a : Agent) (pc : Pc P) :
    (s.goto a pc).pc a = pc := update_self ..

theorem State.goto_pc_of_ne (s : State P) {a b : Agent} (pc : Pc P) (h : b ≠ a) :
    (s.goto a pc).pc b = s.pc b := update_of_ne h ..

/-- An instruction moves no thread but its own. -/
theorem Instr.pc_eq {a : Agent} {pc pc' : Pc P} {act : Act P} {next : State P}
    (h : Instr cfg ctl s a pc act next pc') : next.pc = s.pc := by
  cases h <;> rfl

/-! ### Workers -/

theorem WorkerPc.callback_rest {pc : WorkerPc PoolTask} (h : ∀ task, pc ≠ .run task) :
    (pc.callback : Pc P) = .rest := by
  cases pc
  case run task => exact absurd rfl (h task)
  all_goals rfl

/-- A worker that is not inside a task is nowhere in `thread_pool_task_cb`. -/
def State.Resting (s : State P) : Prop :=
  ∀ i, (∀ task, (s.workers i).pc ≠ .run task) → s.pc (.worker i) = .rest

theorem Instr.worker_pc {a : Agent} {pc pc' : Pc P} {act : Act P} {next : State P}
    (h : Instr cfg ctl s a pc act next pc') {i : Nat} (hne : a ≠ .worker i) :
    (next.workers i).pc = (s.workers i).pc := by
  cases h
  case pushTask | sendTask => exact update_same s.workers _ _ WorkerThread.pc (by rfl) i
  case work | interrupt | taskSend =>
    exact congrArg WorkerThread.pc
      (update_of_ne (fun hij => hne (congrArg Agent.worker hij.symm)) ..)
  all_goals rfl

theorem State.Resting.instr (h : s.Resting) {a : Agent} {act : Act P} {next : State P}
    {pc' : Pc P} (hinstr : Instr cfg ctl s a (s.pc a) act next pc') :
    (next.goto a pc').Resting := by
  intro i hrun
  by_cases ha : a = .worker i
  · subst ha
    rw [State.goto_pc_self]
    have hrun' : ∀ task, (next.workers i).pc ≠ .run task := hrun
    generalize hpc : s.pc (.worker i) = pc at hinstr
    cases hinstr
    case work thread hnot hstep =>
      simp only [State.setWorker, update_self] at hrun'
      exact WorkerPc.callback_rest hrun'
    case interrupt | taskSend => rfl
    all_goals exact absurd (h i hrun') (by simp [hpc])
  · rw [State.goto_pc_of_ne _ _ (fun hb => ha hb.symm), hinstr.pc_eq]
    refine h i fun task => ?_
    rw [← hinstr.worker_pc ha]
    exact hrun task

/-! ### Every live message is in one place -/

/-- Where a message can be: in a thread's hands, in a worker's `task_queue`, in an io
thread's `message_queue`. -/
inductive Place
  | held (a : Agent)
  | tasks (i : Nat)
  | messages (t : Nat)
  deriving DecidableEq

def State.contents (s : State P) : Place → List Nat
  | .held a => (s.pc a).holds.toList
  | .tasks i => (s.workers i).taskQueue.map fun task => task.args.message
  | .messages t => (s.io t).messageQueue

/-- Every live message is in exactly one place. -/
structure State.Owned (s : State P) : Prop where
  resting : s.Resting
  callbacks : ∀ i, ∀ task ∈ (s.workers i).taskQueue, task.cb = true
  placed : Placed (fun m => s.live m = true) s.contents

theorem State.contents_held_self (s : State P) (a : Agent) (pc : Pc P) :
    (s.goto a pc).contents (.held a) = pc.holds.toList := by
  simp [State.contents]

/-- The places that are neither the thread's own hands nor the queue it works on. -/
theorem contents_other {next : State P} {a : Agent} {pc : Pc P} (hpc : next.pc = s.pc)
    {p : Place} (hheld : p ≠ .held a)
    (htasks : ∀ i, p = .tasks i → (next.workers i).taskQueue = (s.workers i).taskQueue)
    (hmessages : ∀ t, p = .messages t → (next.io t).messageQueue = (s.io t).messageQueue) :
    (next.goto a pc).contents p = s.contents p := by
  cases p with
  | held b =>
      have hb : b ≠ a := fun hb => hheld (hb ▸ rfl)
      simp [State.contents, State.goto_pc_of_ne _ _ hb, hpc]
  | tasks i => exact congrArg (List.map _) (htasks i rfl)
  | messages t => exact hmessages t rfl

/-- Only the tasks of the worker that is written are new. -/
theorem State.contents_setWorker {i : Nat} {thread : WorkerThread PoolTask} {a : Agent} {pc : Pc P}
    {p : Place} (hheld : p ≠ .held a) (hp : p ≠ .tasks i) :
    ((s.setWorker i thread).goto a pc).contents p = s.contents p := by
  refine contents_other (by rfl) hheld (fun j hj => ?_) fun _ _ => rfl
  have hji : j ≠ i := fun hji => hp (hj.trans (by rw [hji]))
  exact congrArg WorkerThread.taskQueue (update_of_ne hji ..)

/-- Only the messages of the io thread that is written are new. -/
theorem contents_setIo {next : State P} {a : Agent} {pc : Pc P} {t : Nat} {ioThread : IoThread}
    (hpc : next.pc = s.pc) (hworkers : next.workers = s.workers)
    (hio : next.io = update s.io t ioThread) {p : Place} (hheld : p ≠ .held a)
    (hp : p ≠ .messages t) : (next.goto a pc).contents p = s.contents p := by
  refine contents_other hpc hheld (fun _ _ => by rw [hworkers]) fun j hj => ?_
  have hjt : j ≠ t := fun hjt => hp (hj.trans (by rw [hjt]))
  rw [hio, update_of_ne hjt]

/-- An instruction that concerns no message. -/
theorem State.Owned.frame (h : s.Owned) {next : State P} {a : Agent} {pc : Pc P}
    (hpc : next.pc = s.pc) (hlive : ∀ m, next.live m = s.live m)
    (hholds : pc.holds = (s.pc a).holds)
    (htasks : ∀ i, (next.workers i).taskQueue = (s.workers i).taskQueue)
    (hmessages : ∀ t, (next.io t).messageQueue = (s.io t).messageQueue) :
    Placed (fun m => (next.goto a pc).live m = true) (next.goto a pc).contents := by
  refine h.placed.congr (fun m => ?_) fun p => ?_
  · show next.live m = true ↔ _
    rw [hlive]
  · by_cases hp : p = .held a
    · subst hp
      rw [State.contents_held_self, hholds]
      rfl
    · exact contents_other hpc hp (fun i _ => htasks i) fun t _ => hmessages t

/-- The thread puts the message it holds at the end of a queue. -/
theorem State.Owned.give (h : s.Owned) {next : State P} {a : Agent} {pc : Pc P} {m : Nat}
    {q : Place} (hq : q ≠ .held a) (hlive : ∀ x, next.live x = s.live x)
    (hbefore : (s.pc a).holds = some m) (hafter : pc.holds = none)
    (hto : (next.goto a pc).contents q = s.contents q ++ [m])
    (hother : ∀ r, r ≠ .held a → r ≠ q → (next.goto a pc).contents r = s.contents r) :
    Placed (fun x => (next.goto a pc).live x = true) (next.goto a pc).contents := by
  refine h.placed.move (m := m) (p := .held a) (q := q) (l := []) hq.symm ?_ ?_ ?_ hto hother
  · simp [State.contents, hbefore]
  · intro x
    show next.live x = true ↔ _
    rw [hlive]
  · rw [State.contents_held_self, hafter]
    rfl

/-- The thread takes the message at the head of a queue. -/
theorem State.Owned.take (h : s.Owned) {next : State P} {a : Agent} {pc : Pc P} {m : Nat}
    {q : Place} {rest : List Nat} (hq : q ≠ .held a) (hlive : ∀ x, next.live x = s.live x)
    (hbefore : (s.pc a).holds = none) (hafter : pc.holds = some m)
    (hhead : s.contents q = m :: rest) (hto : (next.goto a pc).contents q = rest)
    (hother : ∀ r, r ≠ .held a → r ≠ q → (next.goto a pc).contents r = s.contents r) :
    Placed (fun x => (next.goto a pc).live x = true) (next.goto a pc).contents := by
  refine h.placed.move (m := m) (p := q) (q := .held a) (l := rest) hq hhead ?_ hto ?_
    fun r hrq hra => hother r hra hrq
  · intro x
    show next.live x = true ↔ _
    rw [hlive]
  · rw [State.contents_held_self, hafter]
    simp [State.contents, hbefore]

theorem State.live_init (s : State P) (c : Nat) (request response : Option P) (x : Nat) :
    (s.xvMessageInit c request response).live x = true ↔ s.live x = true ∨ x = s.nextMsg := by
  by_cases hx : x = s.nextMsg
  · subst hx
    simp [State.live, State.xvMessageInit, State.addRef, State.setConn]
  · have hlt : x < s.nextMsg + 1 ↔ x < s.nextMsg := by omega
    simp [State.live, State.xvMessageInit, State.addRef, State.setConn, hx, hlt]

theorem State.live_destroy (s : State P) (m x : Nat) :
    (s.xvMessageDestroy m).live x = true ↔ s.live x = true ∧ x ≠ m := by
  by_cases hx : x = m
  · subst hx
    simp [State.live, State.xvMessageDestroy, State.addRef, State.setConn]
  · simp [State.live, State.xvMessageDestroy, State.addRef, State.setConn, hx]

theorem State.live_setResponse (s : State P) (m : Nat) (response : Option P) (x : Nat) :
    (s.setResponse m response).live x = s.live x :=
  congrArg (fun n => decide (x < s.nextMsg) && n == 0)
    (update_same s.msgs m _ Message.destroyed (by rfl) x)

theorem State.live_markEncoded (s : State P) (m : Nat) (encodes : Bool) (x : Nat) :
    (s.markEncoded m encodes).live x = s.live x :=
  congrArg (fun n => decide (x < s.nextMsg) && n == 0)
    (update_same s.msgs m _ Message.destroyed (by rfl) x)

/-- The thread makes a message. -/
theorem State.Owned.make (h : s.Owned) {next : State P} {a : Agent} {pc : Pc P}
    (hpc : next.pc = s.pc) (hlive : ∀ x, next.live x = true ↔ s.live x = true ∨ x = s.nextMsg)
    (hbefore : (s.pc a).holds = none) (hafter : pc.holds = some s.nextMsg)
    (hworkers : next.workers = s.workers) (hio : next.io = s.io) :
    Placed (fun x => (next.goto a pc).live x = true) (next.goto a pc).contents := by
  refine h.placed.create (m := s.nextMsg) (p := .held a) ?_ hlive ?_ ?_
  · simp [State.live]
  · rw [State.contents_held_self, hafter]
    simp [State.contents, hbefore]
  · intro q hq
    exact contents_other hpc hq (fun i _ => by rw [hworkers]) fun t _ => by rw [hio]

/-- The thread destroys the message it holds. -/
theorem State.Owned.unmake (h : s.Owned) {a : Agent} {pc : Pc P} {m : Nat}
    (hbefore : (s.pc a).holds = some m) (hafter : pc.holds = none) :
    Placed (fun x => ((s.xvMessageDestroy m).goto a pc).live x = true)
      ((s.xvMessageDestroy m).goto a pc).contents := by
  refine h.placed.destroy (m := m) (l := []) (p := .held a) ?_ (s.live_destroy m) ?_ ?_
  · simp [State.contents, hbefore]
  · rw [State.contents_held_self, hafter]
    rfl
  · intro q hq
    exact contents_other rfl hq (fun i _ => rfl) fun t _ => rfl

theorem Origin.holds_pc (origin : Origin) : (origin.pc : Pc P).holds = none := by
  cases origin <;> rfl

/-- A worker takes its next task, or leaves its queue. -/
theorem State.Owned.work (h : s.Owned) {i : Nat} {thread : WorkerThread PoolTask}
    (hrun : ∀ task, (s.workers i).pc ≠ .run task) (hstep : (s.workers i).step = some thread) :
    Placed
      (fun m => ((s.setWorker i thread).goto (.worker i) thread.pc.callback).live m = true)
      ((s.setWorker i thread).goto (.worker i) thread.pc.callback).contents := by
  have hrest : (s.pc (.worker i)).holds = none := by rw [h.resting i hrun]; rfl
  rcases WorkerThread.step_queue hstep with ⟨task, rest, hqueue, hthread, hnext⟩ | ⟨hqueue, hnot⟩
  · have hcb : task.cb = true := h.callbacks i task (by rw [hqueue]; exact List.mem_cons_self)
    have hhead : s.contents (.tasks i) =
        task.args.message :: rest.map fun task => task.args.message := by
      simp [State.contents, hqueue]
    rw [if_pos hcb] at hnext
    rw [hnext]
    refine h.take (q := .tasks i) (by simp) (fun _ => rfl) hrest rfl hhead ?_
      fun _ => State.contents_setWorker
    simp [State.contents, State.setWorker, State.goto, hthread]
  · rw [WorkerPc.callback_rest hnot]
    refine h.frame (by rfl) (fun _ => rfl) hrest.symm (fun j => ?_) fun _ => rfl
    exact update_same s.workers i thread WorkerThread.taskQueue hqueue j

/-- One instruction. -/
theorem State.Owned.instr_placed (h : s.Owned) {a : Agent} {act : Act P} {next : State P}
    {pc' : Pc P} (hinstr : Instr cfg ctl s a (s.pc a) act next pc') :
    Placed (fun m => (next.goto a pc').live m = true) (next.goto a pc').contents := by
  generalize hpc : s.pc a = pc at hinstr
  have hholds : (s.pc a).holds = pc.holds := by rw [hpc]
  cases hinstr
  case request t fd c out decoded conn chunks request hslot halive hread =>
    refine h.make rfl (fun x => ?_) hholds ?_ rfl rfl
    · exact State.live_init (s.receive c conn chunks) c request none x
    · split <;> rfl
  case sendInit u c package =>
    exact h.make rfl (fun x => s.live_init c none package x) hholds rfl rfl rfl
  case finish t m origin => exact h.unmake hholds origin.holds_pc
  case returnedClosed t m hstatus => exact h.unmake hholds rfl
  case pushTask t m i addr hi =>
    refine h.give (q := .tasks i) (by simp) (fun _ => rfl) hholds rfl ?_
      fun _ => State.contents_setWorker
    simp [State.contents, State.setWorker, State.goto, WorkerThread.push, poolTask]
  case taskPush i t m | sendPush u t m =>
    refine h.give (q := .messages t) (by simp) (fun _ => rfl) hholds rfl ?_
      fun _ => contents_setIo (by rfl) (by rfl) (by rfl)
    simp [State.contents, State.pushMessage, State.goto]
  case returnPop t m rest hqueue =>
    refine h.take (q := .messages t) (by simp) (fun _ => rfl) hholds rfl hqueue ?_
      fun _ => contents_setIo (by rfl) (by rfl) (by rfl)
    simp [State.contents, State.popMessage, State.goto, hqueue]
  case work i thread hrun hstep => exact h.work hrun hstep
  case interrupt i thread hrun hstep =>
    have hrest : (s.pc (.worker i)).holds = none := by rw [h.resting i hrun]; rfl
    exact h.frame (by rfl) (fun _ => rfl) hrest.symm (update_same s.workers i thread
      WorkerThread.taskQueue (WorkerThread.interrupt_queue hstep)) fun _ => rfl
  case taskSend i t thread hstep =>
    exact h.frame (by rfl) (fun _ => rfl) hholds.symm (update_same s.workers i thread
      WorkerThread.taskQueue (WorkerThread.taskReturns_queue hstep))
      (update_same s.io _ _ IoThread.messageQueue (by rfl))
  case sendTask t i =>
    exact h.frame (by rfl) (fun _ => rfl) hholds.symm
      (update_same s.workers _ _ WorkerThread.taskQueue (by rfl)) fun _ => rfl
  case process t m response | taskProcess i m response =>
    exact h.frame (by rfl) (s.live_setResponse m response) hholds.symm (fun _ => rfl)
      fun _ => rfl
  case respond t m c origin pieces out sent encodes hc hsent hencodes =>
    refine h.frame (by rfl) (s.live_markEncoded m encodes) ?_ (fun _ => rfl)
      (update_same s.io _ _ IoThread.messageQueue (by rfl))
    rw [hholds]
    split <;> rfl
  case write t fd c out sent hslot halive hsent =>
    refine h.frame (by rfl) (fun _ => rfl) ?_ (fun _ => rfl)
      (update_same s.io _ _ IoThread.messageQueue (by rfl))
    rw [hholds]
    split <;> rfl
  case close t c owner resume howner =>
    refine h.frame (by rfl) (fun _ => rfl) ?_ (fun _ => rfl)
      (update_same s.io _ _ IoThread.messageQueue (by rfl))
    rw [hholds]
    cases resume <;> rfl
  case closeBusy t c resume href | closeFree t c resume =>
    refine h.frame (by rfl) (fun _ => rfl) ?_ (fun _ => rfl) fun _ => rfl
    rw [hholds]
    cases resume <;> rfl
  case closeLast t c resume href | closeDel t c resume | closeFd t c resume =>
    refine h.frame (by rfl) (fun _ => rfl) ?_ (fun _ => rfl) fun _ => rfl
    rw [hholds]
    cases resume <;> rfl
  case entry | assignSelf | assignOther | sendConn | addConnRead | addConnPop | adopt | returnRead
      | sendSignal =>
    exact h.frame (by rfl) (fun _ => rfl) hholds.symm (fun _ => rfl)
      (update_same s.io _ _ IoThread.messageQueue (by rfl))
  all_goals
    exact h.frame (by rfl) (fun _ => rfl) hholds.symm (fun _ => rfl) fun _ => rfl

/-- A task comes into a queue by a push. -/
theorem Instr.tasks_mem {a : Agent} {pc pc' : Pc P} {act : Act P} {next : State P}
    (h : Instr cfg ctl s a pc act next pc') {j : Nat} {task : Task PoolTask}
    (htask : task ∈ (next.workers j).taskQueue) :
    task ∈ (s.workers j).taskQueue ∨ ∃ t m addr, a = .io t ∧ pc = .pushTask m ∧
      act = .malloc addr ∧ j = xvThreadPoolIndex cfg (taskHashcode addr) ∧ task = poolTask m := by
  have hset : ∀ {i : Nat} {thread : WorkerThread PoolTask},
      task ∈ (update s.workers i thread j).taskQueue →
      (j = i → task ∈ thread.taskQueue → task ∈ (s.workers i).taskQueue ∨ ∃ t m addr,
        a = .io t ∧ pc = .pushTask m ∧ act = .malloc addr ∧
          j = xvThreadPoolIndex cfg (taskHashcode addr) ∧ task = poolTask m) →
      task ∈ (s.workers j).taskQueue ∨ ∃ t m addr, a = .io t ∧ pc = .pushTask m ∧
        act = .malloc addr ∧ j = xvThreadPoolIndex cfg (taskHashcode addr) ∧
          task = poolTask m := by
    intro i thread hmem hthread
    by_cases hji : j = i
    · subst hji
      rw [update_self] at hmem
      exact hthread rfl hmem
    · rw [update_of_ne hji] at hmem
      exact Or.inl hmem
  cases h
  case pushTask t m i addr hi =>
    refine hset htask fun hj hmem => ?_
    rcases List.mem_append.mp hmem with hold | hnew
    · exact Or.inl hold
    · exact Or.inr ⟨t, m, addr, rfl, rfl, rfl, hj.trans hi, List.mem_singleton.mp hnew⟩
  case sendTask t i => exact hset htask fun _ hmem => Or.inl hmem
  case work i thread hrun hstep =>
    refine hset htask fun _ hmem => Or.inl ?_
    rcases WorkerThread.step_queue hstep with ⟨first, rest, hqueue, hthread, -⟩ | ⟨hqueue, -⟩
    · rw [hqueue]
      exact List.mem_cons_of_mem first (hthread ▸ hmem)
    · exact hqueue ▸ hmem
  case interrupt i thread hrun hstep =>
    exact hset htask fun _ hmem => Or.inl (WorkerThread.interrupt_queue hstep ▸ hmem)
  case taskSend i t thread hstep =>
    exact hset htask fun _ hmem => Or.inl (WorkerThread.taskReturns_queue hstep ▸ hmem)
  all_goals exact Or.inl htask

theorem State.Owned.instr (h : s.Owned) {a : Agent} {act : Act P} {next : State P} {pc' : Pc P}
    (hinstr : Instr cfg ctl s a (s.pc a) act next pc') : (next.goto a pc').Owned := by
  refine ⟨h.resting.instr hinstr, fun i task htask => ?_, h.instr_placed hinstr⟩
  rcases hinstr.tasks_mem htask with hold | ⟨-, m, -, -, -, -, -, rfl⟩
  · exact h.callbacks i task hold
  · rfl

/-- A change that concerns neither messages nor where a worker is. -/
theorem State.Owned.congr (h : s.Owned) {next : State P} (hpc : next.pc = s.pc)
    (hlive : ∀ m, next.live m = s.live m)
    (hmessages : ∀ t, (next.io t).messageQueue = (s.io t).messageQueue)
    (hworkers : ∀ i, (next.workers i).taskQueue = (s.workers i).taskQueue ∧
      (next.workers i).pc = (s.workers i).pc) : next.Owned where
  resting := by
    intro i hrun
    rw [hpc]
    exact h.resting i fun task htask => hrun task ((hworkers i).2.trans htask)
  callbacks := by
    intro i task htask
    rw [(hworkers i).1] at htask
    exact h.callbacks i task htask
  placed := by
    refine h.placed.congr (fun m => by rw [hlive]) fun p => ?_
    cases p with
    | held a => exact congrArg (fun pc : Agent → Pc P => (pc a).holds.toList) hpc
    | tasks i => exact congrArg (List.map _) (hworkers i).1
    | messages t => exact hmessages t

theorem State.Owned.step (h : s.Owned) {label : Label P} {s' : State P}
    (hstep : s.step cfg ctl label = some s') : s'.Owned := by
  rcases State.step_cases hstep with ⟨a, act, next, pc, -, -, -, hinstr, rfl⟩ |
      ⟨c, -, -, rfl⟩ | ⟨c, -, -, -, rfl⟩
  · exact h.instr hinstr
  · exact h.congr rfl (fun _ => rfl) (fun _ => rfl) fun _ => ⟨rfl, rfl⟩
  · exact h.congr rfl (fun _ => rfl) (fun _ => rfl) fun _ => ⟨rfl, rfl⟩

theorem State.Owned.init : (State.init : State P).Owned where
  resting := fun _ _ => rfl
  callbacks := fun _ task h => absurd h (List.not_mem_nil)
  placed := by
    have hempty : ∀ p, (State.init : State P).contents p = [] := by
      rintro (a | i | t)
      · cases a <;> rfl
      · rfl
      · rfl
    refine ⟨?_, ?_, ?_, ?_⟩
    · intro p m hm
      rw [hempty p] at hm
      exact absurd hm List.not_mem_nil
    · intro p
      rw [hempty p]
      exact List.nodup_nil
    · intro p q m hm
      rw [hempty p] at hm
      exact absurd hm List.not_mem_nil
    · exact fun hm => absurd hm (by simp [State.live, State.init])

/-! ### What ownership gives -/

/-- A message in a thread's hands is live, and nobody else has it. -/
theorem State.Owned.held (h : s.Owned) {a : Agent} {m : Nat} (hm : (s.pc a).holds = some m) :
    s.live m = true ∧ ∀ p, m ∈ s.contents p → p = .held a := by
  have hmem : m ∈ s.contents (.held a) := by simp [State.contents, hm]
  exact ⟨h.placed.live hmem, fun p hp => h.placed.apart hp hmem⟩

theorem State.Owned.queued_live (h : s.Owned) {t m : Nat} (hm : m ∈ (s.io t).messageQueue) :
    s.live m = true := h.placed.live (p := .messages t) hm

theorem State.lt_of_live {m : Nat} (h : s.live m = true) : m < s.nextMsg := by
  simp only [State.live, Bool.and_eq_true, decide_eq_true_eq] at h
  exact h.1

end Libxv
