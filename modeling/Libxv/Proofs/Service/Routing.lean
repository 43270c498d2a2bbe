/-
The way of a request through the service.

Without workers a message stays in the hands of the io thread that read it.  With workers
it goes to the worker that `((uint64_t)task) > 16` picks, which is the same for every task,
and from there to the `message_queue` of its connection's io thread.  So the messages of a
connection take one way, each stage of it a queue or a pair of hands.
-/
import Libxv.Proofs.Service.Sequential

namespace Libxv

open Function Transition

variable {P : Type} {cfg : Config} {ctl : EpollCtl} {s : State P} {user : UserCode P} {c : Nat}

/-- The stages at which a message is in a thread's hands before its response is encoded. -/
inductive Stage
  /-- `process_read_buffer` without workers. -/
  | inline
  /-- About to be pushed to a worker. -/
  | offered
  /-- In `thread_pool_task_cb`. -/
  | working
  /-- In `xv_service_send_message`. -/
  | sent
  /-- Back on its io thread. -/
  | returned
  deriving DecidableEq

def Pc.stage : Pc P → Option (Stage × Nat)
  | .process m | .respond m .inline => some (.inline, m)
  | .pushTask m => some (.offered, m)
  | .taskProcess m | .taskFetch m | .taskPush _ m => some (.working, m)
  | .sendFetch _ m | .sendPush _ m => some (.sent, m)
  | .returned m | .respond m .returned => some (.returned, m)
  | _ => none

/-- The message a thread has processed and not yet answered. -/
def Pc.processed : Pc P → Option Nat
  | .respond m _ | .taskFetch m | .taskPush _ m | .returned m => some m
  | _ => none

/-- The connection a user thread is about to make a message for. -/
def Pc.calls : Pc P → Option Nat
  | .sendTest c _ | .sendInit c _ => some c
  | _ => none

/-- The worker all tasks go to. -/
def Config.route (cfg : Config) : Nat := xvThreadPoolIndex cfg 1

/-- The threads at which a request can be at a stage. -/
def Stage.Allowed (cfg : Config) (a : Agent) : Stage → Prop
  | .inline => cfg.workerThreadCount = 0
  | .offered | .returned => cfg.workerThreadCount ≠ 0
  | .working => cfg.workerThreadCount ≠ 0 ∧ a = .worker cfg.route
  | .sent => False

/-- The messages of connection `c` take the way of requests. -/
structure State.Routed (cfg : Config) (c : Nat) (s : State P) : Prop where
  stages : ∀ a stage m, (s.pc a).stage = some (stage, m) → (s.msgs m).conn = c →
    stage.Allowed cfg a
  tasks : ∀ i m, m ∈ s.contents (.tasks i) → (s.msgs m).conn = c →
    cfg.workerThreadCount ≠ 0 ∧ i = cfg.route
  messages : ∀ t m, m ∈ s.contents (.messages t) → (s.msgs m).conn = c →
    cfg.workerThreadCount ≠ 0
  calls : ∀ a, (s.pc a).calls ≠ some c

theorem Pc.holds_of_stage {pc : Pc P} {stage : Stage} {m : Nat} (h : pc.stage = some (stage, m)) :
    pc.holds = some m := by
  cases pc
  case respond m' origin => cases origin <;> simp_all [Pc.stage, Pc.holds]
  all_goals simp_all [Pc.stage, Pc.holds]

theorem Pc.holds_of_processed {pc : Pc P} {m : Nat} (h : pc.processed = some m) :
    pc.holds = some m := by
  cases pc <;> simp_all [Pc.processed, Pc.holds]

theorem UserCode.Follows.route {t m addr : Nat} (hpc : s.pc (.io t) = .pushTask m)
    (h : user.Follows c s (.act (.io t) (.malloc addr))) :
    xvThreadPoolIndex cfg (taskHashcode addr) = cfg.route := by
  simp only [UserCode.Follows, hpc] at h
  simp [Config.route, taskHashcode, h]

/-! ### One instruction -/

/-- The thread's own next stage. -/
theorem State.Routed.instr_stage (h : s.Routed cfg c) (hsound : s.Sound) {a : Agent} {act : Act P}
    {next : State P} {pc' : Pc P} (hinstr : Instr cfg ctl s a (s.pc a) act next pc')
    {stage : Stage} {m : Nat} (hm : pc'.stage = some (stage, m)) (hc : (next.msgs m).conn = c) :
    stage.Allowed cfg a := by
  have hstages := h.stages a
  have hcalls := h.calls a
  have hconn : ∀ m, (s.pc a).holds = some m → (next.msgs m).conn = (s.msgs m).conn :=
    fun m hm => hinstr.msg_conn (State.lt_of_live (hsound.owned.held hm).1)
  have hkeep : (s.pc a).stage = some (stage, m) → stage.Allowed cfg a := fun hold =>
    hstages stage m hold ((hconn m (Pc.holds_of_stage hold)).symm.trans hc)
  generalize hpc : s.pc a = pc at hinstr hstages hcalls hconn hkeep
  cases hinstr
  case request t fd c' out decoded conn chunks request hslot halive hread =>
    split at hm <;> rename_i hworkers
    · obtain ⟨rfl, -⟩ : Stage.inline = stage ∧ _ = m := by simpa [Pc.stage] using hm
      exact hworkers
    · obtain ⟨rfl, -⟩ : Stage.offered = stage ∧ _ = m := by simpa [Pc.stage] using hm
      exact hworkers
  case process | taskProcess | taskFetch | returnedOpen | sendFetch => exact hkeep hm
  case returnPop t m' rest hqueue =>
    obtain ⟨rfl, rfl⟩ : Stage.returned = stage ∧ m' = m := by simpa [Pc.stage] using hm
    exact h.messages t m' (by simp [State.contents, hqueue]) hc
  case sendInit u c' package =>
    obtain ⟨rfl, rfl⟩ : Stage.sent = stage ∧ s.nextMsg = m := by simpa [Pc.stage] using hm
    have hnew : ((s.xvMessageInit c' none package).msgs s.nextMsg).conn = c' := by
      simp [State.xvMessageInit, State.addRef, State.setConn]
    exact hcalls (congrArg some (hnew.symm.trans hc))
  case work i thread hrun hstep =>
    rcases WorkerThread.step_queue hstep with ⟨task, rest, hqueue, -, hnext⟩ | ⟨-, hnot⟩
    · have hcb := hsound.owned.callbacks i task (by rw [hqueue]; exact List.mem_cons_self)
      rw [if_pos hcb] at hnext
      rw [hnext] at hm
      obtain ⟨rfl, rfl⟩ : Stage.working = stage ∧ task.args.message = m := by
        simpa [WorkerPc.callback, Pc.stage] using hm
      obtain ⟨hworkers, rfl⟩ := h.tasks i task.args.message
        (by simp [State.contents, hqueue]) hc
      exact ⟨hworkers, rfl⟩
    · rw [WorkerPc.callback_rest hnot] at hm
      exact absurd hm (by simp [Pc.stage])
  case closeBusy t c' resume _ | closeFree t c' resume =>
    cases resume <;> exact absurd hm (by simp [Resume.pc, Pc.stage])
  case respond | write => split at hm <;> exact absurd hm (by simp [Pc.stage])
  case finish t m' origin => cases origin <;> exact absurd hm (by simp [Origin.pc, Pc.stage])
  all_goals exact absurd hm (by simp [Pc.stage])

theorem Instr.calls_cases {a : Agent} {pc pc' : Pc P} {act : Act P} {next : State P}
    (h : Instr cfg ctl s a pc act next pc') (hc : pc'.calls = some c) :
    pc.calls = some c ∨ ∃ u package, a = .sender u ∧ act = .call c package := by
  cases h
  case call u c' package =>
    obtain rfl : c' = c := Option.some.inj hc
    exact Or.inr ⟨u, package, rfl, rfl⟩
  case sendOpen u c' package _ => exact Or.inl hc
  case closeBusy t c' resume _ | closeFree t c' resume =>
    cases resume <;> exact absurd hc (by simp [Resume.pc, Pc.calls])
  case respond | write | request => split at hc <;> exact absurd hc (by simp [Pc.calls])
  case finish t m' origin => cases origin <;> exact absurd hc (by simp [Origin.pc, Pc.calls])
  case work i thread hrun hstep =>
    cases hthread : thread.pc <;> simp [hthread, WorkerPc.callback, Pc.calls] at hc
  all_goals exact absurd hc (by simp [Pc.calls])

theorem State.Routed.instr (h : s.Routed cfg c) (hsound : s.Sound) {a : Agent} {act : Act P}
    {next : State P} {pc' : Pc P} (hok : user.Follows c s (.act a act))
    (hinstr : Instr cfg ctl s a (s.pc a) act next pc') : (next.goto a pc').Routed cfg c := by
  have hother : ∀ {b : Agent}, b ≠ a → (next.goto a pc').pc b = s.pc b := fun hb => by
    rw [State.goto_pc_of_ne _ _ hb, hinstr.pc_eq]
  have hconn : ∀ {p : Place} {m : Nat}, m ∈ s.contents p →
      (next.msgs m).conn = (s.msgs m).conn :=
    fun hm => hinstr.msg_conn (State.lt_of_live (hsound.owned.placed.live hm))
  have hheld : ∀ {b : Agent} {m : Nat}, (s.pc b).holds = some m → m ∈ s.contents (.held b) :=
    fun hm => by simp [State.contents, hm]
  refine ⟨?_, ?_, ?_, ?_⟩
  · intro b stage m hm hc
    by_cases hb : b = a
    · subst hb
      rw [State.goto_pc_self] at hm
      exact h.instr_stage hsound hinstr hm hc
    · rw [hother hb] at hm
      exact h.stages b stage m hm ((hconn (hheld (Pc.holds_of_stage hm))).symm.trans hc)
  · intro i m hm hc
    obtain ⟨task, htask, rfl⟩ := List.mem_map.mp hm
    rcases hinstr.tasks_mem htask with hold | ⟨t, m, addr, rfl, hpc, rfl, hi, rfl⟩
    · have hmem : task.args.message ∈ s.contents (.tasks i) := List.mem_map.mpr ⟨task, hold, rfl⟩
      exact h.tasks i _ hmem ((hconn hmem).symm.trans hc)
    · have hstage : (s.pc (.io t)).stage = some (.offered, m) := by rw [hpc]; rfl
      have hworkers := h.stages _ _ m hstage
        ((hconn (hheld (Pc.holds_of_stage hstage))).symm.trans hc)
      exact ⟨hworkers, hi.trans (hok.route hpc)⟩
  · intro t m hm hc
    rcases hinstr.messageQueue_mem hm with hold | hpush
    · exact h.messages t m hold ((hconn (p := .messages t) hold).symm.trans hc)
    · have hmc := (hconn (hheld (Pc.holds_of_pushes hpush))).symm.trans hc
      have hstages := h.stages a
      generalize s.pc a = pc at hpush hstages
      cases pc
      case taskPush t' m' =>
        obtain ⟨rfl, rfl⟩ : t' = t ∧ m' = m := by simpa [Pc.pushes] using hpush
        exact (hstages .working m' rfl hmc).1
      case sendPush t' m' =>
        obtain ⟨rfl, rfl⟩ : t' = t ∧ m' = m := by simpa [Pc.pushes] using hpush
        exact absurd (hstages .sent m' rfl hmc) id
      all_goals exact absurd hpush (by simp [Pc.pushes])
  · intro b hb
    by_cases hba : b = a
    · subst hba
      rw [State.goto_pc_self] at hb
      rcases hinstr.calls_cases hb with hold | ⟨u, package, rfl, rfl⟩
      · exact h.calls b hold
      · exact hok rfl
    · rw [hother hba] at hb
      exact h.calls b hb

theorem State.SameButRefs.contents {next : State P} (h : s.SameButRefs next) (p : Place) :
    next.contents p = s.contents p := by
  cases p <;> simp only [State.contents, h.pc, h.workers, h.io]

theorem State.Routed.refs (h : s.Routed cfg c) {next : State P} (hsame : s.SameButRefs next) :
    next.Routed cfg c := by
  refine ⟨?_, ?_, ?_, ?_⟩
  · rw [hsame.pc, hsame.msgs]
    exact h.stages
  · intro i m hm
    rw [hsame.contents] at hm
    rw [hsame.msgs]
    exact h.tasks i m hm
  · intro t m hm
    rw [hsame.contents] at hm
    rw [hsame.msgs]
    exact h.messages t m hm
  · rw [hsame.pc]
    exact h.calls

theorem State.Routed.init : (State.init : State P).Routed cfg c where
  stages := fun a stage m h => by cases a <;> cases h
  tasks := fun i m h => absurd h List.not_mem_nil
  messages := fun t m h => absurd h List.not_mem_nil
  calls := fun a => by cases a <;> nofun

/-! ### Responses are processed requests -/

/-- The user's `process` has set the message's response. -/
def UserCode.Processed (user : UserCode P) (message : Message P) : Prop :=
  message.response = user.process message.request

/-- Every message of connection `c` that a thread or a worker has processed. -/
structure State.Responded (user : UserCode P) (c : Nat) (s : State P) : Prop where
  held : ∀ a m, (s.pc a).processed = some m → (s.msgs m).conn = c → user.Processed (s.msgs m)
  queued : ∀ t m, m ∈ s.contents (.messages t) → (s.msgs m).conn = c → user.Processed (s.msgs m)

/-- The thread's own next message. -/
theorem State.Responded.instr_held (h : s.Responded user c) (hsound : s.Sound) {a : Agent}
    {act : Act P} {next : State P} {pc' : Pc P} (hok : user.Follows c s (.act a act))
    (hinstr : Instr cfg ctl s a (s.pc a) act next pc') {m : Nat} (hm : pc'.processed = some m)
    (hc : (next.msgs m).conn = c) : user.Processed (next.msgs m) := by
  have hheld := h.held a
  have hconn : ∀ m, (s.pc a).holds = some m → (next.msgs m).conn = (s.msgs m).conn :=
    fun m hm => hinstr.msg_conn (State.lt_of_live (hsound.owned.held hm).1)
  have hset : ∀ m response, (s.msgs m).conn = c →
      ((s.msgs m).conn = c → response = user.process (s.msgs m).request) →
      user.Processed ((s.setResponse m response).msgs m) := by
    intro m response hmc hresponse
    simpa [UserCode.Processed, State.setResponse] using hresponse hmc
  generalize hpc : s.pc a = pc at hinstr hheld hconn
  cases hinstr
  case process t m' response =>
    obtain rfl : m' = m := Option.some.inj hm
    simp only [UserCode.Follows, hpc] at hok
    exact hset m' response ((hconn m' rfl).symm.trans hc) hok
  case taskProcess i m' response =>
    obtain rfl : m' = m := Option.some.inj hm
    simp only [UserCode.Follows, hpc] at hok
    exact hset m' response ((hconn m' rfl).symm.trans hc) hok
  case taskFetch i m' t howner | returnedOpen t m' hstatus =>
    obtain rfl : m' = m := Option.some.inj hm
    exact hheld m' rfl hc
  case returnPop t m' rest hqueue =>
    obtain rfl : m' = m := Option.some.inj hm
    exact h.queued t m' (by simp [State.contents, hqueue]) hc
  case closeBusy t c' resume _ | closeFree t c' resume =>
    cases resume <;> exact absurd hm (by simp [Resume.pc, Pc.processed])
  case respond | write | request => split at hm <;> exact absurd hm (by simp [Pc.processed])
  case finish t m' origin => cases origin <;> exact absurd hm (by simp [Origin.pc, Pc.processed])
  case work i thread hrun hstep =>
    cases hthread : thread.pc <;> simp [hthread, WorkerPc.callback, Pc.processed] at hm
  all_goals exact absurd hm (by simp [Pc.processed])

/-- A message that is pushed is pushed as it is. -/
theorem Instr.msg_of_pushes {a : Agent} {pc pc' : Pc P} {act : Act P} {next : State P}
    (h : Instr cfg ctl s a pc act next pc') {t m : Nat} (hpush : pc.pushes = some (t, m))
    (hm : m < s.nextMsg) : next.msgs m = s.msgs m := by
  have hstep := h.messageStep hm
  generalize next.msgs m = message at hstep
  cases hstep with
  | same => rfl
  | _ => exact absurd hpush (by simp [Pc.pushes])

theorem State.Responded.instr (h : s.Responded user c) (hsound : s.Sound)
    (hrouted : s.Routed cfg c) {a : Agent} {act : Act P} {next : State P} {pc' : Pc P}
    (hok : user.Follows c s (.act a act)) (hinstr : Instr cfg ctl s a (s.pc a) act next pc') :
    (next.goto a pc').Responded user c := by
  refine ⟨?_, ?_⟩
  · intro b m hm hc
    by_cases hb : b = a
    · subst hb
      rw [State.goto_pc_self] at hm
      exact h.instr_held hsound hok hinstr hm hc
    · rw [State.goto_pc_of_ne _ _ hb, hinstr.pc_eq] at hm
      obtain ⟨hlive, hunique⟩ := hsound.owned.held (Pc.holds_of_processed hm)
      have hsame : next.msgs m = s.msgs m := hinstr.msg_eq (State.lt_of_live hlive)
        fun hholds =>
          hb (Place.held.inj (hunique (.held a) (by simp [State.contents, hholds]))).symm
      have hc : (next.msgs m).conn = c := hc
      show user.Processed (next.msgs m)
      rw [hsame] at hc ⊢
      exact h.held b m hm hc
  · intro t m hm hc
    have hc : (next.msgs m).conn = c := hc
    show user.Processed (next.msgs m)
    rcases hinstr.messageQueue_mem hm with hold | hpush
    · have hlive := hsound.owned.queued_live hold
      have hsame : next.msgs m = s.msgs m := hinstr.msg_eq (State.lt_of_live hlive)
        fun hholds => absurd ((hsound.owned.held hholds).2 (.messages t) hold) (by simp)
      rw [hsame] at hc ⊢
      exact h.queued t m hold hc
    · have hlive := (hsound.owned.held (Pc.holds_of_pushes hpush)).1
      have hsame := hinstr.msg_of_pushes hpush (State.lt_of_live hlive)
      rw [hsame] at hc ⊢
      have hheld := h.held a m
      have hstages := hrouted.stages a
      generalize s.pc a = pc at hpush hheld hstages
      cases pc
      case taskPush t' m' =>
        obtain ⟨rfl, rfl⟩ : t' = t ∧ m' = m := by simpa [Pc.pushes] using hpush
        exact hheld rfl hc
      case sendPush t' m' =>
        obtain ⟨rfl, rfl⟩ : t' = t ∧ m' = m := by simpa [Pc.pushes] using hpush
        exact absurd (hstages .sent m' rfl hc) id
      all_goals exact absurd hpush (by simp [Pc.pushes])

theorem State.Responded.refs (h : s.Responded user c) {next : State P}
    (hsame : s.SameButRefs next) : next.Responded user c := by
  refine ⟨?_, ?_⟩
  · rw [hsame.pc, hsame.msgs]
    exact h.held
  · intro t m hm
    rw [hsame.contents] at hm
    rw [hsame.msgs]
    exact h.queued t m hm

theorem State.Responded.init : (State.init : State P).Responded user c where
  held := fun a m h => by cases a <;> cases h
  queued := fun t m h => absurd h List.not_mem_nil

end Libxv
