/-
Worker mode agrees with inline mode.

Seen from one connection the service is a line: a decoded request enters behind all others,
and a reply leaves when it is encoded.  With workers the line runs through the worker's
`task_queue`, the worker and the io thread's `message_queue`; without, it is the hands of
the io thread.  Every instruction is a move of the line, so in both modes what has been
appended to `write_buffer` is the sequential server's output, up to the requests that are
still inside.
-/
import Libxv.Proofs.Service.Routing
import Libxv.Lib.Line

namespace Libxv

open Function Transition

variable {P : Type} {cfg : Config} {ctl : EpollCtl} {s : State P} {user : UserCode P} {c : Nat}

/-! ### The line -/

/-- The message a thread has in its hands at this stage. -/
def Pc.onStage (stage : Stage) (pc : Pc P) : List Nat :=
  match pc.stage with
  | some (stage', m) => if stage' = stage then [m] else []
  | none => []

/-- The messages on their way through io thread `t`, the first to be answered first. -/
def State.lane (cfg : Config) (s : State P) (t : Nat) : List Nat :=
  (s.pc (.io t)).onStage .returned ++ s.contents (.messages t) ++
    (s.pc (.worker cfg.route)).onStage .working ++ s.contents (.tasks cfg.route) ++
      (s.pc (.io t)).onStage .offered ++ (s.pc (.io t)).onStage .inline

/-- The requests of connection `c` among some messages. -/
def State.waiting (s : State P) (c : Nat) (messages : List Nat) : List (Option P) :=
  (messages.filter fun m => (s.msgs m).conn = c).map fun m => (s.msgs m).request

/-- Connection `c` on io thread `t`, as a line of requests. -/
def State.line (user : UserCode P) (cfg : Config) (c t : Nat) (s : State P) :
    Line.View (Option P) UInt8 :=
  { entered := s.requests user c, inside := s.waiting c (s.lane cfg t),
    out := (s.conns c).appended }

theorem State.waiting_append (s : State P) (c : Nat) (l l' : List Nat) :
    s.waiting c (l ++ l') = s.waiting c l ++ s.waiting c l' := by
  simp [State.waiting]

theorem State.waiting_cons (s : State P) (c m : Nat) (l : List Nat) : s.waiting c (m :: l) =
    if (s.msgs m).conn = c then (s.msgs m).request :: s.waiting c l else s.waiting c l := by
  by_cases hm : (s.msgs m).conn = c <;> simp [State.waiting, hm]

@[simp] theorem State.waiting_nil (s : State P) (c : Nat) : s.waiting c [] = [] := rfl

theorem State.waiting_eq_nil {l : List Nat} (h : ∀ m ∈ l, (s.msgs m).conn ≠ c) :
    s.waiting c l = [] := by
  unfold State.waiting
  rw [List.filter_eq_nil_iff.mpr (by simpa using h), List.map_nil]

theorem Instr.waiting_eq {a : Agent} {pc pc' : Pc P} {act : Act P} {next : State P}
    (h : Instr cfg ctl s a pc act next pc') {l : List Nat} (hl : ∀ m ∈ l, m < s.nextMsg) :
    next.waiting c l = s.waiting c l := by
  unfold State.waiting
  have hfilter : (l.filter fun m => (next.msgs m).conn = c) =
      l.filter fun m => (s.msgs m).conn = c :=
    List.filter_congr fun m hm => by rw [h.msg_conn (hl m hm)]
  rw [hfilter]
  exact List.map_congr_left fun m hm => h.msg_request (hl m (List.mem_of_mem_filter hm))

theorem Pc.holds_of_onStage {pc : Pc P} {stage : Stage} {m : Nat} (h : m ∈ pc.onStage stage) :
    pc.stage = some (stage, m) := by
  unfold Pc.onStage at h
  split at h
  · rename_i stage' m' hstage
    split at h <;> rename_i heq
    · rw [List.mem_singleton.mp h, ← heq]
      exact hstage
    · exact absurd h List.not_mem_nil
  · exact absurd h List.not_mem_nil

/-- Every message in the lane is somewhere. -/
theorem State.mem_lane {t m : Nat} (h : m ∈ s.lane cfg t) : ∃ p, m ∈ s.contents p := by
  have hheld : ∀ {a : Agent} {stage : Stage}, m ∈ (s.pc a).onStage stage →
      ∃ p, m ∈ s.contents p := fun {a} _ hm =>
    ⟨.held a, by simp [State.contents, Pc.holds_of_stage (Pc.holds_of_onStage hm)]⟩
  simp only [State.lane, List.mem_append] at h
  rcases h with ((((h | h) | h) | h) | h) | h
  · exact hheld h
  · exact ⟨_, h⟩
  · exact hheld h
  · exact ⟨_, h⟩
  · exact hheld h
  · exact hheld h

theorem State.lt_of_mem_lane (hsound : s.Sound) {t m : Nat} (h : m ∈ s.lane cfg t) :
    m < s.nextMsg := by
  obtain ⟨p, hp⟩ := State.mem_lane h
  exact State.lt_of_live (hsound.owned.placed.live hp)

/-- An instruction away from the lane. -/
theorem State.lane_eq {next : State P} {a : Agent} {pc' : Pc P} {t : Nat} (hpc : next.pc = s.pc)
    (hstage : ∀ stage, stage ≠ .sent → pc'.onStage stage = (s.pc a).onStage stage)
    (hmessages : next.contents (.messages t) = s.contents (.messages t))
    (htasks : next.contents (.tasks cfg.route) = s.contents (.tasks cfg.route)) :
    (next.goto a pc').lane cfg t = s.lane cfg t := by
  have hsame : ∀ (b : Agent) (stage : Stage), stage ≠ .sent →
      ((next.goto a pc').pc b).onStage stage = (s.pc b).onStage stage := by
    intro b stage hne
    by_cases hb : b = a
    · subst hb
      rw [State.goto_pc_self]
      exact hstage stage hne
    · rw [State.goto_pc_of_ne _ _ hb, hpc]
  unfold State.lane
  rw [hsame _ .returned (by decide), hsame _ .working (by decide), hsame _ .offered (by decide),
    hsame _ .inline (by decide)]
  show _ ++ next.contents (.messages t) ++ _ ++ next.contents (.tasks cfg.route) ++ _ ++ _ = _
  rw [hmessages, htasks]

/-- Answering a message takes it out of the lane. -/
theorem State.lane_respond (cfg : Config) {next : State P} {t m : Nat} {origin : Origin}
    {pc' : Pc P}
    (hpc : s.pc (.io t) = .respond m origin) (hstage : pc'.stage = none) (hsame : next.pc = s.pc)
    (hmessages : (next.io t).messageQueue = (s.io t).messageQueue)
    (htasks : next.workers = s.workers) :
    s.lane cfg t = match origin with
      | .returned => m :: (next.goto (.io t) pc').lane cfg t
      | .inline => (next.goto (.io t) pc').lane cfg t ++ [m] := by
  have hafter : ∀ stage, pc'.onStage stage = [] := fun stage => by
    unfold Pc.onStage
    rw [hstage]
  cases origin
  case inline =>
    have hbefore : ∀ stage, (.respond m .inline : Pc P).onStage stage =
        if stage = .inline then [m] else [] := fun stage => by cases stage <;> rfl
    simp [State.lane, State.goto, State.contents, hpc, hsame, hmessages, htasks, hafter, hbefore]
  case returned =>
    have hbefore : ∀ stage, (.respond m .returned : Pc P).onStage stage =
        if stage = .returned then [m] else [] := fun stage => by cases stage <;> rfl
    simp [State.lane, State.goto, State.contents, hpc, hsame, hmessages, htasks, hafter, hbefore]

/-- A message goes from the hand of its io thread to the queue of the worker. -/
theorem State.lane_pushTask {t m : Nat} (hpc : s.pc (.io t) = .pushTask m) :
    ((s.setWorker cfg.route ((s.workers cfg.route).push (poolTask m))).goto (.io t)
      (.sendTask cfg.route)).lane cfg t = s.lane cfg t := by
  simp [State.lane, State.goto, State.contents, State.setWorker, WorkerThread.push, poolTask, hpc,
    Pc.onStage, Pc.stage]

/-- A worker takes the first message of its queue in hand, or is not at its queue. -/
theorem State.lane_work (hsound : s.Sound) (cfg : Config) (t : Nat) {j : Nat}
    {thread : WorkerThread PoolTask} (hrun : ∀ task, (s.workers j).pc ≠ .run task)
    (hstep : (s.workers j).step = some thread) :
    ((s.setWorker j thread).goto (.worker j) thread.pc.callback).lane cfg t = s.lane cfg t := by
  have hrest : s.pc (.worker j) = .rest := hsound.owned.resting j hrun
  by_cases hj : cfg.route = j
  · subst hj
    rcases WorkerThread.step_queue hstep with
      ⟨task, rest, hqueue, hthread, hnext⟩ | ⟨hqueue, hnot⟩
    · have hcb := hsound.owned.callbacks _ task (by rw [hqueue]; exact List.mem_cons_self)
      rw [if_pos hcb] at hnext
      simp [State.lane, State.goto, State.contents, State.setWorker, hrest, hnext, hqueue,
        hthread, WorkerPc.callback, Pc.onStage, Pc.stage]
    · simp [State.lane, State.goto, State.contents, State.setWorker, hrest, hqueue,
        WorkerPc.callback_rest hnot]
  · simp [State.lane, State.goto, State.contents, State.setWorker, hj]

/-- A message goes from the hand of the worker to the queue of its io thread. -/
theorem State.lane_taskPush {t m : Nat} (hpc : s.pc (.worker cfg.route) = .taskPush t m) :
    ((s.pushMessage t m).goto (.worker cfg.route) (.taskSend t)).lane cfg t = s.lane cfg t := by
  simp [State.lane, State.goto, State.contents, State.pushMessage, hpc, Pc.onStage, Pc.stage]

/-- An io thread takes the first message of its queue in hand. -/
theorem State.lane_returnPop {t t' m : Nat} {rest : List Nat} (hpc : s.pc (.io t') = .returnPop)
    (hqueue : (s.io t').messageQueue = m :: rest) :
    ((s.popMessage t').goto (.io t') (.returned m)).lane cfg t = s.lane cfg t := by
  by_cases ht : t' = t
  · subst ht
    simp [State.lane, State.goto, State.contents, State.popMessage, hpc, hqueue, Pc.onStage,
      Pc.stage]
  · simp [State.lane, State.goto, State.contents, State.popMessage, Ne.symm ht]

/-- A message of another connection leaves the lane. -/
theorem Instr.waiting_leave {a : Agent} {pc pc' : Pc P} {act : Act P} {next : State P}
    (h : Instr cfg ctl s a pc act next pc') {m : Nat} {l l' lane : List Nat}
    (hlt : ∀ x ∈ lane, x < s.nextMsg) (hne : (s.msgs m).conn ≠ c) (hlane : lane = l ++ m :: l') :
    next.waiting c (l ++ l') = s.waiting c lane := by
  have hsub : ∀ x ∈ l ++ l', x < s.nextMsg := by
    intro x hx
    refine hlt x (hlane ▸ ?_)
    rcases List.mem_append.mp hx with hl | hl'
    · exact List.mem_append_left _ hl
    · exact List.mem_append_right _ (List.mem_cons_of_mem m hl')
  rw [h.waiting_eq hsub, hlane, State.waiting_append, State.waiting_append, State.waiting_cons,
    if_neg hne]

/-! ### What an instruction does to the line -/

/-- An instruction that makes no message and answers none of `c` leaves the requests inside
as they are: a message goes from one stage to the next, or belongs to another connection. -/
theorem Instr.inside_eq (hsound : s.Sound) (hrouted : s.Routed cfg c) {t : Nat}
    (howner : s.owner c = some t) (hopen : (s.conns c).conn.status = .opened) {a : Agent}
    {act : Act P} {next : State P} {pc' : Pc P} (hok : user.Follows c s (.act a act))
    (hinstr : Instr cfg ctl s a (s.pc a) act next pc')
    (hmake : next.nextMsg = s.nextMsg ∨ ∃ u, a = .sender u)
    (hrespond : ∀ m origin, s.pc a = .respond m origin → (s.msgs m).conn ≠ c) :
    next.waiting c ((next.goto a pc').lane cfg t) = s.waiting c (s.lane cfg t) := by
  have hlt : ∀ m ∈ s.lane cfg t, m < s.nextMsg := fun m hm => State.lt_of_mem_lane hsound hm
  have hlane : (next.goto a pc').lane cfg t = s.lane cfg t →
      next.waiting c ((next.goto a pc').lane cfg t) = s.waiting c (s.lane cfg t) := fun hsame => by
    rw [hsame]
    exact hinstr.waiting_eq hlt
  have hleave : ∀ m l l', (s.msgs m).conn ≠ c → s.lane cfg t = l ++ m :: l' →
      (next.goto a pc').lane cfg t = l ++ l' →
      next.waiting c ((next.goto a pc').lane cfg t) = s.waiting c (s.lane cfg t) := by
    intro m l l' hne hbefore hafter
    rw [hafter]
    exact hinstr.waiting_leave hlt hne hbefore
  have hserving : ∀ {t' m : Nat}, a = .io t' → (s.pc a).serves s.msgs = some (s.msgs m).conn →
      (s.msgs m).conn = c → t' = t := by
    intro t' m rfl hserves hhserves
    subst hhserves
    obtain ⟨t'', ht, hown⟩ := hsound.affine.serving _ _ hserves
    rw [Agent.io.inj ht]
    exact Option.some.inj (hown.symm.trans howner)
  have hquiet : pc'.stage = (s.pc a).stage → next.pc = s.pc →
      (next.io t).messageQueue = (s.io t).messageQueue →
      (next.workers cfg.route).taskQueue = (s.workers cfg.route).taskQueue →
      next.waiting c ((next.goto a pc').lane cfg t) = s.waiting c (s.lane cfg t) :=
    fun hstage hpc hmessages htasks => hlane (State.lane_eq hpc
      (fun stage _ => by unfold Pc.onStage; rw [hstage]) hmessages
      (congrArg (List.map fun task : Task PoolTask => task.args.message) htasks))
  have hstages := hrouted.stages a
  have hpushing := hsound.affine.pushing a
  generalize hpc : s.pc a = pc at hinstr hserving hstages hpushing hrespond hquiet
  cases hinstr
  case request =>
    rcases hmake with hsame | ⟨u, hu⟩
    · exact absurd hsame (Nat.succ_ne_self _)
    · simp at hu
  case sendInit u c' package =>
    refine hlane (State.lane_eq rfl (fun stage hne => ?_) rfl rfl)
    rw [hpc]
    simp [Pc.onStage, Pc.stage, Ne.symm hne]
  case pushTask t' m i addr hi =>
    obtain rfl : i = cfg.route := hi.trans (hok.route hpc)
    by_cases ht : t' = t
    · subst ht
      exact hlane (State.lane_pushTask hpc)
    · have hne : (s.msgs m).conn ≠ c := fun hm => ht (hserving rfl rfl hm)
      show s.waiting c _ = s.waiting c _
      simp [State.lane, State.goto, State.contents, State.setWorker, WorkerThread.push, poolTask,
        Ne.symm ht, State.waiting_append, State.waiting_cons, hne]
  case work j thread hrun hstep => exact hlane (State.lane_work hsound cfg t hrun hstep)
  case taskPush j t' m =>
    by_cases hm : (s.msgs m).conn = c
    · obtain ⟨-, hj⟩ := hstages .working m rfl hm
      obtain rfl : j = cfg.route := Agent.worker.inj hj
      obtain rfl : t' = t := by
        have hown := hpushing t' m rfl
        rw [hm] at hown
        exact Option.some.inj (hown.symm.trans howner)
      exact hlane (State.lane_taskPush hpc)
    · show s.waiting c _ = s.waiting c _
      by_cases ht : t = t' <;> by_cases hj : cfg.route = j <;>
        simp [State.lane, State.goto, State.contents, State.pushMessage, ht, hj, hpc, Pc.onStage,
          Pc.stage, State.waiting_append, State.waiting_cons, hm]
  case sendPush u t' m =>
    have hne : (s.msgs m).conn ≠ c := fun hm => hstages .sent m rfl hm
    show s.waiting c _ = s.waiting c _
    by_cases ht : t = t' <;>
      simp [State.lane, State.goto, State.contents, State.pushMessage, ht, State.waiting_append,
        State.waiting_cons, hne]
  case returnPop t' m rest hqueue => exact hlane (State.lane_returnPop hpc hqueue)
  case returnedClosed t' m hstatus =>
    have hne : (s.msgs m).conn ≠ c := by
      rintro rfl
      exact absurd (hstatus.symm.trans hopen) (by decide)
    by_cases ht : t' = t
    · subst ht
      refine hleave m [] _ hne ?_ (List.nil_append _).symm
      simp [State.lane, State.goto, State.contents, State.xvMessageDestroy, State.addRef,
        State.setConn, hpc, Pc.onStage, Pc.stage]
    · refine hlane ?_
      simp [State.lane, State.goto, State.contents, Ne.symm ht, State.xvMessageDestroy,
        State.addRef, State.setConn]
  case respond t' m c' origin pieces out sent encodes hc' hsent hencodes =>
    have hne : (s.msgs m).conn ≠ c := hrespond m origin rfl
    have hstage : (if sent.close then .close c' (.finish m origin) else .finish m origin
        : Pc P).stage = none := by split <;> rfl
    have hmessages : (((s.markEncoded m encodes).sent t' c' sent).io t).messageQueue =
        (s.io t).messageQueue := update_same s.io _ _ IoThread.messageQueue (by rfl) t
    by_cases ht : t' = t
    · subst ht
      have hsame := State.lane_respond cfg hpc hstage (by rfl) hmessages (by rfl)
      cases origin with
      | returned => exact hleave m [] _ hne hsame (List.nil_append _).symm
      | inline => exact hleave m _ [] hne hsame (List.append_nil _).symm
    · refine hlane ?_
      simp [State.lane, State.goto, State.contents, Ne.symm ht, State.sent, State.markEncoded]
  case closeBusy t' c' resume _ | closeFree t' c' resume =>
    refine hquiet ?_ rfl rfl rfl
    cases resume <;> rfl
  case finish t' m origin =>
    refine hquiet ?_ rfl rfl rfl
    cases origin <;> rfl
  case write t' fd c' out sent hslot halive hsent =>
    refine hquiet ?_ rfl (update_same s.io _ _ IoThread.messageQueue (by rfl) t) rfl
    split <;> rfl
  case interrupt j thread hrun hstep =>
    refine hquiet ?_ rfl rfl (update_same s.workers _ _ WorkerThread.taskQueue
      (WorkerThread.interrupt_queue hstep) _)
    rw [← hpc, hsound.owned.resting j hrun]
  case taskSend j t' thread hstep =>
    exact hquiet rfl rfl (update_same s.io _ _ IoThread.messageQueue (by rfl) t)
      (update_same s.workers _ _ WorkerThread.taskQueue (WorkerThread.taskReturns_queue hstep) _)
  case sendTask =>
    exact hquiet rfl rfl rfl (update_same s.workers _ _ WorkerThread.taskQueue (by rfl) _)
  case entry | close | assignSelf | assignOther | adopt | sendConn | addConnRead | addConnPop
      | returnRead | sendSignal =>
    exact hquiet rfl rfl (update_same s.io _ _ IoThread.messageQueue (by rfl) t) rfl
  all_goals exact hquiet rfl rfl rfl rfl

/-- Without workers the request in hand is the only one inside. -/
theorem State.Routed.alone (h : s.Routed cfg c) {t m : Nat}
    (hpc : s.pc (.io t) = .respond m .inline)
    (hm : (s.msgs m).conn = c) {next : State P} {pc' : Pc P} (hstage : pc'.stage = none)
    (hsame : next.pc = s.pc) (hmessages : (next.io t).messageQueue = (s.io t).messageQueue)
    (htasks : next.workers = s.workers) :
    s.waiting c ((next.goto (.io t) pc').lane cfg t) = [] := by
  have hinline : cfg.workerThreadCount = 0 :=
    h.stages (.io t) .inline m (by rw [hpc]; rfl) hm
  have hafter : ∀ stage, pc'.onStage stage = [] := fun stage => by
    unfold Pc.onStage
    rw [hstage]
  have hlane : (next.goto (.io t) pc').lane cfg t = s.contents (.messages t) ++
      (s.pc (.worker cfg.route)).onStage .working ++ s.contents (.tasks cfg.route) := by
    simp [State.lane, State.goto, State.contents, hsame, hmessages, htasks, hafter]
  rw [hlane]
  refine State.waiting_eq_nil fun x hx hxc => ?_
  simp only [List.mem_append] at hx
  rcases hx with (hx | hx) | hx
  · exact h.messages t x hx hxc hinline
  · exact (h.stages _ .working x (Pc.holds_of_onStage hx) hxc).1 hinline
  · exact (h.tasks _ x hx hxc).1 hinline

theorem processMessage_encoded (ctl : EpollCtl) (loop : Loop) (conn : Conn) (response : Option P)
    (pieces : List Piece) (out : WriteOut)
    (hencode : ∀ packet ∈ response, encodedBytes pieces = user.encode packet) :
    (processMessage ctl loop conn response pieces out).encoded =
      user.bytes conn.handle response := by
  unfold processMessage UserCode.bytes
  cases response with
  | none => simp
  | some packet =>
      have hbytes := hencode packet rfl
      cases hhandle : conn.handle.encode with
      | false => simp
      | true =>
          simp only [Option.isNone_some, Bool.not_true, Bool.or_self, Bool.false_eq_true,
            if_false, if_true, Option.map_some, Option.getD_some]
          rw [← hbytes]
          split
          · rfl
          · split
            · rfl
            · split <;> rfl

/-- The reply to a request of `c` leaves the line. -/
theorem State.line_leave (hsound : s.Sound) (hrouted : s.Routed cfg c)
    (hresponded : s.Responded user c) (hreads : user.Reads (s.conns c)) {t m : Nat}
    {origin : Origin} {pieces : List Piece} {out : WriteOut}
    {sent : Sent} {encodes : Bool} {pc' : Pc P} (hpc : s.pc (.io t) = .respond m origin)
    (hok : user.Follows c s (.act (.io t) (.respond pieces out))) (hm : (s.msgs m).conn = c)
    (hsent : sent = Libxv.processMessage ctl (s.io t).loop (s.conns c).conn (s.msgs m).response
      pieces out)
    (hstage : pc'.stage = none)
    (hinstr : Instr cfg ctl s (.io t) (s.pc (.io t)) (.respond pieces out)
      ((s.markEncoded m encodes).sent t c sent) pc') :
    Line.Move (user.reply (s.conns c).conn.handle) (s.line user cfg c t)
      ((((s.markEncoded m encodes).sent t c sent).goto (.io t) pc').line user cfg c t) := by
  have hmessages : (((s.markEncoded m encodes).sent t c sent).io t).messageQueue =
      (s.io t).messageQueue := update_same s.io _ _ IoThread.messageQueue (by rfl) t
  have hlane := State.lane_respond cfg hpc hstage (by rfl) hmessages (by rfl)
  have hlt : ∀ x ∈ s.lane cfg t, x < s.nextMsg := fun x hx => State.lt_of_mem_lane hsound hx
  refine .leave (s.msgs m).request (hreads.instr hinstr (by simp) (by simp)).2 ?_ ?_
  · show s.waiting c (s.lane cfg t) =
      _ :: ((s.markEncoded m encodes).sent t c sent).waiting c _
    cases origin with
    | returned =>
        rw [hinstr.waiting_eq fun x hx => hlt x (by rw [hlane]; exact List.mem_cons_of_mem m hx),
          hlane, State.waiting_cons, if_pos hm]
    | inline =>
        rw [hinstr.waiting_eq fun x hx => hlt x (by rw [hlane]; exact List.mem_append_left _ hx),
          hlane, State.waiting_append,
          hrouted.alone hpc hm hstage (by rfl) hmessages (by rfl), State.waiting_cons, if_pos hm]
        rfl
  · have hresponse : user.Processed (s.msgs m) :=
      hresponded.held (.io t) m (by rw [hpc]; rfl) hm
    have hencode : ∀ packet ∈ (s.msgs m).response, encodedBytes pieces = user.encode packet := by
      simp only [UserCode.Follows, hpc] at hok
      exact hok hm
    have hencoded : sent.encoded = user.reply (s.conns c).conn.handle (s.msgs m).request := by
      rw [hsent, processMessage_encoded _ _ _ _ _ _ hencode, hresponse]
      rfl
    rw [← hencoded]
    simp [State.line, State.sent, State.goto, State.markEncoded]

/-- A new request of `c` enters the line, and one of another connection does not. -/
theorem State.line_enter (hsound : s.Sound) (hreads : user.Reads (s.conns c)) {t t' : Nat}
    (howner : s.owner c = some t) {fd c' : Nat} {out : ReadOut} {decoded : DecodeOut P}
    {conn : Conn} {chunks : List Chunk} {request : Option P} {pc' : Pc P}
    (hpc : s.pc (.io t') = .poll)
    (hok : user.Follows c s (.act (.io t') (.read fd out decoded)))
    (hslot : ((s.io t').loop.slot fd).readIo = some c')
    (hread : readAndDecode (s.conns c').conn out decoded = some (conn, chunks, .request request))
    (hpc' : pc' = if cfg.workerThreadCount = 0 then .process s.nextMsg else .pushTask s.nextMsg)
    (hinstr : Instr cfg ctl s (.io t') (s.pc (.io t')) (.read fd out decoded)
      ((s.receive c' conn chunks).xvMessageInit c' request none) pc') :
    Line.Move (user.reply (s.conns c).conn.handle) (s.line user cfg c t)
      ((((s.receive c' conn chunks).xvMessageInit c' request none).goto (.io t') pc').line
        user cfg c t) := by
  have hc : c < s.nextConn := hsound.adopted.known c t howner
  have hlt : ∀ x ∈ s.lane cfg t, x < s.nextMsg := fun x hx => State.lt_of_mem_lane hsound hx
  have hrequests : State.requests user ((s.receive c' conn chunks).xvMessageInit c' request none) c
      = s.requests user c ++ if c' = c then [request] else [] :=
    (update_same (s.receive c' conn chunks).conns c' _
      (fun conn => user.requests conn.conn.handle conn.received) (by rfl) c).trans
      (hreads.receive hpc hok hslot hread).2
  have happended : ((((s.receive c' conn chunks).xvMessageInit c' request none)).conns c).appended =
      (s.conns c).appended := by
    refine (hinstr.connStep_of_lt hc).appended_cases.resolve_right ?_
    rintro ⟨m, origin, hrespond, -⟩
    exact absurd (hpc.symm.trans hrespond) (by simp)
  have hnew : ((s.receive c' conn chunks).xvMessageInit c' request none).waiting c [s.nextMsg] =
      if c' = c then [request] else [] := by
    simp [State.waiting_cons, State.xvMessageInit, State.addRef, State.setConn, State.receive]
  have hlane : (((s.receive c' conn chunks).xvMessageInit c' request none).goto (.io t') pc').lane
      cfg t = s.lane cfg t ++ if t' = t then [s.nextMsg] else [] := by
    by_cases ht : t' = t
    · subst ht hpc'
      by_cases hworkers : cfg.workerThreadCount = 0 <;>
        simp [State.lane, State.goto, State.contents, State.xvMessageInit, State.addRef,
          State.setConn, State.receive, hpc, hworkers, Pc.onStage, Pc.stage]
    · simp [State.lane, State.goto, State.contents, State.xvMessageInit, State.addRef,
        State.setConn, State.receive, ht, Ne.symm ht]
  have hinside : ((s.receive c' conn chunks).xvMessageInit c' request none).waiting c
      ((((s.receive c' conn chunks).xvMessageInit c' request none).goto (.io t') pc').lane cfg t) =
        s.waiting c (s.lane cfg t) ++ if c' = c then [request] else [] := by
    rw [hlane, State.waiting_append, hinstr.waiting_eq hlt]
    by_cases ht : t' = t
    · rw [if_pos ht, hnew]
    · have hcc : c' ≠ c := by
        rintro rfl
        exact ht (Option.some.inj ((hsound.affine.slots t' fd c' (Or.inl hslot)).symm.trans howner))
      rw [if_neg ht, if_neg hcc, State.waiting_nil]
  by_cases hcc : c' = c
  · rw [if_pos hcc] at hrequests hinside
    exact .enter request hrequests hinside happended
  · rw [if_neg hcc, List.append_nil] at hrequests hinside
    exact .pass hrequests hinside happended

/-- **Every instruction is a move of the line.** -/
theorem Instr.line_move (hsound : s.Sound) (hrouted : s.Routed cfg c)
    (hresponded : s.Responded user c) (hreads : user.Reads (s.conns c)) {t : Nat}
    (howner : s.owner c = some t) {a : Agent} {act : Act P} {next : State P} {pc' : Pc P}
    (hok : user.Follows c s (.act a act)) (hinstr : Instr cfg ctl s a (s.pc a) act next pc')
    (hopen : (s.conns c).conn.status = .opened) :
    Line.Move (user.reply (s.conns c).conn.handle) (s.line user cfg c t)
      ((next.goto a pc').line user cfg c t) := by
  have hc : c < s.nextConn := hsound.adopted.known c t howner
  have hinside := hinstr.inside_eq hsound hrouted howner hopen hok
  have hserving := hsound.affine.serving a
  have hpass : (∀ fd out decoded, act ≠ .read fd out decoded) →
      (next.nextMsg = s.nextMsg ∨ ∃ u, a = .sender u) →
      (∀ m origin, s.pc a = .respond m origin → (s.msgs m).conn ≠ c) →
      Line.Move (user.reply (s.conns c).conn.handle) (s.line user cfg c t)
        ((next.goto a pc').line user cfg c t) := by
    intro hread hmake hrespond
    refine .pass (hreads.instr hinstr (fun hnew => absurd hnew (Nat.ne_of_lt hc)) hread).2
      (hinside hmake hrespond) ?_
    refine (hinstr.connStep_of_lt hc).appended_cases.resolve_right ?_
    rintro ⟨m, origin, hpc, hm⟩
    exact hrespond m origin hpc hm
  have hinstr' := hinstr
  generalize hpc : s.pc a = pc at hinstr hserving
  cases hinstr
  case respond t' m c' origin pieces out sent encodes hc' hsent hencodes =>
    by_cases hm : (s.msgs m).conn = c
    · obtain rfl : c' = c := hc'.trans hm
      obtain ⟨t'', ht, hown⟩ := hserving c' (by rw [hc']; rfl)
      obtain rfl : t' = t := by
        rw [Agent.io.inj ht]
        exact Option.some.inj (hown.symm.trans howner)
      refine State.line_leave hsound hrouted hresponded hreads hpc hok hm hsent ?_ hinstr'
      split <;> rfl
    · refine hpass (by simp) (Or.inl rfl) fun m' origin' hpc' hm' => ?_
      obtain ⟨rfl, -⟩ : m = m' ∧ _ := by simpa using hpc.symm.trans hpc'
      exact hm hm'
  case readBack t' fd c' out decoded conn chunks hslot halive hread
      | readClose t' fd c' out decoded conn chunks hslot halive hread =>
    obtain ⟨-, hrequests⟩ := hreads.receive hpc hok hslot hread
    refine .pass ?_ (hinside (Or.inl rfl) (by simp [hpc])) ?_
    · exact hrequests.trans (by simp [Decoded.requests, State.line])
    · exact update_same s.conns _ _ Connection.appended (by rfl) c
  case request t' fd c' out decoded conn chunks request hslot halive hread =>
    exact State.line_enter hsound hreads howner hpc hok hslot hread rfl hinstr'
  case sendInit u c' package => exact hpass (by simp) (Or.inr ⟨u, rfl⟩) (by simp [hpc])
  case work j thread hrun hstep | interrupt j thread hrun hstep =>
    exact hpass (by simp) (Or.inl rfl) (by simp [hsound.owned.resting j hrun])
  all_goals exact hpass (by simp) (Or.inl rfl) (by simp [hpc])

end Libxv
