/-
A queued message is read by nobody.

A thread reads the fields of the message it has in its hands and of no other: whatever the
fields of another message were, each of its programs would do the same.  A message in a
`message_queue` is in nobody's hands, so from the push until the pop no thread reads it or
follows its `conn` pointer.  With what the modules before this one show, that is message
conservation.
-/
import Libxv.Proofs.Service.Responses

namespace Libxv

open Function Transition Placement

variable {P : Type} {cfg : Config} {ctl : EpollCtl} {s : State P}

/-- The state with other fields in one message. -/
def State.withMessage (s : State P) (m : Nat) (message : Message P) : State P :=
  { s with msgs := update s.msgs m message }

/-- The outcome of an instruction, with other fields in one message. -/
def carry (m : Nat) (message : Message P) (next : Option (State P × Pc P)) :
    Option (State P × Pc P) :=
  next.map fun next => (next.1.withMessage m message, next.2)

theorem carry_or {m : Nat} {message : Message P} {next next' : Option (State P × Pc P)} :
    carry m message (next <|> next') = (carry m message next <|> carry m message next') := by
  cases next <;> rfl

/-! ### The functions that read no message -/

section

variable {m t : Nat} {message : Message P} (pc : Pc P) (act : Act P)

theorem ioThreadEntry_carry :
    ioThreadEntry (s.withMessage m message) t pc act =
      carry m message (ioThreadEntry s t pc act) := by
  cases pc <;> try rfl
  cases act <;> rfl

theorem xvConnectionClose_carry :
    xvConnectionClose ctl (s.withMessage m message) pc act =
      carry m message (xvConnectionClose ctl s pc act) := by
  cases pc <;> try rfl
  all_goals cases act <;> try rfl
  case close.go c resume =>
    simp only [xvConnectionClose, State.withMessage]
    cases (s.conns c).conn.ioThread <;> rfl
  case closeRef.go c resume =>
    simp only [xvConnectionClose]
    rw [apply_ite (carry m message)]
    rfl

theorem onConnectionWrite_carry :
    State.onConnectionWrite ctl (s.withMessage m message) t pc act =
      carry m message (s.onConnectionWrite ctl t pc act) := by
  cases pc <;> try rfl
  cases act <;> try rfl
  case poll.write fd out =>
    simp only [State.onConnectionWrite, State.withMessage]
    cases ((s.io t).loop.slot fd).writeIo with
    | none => rfl
    | some c => 
        dsimp only
        rw [apply_ite (carry m message)]
        rfl

theorem onNewConnection_carry :
    onNewConnection cfg ctl (s.withMessage m message) t pc act =
      carry m message (onNewConnection cfg ctl s t pc act) := by
  cases pc <;> try rfl
  all_goals cases act <;> try rfl
  case poll.accept fd handle mem =>
    simp only [onNewConnection]
    rw [apply_ite (carry m message)]
    rfl
  case addConnection.table c garbage =>
    simp only [onNewConnection, State.withMessage]
    cases xvServiceAddConnection s.table (s.conns c).conn.fd c garbage <;> rfl
  case assign.go c =>
    simp only [onNewConnection]
    rw [apply_ite (carry m message)]
    rfl

theorem ioThreadAddConnCb_carry :
    ioThreadAddConnCb ctl (s.withMessage m message) t pc act =
      carry m message (ioThreadAddConnCb ctl s t pc act) := by
  cases pc <;> try rfl
  all_goals cases act <;> try rfl
  case poll.addConnReady =>
    simp only [ioThreadAddConnCb]
    rw [apply_ite (carry m message)]
    rfl
  case addConnPop.go =>
    simp only [ioThreadAddConnCb, State.withMessage]
    cases (s.io t).connQueue <;> rfl

end

/-! ### The functions that read the message in hand -/

section

variable {m t : Nat} {message : Message P} (hm : m ≠ s.nextMsg)

theorem withMessage_msgs {m' : Nat} (h : m' ≠ m) :
    (s.withMessage m message).msgs m' = s.msgs m' := update_of_ne h ..

/-- A change to one message and a change to another, in either order. -/
theorem withMessage_comm (s : State P) (message : Message P) {m' : Nat} (h : m' ≠ m)
    (x : Message P) :
    (s.withMessage m message).withMessage m' x = (s.withMessage m' x).withMessage m message := by
  simp only [State.withMessage, update_comm h]

include hm in
theorem xvMessageInit_withMessage (c : Nat) (request response : Option P) :
    (s.withMessage m message).xvMessageInit c request response =
      (s.xvMessageInit c request response).withMessage m message := by
  have hcomm := withMessage_comm (s.addRef c 1) message hm.symm
    { conn := c, request := request, response := response, encoded := 0, sendFailed := 0,
      cleanedRequest := 0, cleanedResponse := 0, destroyed := 0 }
  exact congrArg (fun msgs => { s.addRef c 1 with msgs := msgs, nextMsg := s.nextMsg + 1 })
    (congrArg State.msgs hcomm)

theorem xvMessageDestroy_withMessage {m' : Nat} (h : m' ≠ m) :
    (s.withMessage m message).xvMessageDestroy m' =
      (s.xvMessageDestroy m').withMessage m message := by
  unfold State.xvMessageDestroy
  simp only [withMessage_msgs h]
  exact withMessage_comm (s.addRef (s.msgs m').conn (-1)) message h _

theorem setResponse_withMessage {m' : Nat} (h : m' ≠ m) (response : Option P) :
    (s.withMessage m message).setResponse m' response =
      (s.setResponse m' response).withMessage m message := by
  unfold State.setResponse
  rw [withMessage_msgs h]
  exact withMessage_comm s message h _

theorem markEncoded_withMessage {m' : Nat} (h : m' ≠ m) (encodes : Bool) :
    (s.withMessage m message).markEncoded m' encodes =
      (s.markEncoded m' encodes).withMessage m message := by
  unfold State.markEncoded
  rw [withMessage_msgs h]
  exact withMessage_comm s message h _

variable {pc : Pc P} (hpc : pc.reads ≠ some m) (act : Act P)

include hpc in
theorem processMessage_carry :
    State.processMessage ctl (s.withMessage m message) t pc act =
      carry m message (s.processMessage ctl t pc act) := by
  cases pc <;> try rfl
  all_goals cases act <;> try rfl
  case respond.respond m' origin pieces out =>
    have hne : m' ≠ m := fun h => hpc (congrArg some h)
    simp only [State.processMessage, withMessage_msgs hne, markEncoded_withMessage hne]
    rfl
  case finish.go m' origin =>
    have hne : m' ≠ m := fun h => hpc (congrArg some h)
    simp only [State.processMessage, xvMessageDestroy_withMessage hne]
    rfl

include hpc in
theorem processReadBuffer_carry :
    State.processReadBuffer cfg (s.withMessage m message) pc act =
      carry m message (s.processReadBuffer cfg pc act) := by
  cases pc <;> try rfl
  all_goals cases act <;> try rfl
  case process.process m' response =>
    have hne : m' ≠ m := fun h => hpc (congrArg some h)
    simp only [State.processReadBuffer, setResponse_withMessage hne]
    rfl

include hm in
theorem onConnectionRead_carry :
    State.onConnectionRead cfg (s.withMessage m message) t pc act =
      carry m message (s.onConnectionRead cfg t pc act) := by
  cases pc <;> try rfl
  cases act <;> try rfl
  case poll.read fd out decoded =>
    simp only [State.onConnectionRead, State.withMessage]
    cases ((s.io t).loop.slot fd).readIo with
    | none => rfl
    | some c =>
        dsimp only
        rw [apply_ite (carry m message)]
        refine if_congr Iff.rfl rfl ?_
        cases readAndDecode (s.conns c).conn out decoded with
        | none => rfl
        | some next =>
            obtain ⟨conn, chunks, next⟩ := next
            cases next with
            | back | close => rfl
            | request request =>
                exact congrArg some (Prod.ext (xvMessageInit_withMessage
                  (s := s.receive c conn chunks) hm c request none) rfl)

include hpc in
theorem ioThreadReturnMessageCb_carry :
    ioThreadReturnMessageCb (s.withMessage m message) t pc act =
      carry m message (ioThreadReturnMessageCb s t pc act) := by
  cases pc <;> try rfl
  all_goals cases act <;> try rfl
  case poll.returnReady =>
    simp only [ioThreadReturnMessageCb]
    rw [apply_ite (carry m message)]
    rfl
  case returnPop.go =>
    simp only [ioThreadReturnMessageCb, State.withMessage]
    cases (s.io t).messageQueue <;> rfl
  case returned.go m' =>
    have hne : m' ≠ m := fun h => hpc (congrArg some h)
    simp only [ioThreadReturnMessageCb, withMessage_msgs hne, xvMessageDestroy_withMessage hne]
    rw [apply_ite (carry m message)]
    rfl

include hm hpc in
theorem ioStep_carry :
    ioStep cfg ctl (s.withMessage m message) t pc act =
      carry m message (ioStep cfg ctl s t pc act) := by
  simp only [ioStep, carry_or, ioThreadEntry_carry, xvConnectionClose_carry,
    processMessage_carry hpc, processReadBuffer_carry hpc, onConnectionRead_carry hm,
    onConnectionWrite_carry, onNewConnection_carry, ioThreadAddConnCb_carry,
    ioThreadReturnMessageCb_carry hpc]

include hpc in
theorem threadPoolTaskCb_carry {i : Nat} :
    threadPoolTaskCb (s.withMessage m message) i pc act =
      carry m message (threadPoolTaskCb s i pc act) := by
  cases pc <;> try rfl
  all_goals cases act <;> try rfl
  case taskProcess.process m' response =>
    have hne : m' ≠ m := fun h => hpc (congrArg some h)
    simp only [threadPoolTaskCb, setResponse_withMessage hne]
    rfl
  case taskFetch.go m' =>
    have hne : m' ≠ m := fun h => hpc (congrArg some h)
    simp only [threadPoolTaskCb, withMessage_msgs hne]
    simp only [State.withMessage]
    cases (s.conns (s.msgs m').conn).conn.ioThread <;> rfl
  case taskSend.go t =>
    simp only [threadPoolTaskCb, State.withMessage]
    cases (s.workers i).taskReturns <;> rfl

include hpc in
theorem workerStep_carry {i : Nat} :
    workerStep (s.withMessage m message) i pc act = carry m message (workerStep s i pc act) := by
  unfold workerStep
  dsimp only [State.withMessage]
  cases (s.workers i).pc
  case run task => exact threadPoolTaskCb_carry hpc act
  all_goals
    cases act
    case go => cases (s.workers i).step <;> rfl
    case interrupt => cases (s.workers i).interrupt <;> rfl
    all_goals rfl

include hm in
theorem xvServiceSendMessage_carry :
    xvServiceSendMessage (s.withMessage m message) pc act =
      carry m message (xvServiceSendMessage s pc act) := by
  cases pc <;> try rfl
  all_goals cases act <;> try rfl
  case sendTest.go c package =>
    simp only [xvServiceSendMessage]
    rw [apply_ite (carry m message)]
    rfl
  case sendInit.go c package =>
    simp only [xvServiceSendMessage, xvMessageInit_withMessage hm]
    rfl
  case sendFetch.go c m' =>
    simp only [xvServiceSendMessage, State.withMessage]
    cases (s.conns c).conn.ioThread <;> rfl

end

/-! ### The system -/

theorem State.safe_withMessage {m : Nat} {message : Message P} {a : Agent}
    (h : (s.pc a).reads ≠ some m) : (s.withMessage m message).safe a = s.safe a := by
  have htouches : ((s.withMessage m message).pc a).touches (s.withMessage m message).msgs =
      (s.pc a).touches s.msgs := by
    show (s.pc a).touches (s.withMessage m message).msgs = _
    generalize s.pc a = pc at h
    cases pc
    case returned m' | respond m' _ | finish m' _ | taskFetch m' =>
      exact congrArg (fun message : Message P => some message.conn)
        (withMessage_msgs fun hm => h (congrArg some hm))
    all_goals rfl
  unfold State.safe
  rw [htouches]
  rfl

theorem State.step_withMessage {m : Nat} {message : Message P} (hm : m ≠ s.nextMsg)
    (h : ∀ a, (s.pc a).reads ≠ some m) (label : Label P) :
    (s.withMessage m message).step cfg ctl label =
      (s.step cfg ctl label).map fun next => next.withMessage m message := by
  cases label with
  | act a act =>
      have hprogram : (s.withMessage m message).program cfg ctl a act =
          carry m message (s.program cfg ctl a act) := by
        cases a with
        | io t => exact ioStep_carry hm (h (.io t)) act
        | worker i => exact workerStep_carry (h (.worker i)) act
        | sender u => exact xvServiceSendMessage_carry hm act
      simp only [State.step, State.safe_withMessage (h a), hprogram]
      rw [apply_ite (Option.map _)]
      refine if_congr Iff.rfl ?_ rfl
      cases s.program cfg ctl a act <;> rfl
  | incrRef c | decrRef c =>
      simp only [State.step]
      rw [apply_ite (Option.map _)]
      rfl

/-! ### Conservation -/

/-- What the service owes its messages. -/
structure State.Conserved (cfg : Config) (ctl : EpollCtl) (s : State P) : Prop where
  /-- A live message is in one place, and there once. -/
  placed : ∀ m, s.live m = true → ∃ p, ∀ q, (s.contents q).count m = if q = p then 1 else 0
  /-- A message that comes back does so to the io thread of its connection. -/
  home : ∀ t m, m ∈ s.contents (.messages t) → s.owner (s.msgs m).conn = some t
  /-- It is destroyed at most once, and then its packets are cleaned up once. -/
  settled : ∀ m, m < s.nextMsg → (s.msgs m).Settled (s.cleanup m)
  /-- No step depends on the fields of a message that is waiting to be popped. -/
  unread : ∀ t m message label, m ∈ s.contents (.messages t) →
    (s.withMessage m message).step cfg ctl label =
      (s.step cfg ctl label).map fun next => next.withMessage m message
  refs : ∀ c, c < s.nextConn → (s.conns c).conn.refCount =
    1 + (s.liveMessages c).card + (s.conns c).userRefs

theorem State.Owned.count (h : s.Owned) {m : Nat} (hm : s.live m = true) :
    ∃ p, ∀ q, (s.contents q).count m = if q = p then 1 else 0 := by
  obtain ⟨p, hp, hunique⟩ := h.placed.existsUnique hm
  refine ⟨p, fun q => ?_⟩
  by_cases hq : q = p
  · subst hq
    rw [if_pos rfl]
    exact List.count_eq_one_of_mem (h.placed.nodup q) hp
  · rw [if_neg hq]
    exact List.count_eq_zero_of_not_mem fun hmem => hq (hunique q hmem)

/-- Nobody is about to read a message that is queued. -/
theorem State.Owned.unread (h : s.Owned) {t m : Nat} (hm : m ∈ s.contents (.messages t))
    (a : Agent) : (s.pc a).reads ≠ some m := by
  intro hreads
  exact absurd ((h.held (Pc.holds_of_reads hreads)).2 _ hm) (by simp)

theorem State.settled (h : Reachable (State.step cfg ctl) (· = State.init) s) :
    s.Sound ∧ s.Settled :=
  ⟨State.sound h,
    State.invariant h (fun m hm => absurd hm (Nat.not_lt_zero m)) fun _ _ _ hsound hs _ hstep =>
      hs.step hsound hstep⟩

/--
**Messages are conserved, and references counted**: in every reachable state a live message
is in exactly one place, comes back only to its connection's io thread, is destroyed and
cleaned up at most once, and is read by nobody while it waits in a `message_queue`; and a
connection's `ref_count` is exact.
-/
theorem messages_conserved (h : Reachable (State.step cfg ctl) (· = State.init) s) :
    s.Conserved cfg ctl := by
  obtain ⟨hsound, hsettled⟩ := State.settled h
  refine ⟨fun m hm => hsound.owned.count hm, hsound.affine.queued, hsettled, ?_,
    hsound.counted.refs⟩
  intro t m message label hm
  have hlt : m < s.nextMsg := State.lt_of_live (hsound.owned.queued_live hm)
  exact State.step_withMessage (Nat.ne_of_lt hlt) (hsound.owned.unread hm) label

/-- A message is on its way back. -/
theorem messages_conserved_queued :
    ∃ s : State Unit, s.contents (.messages 0) = [0] ∧ s.Conserved inlineConfig acceptAll := by
  have hrun : ∃ s : State Unit,
      Reachable (State.step inlineConfig acceptAll) (· = State.init) s ∧
        s.contents (.messages 0) = [0] :=
    ⟨_, Reachable.play (acceptOne ++ sendOne) (.start rfl) rfl, rfl⟩
  obtain ⟨s, hreach, hqueue⟩ := hrun
  exact ⟨s, hqueue, messages_conserved hreach⟩

end Libxv
