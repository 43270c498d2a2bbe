/-
What becomes of a response.

A response reaches `encode` on the io thread, in `process_message`, and its message is
destroyed after that; or its message comes back to a closed connection and is destroyed at
once, and nothing tells the user: no function calls `on_send_failed`.  So a run drops no
response exactly as long as no message with a response comes back to a closed connection.
-/
import Libxv.Proofs.Service.Conservation

namespace Libxv

open Function Transition

variable {P : Type} {cfg : Config} {ctl : EpollCtl} {s : State P}

/-- No message with a response to encode comes back to a closed connection. -/
def ReturnsOpen (s : State P) : Label P → Prop
  | .act a _ =>
      match s.pc a with
      | .returned m =>
          (s.conns (s.msgs m).conn).conn.status = .closed →
            (s.conns (s.msgs m).conn).conn.handle.encode = true → (s.msgs m).response.isNone = true
      | _ => True
  | _ => True

instance (s : State P) : ∀ label, Decidable (ReturnsOpen s label)
  | .act a act => by
      unfold ReturnsOpen
      dsimp only
      split <;> infer_instance
  | .incrRef _ | .decrRef _ => inferInstanceAs (Decidable True)

/-- The response of the message, if it has one that can be encoded, has been encoded. -/
def State.Answered (s : State P) (m : Nat) : Prop :=
  (s.msgs m).response = none ∨ (s.conns (s.msgs m).conn).conn.handle.encode = false ∨
    0 < (s.msgs m).encoded

/-- The connection a thread is about to answer on. -/
def Pc.answers (msgs : Nat → Message P) : Pc P → Option Nat
  | .process m | .respond m _ => some (msgs m).conn
  | _ => none

/-- The message a thread has answered and not yet destroyed. -/
def Pc.answered : Pc P → Option Nat
  | .finish m _ | .close _ (.finish m _) | .closeRef _ (.finish m _) | .closeDel _ (.finish m _)
  | .closeFd _ (.finish m _) | .closeFree _ (.finish m _) => some m
  | _ => none

/-- What a run that drops no response keeps. -/
structure State.Answering (s : State P) : Prop where
  opened : ∀ a c, (s.pc a).answers s.msgs = some c → (s.conns c).conn.status = .opened
  done : ∀ a m, (s.pc a).answered = some m → s.Answered m
  destroyed : ∀ m, m < s.nextMsg → (s.msgs m).destroyed ≠ 0 → s.Answered m

theorem Pc.serves_of_answers {pc : Pc P} {msgs : Nat → Message P} {c : Nat}
    (h : pc.answers msgs = some c) : pc.serves msgs = some c := by
  cases pc <;> simp_all [Pc.answers, Pc.serves]

theorem Pc.holds_of_answered {pc : Pc P} {m : Nat} (h : pc.answered = some m) :
    pc.holds = some m := by
  cases pc
  case close _ resume | closeRef _ resume | closeDel _ resume | closeFd _ resume
      | closeFree _ resume =>
    cases resume <;> simp_all [Pc.answered, Pc.holds]
  all_goals simp_all [Pc.answered, Pc.holds]

/-- A request is read only from an open connection. -/
theorem readAndDecode_request {conn conn' : Conn} {out : ReadOut} {decoded : DecodeOut P}
    {chunks : List Chunk} {request : Option P}
    (h : readAndDecode conn out decoded = some (conn', chunks, .request request)) :
    conn.status = .opened := by
  cases hstatus : conn.status with
  | opened => rfl
  | closed => simp [readAndDecode, onConnectionRead, hstatus] at h

/-- A message that a thread does not hold keeps its answer. -/
theorem State.Answered.instr {m : Nat} (h : s.Answered m) (hsound : s.Sound) {a : Agent}
    {act : Act P} {next : State P} {pc' : Pc P}
    (hinstr : Instr cfg ctl s a (s.pc a) act next pc') (hm : m < s.nextMsg)
    (hmsg : next.msgs m = s.msgs m) : next.Answered m := by
  unfold State.Answered
  rw [hmsg, (hinstr.kept (hsound.counted.conns m hm)).handle]
  exact h

/-- A connection a thread is about to answer on is open. -/
def State.Opened (s : State P) : Prop :=
  ∀ a c, (s.pc a).answers s.msgs = some c → (s.conns c).conn.status = .opened

/-- The thread that makes the instruction. -/
theorem State.Opened.instr_own (h : s.Opened) (hsound : s.Sound) {a : Agent}
    {act : Act P} {next : State P} {pc' : Pc P}
    (hinstr : Instr cfg ctl s a (s.pc a) act next pc') (c : Nat)
    (hc : pc'.answers next.msgs = some c) : (next.conns c).conn.status = .opened := by
  obtain ⟨t, ht, howner⟩ :=
    hsound.affine.instr_serving hsound.owned hinstr c (Pc.serves_of_answers hc)
  have hlt : c < s.nextConn := hsound.adopted.known c t howner
  have hstatus := hinstr.status_eq hlt
  have hconn : ∀ m, (s.pc a).holds = some m → (next.msgs m).conn = (s.msgs m).conn :=
    fun m hm => hinstr.msg_conn (State.lt_of_live (hsound.owned.held hm).1)
  have hopened := h a
  generalize s.pc a = pc at hinstr hstatus hconn hopened
  cases hinstr
  case request t' fd c' out decoded conn chunks request hslot halive hread =>
    obtain rfl : c' = c := by
      have hnew : ((((s.receive c' conn chunks).xvMessageInit c' request none).msgs
          s.nextMsg).conn) = c' := by
        simp [State.xvMessageInit, State.addRef, State.setConn, State.receive]
      rw [← hnew]
      split at hc
      · exact Option.some.inj hc
      · exact absurd hc (by simp [Pc.answers])
    rw [hstatus (by simp)]
    exact readAndDecode_request hread
  case process t' m response =>
    rw [hstatus (by simp)]
    refine hopened c ?_
    rw [← hc]
    exact congrArg some (hconn m rfl).symm
  case returnedOpen t' m hopen =>
    obtain rfl : (s.msgs m).conn = c := Option.some.inj hc
    cases hst : (s.conns (s.msgs m).conn).conn.status with
    | opened => rfl
    | closed => exact absurd hst hopen
  case closeBusy t' c' resume _ | closeFree t' c' resume =>
    cases resume <;> exact absurd hc (by simp [Resume.pc, Pc.answers])
  case respond | write => split at hc <;> exact absurd hc (by simp [Pc.answers])
  case finish t' m' origin =>
    cases origin <;> exact absurd hc (by simp [Origin.pc, Pc.answers])
  case work i thread hrun hstep =>
    cases hthread : thread.pc <;> simp [hthread, WorkerPc.callback, Pc.answers] at hc
  all_goals exact absurd hc (by simp [Pc.answers])

theorem State.Opened.instr (h : s.Opened) (hsound : s.Sound) {a : Agent} {act : Act P}
    {next : State P} {pc' : Pc P} (hinstr : Instr cfg ctl s a (s.pc a) act next pc') :
    (next.goto a pc').Opened := by
  intro b c hc
  show (next.conns c).conn.status = .opened
  by_cases hb : b = a
  · subst hb
    rw [State.goto_pc_self] at hc
    exact h.instr_own hsound hinstr c hc
  · rw [State.goto_pc_of_ne _ _ hb, hinstr.pc_eq] at hc
    have hserves := Pc.serves_of_answers hc
    have hmsgs : (s.pc b).serves (next.goto a pc').msgs = (s.pc b).serves s.msgs :=
      Pc.serves_congr _ fun m hm =>
        hinstr.msg_conn (State.lt_of_live (hsound.owned.held hm).1)
    rw [hmsgs] at hserves
    obtain ⟨t, -, howner⟩ := hsound.affine.serving b c hserves
    -- Only the thread in the callback could have closed the connection.
    rw [hinstr.status_eq (hsound.adopted.known c t howner) fun resume hclose =>
      hb (hsound.affine.serving_unique hserves (by rw [hclose]; rfl))]
    refine h b c ?_
    rw [← hserves, ← hmsgs]
    cases hpc : s.pc b <;> simp_all [Pc.answers, Pc.serves]

theorem State.Opened.refs (h : s.Opened) {next : State P} (hsame : s.SameButRefs next) :
    next.Opened := by
  intro a c hc
  obtain ⟨refCount, userRefs, hconn⟩ := hsame.conns c
  rw [hsame.pc, hsame.msgs] at hc
  rw [hconn]
  exact h a c hc

theorem State.Opened.init : (State.init : State P).Opened :=
  fun a c h => by cases a <;> cases h

/-- **A response is made for open connections only.** -/
theorem State.opened (h : Reachable (State.step cfg ctl) (· = State.init) s) : s.Opened := by
  refine State.invariant h .init fun s label s' hsound hopened _ hstep => ?_
  rcases State.step_split hstep with ⟨a, act, next, pc, -, -, hinstr, rfl⟩ | hsame
  · exact hopened.instr hsound hinstr
  · exact hopened.refs hsame

theorem State.Answering.instr_done (h : s.Answering) (hsound : s.Sound) {a : Agent}
    {act : Act P} {next : State P} {pc' : Pc P}
    (hinstr : Instr cfg ctl s a (s.pc a) act next pc') (m : Nat)
    (hm : pc'.answered = some m) : next.Answered m := by
  have hheld : ∀ m, (s.pc a).holds = some m → m < s.nextMsg :=
    fun m hm => State.lt_of_live (hsound.owned.held hm).1
  have hkeep : (s.pc a).answered = some m → next.msgs m = s.msgs m → next.Answered m :=
    fun hold hmsg => (h.done a m hold).instr hsound hinstr
      (hheld m (Pc.holds_of_answered hold)) hmsg
  have hopened := h.opened a
  have hhandle : ∀ m, m < s.nextMsg →
      (next.conns (s.msgs m).conn).conn.handle = (s.conns (s.msgs m).conn).conn.handle :=
    fun m hm => (hinstr.kept (hsound.counted.conns m hm)).handle
  generalize s.pc a = pc at hinstr hheld hkeep hopened
  cases hinstr
  case respond t m' c origin pieces out sent encodes hc hsent hencodes =>
    obtain rfl : m' = m := by
      split at hm <;> exact Option.some.inj hm
    subst hc
    have hopen := hopened _ rfl
    have hmsg : ((s.markEncoded m' encodes).sent t (s.msgs m').conn sent).msgs m' =
        { s.msgs m' with encoded := (s.msgs m').encoded + if encodes then 1 else 0 } := by
      simp [State.markEncoded, State.sent]
    unfold State.Answered
    rw [hmsg]
    dsimp only
    rw [hhandle m' (hheld m' rfl)]
    cases hresponse : (s.msgs m').response with
    | none => exact Or.inl rfl
    | some response =>
        refine Or.inr ?_
        cases hencode : (s.conns (s.msgs m').conn).conn.handle.encode with
        | false => exact Or.inl rfl
        | true =>
            rw [hresponse, hencode, hopen] at hencodes
            refine Or.inr ?_
            simp [hencodes]
  case close t c owner resume howner | closeLast t c resume href | closeDel t c resume
      | closeFd t c resume =>
    cases resume with
    | poll => exact absurd hm (by simp [Pc.answered])
    | finish m' origin => exact hkeep hm rfl
  case closeBusy t c resume _ | closeFree t c resume =>
    cases resume with
    | poll => exact absurd hm (by simp [Resume.pc, Pc.answered])
    | finish m' origin => exact hkeep hm rfl
  case write | request => split at hm <;> exact absurd hm (by simp [Pc.answered])
  case finish t m' origin =>
    cases origin <;> exact absurd hm (by simp [Origin.pc, Pc.answered])
  case work i thread hrun hstep =>
    cases hthread : thread.pc <;> simp [hthread, WorkerPc.callback, Pc.answered] at hm
  all_goals exact absurd hm (by simp [Pc.answered])

/-- One instruction. -/
theorem State.Answering.instr (h : s.Answering) (hsound : s.Sound) {a : Agent} {act : Act P}
    {next : State P} {pc' : Pc P} (hok : ReturnsOpen s (.act a act))
    (hinstr : Instr cfg ctl s a (s.pc a) act next pc') : (next.goto a pc').Answering := by
  have hother : ∀ {b : Agent}, b ≠ a → (next.goto a pc').pc b = s.pc b := fun hb => by
    rw [State.goto_pc_of_ne _ _ hb, hinstr.pc_eq]
  refine ⟨State.Opened.instr h.opened hsound hinstr, ?_, ?_⟩
  · intro b m hm
    by_cases hb : b = a
    · subst hb
      rw [State.goto_pc_self] at hm
      exact h.instr_done hsound hinstr m hm
    · rw [hother hb] at hm
      obtain ⟨hlive, hunique⟩ := hsound.owned.held (Pc.holds_of_answered hm)
      have hlt := State.lt_of_live hlive
      show next.Answered m
      refine (h.done b m hm).instr hsound hinstr hlt (hinstr.msg_eq hlt fun hholds => hb ?_)
      exact (Place.held.inj (hunique (.held a) (by simp [State.contents, hholds]))).symm
  · intro m hm hdestroyed
    have hdestroyed : (next.msgs m).destroyed ≠ 0 := hdestroyed
    rcases hinstr.nextMsg_cases hm with hlt | ⟨-, -, -, hzero⟩
    · have hlive : (s.pc a).holds = some m → (s.msgs m).destroyed = 0 :=
        fun hholds => State.destroyed_of_live (hsound.owned.held hholds).1
      by_cases hholds : (s.pc a).holds = some m
      · have hstep := hinstr.messageStep hlt
        have hdone := h.done a m
        have hreturned : s.pc a = .returned m →
            (s.conns (s.msgs m).conn).conn.status = .closed → s.Answered m := by
          intro hpc hstatus
          simp only [ReturnsOpen, hpc] at hok
          unfold State.Answered
          cases hencode : (s.conns (s.msgs m).conn).conn.handle.encode with
          | false => exact Or.inr (Or.inl rfl)
          | true => exact Or.inl (Option.isNone_iff_eq_none.mp (hok hstatus hencode))
        have hhandle := (hinstr.kept (hsound.counted.conns m hlt)).handle
        have hconn := hinstr.msg_conn hlt
        unfold State.Answered at hdone hreturned ⊢
        show (next.msgs m).response = none ∨
          (next.conns (next.msgs m).conn).conn.handle.encode = false ∨ 0 < (next.msgs m).encoded
        rw [hconn, hhandle]
        generalize s.pc a = pc at hstep hdone hreturned hlive hholds
        generalize next.msgs m = message at hstep hdestroyed
        cases hstep with
        | same => exact absurd (hlive hholds) hdestroyed
        | process response | taskProcess response => exact absurd (hlive hholds) hdestroyed
        | respond origin hencodes => exact absurd (hlive hholds) hdestroyed
        | finish origin => simpa [State.xvMessageDestroy] using hdone rfl
        | returned hstatus => simpa [State.xvMessageDestroy] using hreturned rfl hstatus
      · have hsame := hinstr.msg_eq hlt hholds
        show next.Answered m
        refine (h.destroyed m hlt ?_).instr hsound hinstr hlt hsame
        rwa [← hsame]
    · exact absurd hzero hdestroyed

theorem State.Answering.refs (h : s.Answering) {next : State P} (hsame : s.SameButRefs next) :
    next.Answering := by
  have hconn : ∀ c, (next.conns c).conn.handle = (s.conns c).conn.handle := by
    intro c
    obtain ⟨refCount, userRefs, hc⟩ := hsame.conns c
    rw [hc]
  have hanswered : ∀ m, s.Answered m → next.Answered m := by
    intro m hm
    unfold State.Answered
    rw [hsame.msgs, hconn]
    exact hm
  refine ⟨State.Opened.refs h.opened hsame, ?_, ?_⟩
  · intro a m hm
    rw [hsame.pc] at hm
    exact hanswered m (h.done a m hm)
  · intro m hm hdestroyed
    rw [hsame.nextMsg] at hm
    rw [hsame.msgs] at hdestroyed
    exact hanswered m (h.destroyed m hm hdestroyed)

theorem State.Answering.step (h : s.Answering) (hsound : s.Sound) {label : Label P}
    {s' : State P} (hok : ReturnsOpen s label) (hstep : s.step cfg ctl label = some s') :
    s'.Answering := by
  rcases State.step_split hstep with ⟨a, act, next, pc, rfl, -, hinstr, rfl⟩ | hsame
  · exact h.instr hsound hok hinstr
  · exact h.refs hsame

theorem State.Answering.init : (State.init : State P).Answering where
  opened := State.Opened.init
  done := fun a m h => by cases a <;> cases h
  destroyed := fun m hm => absurd hm (Nat.not_lt_zero m)

/--
**No response is dropped silently in a run whose messages with a response come back to open
connections**: a destroyed message that had a response was passed to `encode` while its
connection was open, or to `on_send_failed`.
-/
theorem responses_answered
    (h : Reach (State.step cfg ctl) ReturnsOpen (· = State.init) s) {m : Nat}
    (hm : m < s.nextMsg) (hdestroyed : (s.msgs m).destroyed ≠ 0)
    (hresponse : (s.msgs m).response ≠ none)
    (hencode : (s.conns (s.msgs m).conn).conn.handle.encode = true) :
    0 < (s.msgs m).encoded ∨ 0 < (s.msgs m).sendFailed := by
  have hanswering : s.Answering :=
    State.invariant h .init fun _ _ _ hsound hs hok hstep => hs.step hsound hok hstep
  rcases hanswering.destroyed m hm hdestroyed with hnone | hno | hpos
  · exact absurd hnone hresponse
  · exact absurd (hno.symm.trans hencode) (by decide)
  · exact Or.inl hpos

/-- The io thread answers the message and destroys it. -/
def answerOne : List (Label Unit) :=
  goes (.io 0) 1 ++ [.act (.io 0) (.respond [] (.wrote 0))] ++ goes (.io 0) 1

theorem responses_answered_open :
    ∃ s : State Unit, (s.msgs 0).destroyed = 1 ∧
      (0 < (s.msgs 0).encoded ∨ 0 < (s.msgs 0).sendFailed) := by
  have hrun : ∃ s : State Unit,
      Reach (State.step inlineConfig acceptAll) ReturnsOpen (· = State.init) s ∧ s.nextMsg = 1 ∧
        (s.msgs 0).destroyed = 1 ∧ (s.msgs 0).response = some () ∧
          (s.conns (s.msgs 0).conn).conn.handle = fullHandle :=
    ⟨_, Reach.play (acceptOne ++ sendOne ++ popReturned ++ answerOne) (.start rfl) (by decide) rfl,
      rfl, rfl, rfl, rfl⟩
  obtain ⟨s, hreach, hnext, hdestroyed, hresponse, hhandle⟩ := hrun
  exact ⟨s, hdestroyed, responses_answered hreach (by omega) (by omega) (by simp [hresponse])
    (by rw [hhandle]; rfl)⟩

/-- The connection closes while the message is on its way: the response is gone, and nobody
is told. -/
theorem response_dropped :
    ∃ s : State Unit, Reachable (State.step inlineConfig acceptAll) (· = State.init) s ∧
      (s.conns 0).conn.handle = fullHandle ∧ (s.msgs 0).response = some () ∧
      (s.msgs 0).destroyed = 1 ∧ (s.msgs 0).encoded = 0 ∧ (s.msgs 0).sendFailed = 0 :=
  ⟨_, Reachable.play
    (acceptOne ++ sendOne ++ readEof ++ popReturned ++ goes (.io 0) 1)
    (.start rfl) rfl, rfl, rfl, rfl, rfl, rfl⟩

end Libxv
