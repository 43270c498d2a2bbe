/-
Message conservation.

A message is made once, is in one place until it is destroyed, and is destroyed by a thread
that holds it, which is when its packets are cleaned up.  From the time it is pushed to a
`message_queue` until the io thread pops it nobody looks at it.
-/
import Libxv.Proofs.Service.Affinity

namespace Libxv

open Function Transition Placement

variable {P : Type} {cfg : Config} {ctl : EpollCtl} {s : State P}

/-! ### What an instruction does to a message -/

/-- What happens to a message that exists: nothing, or one thing at the hands of the thread
that holds it. -/
inductive MessageStep (s : State P) (m : Nat) : Pc P → Message P → Prop
  | same (pc : Pc P) : MessageStep s m pc (s.msgs m)
  | process (response : Option P) : MessageStep s m (.process m)
      { s.msgs m with response := response }
  | taskProcess (response : Option P) : MessageStep s m (.taskProcess m)
      { s.msgs m with response := response }
  | respond (origin : Origin) {encodes : Bool}
      (hencodes : encodes = ((s.msgs m).response.isSome &&
        (s.conns (s.msgs m).conn).conn.handle.encode &&
        (s.conns (s.msgs m).conn).conn.status = .opened)) :
      MessageStep s m (.respond m origin)
        { s.msgs m with encoded := (s.msgs m).encoded + if encodes then 1 else 0 }
  | finish (origin : Origin) :
      MessageStep s m (.finish m origin) ((s.xvMessageDestroy m).msgs m)
  | returned (h : (s.conns (s.msgs m).conn).conn.status = .closed) :
      MessageStep s m (.returned m) ((s.xvMessageDestroy m).msgs m)

theorem Instr.messageStep {a : Agent} {pc pc' : Pc P} {act : Act P} {next : State P}
    (h : Instr cfg ctl s a pc act next pc') {m : Nat} (hm : m < s.nextMsg) :
    MessageStep s m pc (next.msgs m) := by
  cases h
  case request | sendInit =>
    have hne : m ≠ s.nextMsg := Nat.ne_of_lt hm
    simp only [State.xvMessageInit, State.addRef, State.setConn, State.receive, update_of_ne hne]
    exact .same _
  case finish t m' origin =>
    by_cases hmm : m = m'
    · subst hmm
      exact .finish origin
    · simp only [State.xvMessageDestroy, State.addRef, State.setConn, update_of_ne hmm]
      exact .same _
  case returnedClosed t m' hstatus =>
    by_cases hmm : m = m'
    · subst hmm
      exact .returned hstatus
    · simp only [State.xvMessageDestroy, State.addRef, State.setConn, update_of_ne hmm]
      exact .same _
  case process t m' response =>
    by_cases hmm : m = m'
    · subst hmm
      simp only [State.setResponse, update_self]
      exact .process response
    · simp only [State.setResponse, update_of_ne hmm]
      exact .same _
  case taskProcess i m' response =>
    by_cases hmm : m = m'
    · subst hmm
      simp only [State.setResponse, update_self]
      exact .taskProcess response
    · simp only [State.setResponse, update_of_ne hmm]
      exact .same _
  case respond t m' c origin pieces out sent encodes hc hsent hencodes =>
    subst hc
    by_cases hmm : m = m'
    · subst hmm
      simp only [State.markEncoded, State.sent, update_self]
      exact .respond origin hencodes
    · simp only [State.markEncoded, State.sent, update_of_ne hmm]
      exact .same _
  all_goals exact .same _

/-- A request is set when its message is made. -/
theorem Instr.msg_request {a : Agent} {pc pc' : Pc P} {act : Act P} {next : State P}
    (h : Instr cfg ctl s a pc act next pc') {m : Nat} (hm : m < s.nextMsg) :
    (next.msgs m).request = (s.msgs m).request := by
  have hstep := h.messageStep hm
  generalize next.msgs m = message at hstep
  cases hstep with
  | finish | returned => simp [State.xvMessageDestroy]
  | _ => rfl

/-- A message that the thread does not hold stays as it is. -/
theorem Instr.msg_eq {a : Agent} {act : Act P} {next : State P} {pc' : Pc P} {m : Nat}
    (hinstr : Instr cfg ctl s a (s.pc a) act next pc') (hm : m < s.nextMsg)
    (hpc : (s.pc a).holds ≠ some m) : next.msgs m = s.msgs m := by
  have hstep := hinstr.messageStep hm
  generalize s.pc a = pc at hstep hpc
  generalize next.msgs m = message at hstep ⊢
  cases hstep with
  | same => rfl
  | _ => exact absurd rfl hpc

theorem State.destroyed_of_live {m : Nat} (h : s.live m = true) : (s.msgs m).destroyed = 0 := by
  simp only [State.live, Bool.and_eq_true, beq_iff_eq] at h
  exact h.2

/-- Nothing brings a destroyed message back. -/
theorem Instr.live_before {a : Agent} {pc pc' : Pc P} {act : Act P} {next : State P}
    (hinstr : Instr cfg ctl s a pc act next pc') {m : Nat} (hm : m < s.nextMsg)
    (hlive : next.live m = true) : s.live m = true := by
  have hzero : (next.msgs m).destroyed = 0 := State.destroyed_of_live hlive
  have hstep := hinstr.messageStep hm
  have hbefore : (s.msgs m).destroyed = 0 := by
    generalize next.msgs m = message at hstep hzero
    cases hstep with
    | finish | returned => simp [State.xvMessageDestroy] at hzero
    | _ => exact hzero
  simp [State.live, hm, hbefore]

/-- A message that is there now was there before, or has just been made. -/
theorem Instr.nextMsg_cases {a : Agent} {pc pc' : Pc P} {act : Act P} {next : State P}
    (h : Instr cfg ctl s a pc act next pc') {m : Nat} (hm : m < next.nextMsg) :
    m < s.nextMsg ∨ ((next.msgs m).encoded = 0 ∧ (next.msgs m).cleanedRequest = 0 ∧
      (next.msgs m).cleanedResponse = 0 ∧ (next.msgs m).destroyed = 0) := by
  cases h
  case request | sendInit =>
    have hm : m < s.nextMsg + 1 := hm
    by_cases hnew : m = s.nextMsg
    · subst hnew
      simp [State.xvMessageInit, State.addRef, State.setConn, State.receive]
    · exact Or.inl (by omega)
  all_goals exact Or.inl hm

/-! ### Destroyed once, cleaned up once -/

/-- How often a packet has been cleaned up: once, if its message is destroyed, the handle
has a `packet_cleanup` and the packet is not null. -/
def timesCleaned (destroyed : Nat) (cleanup : Bool) (packet : Option P) : Nat :=
  if destroyed = 1 ∧ cleanup = true ∧ packet.isSome = true then 1 else 0

/-- A message is destroyed at most once, and its packets are cleaned up with it. -/
structure Message.Settled (message : Message P) (cleanup : Bool) : Prop where
  destroyed : message.destroyed ≤ 1
  request : message.cleanedRequest = timesCleaned message.destroyed cleanup message.request
  response : message.cleanedResponse = timesCleaned message.destroyed cleanup message.response

/-- The connection's handle says whether packets are cleaned up. -/
def State.cleanup (s : State P) (m : Nat) : Bool :=
  (s.conns (s.msgs m).conn).conn.handle.packetCleanup

def State.Settled (s : State P) : Prop := ∀ m, m < s.nextMsg → (s.msgs m).Settled (s.cleanup m)

theorem Message.Settled.destroy {m : Nat} (h : (s.msgs m).Settled (s.cleanup m))
    (hlive : (s.msgs m).destroyed = 0) :
    ((s.xvMessageDestroy m).msgs m).Settled (s.cleanup m) := by
  have hrequest := h.request
  have hresponse := h.response
  simp only [timesCleaned, hlive] at hrequest hresponse
  unfold State.cleanup
  refine ⟨?_, ?_, ?_⟩ <;>
    simp only [State.xvMessageDestroy, State.addRef, State.setConn, update_self]
  · omega
  · rw [hrequest, hlive]
    simp [timesCleaned]
  · rw [hresponse, hlive]
    simp [timesCleaned]

theorem State.Settled.instr (h : s.Settled) (hsound : s.Sound) {a : Agent} {act : Act P}
    {next : State P} {pc' : Pc P} (hinstr : Instr cfg ctl s a (s.pc a) act next pc') :
    next.Settled := by
  intro m hm
  rcases hinstr.nextMsg_cases hm with hlt | ⟨-, hrequest, hresponse, hdestroyed⟩
  · have hcleanup : next.cleanup m = s.cleanup m := by
      unfold State.cleanup
      rw [hinstr.msg_conn hlt, (hinstr.kept (hsound.counted.conns m hlt)).handle]
    have hlive : (s.pc a).holds = some m → (s.msgs m).destroyed = 0 :=
      fun hm => State.destroyed_of_live (hsound.owned.held hm).1
    have hstep := hinstr.messageStep hlt
    rw [hcleanup]
    generalize s.pc a = pc at hstep hlive
    generalize next.msgs m = message at hstep
    cases hstep with
    | same => exact h m hlt
    | process response | taskProcess response =>
        have hold := h m hlt
        have hresponse := hold.response
        simp only [timesCleaned, hlive rfl] at hresponse
        refine ⟨hold.destroyed, hold.request, ?_⟩
        simp [timesCleaned, hlive rfl, hresponse]
    | respond origin hencodes =>
        exact ⟨(h m hlt).destroyed, (h m hlt).request, (h m hlt).response⟩
    | finish origin => exact (h m hlt).destroy (hlive rfl)
    | returned hstatus => exact (h m hlt).destroy (hlive rfl)
  · exact ⟨by omega, by simp [timesCleaned, hrequest, hdestroyed],
      by simp [timesCleaned, hresponse, hdestroyed]⟩

theorem State.Settled.step (h : s.Settled) (hsound : s.Sound) {label : Label P} {s' : State P}
    (hstep : s.step cfg ctl label = some s') : s'.Settled := by
  rcases State.step_split hstep with ⟨a, act, next, pc, -, -, hinstr, rfl⟩ | hsame
  · exact fun m hm => h.instr hsound hinstr m hm
  · intro m hm
    obtain ⟨refCount, userRefs, hconn⟩ := hsame.conns (s.msgs m).conn
    unfold State.cleanup
    rw [hsame.msgs, hconn]
    exact h m (hsame.nextMsg ▸ hm)

/-! ### Who reads a message -/

theorem Pc.holds_of_reads {pc : Pc P} {m : Nat} (h : pc.reads = some m) : pc.holds = some m := by
  cases pc <;> simp_all [Pc.reads, Pc.holds]

end Libxv
