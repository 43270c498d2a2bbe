/-
The byte stream of a socket.

`process_message` and `on_connection_write` take turns at the `write_buffer` of a connection,
the one with what `encode` appends and a first `write`, the other with what was left.  In a
running service nobody else touches it, so what the socket has taken, followed by what the
buffer still holds, is what the answers have encoded, in the order of the answers.
-/
import Libxv.Proofs.Service.SendOrder
import Libxv.Proofs.Service.Replies
import Libxv.Proofs.Output

namespace Libxv

open Function Transition

variable {P : Type} {cfg : Config} {ctl : EpollCtl} {s : State P} {c : Nat}
  {trace : List Delivery}

/-! ### Who touches a write buffer -/

theorem readAndDecode_writeBuffer {conn conn' : Conn} {out : ReadOut} {decoded : DecodeOut P}
    {chunks : List Chunk} {next : Decoded P}
    (h : readAndDecode conn out decoded = some (conn', chunks, next)) :
    conn'.writeBuffer = conn.writeBuffer := (readAndDecode_sameIos h).writeBuffer

/-- Only the two functions that write to the socket change a write buffer. -/
theorem Instr.writeBuffer_eq {a : Agent} {pc pc' : Pc P} {act : Act P} {next : State P}
    (h : Instr cfg ctl s a pc act next pc') (hc : c < s.nextConn)
    (hrespond : ∀ m origin, pc = .respond m origin → (s.msgs m).conn ≠ c)
    (hwrite : ∀ fd out, pc = .poll → act = .write fd out →
      ∀ t, a = .io t → ((s.io t).loop.slot fd).writeIo ≠ some c) :
    (next.conns c).conn.writeBuffer = (s.conns c).conn.writeBuffer := by
  have hset : ∀ {i : Nat} {conn : Connection},
      (c = i → conn.conn.writeBuffer = (s.conns i).conn.writeBuffer) →
      (update s.conns i conn c).conn.writeBuffer = (s.conns c).conn.writeBuffer := by
    intro i conn hbuffer
    by_cases hci : c = i
    · subst hci
      rw [update_self]
      exact hbuffer rfl
    · rw [update_of_ne hci]
  cases h
  case accept t fd handle mem ht hfd => exact hset fun hnew => absurd hnew (Nat.ne_of_lt hc)
  case respond t m c' origin pieces out sent encodes hc' hsent hencodes =>
    exact hset fun hcc => absurd (hc'.symm.trans hcc.symm) (hrespond m origin rfl)
  case write t fd c' out sent hslot halive hsent =>
    exact hset fun hcc => absurd (hcc ▸ hslot) (hwrite fd out rfl rfl t rfl)
  case readBack t fd c' out decoded conn chunks hslot halive hread
      | readClose t fd c' out decoded conn chunks hslot halive hread =>
    exact hset fun _ => readAndDecode_writeBuffer hread
  case request t fd c' out decoded conn chunks request hslot halive hread =>
    have hbuffer := readAndDecode_writeBuffer hread
    by_cases hcc : c = c'
    · subst hcc
      simpa [State.xvMessageInit, State.addRef, State.setConn, State.receive] using hbuffer
    · simp [State.xvMessageInit, State.addRef, State.setConn, State.receive, hcc]
  case close t c' owner resume howner => exact hset fun _ => closeConnection_writeBuffer ..
  case closeDel | closeFd | closeFree | freeReturned | assignSelf | adopt | sendInit | finish
      | returnedClosed =>
    exact hset fun _ => rfl
  all_goals rfl

/-! ### One instruction -/

/-- The bytes of connection `c`: what an instruction brings, and what the socket takes of it. -/
structure Wired (c : Nat) (s next : State P) (taken encoded : List UInt8) : Prop where
  wf : (next.conns c).conn.writeBuffer.WF
  bytes : taken ++ (next.conns c).conn.writeBuffer.readable =
    (s.conns c).conn.writeBuffer.readable ++ encoded

theorem Wired.same (hwf : (s.conns c).conn.writeBuffer.WF) {next : State P}
    (h : (next.conns c).conn.writeBuffer = (s.conns c).conn.writeBuffer) :
    Wired c s next [] [] :=
  ⟨h ▸ hwf, by rw [h, List.nil_append, List.append_nil]⟩

theorem Wired.flow {next : State P} {sent : Sent} (h : (next.conns c).conn = sent.conn)
    (hflow : sent.Flow (s.conns c).conn) : Wired c s next sent.accepted sent.encoded :=
  ⟨h ▸ hflow.wf, h ▸ hflow.bytes⟩

theorem acceptedOn_append (c : Nat) (l l' : List Delivery) :
    acceptedOn c (l ++ l') = acceptedOn c l ++ acceptedOn c l' := List.flatMap_append

theorem acceptedOn_eq_nil (h : ∀ e ∈ trace, e.conn ≠ c) : acceptedOn c trace = [] := by
  unfold acceptedOn
  rw [List.flatMap_eq_nil_iff]
  intro e he
  cases e with
  | answered origin c' m bytes accepted => exact if_neg (h _ he)
  | wrote c' accepted => exact if_neg (h _ he)
  | _ => rfl

theorem Instr.wired (hsound : s.Sound) {a : Agent} {act : Act P} {next : State P} {pc' : Pc P}
    (hinstr : Instr cfg ctl s a (s.pc a) act next pc') (hc : c < s.nextConn)
    (hwf : (s.conns c).conn.writeBuffer.WF) :
    Wired c s next (acceptedOn c (s.deliversAt ctl a (s.pc a) act).toList)
      (encodedOn c (s.deliversAt ctl a (s.pc a) act).toList) := by
  have hstep := hinstr.deliveryStep hsound
  have hbuffer := hinstr.writeBuffer_eq hc
  generalize hpc : s.pc a = pc at hinstr hstep hbuffer
  generalize he : s.deliversAt ctl a pc act = e at hstep
  cases hstep with
  | push hpush hnext ha hholds hstage =>
      refine .same hwf (hbuffer (fun m origin hrespond => ?_) fun fd out hpoll => ?_)
      · simp [hrespond, Pc.pushes] at hpush
      · simp [hpoll, Pc.pushes] at hpush
  | @answer t m origin encodes sent ha hrespond hsent hnext hstage =>
      by_cases hm : (s.msgs m).conn = c
      · obtain ⟨response, pieces, out, hsent⟩ := hsent
        have hflow : sent.Flow (s.conns c).conn := by
          rw [hsent, hm]
          exact processMessage_flow ctl _ hwf response pieces out
        have hconn : (next.conns c).conn = sent.conn := by simp [hnext, State.sent, hm]
        simpa [acceptedOn, encodedOn, hm] using Wired.flow hconn hflow
      · have hsame := Wired.same hwf (hbuffer (fun m' origin' hpc' => by
          obtain ⟨rfl, -⟩ := Pc.respond.inj (hrespond.symm.trans hpc')
          exact hm) fun fd out hpoll => by simp [hrespond] at hpoll)
        simpa [acceptedOn, encodedOn, hm] using hsame
  | drop ha hreturned hclosed hnext hstage =>
      exact .same hwf (hbuffer (fun m origin hrespond => by simp [hreturned] at hrespond)
        fun fd out hpoll => by simp [hreturned] at hpoll)
  | @write t fd c' out sent ha hpoll hslot hsent hnext hstage =>
      subst ha
      by_cases hcc : c' = c
      · subst hcc
        have hflow : sent.Flow (s.conns c').conn := hsent ▸ onConnectionWrite_flow ctl _ hwf out
        have hencoded : sent.encoded = [] := hsent ▸ onConnectionWrite_encoded ..
        have hconn : (next.conns c').conn = sent.conn := by simp [hnext, State.sent]
        simpa [acceptedOn, encodedOn, hencoded] using Wired.flow hconn hflow
      · have hkeep : (next.conns c).conn.writeBuffer = (s.conns c).conn.writeBuffer := by
          simp [hnext, State.sent, Ne.symm hcc]
        simpa [acceptedOn, encodedOn, hcc] using Wired.same hwf hkeep
  | quiet hreturning hrespond =>
      refine .same hwf (hbuffer (fun m origin hpc' => absurd hpc' (hrespond m origin)) ?_)
      intro fd out hpoll hact t ha hslot
      subst hpoll hact ha
      simp [State.deliversAt, hslot] at he

/-! ### Every run -/

/-- What the socket has taken and what is still held are what has been encoded. -/
structure Connection.Streamed (conn : Connection) (taken encoded : List UInt8) : Prop where
  wf : conn.conn.writeBuffer.WF
  bytes : taken ++ conn.conn.writeBuffer.readable = encoded

theorem Wired.streamed {next : State P} {taken encoded taken' encoded' : List UInt8}
    (h : Wired c s next taken' encoded') (hs : (s.conns c).Streamed taken encoded) :
    (next.conns c).Streamed (taken ++ taken') (encoded ++ encoded') := by
  refine ⟨h.wf, ?_⟩
  calc
    taken ++ taken' ++ (next.conns c).conn.writeBuffer.readable
      = taken ++ (taken' ++ (next.conns c).conn.writeBuffer.readable) := List.append_assoc ..
    _ = taken ++ ((s.conns c).conn.writeBuffer.readable ++ encoded') := by rw [h.bytes]
    _ = taken ++ (s.conns c).conn.writeBuffer.readable ++ encoded' := (List.append_assoc ..).symm
    _ = encoded ++ encoded' := by rw [hs.bytes]

/-- Every connection's stream is what the record says. -/
def State.Streams (s : State P) (trace : List Delivery) : Prop :=
  ∀ c, c < s.nextConn → (s.conns c).Streamed (acceptedOn c trace) (encodedOn c trace)

theorem State.Streams.instr (h : s.Streams trace) (hsound : s.Sound)
    (hdelivered : s.Delivered trace) {a : Agent} {act : Act P} {next : State P} {pc' : Pc P}
    (hinstr : Instr cfg ctl s a (s.pc a) act next pc') :
    (next.goto a pc').Streams (trace ++ (s.deliversAt ctl a (s.pc a) act).toList) := by
  intro c hc
  show (next.conns c).Streamed _ _
  rw [acceptedOn_append, encodedOn_append]
  rcases hinstr.conns_cases hc with hlt | ⟨rfl, -, fd, handle, mem, rfl⟩
  · exact (hinstr.wired hsound hlt (h c hlt).wf).streamed (h c hlt)
  · have hknown := hinstr.delivers_known hsound
    have hold : ∀ e ∈ trace, e.conn ≠ s.nextConn := fun e he => Nat.ne_of_lt (hdelivered.known e he)
    have hnew : ∀ e ∈ (s.deliversAt ctl a (s.pc a) act).toList, e.conn ≠ s.nextConn :=
      fun e he => Nat.ne_of_lt (hknown e (Option.mem_toList.mp he))
    rw [acceptedOn_eq_nil hold, acceptedOn_eq_nil hnew, encodedOn_eq_nil hold,
      encodedOn_eq_nil hnew, State.accept_self]
    exact ⟨xvBufferInit_wf _ _, rfl⟩

theorem State.Streams.refs (h : s.Streams trace) {next : State P} (hsame : s.SameButRefs next) :
    next.Streams trace := by
  intro c hc
  obtain ⟨refCount, userRefs, hconn⟩ := hsame.conns c
  rw [hconn]
  obtain ⟨hwf, hbytes⟩ := h c (hsame.nextConn ▸ hc)
  exact ⟨hwf, hbytes⟩

theorem State.streams {x : Traced (State P) Delivery}
    (h : Reachable (Delivering cfg ctl) (Traced.Start (· = State.init)) x) :
    x.state.Streams x.trace := by
  refine h.invariant_along (I := fun x => x.state.Streams x.trace) ?_ ?_
  · intro x hx c hc
    have hstate : x.state = State.init := hx.state
    rw [hstate] at hc
    exact absurd hc (Nat.not_lt_zero c)
  · intro x label x' hreach hx _ hmove
    obtain ⟨hstep, htrace⟩ := traced_some hmove
    have hrun := Reach.untraced hreach
    rw [htrace]
    rcases State.step_cases hstep with ⟨a, act, next, pc, rfl, -, -, hinstr, hnext⟩ |
        ⟨c, rfl, -, hnext⟩ | ⟨c, rfl, -, -, hnext⟩
    · rw [hnext]
      exact hx.instr (State.sound hrun) (State.delivered hreach) hinstr
    · rw [hnext, State.delivers, Option.toList_none, List.append_nil]
      exact hx.refs (x.state.incrRef_same c)
    · rw [hnext, State.delivers, Option.toList_none, List.append_nil]
      exact hx.refs (x.state.decrRef_same c)

/--
**The socket of a connection carries its answers**: in every run, whatever the threads do in
between and whatever each `write` takes, the bytes the socket of a connection has taken,
followed by those still in `write_buffer`, are the encodings of its answers in their order.
-/
theorem socket_stream {x : Traced (State P) Delivery}
    (h : Reachable (Delivering cfg ctl) (Traced.Start (· = State.init)) x) {c : Nat}
    (hc : c < x.state.nextConn) :
    acceptedOn c x.trace ++ (x.state.conns c).conn.writeBuffer.readable = encodedOn c x.trace ∧
      encodedOn c x.trace = (x.state.conns c).appended :=
  ⟨(State.streams h c hc).bytes, ((State.delivered h).appended c hc).symm⟩

theorem socket_stream_partial_write : ∃ x : Traced (State Unit) Delivery,
    acceptedOn 0 x.trace = [7, 8] ∧ encodedOn 0 x.trace = [7, 8, 9] ∧
      (acceptedOn 0 x.trace ++ (x.state.conns 0).conn.writeBuffer.readable =
        encodedOn 0 x.trace ∧ encodedOn 0 x.trace = (x.state.conns 0).appended) := by
  have hrun : ∃ x : Traced (State Unit) Delivery,
      Reachable (Delivering inlineConfig acceptAll) (Traced.Start (· = State.init)) x ∧
        x.state.nextConn = 1 ∧ acceptedOn 0 x.trace = [7, 8] ∧
          encodedOn 0 x.trace = [7, 8, 9] :=
    ⟨_, Reachable.play
      (acceptOne ++ sendOne ++ popReturned ++ goes (.io 0) 1 ++
        [.act (.io 0) (.respond [⟨3, [7, 8, 9], Nat.le_refl 3⟩] (.wrote 1))] ++ goes (.io 0) 2 ++
        [.act (.io 0) (.write 5 (.wrote 1))])
      (.start (Traced.new_start rfl)) rfl, rfl, rfl, rfl⟩
  obtain ⟨x, hreach, hnext, haccepted, hencoded⟩ := hrun
  exact ⟨x, haccepted, hencoded, socket_stream hreach (by omega)⟩

end Libxv
