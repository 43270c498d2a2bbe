/-
The event tables of a running service show its open connections and nothing else.

A connection's slot is empty until its io thread adopts it and again from its close on, and
its fd is closed after that, so the next connection on the fd finds the slot empty.  An event
therefore never reaches a connection that is closed, let alone freed, and bytes that wait to
be sent have a write event.
-/
import Libxv.Proofs.Service.Calls
import Libxv.Proofs.Service.Closing
import Libxv.Proofs.Service.EventSlot
import Libxv.Proofs.Service.Slots

namespace Libxv

open Function Transition

variable {P : Type} {cfg : Config} {ctl : EpollCtl} {s : State P}

/-! ### Closed connections -/

/-- The connection a thread has closed and not left yet. -/
def Pc.shuts : Pc P → Option Nat
  | .closeRef c _ | .closeDel c _ | .closeFd c _ | .closeFree c _ | .freeReturned c => some c
  | _ => none

/-- Whatever is being released, or has been, is closed. -/
structure State.Shut (s : State P) : Prop where
  closing : ∀ a c, (s.pc a).shuts = some c → c < s.nextConn ∧ (s.conns c).conn.status = .closed
  cleaned : ∀ c, c < s.nextConn → (s.conns c).cleaned ≠ (0, 0, 0) →
    (s.conns c).conn.status = .closed

theorem Pc.shuts_of_releases {pc : Pc P} {c : Nat} (h : pc.releases = some c) :
    pc.shuts = some c := by
  cases pc <;> simp_all [Pc.releases, Pc.shuts]

/-- A closed connection stays closed. -/
theorem Instr.closed_after {a : Agent} {pc pc' : Pc P} {act : Act P} {next : State P}
    (hinstr : Instr cfg ctl s a pc act next pc') {c : Nat} (hc : c < s.nextConn)
    (h : (s.conns c).conn.status = .closed) : (next.conns c).conn.status = .closed := by
  by_contra hne
  have hopen := hinstr.status_before hc (Status.opened_of_ne hne)
  rw [h] at hopen
  exact absurd hopen (by decide)

theorem Resume.shuts_pc (resume : Resume) : (resume.pc : Pc P).shuts = none := by
  cases resume <;> rfl

theorem Origin.shuts_pc (origin : Origin) : (origin.pc : Pc P).shuts = none := by
  cases origin <;> rfl

theorem WorkerPc.callback_shuts (pc : WorkerPc PoolTask) : (pc.callback : Pc P).shuts = none := by
  cases pc <;> rfl

/-- A thread gets to where a connection is closed from there, or by closing it. -/
theorem Instr.shuts_cases {a : Agent} {pc pc' : Pc P} {act : Act P} {next : State P}
    (h : Instr cfg ctl s a pc act next pc') {c : Nat} (hc : pc'.shuts = some c) :
    pc.shuts = some c ∨ (∃ resume, pc = .close c resume) ∨
      ∃ m, pc = .returned m ∧ (s.msgs m).conn = c ∧ (s.conns c).conn.status = .closed := by
  cases h
  case close t c' owner resume howner =>
    exact Or.inr (Or.inl ⟨resume, by rw [← Option.some.inj hc]⟩)
  case closeBusy t c' resume hbusy => exact absurd (resume.shuts_pc.symm.trans hc) (by simp)
  case closeFree t c' resume => exact absurd (resume.shuts_pc.symm.trans hc) (by simp)
  case finish t m origin => exact absurd (origin.shuts_pc.symm.trans hc) (by simp)
  case work i thread hrun hstep => exact absurd (thread.pc.callback_shuts.symm.trans hc) (by simp)
  case returnedClosed t m hclosed =>
    obtain rfl : (s.msgs m).conn = c := Option.some.inj hc
    exact Or.inr (Or.inr ⟨m, rfl, rfl, hclosed⟩)
  case respond t m c' origin pieces out sent encodes hc' hsent hencodes =>
    split at hc <;> exact absurd hc (by simp [Pc.shuts])
  case request => split at hc <;> exact absurd hc (by simp [Pc.shuts])
  case write => split at hc <;> exact absurd hc (by simp [Pc.shuts])
  case closeLast | closeDel | closeFd => exact Or.inl hc
  all_goals cases hc

theorem State.Shut.instr (h : s.Shut) (hsound : s.Sound) {a : Agent} {act : Act P}
    {next : State P} {pc' : Pc P} (hinstr : Instr cfg ctl s a (s.pc a) act next pc') :
    (next.goto a pc').Shut where
  closing := by
    intro b c hb
    show c < next.nextConn ∧ (next.conns c).conn.status = .closed
    have hstay : c < s.nextConn → (s.conns c).conn.status = .closed →
        c < next.nextConn ∧ (next.conns c).conn.status = .closed := fun hlt hclosed =>
      ⟨Nat.lt_of_lt_of_le hlt hinstr.nextConn_le, hinstr.closed_after hlt hclosed⟩
    by_cases hba : b = a
    · subst hba
      rw [State.goto_pc_self] at hb
      rcases hinstr.shuts_cases hb with hbefore | ⟨resume, hpc⟩ | ⟨m, hpc, rfl, hclosed⟩
      · obtain ⟨hlt, hclosed⟩ := h.closing b c hbefore
        exact hstay hlt hclosed
      · have hserves : (s.pc b).serves s.msgs = some c := by rw [hpc]; rfl
        obtain ⟨t, rfl, -⟩ := hsound.affine.serving b c hserves
        rw [hpc] at hinstr
        exact ⟨Nat.lt_of_lt_of_le (hsound.lt_of_serves hserves).1 hinstr.nextConn_le,
          hinstr.status_closed⟩
      · have hserves : (s.pc b).serves s.msgs = some (s.msgs m).conn := by rw [hpc]; rfl
        exact hstay (hsound.lt_of_serves hserves).1 hclosed
    · rw [State.goto_pc_of_ne _ _ hba, hinstr.pc_eq] at hb
      obtain ⟨hlt, hclosed⟩ := h.closing b c hb
      exact hstay hlt hclosed
  cleaned := by
    intro c hc hcleaned
    show (next.conns c).conn.status = .closed
    have hcleaned : (next.conns c).cleaned ≠ (0, 0, 0) := hcleaned
    rcases hinstr.conns_cases hc with hlt | ⟨rfl, -, fd, handle, mem, rfl⟩
    · refine hinstr.closed_after hlt ?_
      rcases (hinstr.connStep_of_lt hlt).cleaned_cases with hsame | hreleases
      · exact h.cleaned c hlt (hsame ▸ hcleaned)
      · exact (h.closing a c (Pc.shuts_of_releases hreleases)).2
    · exact absurd (by simp [State.accept, Connection.cleaned]) hcleaned

theorem State.Shut.refs (h : s.Shut) {next : State P} (hsame : s.SameButRefs next) :
    next.Shut := by
  have hconn : ∀ c, (next.conns c).conn.status = (s.conns c).conn.status ∧
      (next.conns c).cleaned = (s.conns c).cleaned := by
    intro c
    obtain ⟨refCount, userRefs, hc⟩ := hsame.conns c
    rw [hc]
    exact ⟨rfl, rfl⟩
  constructor
  · intro a c hc
    rw [hsame.nextConn, (hconn c).1]
    exact h.closing a c (hsame.pc ▸ hc)
  · intro c hc hcleaned
    rw [(hconn c).1]
    rw [hsame.nextConn] at hc
    rw [(hconn c).2] at hcleaned
    exact h.cleaned c hc hcleaned

theorem State.Shut.init : (State.init : State P).Shut where
  closing := fun a c hc => by cases a <;> cases hc
  cleaned := fun c hc => absurd hc (Nat.not_lt_zero c)

theorem State.shut {ok : State P → Label P → Prop}
    (h : Reach (State.step cfg ctl) ok (· = State.init) s) : s.Shut := by
  refine State.invariant h .init fun s label s' hsound hshut _ hstep => ?_
  rcases State.step_split hstep with ⟨a, act, next, pc, rfl, -, hinstr, rfl⟩ | hsame
  · exact hshut.instr hsound hinstr
  · exact hshut.refs hsame

/-! ### What an instruction does to the loops -/

/-- The connections are the same to a loop, and have the same to send. -/
structure Conn.SameIos (conn conn' : Conn) : Prop where
  fd : conn'.fd = conn.fd
  readIo : conn'.readIo = conn.readIo
  writeIo : conn'.writeIo = conn.writeIo
  writeBuffer : conn'.writeBuffer = conn.writeBuffer
  status : conn'.status = conn.status
  ioThread : conn'.ioThread = conn.ioThread

theorem Conn.SameIos.refl (conn : Conn) : conn.SameIos conn := ⟨rfl, rfl, rfl, rfl, rfl, rfl⟩

theorem Conn.SameIos.update {conns conns' : Nat → Connection} {i : Nat} {x : Connection}
    (hconns : conns' = Function.update conns i x) (h : (conns i).conn.SameIos x.conn) (c : Nat) :
    (conns c).conn.SameIos (conns' c).conn := by
  subst hconns
  by_cases hc : c = i
  · subst hc
    rw [update_self]
    exact h
  · rw [update_of_ne hc]
    exact .refl _

theorem readAndDecode_sameIos {conn conn' : Conn} {out : ReadOut} {decoded : DecodeOut P}
    {chunks : List Chunk} {next : Decoded P}
    (h : readAndDecode conn out decoded = some (conn', chunks, next)) : conn.SameIos conn' := by
  obtain ⟨buffer, hread⟩ := onConnectionRead_fields conn out
  have hbuffer : ∀ buffer, conn.SameIos { conn with readBuffer := buffer } :=
    fun _ => ⟨rfl, rfl, rfl, rfl, rfl, rfl⟩
  unfold readAndDecode at h
  split at h
  · rename_i mid hmid
    simp only [Option.some.injEq, Prod.mk.injEq] at h
    rw [hmid] at hread
    have hmid : mid = { conn with readBuffer := buffer } := hread
    rw [← h.1, hmid]
    exact hbuffer buffer
  · rename_i mid hmid
    simp only [Option.some.injEq, Prod.mk.injEq] at h
    rw [hmid] at hread
    have hmid : mid = { conn with readBuffer := buffer } := hread
    rw [← h.1, hmid]
    exact hbuffer buffer
  · rename_i mid hmid
    rw [hmid] at hread
    have hmid : mid = { conn with readBuffer := buffer } := hread
    split at h
    · simp at h
    · simp only [Option.some.injEq, Prod.mk.injEq] at h
      obtain ⟨buffer', hdecoded⟩ := processReadBuffer_fields mid decoded
      rw [← h.1, hdecoded, hmid]
      exact hbuffer buffer'

/-- Nothing has changed but the connection and the loop of io thread `t`. -/
structure State.SameBut (s next : State P) (t c : Nat) : Prop where
  nextConn : next.nextConn = s.nextConn
  table : next.table = s.table
  loop : ∀ u, u ≠ t → (next.io u).loop = (s.io u).loop
  conn : ∀ d, d ≠ c → (next.conns d).conn = (s.conns d).conn
  fdClosed : ∀ d, (next.conns d).fdClosed = (s.conns d).fdClosed

/-- An instruction leaves the loops alone, makes a callback on a connection of the thread's,
or adopts one. -/
inductive LoopStep (ctl : EpollCtl) (s : State P) (a : Agent) (pc pc' : Pc P)
    (next : State P) : Prop
  | quiet (hloop : ∀ t, (next.io t).loop = (s.io t).loop)
      (hconn : ∀ c, c < s.nextConn → (s.conns c).conn.SameIos (next.conns c).conn)
  | serve (t c : Nat) (ha : a = .io t) (hpc : pc.withdraws = none) (halive : s.alive c = true)
      (howner : s.owner c = some t) (hsame : s.SameBut next t c)
      (hhandles : Shown (s.io t).loop (s.conns c).conn →
        Handles (s.io t).loop (s.conns c).conn (next.io t).loop (next.conns c).conn)
      (hregular : (s.conns c).conn.Regular → (next.conns c).conn.Regular)
      (hunsent : NotStranded (s.conns c).conn →
        NotStranded (next.conns c).conn ∨ ∃ resume, pc' = .close c resume)
  | adopt (t c : Nat) (hadopts : pc.adopts = some c) (hnext : next = s.adopt ctl t c)

/-- A function that writes to the socket has run on a connection of io thread `t`. -/
theorem LoopStep.sent {a : Agent} {pc pc' : Pc P} {next : State P} {t c : Nat} {sent : Sent}
    (ha : a = .io t) (hpc : pc.withdraws = none) (halive : s.alive c = true)
    (howner : s.owner c = some t) (hnext : next.nextConn = s.nextConn)
    (htable : next.table = s.table) (hio : next.io = (s.sent t c sent).io)
    (hconns : next.conns = (s.sent t c sent).conns)
    (hhandles : Shown (s.io t).loop (s.conns c).conn →
      Handles (s.io t).loop (s.conns c).conn sent.loop sent.conn)
    (hregular : (s.conns c).conn.Regular → sent.conn.Regular)
    (hunsent : NotStranded (s.conns c).conn → sent.close = false → NotStranded sent.conn)
    (hclose : sent.close = true → ∃ resume, pc' = .close c resume) :
    LoopStep ctl s a pc pc' next := by
  have hloop : (next.io t).loop = sent.loop := by simp [hio, State.sent]
  have hconn : (next.conns c).conn = sent.conn := by simp [hconns, State.sent]
  refine .serve t c ha hpc halive howner ⟨hnext, htable, ?_, ?_, ?_⟩ ?_ ?_ ?_
  · intro u hu
    simp [hio, State.sent, hu]
  · intro d hd
    simp [hconns, State.sent, hd]
  · intro d
    rw [hconns]
    exact update_same s.conns c _ Connection.fdClosed (by rfl) d
  · rw [hloop, hconn]
    exact hhandles
  · rw [hconn]
    exact hregular
  · rw [hconn]
    intro h
    cases hsent : sent.close with
    | true => exact Or.inr (hclose hsent)
    | false => exact Or.inl (hunsent h hsent)

theorem Instr.loopStep (hsound : s.Sound) {a : Agent} {act : Act P} {next : State P}
    {pc' : Pc P} (hsafe : s.safe a = true) (hinstr : Instr cfg ctl s a (s.pc a) act next pc') :
    LoopStep ctl s a (s.pc a) pc' next := by
  have hserving : ∀ t c, a = .io t → (s.pc a).serves s.msgs = some c → s.owner c = some t := by
    intro t c ha hc
    obtain ⟨t', ht', howner⟩ := hsound.affine.serving a c hc
    obtain rfl : t = t' := Agent.io.inj (ha.symm.trans ht')
    exact howner
  have htouch : ∀ c, (s.pc a).touches s.msgs = some c → s.alive c = true :=
    fun c hc => State.safe_alive hsafe hc
  generalize s.pc a = pc at hinstr hserving htouch
  cases hinstr
  case close t c owner resume howner =>
    have hne : (s.conns c).conn.ioThread ≠ none := by simp [howner]
    obtain rfl : owner = t := Option.some.inj (howner.symm.trans (hserving t c rfl rfl))
    refine .serve owner c rfl rfl (htouch c rfl) howner ⟨rfl, rfl, ?_, ?_, ?_⟩ ?_ ?_ ?_
    · intro u hu
      simp [State.markClosed, State.setLoop, State.setConn, hu]
    · intro d hd
      simp [State.markClosed, State.setLoop, State.setConn, hd]
    · intro d
      exact update_same s.conns c _ Connection.fdClosed (by rfl) d
    · intro hshown
      simpa [State.markClosed, State.setLoop, State.setConn] using closeConnection_handles hshown
    · intro hregular
      simpa [State.markClosed, State.setLoop, State.setConn] using
        closeConnection_regular hregular hne
    · intro _
      refine Or.inl fun hopen => ?_
      simp [State.markClosed, State.setLoop, State.setConn, closeConnection_status] at hopen
  case respond t m c origin pieces out sent encodes hc hsent hencodes =>
    have howner : s.owner c = some t := hserving t c rfl (by rw [hc]; rfl)
    have hne : (s.conns c).conn.ioThread ≠ none := fun hnone => by
      rw [State.owner, hnone] at howner
      cases howner
    refine .sent rfl rfl (htouch c (by rw [hc]; rfl)) howner rfl rfl rfl rfl ?_ ?_ ?_ ?_
    · intro hshown
      rw [hsent]
      exact processMessage_handles hshown _ _ _
    · intro hregular
      rw [hsent]
      exact processMessage_regular hregular hne _ _ _
    · intro hnot hclose
      rw [hsent] at hclose ⊢
      exact processMessage_notStranded hnot _ _ _ hclose
    · intro hclose
      exact ⟨_, if_pos hclose⟩
  case write t fd c out sent hslot halive hsent =>
    have howner : s.owner c = some t := hsound.affine.slots t fd c (Or.inr hslot)
    refine .sent rfl rfl halive howner rfl rfl rfl rfl ?_ ?_ ?_ ?_
    · intro hshown
      rw [hsent]
      exact onConnectionWrite_handles hshown _
    · intro hregular
      rw [hsent]
      exact onConnectionWrite_regular hregular _
    · intro hnot hclose
      rw [hsent] at hclose ⊢
      exact onConnectionWrite_notStranded hnot _ hclose
    · intro hclose
      exact ⟨_, if_pos hclose⟩
  case assignSelf t c hone => exact .adopt t c rfl rfl
  case adopt t c => exact .adopt t c rfl rfl
  case readBack t fd c out decoded conn chunks hslot halive hread =>
    exact .quiet (fun _ => rfl) fun c' _ => .update rfl (readAndDecode_sameIos hread) c'
  case readClose t fd c out decoded conn chunks hslot halive hread =>
    exact .quiet (fun _ => rfl) fun c' _ => .update rfl (readAndDecode_sameIos hread) c'
  case request t fd c out decoded conn chunks request hslot halive hread =>
    refine .quiet (fun _ => rfl) fun c' _ => ?_
    have hsame := readAndDecode_sameIos hread
    by_cases hc : c' = c
    · subst hc
      simp only [State.xvMessageInit, State.addRef, State.setConn, State.receive, update_self]
      exact ⟨hsame.fd, hsame.readIo, hsame.writeIo, hsame.writeBuffer, hsame.status,
        hsame.ioThread⟩
    · simp only [State.xvMessageInit, State.addRef, State.setConn, State.receive, update_of_ne hc]
      exact .refl _
  case accept t fd handle mem ht hfd =>
    refine .quiet (fun _ => rfl) fun c hc => ?_
    show (s.conns c).conn.SameIos (update s.conns s.nextConn _ c).conn
    rw [update_of_ne (Nat.ne_of_lt hc)]
    exact .refl _
  case entry | assignOther | sendConn | addConnRead | addConnPop | taskPush | sendPush | returnPop
      | returnRead | sendSignal | taskSend =>
    exact .quiet (fun t => update_same s.io _ _ IoThread.loop (by rfl) t) fun _ _ => .refl _
  case finish | returnedClosed | sendInit | closeDel | closeFd | closeFree | freeReturned =>
    refine .quiet (fun _ => rfl) fun c _ => .update (by rfl) ?_ c
    exact ⟨rfl, rfl, rfl, rfl, rfl, rfl⟩
  all_goals exact .quiet (fun _ => rfl) fun _ _ => .refl _

/-! ### Every run -/

/-- Every slot shows the connection whose fd it is, as long as its fd is not closed. -/
structure State.Registered (s : State P) : Prop where
  size : ∀ t, (s.io t).loop.setsize = s.table.setsize
  regular : ∀ c, c < s.nextConn → (s.conns c).conn.Proper ∧ (s.conns c).conn.Regular
  shown : ∀ c t, s.owner c = some t → (s.conns c).fdClosed = 0 →
    (s.io t).loop.slot (s.conns c).conn.fd = (s.conns c).conn.slot
  empty : ∀ t fd, (∀ c, s.owner c = some t → (s.conns c).fdClosed = 0 →
    (s.conns c).conn.fd ≠ fd) → (s.io t).loop.slot fd = .empty
  /-- A `write` that fails leaves bytes behind, and a close follows. -/
  unsent : ∀ c, c < s.nextConn →
    NotStranded (s.conns c).conn ∨ ∃ a resume, s.pc a = .close c resume

theorem State.Registered.shows (h : s.Registered) (hsound : s.Sound) (hexact : s.Exact) {c t : Nat}
    (howner : s.owner c = some t) (hzero : (s.conns c).fdClosed = 0) :
    Shown (s.io t).loop (s.conns c).conn where
  proper := (h.regular c (hsound.adopted.known c t howner)).1
  fd_lt := by rw [h.size]; exact hexact.below c (hsound.adopted.known c t howner)
  slot := h.shown c t howner hzero

/-- A connection in a callback of its io thread still has its fd. -/
theorem State.Listed.unclosed (h : s.Listed) (hsound : s.Sound) {t c : Nat}
    (halive : s.alive c = true) (howner : s.owner c = some t)
    (hpc : (s.pc (.io t)).withdraws = none) : (s.conns c).fdClosed = 0 := by
  rcases h.idle c halive with hzero | ⟨a, p, hp⟩
  · exact (Prod.mk.inj hzero).2
  · obtain ⟨u, rfl, hu⟩ := hsound.affine.serving a c (Pc.serves_of_withdraws hp)
    obtain rfl : u = t := Option.some.inj (hu.symm.trans howner)
    exact absurd (hp.symm.trans hpc) (by simp)

/-- The loop of a connection that is closed shows nothing of it. -/
theorem State.Registered.closed_empty (h : s.Registered) (hsound : s.Sound) {c t : Nat}
    (howner : s.owner c = some t) (hzero : (s.conns c).fdClosed = 0)
    (hclosed : (s.conns c).conn.status = .closed) :
    (s.io t).loop.slot (s.conns c).conn.fd = .empty := by
  have hregular := (h.regular c (hsound.adopted.known c t howner)).2
  rw [h.shown c t howner hzero]
  refine Conn.slot_stopped ?_ ?_
  · rw [← Bool.not_eq_true, hregular.reading, hclosed]
    simp
  · rw [← Bool.not_eq_true]
    intro hstart
    have hopen := (hregular.writing hstart).2
    rw [hclosed] at hopen
    exact absurd hopen (by decide)

/-- A slot that is no connection's stays empty, and that of a connection whose fd is closed
becomes it. -/
theorem State.Registered.quiet (h : s.Registered) (hsound : s.Sound) (hshut : s.Shut) {a : Agent}
    {act : Act P} {next : State P} {pc' : Pc P}
    (hinstr : Instr cfg ctl s a (s.pc a) act next pc')
    (hloop : ∀ t, (next.io t).loop = (s.io t).loop)
    (hconn : ∀ c, c < s.nextConn → (s.conns c).conn.SameIos (next.conns c).conn) {t fd : Nat}
    (hnone : ∀ c, next.owner c = some t → (next.conns c).fdClosed = 0 →
      (next.conns c).conn.fd ≠ fd) : (next.io t).loop.slot fd = .empty := by
  rw [hloop]
  by_cases hfree : ∀ c, s.owner c = some t → (s.conns c).fdClosed = 0 → (s.conns c).conn.fd ≠ fd
  · exact h.empty t fd hfree
  · push Not at hfree
    obtain ⟨c, howner, hzero, rfl⟩ := hfree
    have hlt := hsound.adopted.known c t howner
    have hsame := hconn c hlt
    have hwithdrawn : (next.conns c).fdClosed ≠ 0 := fun hzero' =>
      hnone c (hsame.ioThread.trans howner) hzero' hsame.fd
    rcases (hinstr.connStep_of_lt hlt).withdrawn_cases with
      hkept | ⟨resume, hpc⟩ | ⟨⟨resume, hpc⟩, -⟩
    · exact absurd ((Prod.mk.inj hkept).2.trans hzero) hwithdrawn
    · obtain ⟨u, rfl, -⟩ := hsound.affine.serving a c (by rw [hpc]; rfl)
      rw [hpc] at hinstr
      cases hinstr
      exact absurd (by simpa [State.delConnection] using hzero) hwithdrawn
    · exact h.closed_empty hsound howner hzero (hshut.closing a c (by rw [hpc]; rfl)).2

/-- A connection of io thread `t` has a new slot, and the other slots are as they were. -/
theorem State.Registered.served (h : s.Registered) (hsound : s.Sound) (hlisted : s.Listed)
    {next : State P} {t c : Nat} (hlt : c < s.nextConn) (hzero : (s.conns c).fdClosed = 0)
    (hbefore : s.owner c = some t ∨ s.owner c = none) (hsame : s.SameBut next t c)
    (howner : next.owner c = some t) (hfd : (next.conns c).conn.fd = (s.conns c).conn.fd)
    (hshown : Shown (next.io t).loop (next.conns c).conn)
    (hoff : ∀ fd, fd ≠ (s.conns c).conn.fd → (next.io t).loop.slot fd = (s.io t).loop.slot fd)
    (hsize : (next.io t).loop.setsize = (s.io t).loop.setsize) :
    (∀ u, (next.io u).loop.setsize = next.table.setsize) ∧
      (∀ d u, next.owner d = some u → (next.conns d).fdClosed = 0 →
        (next.io u).loop.slot (next.conns d).conn.fd = (next.conns d).conn.slot) ∧
      ∀ u fd, (∀ d, next.owner d = some u → (next.conns d).fdClosed = 0 →
        (next.conns d).conn.fd ≠ fd) → (next.io u).loop.slot fd = .empty := by
  have hother : ∀ d, d ≠ c → next.owner d = s.owner d := fun d hd =>
    congrArg Conn.ioThread (hsame.conn d hd)
  refine ⟨?_, ?_, ?_⟩
  · intro u
    rw [hsame.table, ← h.size u]
    by_cases hu : u = t
    · rw [hu, hsize]
    · rw [hsame.loop u hu]
  · intro d u hd hdzero
    by_cases hdc : d = c
    · subst hdc
      obtain rfl : t = u := Option.some.inj (howner.symm.trans hd)
      exact hshown.slot
    · rw [hother d hdc] at hd
      rw [hsame.fdClosed] at hdzero
      rw [hsame.conn d hdc, ← h.shown d u hd hdzero]
      by_cases hu : u = t
      · subst hu
        refine hoff _ fun heq => hdc ?_
        exact hlisted.apart d c (hsound.adopted.known d u hd) hlt hdzero hzero heq
      · rw [hsame.loop u hu]
  · intro u fd hnone
    by_cases hu : u = t
    · subst hu
      have hne : fd ≠ (s.conns c).conn.fd := fun heq =>
        hnone c howner (by rw [hsame.fdClosed]; exact hzero) (hfd.trans heq.symm)
      rw [hoff fd hne]
      refine h.empty u fd fun d hd hdzero => ?_
      by_cases hdc : d = c
      · subst hdc
        exact hne.symm
      · rw [← hsame.conn d hdc]
        exact hnone d ((hother d hdc).trans hd) (by rw [hsame.fdClosed]; exact hdzero)
    · rw [hsame.loop u hu]
      refine h.empty u fd fun d hd hdzero => ?_
      by_cases hdc : d = c
      · -- The connection is another thread's, or nobody's.
        subst hdc
        rcases hbefore with hown | hnew
        · exact absurd (Option.some.inj (hd.symm.trans hown)) hu
        · exact absurd (hd.symm.trans hnew) (by simp)
      · rw [← hsame.conn d hdc]
        exact hnone d ((hother d hdc).trans hd) (by rw [hsame.fdClosed]; exact hdzero)

/-- Adopting registers the read io in a slot that was empty. -/
theorem State.Registered.adopts (h : s.Registered) (hsound : s.Sound) (hlisted : s.Listed)
    (hexact : s.Exact) (ctl : EpollCtl) (t : Nat) {c : Nat} (hnew : s.isNew c) :
    Handles (s.io t).loop { (s.conns c).conn with ioThread := some t }
        ((s.adopt ctl t c).io t).loop ((s.adopt ctl t c).conns c).conn ∧
      ((s.adopt ctl t c).conns c).conn.Regular := by
  obtain ⟨hlt, hnone⟩ := hnew
  obtain ⟨hproper, hregular⟩ := h.regular c hlt
  have hthread : (s.conns c).conn.ioThread = none := hnone
  have hzero : (s.conns c).fdClosed = 0 := (Prod.mk.inj (hlisted.fresh c hlt hnone)).2
  have hread : (s.conns c).conn.readIo.start = false := by
    rw [← Bool.not_eq_true, hregular.reading, hthread]
    simp
  have hwrite : (s.conns c).conn.writeIo.start = false := by
    rw [← Bool.not_eq_true]
    intro hstart
    exact (hregular.writing hstart).1 hthread
  have hopen : (s.conns c).conn.status = .opened := by
    refine Status.opened_of_ne fun hclosed => ?_
    exact hregular.adopted hclosed hthread
  have hempty : (s.io t).loop.slot (s.conns c).conn.fd = .empty := by
    refine h.empty t _ fun d hd hdzero heq => ?_
    obtain rfl := hlisted.apart d c (hsound.adopted.known d t hd) hlt hdzero hzero heq
    exact absurd (hd.symm.trans hnone) (by simp)
  have hshown : Shown (s.io t).loop { (s.conns c).conn with ioThread := some t } :=
    { proper := by
        intro d
        cases d
        · exact hproper .read
        · exact hproper .write
      fd_lt := by rw [h.size]; exact hexact.below c hlt
      slot := hempty.trans (Conn.slot_stopped hread hwrite).symm }
  have hstart := hshown.start ctl .read
  constructor
  · simpa [State.adopt, State.setLoop, State.setConn, Conn.io, Conn.setIo] using hstart
  · constructor <;>
      simp [State.adopt, State.setLoop, State.setConn, xvIoStart_io, hopen]

theorem State.adopt_sameBut (ctl : EpollCtl) (s : State P) (t c : Nat) :
    s.SameBut (s.adopt ctl t c) t c := by
  refine ⟨rfl, rfl, ?_, ?_, ?_⟩
  · intro u hu
    simp [State.adopt, State.setLoop, State.setConn, hu]
  · intro d hd
    simp [State.adopt, State.setLoop, State.setConn, hd]
  · intro d
    exact update_same s.conns c _ Connection.fdClosed (by rfl) d

/-- A thread that was about to close a connection has closed it. -/
theorem State.Registered.instr_unsent (h : s.Registered) (hsound : s.Sound) {a : Agent}
    {act : Act P} {next : State P} {pc' : Pc P} (hsafe : s.safe a = true)
    (hinstr : Instr cfg ctl s a (s.pc a) act next pc') {c : Nat} (hc : c < next.nextConn) :
    NotStranded (next.conns c).conn ∨ ∃ b resume, (next.goto a pc').pc b = .close c resume := by
  have hsame : c < s.nextConn → (s.conns c).conn.SameIos (next.conns c).conn ∨
      (next.conns c).conn = (s.conns c).conn → NotStranded (s.conns c).conn →
      NotStranded (next.conns c).conn := by
    rintro - (hios | heq) hnot hopen hne
    · rw [hios.writeIo]
      exact hnot (hios.status ▸ hopen) (hios.writeBuffer ▸ hne)
    · rw [heq] at hopen hne ⊢
      exact hnot hopen hne
  rcases hinstr.conns_cases hc with hlt | ⟨rfl, -, fd, handle, mem, rfl⟩
  · rcases h.unsent c hlt with hnot | ⟨b, resume, hb⟩
    · cases hinstr.loopStep hsound hsafe with
      | quiet _ hconn => exact Or.inl (hsame hlt (Or.inl (hconn c hlt)) hnot)
      | serve t d ha hpc halive howner hbut hhandles hregular hunsent =>
          by_cases hdc : c = d
          · subst hdc
            rcases hunsent hnot with hnot' | ⟨resume, hpc'⟩
            · exact Or.inl hnot'
            · exact Or.inr ⟨a, resume, by rw [State.goto_pc_self, hpc']⟩
          · exact Or.inl (hsame hlt (Or.inr (hbut.conn c hdc)) hnot)
      | adopt t d hadopts hnext =>
          subst hnext
          by_cases hdc : c = d
          · subst hdc
            left
            intro hopen hne
            have hwrite := hnot (by simpa [State.adopt, State.setLoop, State.setConn] using hopen)
              (by simpa [State.adopt, State.setLoop, State.setConn] using hne)
            simpa [State.adopt, State.setLoop, State.setConn] using hwrite
          · exact Or.inl (hsame hlt (Or.inr ((s.adopt_sameBut ctl t d).conn c hdc)) hnot)
    · by_cases hba : b = a
      · subst hba
        obtain ⟨t, rfl, -⟩ := hsound.affine.serving b c (by rw [hb]; rfl)
        rw [hb] at hinstr
        left
        intro hopen
        rw [hinstr.status_closed] at hopen
        exact absurd hopen (by decide)
      · exact Or.inr ⟨b, resume, by rw [State.goto_pc_of_ne _ _ hba, hinstr.pc_eq]; exact hb⟩
  · left
    intro _ hne
    exact absurd (by simp [State.accept, xvConnectionInit, Buffer.readable, xvBufferInit,
      xvBufferReadableSize, Memory.load]) hne

theorem State.Registered.instr (h : s.Registered) (hsound : s.Sound) (hlisted : s.Listed)
    (hexact : s.Exact) (hshut : s.Shut) {a : Agent} {act : Act P} {next : State P} {pc' : Pc P}
    (hsafe : s.safe a = true) (hinstr : Instr cfg ctl s a (s.pc a) act next pc')
    (hnext : (next.goto a pc').Sound) : (next.goto a pc').Registered := by
  have hunsent : ∀ c, c < next.nextConn → NotStranded (next.conns c).conn ∨
      ∃ b resume, (next.goto a pc').pc b = .close c resume :=
    fun c => h.instr_unsent hsound hsafe hinstr
  have hregular' : (∀ c, c < s.nextConn →
        (next.conns c).conn.Proper ∧ (next.conns c).conn.Regular) →
      ∀ c, c < next.nextConn → (next.conns c).conn.Proper ∧ (next.conns c).conn.Regular := by
    intro hold c hc
    rcases hinstr.conns_cases hc with hlt | ⟨rfl, -, fd, handle, mem, rfl⟩
    · exact hold c hlt
    · simp only [State.accept, update_self]
      refine ⟨?_, xvConnectionInit_regular ..⟩
      intro d
      cases d <;> exact ⟨rfl, rfl⟩
  cases hinstr.loopStep hsound hsafe with
  | quiet hloop hconn =>
      refine
        { size := ?_
          regular := hregular' ?_
          shown := ?_
          empty := fun t fd hnone => h.quiet hsound hshut hinstr hloop hconn hnone
          unsent := hunsent }
      · intro t
        show (next.io t).loop.setsize = next.table.setsize
        rw [hloop, h.size]
        rcases hexact.table_cases hsound hlisted hsafe hinstr with
          heq | ⟨c, -, -, hsize, -⟩ | ⟨c, resume, -, -, hsize, -⟩
        · rw [heq]
        · exact hsize.symm
        · exact hsize.symm
      · intro c hlt
        obtain ⟨hproper, hregular⟩ := h.regular c hlt
        have hsame := hconn c hlt
        constructor
        · intro d
          rw [hsame.fd, show (next.conns c).conn.io d = (s.conns c).conn.io d by
            cases d
            · exact hsame.readIo
            · exact hsame.writeIo]
          exact hproper d
        · refine hregular.congr hsame.ioThread hsame.status ?_ ?_
          · rw [hsame.readIo]
          · rw [hsame.writeIo]
            exact Or.inl
      · intro c t howner hzero
        have howner : next.owner c = some t := howner
        have hzero : (next.conns c).fdClosed = 0 := hzero
        show (next.io t).loop.slot (next.conns c).conn.fd = (next.conns c).conn.slot
        rcases hinstr.conns_cases (hnext.adopted.known c t howner) with
          hlt | ⟨rfl, -, fd, handle, mem, rfl⟩
        · have hsame := hconn c hlt
          have hle := (hinstr.connStep_of_lt hlt).counts_le.2.1
          rw [hloop, hsame.fd, h.shown c t (hsame.ioThread.symm.trans howner) (by omega),
            Conn.slot, Conn.slot, hsame.readIo, hsame.writeIo]
        · simp [State.owner, State.accept, xvConnectionInit] at howner
  | serve t c ha hpc halive howner hsame hhandles hregular hunsent' =>
      subst ha
      have hlt := hsound.adopted.known c t howner
      have hzero := hlisted.unclosed hsound halive howner hpc
      have hdone := hhandles (h.shows hsound hexact howner hzero)
      obtain ⟨hsize, hshown, hempty⟩ := h.served hsound hlisted hlt hzero (Or.inl howner) hsame
        (hsound.adopted.owner_mono hinstr howner) hdone.fd hdone.shown hdone.off hdone.setsize
      refine ⟨hsize, hregular' fun d hd => ?_, hshown, hempty, hunsent⟩
      by_cases hdc : d = c
      · subst hdc
        exact ⟨hdone.shown.proper, hregular (h.regular d hd).2⟩
      · rw [hsame.conn d hdc]
        exact h.regular d hd
  | adopt t c hadopts hadopt =>
      subst hadopt
      have hnew := hsound.adopted.lt_of_adopts hadopts
      have hsame := s.adopt_sameBut ctl t c
      obtain ⟨hdone, hregular⟩ := h.adopts hsound hlisted hexact ctl t hnew
      obtain ⟨hsize, hshown, hempty⟩ := h.served hsound hlisted hnew.1
        (Prod.mk.inj (hlisted.fresh c hnew.1 hnew.2)).2 (Or.inr hnew.2) hsame
        (by rw [State.adopt_owner, if_pos rfl]) hdone.fd hdone.shown hdone.off hdone.setsize
      refine ⟨hsize, hregular' fun d hd => ?_, hshown, hempty, hunsent⟩
      by_cases hdc : d = c
      · subst hdc
        exact ⟨hdone.shown.proper, hregular⟩
      · rw [hsame.conn d hdc]
        exact h.regular d hd

theorem State.Registered.refs (h : s.Registered) {next : State P} (hsame : s.SameButRefs next) :
    next.Registered := by
  have hconn : ∀ c, (s.conns c).conn.SameIos (next.conns c).conn ∧
      (next.conns c).fdClosed = (s.conns c).fdClosed := by
    intro c
    obtain ⟨refCount, userRefs, hc⟩ := hsame.conns c
    rw [hc]
    exact ⟨⟨rfl, rfl, rfl, rfl, rfl, rfl⟩, rfl⟩
  have hslot : ∀ c, (next.conns c).conn.slot = (s.conns c).conn.slot := by
    intro c
    rw [Conn.slot, Conn.slot, (hconn c).1.readIo, (hconn c).1.writeIo]
  refine ⟨?_, ?_, ?_, ?_, ?_⟩
  · intro t
    rw [hsame.io, hsame.table]
    exact h.size t
  · intro c hc
    obtain ⟨hproper, hregular⟩ := h.regular c (hsame.nextConn ▸ hc)
    obtain ⟨refCount, userRefs, hc⟩ := hsame.conns c
    rw [hc]
    refine ⟨?_, hregular.congr rfl rfl rfl Or.inl⟩
    intro d
    cases d
    · exact hproper .read
    · exact hproper .write
  · intro c t howner hzero
    rw [hsame.io, (hconn c).1.fd, hslot]
    exact h.shown c t ((hsame.owner c).symm.trans howner) ((hconn c).2 ▸ hzero)
  · intro t fd hnone
    rw [hsame.io]
    refine h.empty t fd fun c howner hzero => ?_
    rw [← (hconn c).1.fd]
    exact hnone c ((hsame.owner c).trans howner) ((hconn c).2.trans hzero)
  · intro c hc
    rw [hsame.pc]
    rcases h.unsent c (hsame.nextConn ▸ hc) with hnot | hclose
    · left
      intro hopen hne
      rw [(hconn c).1.writeIo]
      exact hnot ((hconn c).1.status ▸ hopen) ((hconn c).1.writeBuffer ▸ hne)
    · exact Or.inr hclose

theorem State.Registered.init : (State.init : State P).Registered where
  size := fun _ => rfl
  regular := fun c hc => absurd hc (Nat.not_lt_zero c)
  shown := fun c t howner => by cases howner
  empty := fun _ _ _ => rfl
  unsent := fun c hc => absurd hc (Nat.not_lt_zero c)

/-- **In every reachable state the event tables show the connections.** -/
theorem State.registered (h : Reach (State.step cfg ctl) AcceptsBelow (· = State.init) s) :
    s.Registered := by
  refine h.invariant_along (I := State.Registered) ?_ ?_
  · intro s hs
    subst hs
    exact State.Registered.init
  · intro s label s' hreach hregistered hok hstep
    have hnext := State.sound (.next hreach hok hstep)
    rcases State.step_split hstep with ⟨a, act, next, pc, rfl, hsafe, hinstr, rfl⟩ | hsame
    · exact hregistered.instr (State.sound hreach) (State.listed hreach) (State.exact hreach)
        (State.shut hreach) hsafe hinstr hnext
    · exact hregistered.refs hsame

/-! ### What an event finds -/

/-- An open connection of io thread `t` on the fd. -/
structure State.OpenOn (s : State P) (t fd c : Nat) : Prop where
  owner : s.owner c = some t
  fd : (s.conns c).conn.fd = fd
  status : (s.conns c).conn.status = .opened

theorem EventIo.io_empty (d : Direction) : EventIo.empty.io d = none := by
  cases d <;> rfl

theorem Conn.slot_io (conn : Conn) (d : Direction) :
    conn.slot.io d = if (conn.io d).start then some (conn.io d).id else none := by
  cases d <;> rfl

theorem Conn.slot_event (conn : Conn) (d : Direction) :
    conn.slot.event &&& d.event ≠ 0#32 ↔ (conn.io d).start = true := by
  cases d <;> cases hread : conn.readIo.start <;> cases hwrite : conn.writeIo.start <;>
    simp [Conn.slot, Conn.io, Direction.event, hread, hwrite, xvRead, xvWrite, xvNone]

theorem State.Shut.untouched (h : s.Shut) {c : Nat} (hlt : c < s.nextConn)
    (hopen : (s.conns c).conn.status = .opened) : (s.conns c).cleaned = (0, 0, 0) := by
  by_contra hne
  have hclosed := h.cleaned c hlt hne
  rw [hopen] at hclosed
  exact absurd hclosed (by decide)

/-- What a slot of a loop holds. -/
theorem State.Registered.slot_io (h : s.Registered) (hsound : s.Sound) (hshut : s.Shut)
    {t fd c : Nat} {d : Direction} :
    ((s.io t).loop.slot fd).io d = some c ↔
      s.OpenOn t fd c ∧ ((s.conns c).conn.io d).start = true := by
  constructor
  · intro hslot
    by_cases hfree : ∀ b, s.owner b = some t → (s.conns b).fdClosed = 0 → (s.conns b).conn.fd ≠ fd
    · rw [h.empty t fd hfree, EventIo.io_empty] at hslot
      exact absurd hslot (by simp)
    · push Not at hfree
      obtain ⟨b, howner, hzero, rfl⟩ := hfree
      have hlt := hsound.adopted.known b t howner
      obtain ⟨hread, hwrite⟩ := hsound.affine.ids b hlt
      obtain ⟨-, hregular⟩ := h.regular b hlt
      rw [h.shown b t howner hzero, Conn.slot_io] at hslot
      split at hslot
      · rename_i hstart
        obtain rfl : b = c := by
          cases d
          · exact hread.symm.trans (Option.some.inj hslot)
          · exact hwrite.symm.trans (Option.some.inj hslot)
        refine ⟨⟨howner, rfl, ?_⟩, hstart⟩
        cases d
        · exact (hregular.reading.mp hstart).2
        · exact (hregular.writing hstart).2
      · exact absurd hslot (by simp)
  · rintro ⟨⟨howner, rfl, hopen⟩, hstart⟩
    have hlt := hsound.adopted.known c t howner
    have hzero : (s.conns c).fdClosed = 0 := by
      have huntouched := hshut.untouched hlt hopen
      simp only [Connection.cleaned, Prod.mk.injEq] at huntouched
      exact huntouched.2.1
    rw [h.shown c t howner hzero, Conn.slot_io, if_pos hstart]
    obtain ⟨hread, hwrite⟩ := hsound.affine.ids c hlt
    cases d
    · exact congrArg some hread
    · exact congrArg some hwrite

/--
**Events only reach open connections**: as long as the fds accepted are below the size of the
table, the slot of an fd in the loop of an io thread has a connection's read io if and only if
that connection is open, on this fd and adopted by this thread, its write io only then, and the
mask of the slot says the same.  Such a connection has not been freed, its fd has not been closed
and it is in the service's table.
-/
theorem events_reach_open (h : Reach (State.step cfg ctl) AcceptsBelow (· = State.init) s)
    (t fd : Nat) :
    (∀ c, ((s.io t).loop.slot fd).readIo = some c ↔ s.OpenOn t fd c) ∧
      (∀ c, ((s.io t).loop.slot fd).writeIo = some c → s.OpenOn t fd c) ∧
      (∀ d, ((s.io t).loop.slot fd).event &&& d.event ≠ 0#32 ↔
        (((s.io t).loop.slot fd).io d).isSome = true) ∧
      ∀ c, s.OpenOn t fd c → (s.conns c).cleaned = (0, 0, 0) ∧ s.table.slots fd = some c := by
  have hsound := State.sound h
  have hshut := State.shut h
  have hregistered := State.registered h
  have hlisted := State.listed h
  refine ⟨?_, ?_, ?_, ?_⟩
  · intro c
    refine (hregistered.slot_io hsound hshut (d := .read)).trans
      ⟨And.left, fun hopen => ⟨hopen, ?_⟩⟩
    have hregular := (hregistered.regular c (hsound.adopted.known c t hopen.owner)).2
    refine hregular.reading.mpr ⟨?_, hopen.status⟩
    show s.owner c ≠ none
    simp [hopen.owner]
  · intro c hslot
    exact ((hregistered.slot_io hsound hshut (d := .write)).mp hslot).1
  · intro d
    by_cases hfree : ∀ b, s.owner b = some t → (s.conns b).fdClosed = 0 → (s.conns b).conn.fd ≠ fd
    · rw [hregistered.empty t fd hfree]
      cases d <;> simp [EventIo.empty, EventIo.io, Direction.event, xvNone]
    · push Not at hfree
      obtain ⟨b, howner, hzero, rfl⟩ := hfree
      rw [hregistered.shown b t howner hzero, Conn.slot_event, Conn.slot_io]
      split <;> simp_all
  · intro c hopen
    have hlt := hsound.adopted.known c t hopen.owner
    have huntouched := hshut.untouched hlt hopen.status
    refine ⟨huntouched, ?_⟩
    simp only [Connection.cleaned, Prod.mk.injEq] at huntouched
    rw [← hopen.fd]
    rcases hlisted.slot c hlt huntouched.1 with ⟨a, hadding⟩ | hslot
    · exact absurd hadding (hsound.not_adding (by simp [hopen.owner]) a)
    · exact hslot

/-- The connection accepted on fd 5 is what an event on fd 5 finds. -/
theorem events_reach_open_accepted :
    ∃ s : State Unit, Reachable (State.step inlineConfig acceptAll) (· = State.init) s ∧
      ((s.io 0).loop.slot 5).readIo = some 0 ∧ s.OpenOn 0 5 0 := by
  have hrun : ∃ s : State Unit,
      Reach (State.step inlineConfig acceptAll) AcceptsBelow (· = State.init) s ∧
      ((s.io 0).loop.slot 5).readIo = some 0 :=
    ⟨_, Reach.play acceptOne (.start rfl) (by decide) rfl, rfl⟩
  obtain ⟨s, hreach, hslot⟩ := hrun
  exact ⟨s, hreach.reachable, hslot, ((events_reach_open hreach 0 5).1 0).mp hslot⟩

/--
**No output is stranded in a running service**: whenever an open connection of an io thread has
bytes in its write buffer, the thread's loop watches its fd for writing, or the thread is about
to close the connection because a `write` has failed.
-/
theorem waiting_output_watched (h : Reach (State.step cfg ctl) AcceptsBelow (· = State.init) s)
    {t fd c : Nat} (hopen : s.OpenOn t fd c)
    (hwaiting : (s.conns c).conn.writeBuffer.readable ≠ []) :
    (((s.io t).loop.slot fd).writeIo = some c ∧
        ((s.io t).loop.slot fd).event &&& xvWrite ≠ 0#32) ∨
      ∃ resume, s.pc (.io t) = .close c resume := by
  have hsound := State.sound h
  have hregistered := State.registered h
  have hlt := hsound.adopted.known c t hopen.owner
  rcases hregistered.unsent c hlt with hnot | ⟨a, resume, hpc⟩
  · left
    have hslot : ((s.io t).loop.slot fd).io .write = some c :=
      (hregistered.slot_io hsound (State.shut h)).mpr ⟨hopen, hnot hopen.status hwaiting⟩
    refine ⟨hslot, ((events_reach_open h t fd).2.2.1 .write).mpr ?_⟩
    rw [hslot]
    rfl
  · right
    obtain ⟨u, rfl, hu⟩ := hsound.affine.serving a c (by rw [hpc]; rfl)
    obtain rfl : u = t := Option.some.inj (hu.symm.trans hopen.owner)
    exact ⟨resume, hpc⟩

/-- One byte of a two byte response is still to be sent. -/
theorem waiting_output_watched_partial_write :
    ∃ s : State Unit, Reachable (State.step inlineConfig acceptAll) (· = State.init) s ∧
      (s.conns 0).conn.writeBuffer.readable = [2] ∧
      (((s.io 0).loop.slot 5).writeIo = some 0 ∧
          ((s.io 0).loop.slot 5).event &&& xvWrite ≠ 0#32 ∨
        ∃ resume, s.pc (.io 0) = .close 0 resume) := by
  have hrun : ∃ s : State Unit,
      Reach (State.step inlineConfig acceptAll) AcceptsBelow (· = State.init) s ∧
      s.owner 0 = some 0 ∧ (s.conns 0).conn.fd = 5 ∧ (s.conns 0).conn.status = .opened ∧
      (s.conns 0).conn.writeBuffer.readable = [2] :=
    ⟨_, Reach.play (acceptOne ++ [readRequest Unit (byteChunk 7) (),
        .act (.io 0) (.process (some ())),
        .act (.io 0) (.respond [⟨2, [1, 2], by decide⟩] (.wrote 1))]) (.start rfl) (by decide) rfl,
      rfl, rfl, rfl, rfl⟩
  obtain ⟨s, hreach, howner, hfd, hopen, hwaiting⟩ := hrun
  exact ⟨s, hreach.reachable, hwaiting,
    waiting_output_watched hreach ⟨howner, hfd, hopen⟩ (by rw [hwaiting]; simp)⟩

end Libxv
