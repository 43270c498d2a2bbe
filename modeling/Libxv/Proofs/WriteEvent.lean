/-
Output that waits in the buffer has its write event registered.

Two facts carry this.  `Armed` is about the loop: the io's own start flag never says
more than the slot does, because a refused start or stop changes nothing and an accepted
one writes both.  `NotStranded` is about the callbacks: `process_message` leaves bytes
behind only after `xv_io_start`, and `on_connection_write` stops the io only when it has
emptied the buffer.  Closing ends the obligation by changing the status first.
-/
import Libxv.Proofs.Loop
import Libxv.Proofs.Output

namespace Libxv

open Transition

variable {P : Type} {ctl : EpollCtl} {loop : Loop} {conn : Conn}

/-- The connection's ios are its own, and a started write io is registered. -/
structure Armed (loop : Loop) (conn : Conn) : Prop where
  fd_lt : conn.fd < loop.setsize
  readIo : conn.readIo.fd = conn.fd ∧ conn.readIo.event = xvRead
  writeIo : conn.writeIo.fd = conn.fd ∧ conn.writeIo.event = xvWrite
  started : conn.writeIo.start = true →
    (loop.slot conn.fd).writeIo = some conn.writeIo.id ∧
      (loop.slot conn.fd).event &&& xvWrite ≠ 0#32

/-- An open connection with bytes to send has its write io started. -/
def NotStranded (conn : Conn) : Prop :=
  conn.status = .opened → conn.writeBuffer.readable ≠ [] → conn.writeIo.start = true

/-! ### The loop -/

theorem Armed.congr (h : Armed loop conn) (conn' : Conn) (hfd : conn'.fd = conn.fd)
    (hread : conn'.readIo = conn.readIo) (hwrite : conn'.writeIo = conn.writeIo) :
    Armed loop conn' := by
  refine ⟨hfd ▸ h.fd_lt, ?_, ?_, ?_⟩
  · rw [hfd, hread]; exact h.readIo
  · rw [hfd, hwrite]; exact h.writeIo
  · rw [hfd, hwrite]; exact h.started

/-- Starting the write io registers it, or finds it registered. -/
theorem Armed.startWrite (h : Armed loop conn) :
    Armed (xvIoStart ctl loop conn.writeIo).2.1
      { conn with writeIo := (xvIoStart ctl loop conn.writeIo).2.2 } := by
  obtain ⟨hfd, hevent⟩ := h.writeIo
  refine ⟨Nat.lt_of_lt_of_le h.fd_lt (xvIoStart_setsize_le ctl loop _), h.readIo, ?_, ?_⟩
  · rw [xvIoStart_io]
    exact h.writeIo
  · intro _
    rw [xvIoStart_io]
    show ((xvIoStart ctl loop conn.writeIo).2.1.slot conn.fd).writeIo = some conn.writeIo.id ∧ _
    cases hstart : conn.writeIo.start with
    | true =>
        rw [xvIoStart_started hstart]
        exact h.started hstart
    | false =>
        rw [← hfd, xvIoStart_slot_self hstart (by rw [hfd]; exact h.fd_lt) (Or.inr hevent)]
        exact EventIo.add_write _ hevent

/-- Once the write io is stopped nothing is claimed about its slot. -/
theorem Armed.stopWrite (h : Armed loop conn) :
    Armed (xvIoStop ctl loop conn.writeIo).2.1
      { conn with writeIo := (xvIoStop ctl loop conn.writeIo).2.2 } := by
  refine ⟨?_, h.readIo, ?_, ?_⟩
  · rw [xvIoStop_setsize]
    exact h.fd_lt
  · rw [xvIoStop_io]
    exact h.writeIo
  · intro hstart
    rw [xvIoStop_io] at hstart
    simp at hstart

/-- Stopping the read io of the same fd leaves the write direction registered. -/
theorem Armed.stopRead (h : Armed loop conn) :
    Armed (xvIoStop ctl loop conn.readIo).2.1
      { conn with readIo := (xvIoStop ctl loop conn.readIo).2.2 } := by
  obtain ⟨hfd, hevent⟩ := h.readIo
  refine ⟨?_, ?_, h.writeIo, ?_⟩
  · rw [xvIoStop_setsize]
    exact h.fd_lt
  · rw [xvIoStop_io]
    exact h.readIo
  · intro hstart
    obtain ⟨hslot, hbit⟩ := h.started hstart
    show ((xvIoStop ctl loop conn.readIo).2.1.slot conn.fd).writeIo = _ ∧ _
    rw [← hfd] at hslot hbit ⊢
    rcases xvIoStop_slot_self ctl loop conn.readIo with hsame | hdel
    · rw [hsame]
      exact ⟨hslot, hbit⟩
    · obtain ⟨hwrite, hmask⟩ := EventIo.del_read_write (loop.slot conn.readIo.fd) hevent
      rw [hdel, hwrite, hmask]
      exact ⟨hslot, hbit⟩

/-- Another io's start or stop concerns another slot. -/
theorem Armed.other (h : Armed loop conn) {loop' : Loop} (hsize : loop.setsize ≤ loop'.setsize)
    (hslot : loop'.slot conn.fd = loop.slot conn.fd) : Armed loop' conn := by
  refine ⟨Nat.lt_of_lt_of_le h.fd_lt hsize, h.readIo, h.writeIo, ?_⟩
  rw [hslot]
  exact h.started

theorem Armed.stop (h : Armed loop conn) :
    Armed (xvConnectionStop ctl loop conn).1 (xvConnectionStop ctl loop conn).2 :=
  h.stopRead.stopWrite

/-- Closing stops both ios and leaves a closed connection. -/
theorem Armed.close (h : Armed loop conn) :
    Armed (closeConnection ctl loop conn).1 (closeConnection ctl loop conn).2 := by
  unfold closeConnection
  split
  · exact (h.congr { conn with status := .closed } rfl rfl rfl).stop
  · exact h

theorem closeConnection_status (ctl : EpollCtl) (loop : Loop) (conn : Conn) :
    (closeConnection ctl loop conn).2.status = .closed := by
  unfold closeConnection
  split
  · rfl
  · rename_i h
    exact not_not.mp h

/-! ### The callbacks -/

theorem advance_fields (conn : Conn) (n : Int) :
    (advance conn n).fd = conn.fd ∧ (advance conn n).readIo = conn.readIo ∧
      (advance conn n).writeIo = conn.writeIo ∧ (advance conn n).status = conn.status := by
  unfold advance
  split <;> exact ⟨rfl, rfl, rfl, rfl⟩

theorem Armed.advance (h : Armed loop conn) (n : Int) : Armed loop (advance conn n) := by
  obtain ⟨hfd, hread, hwrite, -⟩ := advance_fields conn n
  exact h.congr _ hfd hread hwrite

/-- A `write` that took everything leaves nothing to send. -/
theorem advance_all {n : Int} (hn : n = xvBufferReadableSize conn.writeBuffer) :
    (advance conn n).writeBuffer.readable = [] := by
  have hdrop := advance_bytes conn n
  have hlen : n.toNat = conn.writeBuffer.readable.length := by
    rw [hn, Buffer.length_readable]
    rfl
  rw [hlen, List.take_length] at hdrop
  exact List.self_eq_append_right.mp hdrop.symm

/-- A `write` never takes more than it was given. -/
theorem WriteOut.nwritten_le_want (out : WriteOut) (want : Nat) : out.nwritten want ≤ want := by
  have := out.nwritten_le want
  omega

theorem processMessage_armed (h : Armed loop conn) (response : Option P) (pieces : List Piece)
    (out : WriteOut) :
    Armed (processMessage ctl loop conn response pieces out).loop
      (processMessage ctl loop conn response pieces out).conn := by
  unfold processMessage
  split
  · exact h
  · have h' : Armed loop { conn with writeBuffer := pieces.foldl appendPiece conn.writeBuffer } :=
      h.congr _ rfl rfl rfl
    dsimp only
    split
    · exact h'
    · split
      · exact h'
      · split
        · exact (h'.advance _).startWrite
        · exact h'.advance _

/-- `process_message` starts the write io before it leaves bytes behind. -/
theorem processMessage_notStranded (h : NotStranded conn) (response : Option P)
    (pieces : List Piece) (out : WriteOut)
    (hclose : (processMessage ctl loop conn response pieces out).close = false) :
    NotStranded (processMessage ctl loop conn response pieces out).conn := by
  revert hclose
  unfold processMessage
  split
  · intro _
    exact h
  · set conn' := { conn with writeBuffer := pieces.foldl appendPiece conn.writeBuffer }
    dsimp only
    split
    · rename_i hempty
      intro _ _ hne
      exact absurd ((Buffer.readable_eq_nil_iff _).mpr hempty) hne
    · split
      · intro hclose
        simp at hclose
      · intro _
        split
        · intro _ _
          show (xvIoStart ctl loop (advance conn' _).writeIo).2.2.start = true
          rw [xvIoStart_io]
        · rename_i hdone
          intro hopen hne
          -- not started, so the write took all there was
          have hstatus : (advance conn' (out.nwritten
              (xvBufferReadableSize conn'.writeBuffer))).status = .opened := hopen
          have hle := out.nwritten_le_want (xvBufferReadableSize conn'.writeBuffer)
          have hall : out.nwritten (xvBufferReadableSize conn'.writeBuffer)
              = xvBufferReadableSize conn'.writeBuffer := by
            by_contra hlt
            exact hdone ⟨by omega, hstatus⟩
          exact absurd (advance_all hall) hne

theorem onConnectionWrite_armed (h : Armed loop conn) (out : WriteOut) :
    Armed (onConnectionWrite ctl loop conn out).loop
      (onConnectionWrite ctl loop conn out).conn := by
  unfold onConnectionWrite
  dsimp only
  split
  · split
    · exact h
    · split
      · exact (h.advance _).stopWrite
      · exact h.advance _
  · exact h.stopWrite

/-- `on_connection_write` stops the write io only when nothing is left. -/
theorem onConnectionWrite_notStranded (h : NotStranded conn) (out : WriteOut)
    (hclose : (onConnectionWrite ctl loop conn out).close = false) :
    NotStranded (onConnectionWrite ctl loop conn out).conn := by
  revert hclose
  unfold onConnectionWrite
  dsimp only
  split
  · rename_i hpos
    split
    · intro hclose
      simp at hclose
    · intro _
      split
      · rename_i hall
        intro _ hne
        exact absurd (advance_all hall) hne
      · intro hopen _
        -- a partial write: the buffer was not empty before, so the io was already started
        obtain ⟨-, -, hwrite, hstatus⟩ :=
          advance_fields conn (out.nwritten (xvBufferReadableSize conn.writeBuffer))
        rw [hstatus] at hopen
        rw [hwrite]
        refine h hopen fun hnil => ?_
        rw [Buffer.readable_eq_nil_iff] at hnil
        omega
  · rename_i hzero
    intro _ _ hne
    refine absurd ((Buffer.readable_eq_nil_iff _).mpr ?_) hne
    show xvBufferReadableSize conn.writeBuffer = 0
    omega

/-! ### A whole run -/

/-- What every callback keeps. -/
structure Session.Live (s : Session P) : Prop where
  armed : Armed s.loop s.conn
  notStranded : NotStranded s.conn

theorem Session.Live.close {s : Session P} (h : Armed s.loop s.conn) : (s.close ctl).Live := by
  have harmed : Armed (closeConnection ctl s.loop s.conn).1 _ := h.close
  have hclosed := closeConnection_status ctl s.loop s.conn
  have hnot : NotStranded (closeConnection ctl s.loop s.conn).2 := fun hopen => by
    rw [hclosed] at hopen
    simp at hopen
  unfold Session.close
  dsimp only
  split
  · exact ⟨harmed, hnot⟩
  · exact ⟨harmed, hnot⟩

theorem Session.Live.after {s : Session P} {sent : Sent} (harmed : Armed sent.loop sent.conn)
    (hnot : sent.close = false → NotStranded sent.conn) : (s.after ctl sent).Live := by
  unfold Session.after
  dsimp only
  split
  · exact Session.Live.close harmed
  · rename_i hclose
    exact ⟨harmed, hnot (by simpa using hclose)⟩

theorem Session.Live.processMessage {s : Session P} (h : s.Live) (response : Option P)
    (pieces : List Piece) (out : WriteOut) : (s.processMessage ctl response pieces out).Live :=
  Session.Live.after (processMessage_armed h.armed response pieces out)
    (processMessage_notStranded h.notStranded response pieces out)

/-- Reading and decoding do not touch the ios, the status or the write buffer. -/
theorem Session.Live.congr {s s' : Session P} (h : s.Live) (hloop : s'.loop = s.loop)
    (hfd : s'.conn.fd = s.conn.fd) (hread : s'.conn.readIo = s.conn.readIo)
    (hwrite : s'.conn.writeIo = s.conn.writeIo) (hstatus : s'.conn.status = s.conn.status)
    (hbuf : s'.conn.writeBuffer = s.conn.writeBuffer) : s'.Live := by
  refine ⟨hloop ▸ h.armed.congr _ hfd hread hwrite, ?_⟩
  unfold NotStranded
  rw [hstatus, hbuf, hwrite]
  exact h.notStranded

theorem onConnectionRead_fields (conn : Conn) (out : ReadOut) :
    ∃ buffer, (onConnectionRead conn out).1 = { conn with readBuffer := buffer } := by
  unfold onConnectionRead
  split
  · exact ⟨_, rfl⟩
  · cases out <;> exact ⟨_, rfl⟩

theorem processReadBuffer_fields (conn : Conn) (out : DecodeOut P) :
    ∃ buffer, (processReadBuffer conn out).1 = { conn with readBuffer := buffer } := by
  unfold processReadBuffer
  dsimp only
  split
  · exact ⟨_, rfl⟩
  · split
    · exact ⟨_, rfl⟩
    · split <;> exact ⟨_, rfl⟩

theorem Session.Live.processReadBuffer {workers : Bool} {s : Session P} (h : s.Live)
    (decoded : DecodeOut P) (response : Option P) (pieces : List Piece) (write : WriteOut) :
    (s.processReadBuffer workers ctl decoded response pieces write).Live := by
  obtain ⟨buffer, hconn⟩ := processReadBuffer_fields s.conn decoded
  unfold Session.processReadBuffer
  rcases hread : Libxv.processReadBuffer s.conn decoded with ⟨conn, next⟩
  rw [hread] at hconn
  subst hconn
  have hsame : ∀ handed, Session.Live
      { s with conn := { s.conn with readBuffer := buffer }, handed := handed } :=
    fun handed => h.congr rfl rfl rfl rfl rfl rfl
  cases next with
  | back => exact hsame s.handed
  | close => exact Session.Live.close (hsame s.handed).armed
  | request r =>
      dsimp only
      split
      · exact hsame _
      · exact (hsame _).processMessage response pieces write

theorem Session.Live.step {workers : Bool} {s s' : Session P} {callback : Callback P}
    (h : s.Live) (hstep : s.step workers ctl callback = some s') : s'.Live := by
  -- A read leaves all of the connection but its read buffer.
  have hsame : ∀ {out : ReadOut} {conn : Conn} {next : ReadNext} (received : List Chunk),
      Libxv.onConnectionRead s.conn out = (conn, next) →
      Session.Live { s with conn := conn, received := received } := by
    intro out conn next received hread
    obtain ⟨buffer, hconn⟩ := onConnectionRead_fields s.conn out
    rw [hread] at hconn
    subst hconn
    exact h.congr rfl rfl rfl rfl rfl rfl
  cases Session.step_moves hstep with
  | readBack _ _ _ _ _ _ hread => exact hsame s.received hread
  | readClose _ _ _ _ _ _ hread => exact Session.Live.close (hsame s.received hread).armed
  | readProcess response pieces write _ _ hread =>
      exact (hsame _ hread).processReadBuffer _ response pieces write
  | write out =>
      exact Session.Live.after (onConnectionWrite_armed h.armed out)
        (onConnectionWrite_notStranded h.notStranded out)
  | answer response pieces write => exact h.processMessage response pieces write
  | release => exact h.congr rfl rfl rfl rfl rfl rfl
  | otherStart io hfd =>
      exact ⟨h.armed.other (xvIoStart_setsize_le ctl s.loop io)
        (xvIoStart_slot_ne h.armed.fd_lt hfd.symm), h.notStranded⟩
  | otherStop io hfd =>
      exact ⟨h.armed.other (Nat.le_of_eq (xvIoStop_setsize ctl s.loop io).symm)
        (xvIoStop_slot_ne hfd.symm), h.notStranded⟩
  | refs => exact ⟨h.armed.congr _ rfl rfl rfl, h.notStranded⟩

theorem Session.Live.start {s : Session P} (h : Session.Start ctl s) : s.Live := by
  obtain ⟨loop, fd, handle, rid, wid, mem, hfd, -, rfl⟩ := h
  refine ⟨⟨Nat.lt_of_lt_of_le hfd (xvIoStart_setsize_le ctl loop (xvIoInit rid fd xvRead)),
    ?_, ⟨rfl, rfl⟩, ?_⟩, ?_⟩
  · show (xvIoStart ctl loop (xvIoInit rid fd xvRead)).2.2.fd = fd ∧ _
    rw [xvIoStart_io]
    exact ⟨rfl, rfl⟩
  · intro hstart
    exact absurd hstart (by simp [Session.adopt, xvConnectionInit, xvIoInit])
  · intro _ hne
    exact absurd rfl hne

/--
**No output is stranded.**  Between two callbacks, an open connection with bytes in its
write buffer has its write io started, in the slot of its fd, with the write bit set.
-/
theorem no_stranded_output {workers : Bool} {s : Session P}
    (h : Reachable (Session.step workers ctl) (Session.Start ctl) s)
    (hopen : s.conn.status = .opened) (hbytes : s.conn.writeBuffer.readable ≠ []) :
    s.conn.writeIo.start = true ∧
      (s.loop.slot s.conn.fd).writeIo = some s.conn.writeIo.id ∧
      (s.loop.slot s.conn.fd).event &&& xvWrite ≠ 0#32 := by
  have hlive : s.Live :=
    h.invariant (fun _ => Session.Live.start) fun _ _ _ hs _ hstep => hs.step hstep
  have hstart := hlive.notStranded hopen hbytes
  exact ⟨hstart, hlive.armed.started hstart⟩

/-- After a partial write the rest of the bytes has its write event. -/
theorem no_stranded_output_partial_write :
    ∃ s : Session Unit, s.conn.writeBuffer.readable = [2] ∧ s.conn.writeIo.start = true ∧
      (s.loop.slot 5).writeIo = some s.conn.writeIo.id ∧
      (s.loop.slot 5).event &&& xvWrite ≠ 0#32 := by
  have hrun : ∃ s : Session Unit,
      Reachable (Session.step true acceptAll) (Session.Start acceptAll) s ∧
        s.conn.fd = 5 ∧ s.conn.writeBuffer.readable = [2] ∧ s.conn.status = .opened :=
    ⟨_, .next (.start Session.sample_start) (i := partialWrite) trivial rfl, rfl, rfl, rfl⟩
  obtain ⟨s, hreach, hfd, hbytes, hopen⟩ := hrun
  have hlive := no_stranded_output hreach hopen (by rw [hbytes]; simp)
  rw [hfd] at hlive
  exact ⟨s, hbytes, hlive⟩

end Libxv
