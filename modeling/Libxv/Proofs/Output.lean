/-
The output stream of a connection.

`process_message` and `on_connection_write` drain the same buffer, each with partial
writes and retries.  What makes the stream come out right is one equation per call: the
bytes the socket took followed by what the buffer still holds are what the buffer held
followed by what `encode` appended.  Both functions satisfy it, and from it the equation
for a whole run is one induction.
-/
import Libxv.Proofs.Buffer
import Libxv.Proofs.Session
import Libxv.Lib.Run

namespace Libxv

open Transition

variable {P : Type}

/-! ### Appending -/

theorem appendPiece_wf {buffer : Buffer} (h : buffer.WF) (piece : Piece) :
    (appendPiece buffer piece).WF := by
  refine store_wf (xvBufferEnsureWriteableSize_wf h piece.reserve) _ ?_
  exact Nat.le_trans piece.fits (xvBufferEnsureWriteableSize_room h piece.reserve)

theorem appendPiece_readable {buffer : Buffer} (h : buffer.WF) (piece : Piece) :
    (appendPiece buffer piece).readable = buffer.readable ++ piece.bytes := by
  unfold appendPiece
  rw [append_readable (xvBufferEnsureWriteableSize_wf h piece.reserve),
    xvBufferEnsureWriteableSize_readable]

/-- A call of `encode` appends its bytes. -/
theorem encode_spec (pieces : List Piece) :
    ∀ {buffer : Buffer}, buffer.WF → (pieces.foldl appendPiece buffer).WF ∧
      (pieces.foldl appendPiece buffer).readable = buffer.readable ++ encodedBytes pieces := by
  induction pieces with
  | nil => intro buffer h; exact ⟨h, by simp [encodedBytes]⟩
  | cons piece rest ih =>
      intro buffer h
      obtain ⟨hwf, hread⟩ := ih (appendPiece_wf h piece)
      refine ⟨hwf, ?_⟩
      rw [List.foldl_cons, hread, appendPiece_readable h]
      simp [encodedBytes]

/-! ### One call of a writing function -/

/-- What came out and what is still held, against what was held and what came in. -/
structure Sent.Flow (conn : Conn) (sent : Sent) : Prop where
  wf : sent.conn.writeBuffer.WF
  bytes : sent.accepted ++ sent.conn.writeBuffer.readable
    = conn.writeBuffer.readable ++ sent.encoded

theorem WriteOut.nwritten_le (out : WriteOut) (want : Nat) :
    (out.nwritten want).toNat ≤ want := by
  cases out with
  | wrote n => exact Nat.min_le_right n want
  | retry => exact Nat.zero_le want
  | error => exact Nat.zero_le want

theorem advance_wf (conn : Conn) (h : conn.writeBuffer.WF) {n : Int}
    (hn : n.toNat ≤ xvBufferReadableSize conn.writeBuffer) :
    (advance conn n).writeBuffer.WF := by
  unfold advance
  split
  · exact xvBufferIncrReadIndex_wf h hn
  · exact h

/-- The bytes `write` took are the ones the buffer drops. -/
theorem advance_bytes (conn : Conn) (n : Int) :
    conn.writeBuffer.readable.take n.toNat ++ (advance conn n).writeBuffer.readable
      = conn.writeBuffer.readable := by
  unfold advance
  split
  · show _ ++ (xvBufferIncrReadIndex conn.writeBuffer n.toNat).readable = _
    rw [xvBufferIncrReadIndex_readable, List.take_append_drop]
  · rw [Int.toNat_of_nonpos (by omega)]
    simp

theorem processMessage_flow (ctl : EpollCtl) (loop : Loop) {conn : Conn}
    (h : conn.writeBuffer.WF) (response : Option P) (pieces : List Piece) (out : WriteOut) :
    (processMessage ctl loop conn response pieces out).Flow conn := by
  unfold processMessage
  split
  · exact ⟨h, by simp⟩
  · obtain ⟨hwf, hread⟩ := encode_spec pieces h
    set conn' := { conn with writeBuffer := pieces.foldl appendPiece conn.writeBuffer } with hconn
    dsimp only
    split
    · exact ⟨hwf, by simpa using hread⟩
    · split
      · exact ⟨hwf, by simpa using hread⟩
      · have hwf' := advance_wf conn' hwf
          (out.nwritten_le (xvBufferReadableSize conn'.writeBuffer))
        have hbytes := advance_bytes conn' (out.nwritten (xvBufferReadableSize conn'.writeBuffer))
        split
        · exact ⟨hwf', hbytes.trans hread⟩
        · exact ⟨hwf', hbytes.trans hread⟩

theorem onConnectionWrite_flow (ctl : EpollCtl) (loop : Loop) {conn : Conn}
    (h : conn.writeBuffer.WF) (out : WriteOut) :
    (onConnectionWrite ctl loop conn out).Flow conn := by
  unfold onConnectionWrite
  dsimp only
  split
  · split
    · exact ⟨h, by simp⟩
    · have hwf' := advance_wf conn h (out.nwritten_le (xvBufferReadableSize conn.writeBuffer))
      have hbytes := advance_bytes conn (out.nwritten (xvBufferReadableSize conn.writeBuffer))
      split
      · exact ⟨hwf', by simpa [stopWrite] using hbytes⟩
      · exact ⟨hwf', by simpa using hbytes⟩
  · exact ⟨h, by simp [stopWrite]⟩

/-! ### A whole run -/

/-- The equation a run keeps: accepted, then buffered, is all that was encoded. -/
structure Session.Stream (s : Session P) : Prop where
  wf : s.conn.writeBuffer.WF
  bytes : s.accepted ++ s.conn.writeBuffer.readable = s.encoded

theorem closeConnection_writeBuffer (ctl : EpollCtl) (loop : Loop) (conn : Conn) :
    (closeConnection ctl loop conn).2.writeBuffer = conn.writeBuffer := by
  unfold closeConnection
  split <;> rfl

theorem Session.Stream.close {ctl : EpollCtl} {s : Session P} (h : s.Stream) :
    (s.close ctl).Stream := by
  have hbuf := closeConnection_writeBuffer ctl s.loop s.conn
  unfold Session.close
  dsimp only
  split
  · exact ⟨by simpa [hbuf] using h.wf, by simpa [hbuf] using h.bytes⟩
  · exact ⟨by simpa [hbuf] using h.wf, by simpa [hbuf] using h.bytes⟩

theorem Session.Stream.after {ctl : EpollCtl} {s : Session P} (h : s.Stream) {sent : Sent}
    (hflow : sent.Flow s.conn) : (s.after ctl sent).Stream := by
  have hnext : Session.Stream { s with
      loop := sent.loop
      conn := sent.conn
      encoded := s.encoded ++ sent.encoded
      accepted := s.accepted ++ sent.accepted } := by
    refine ⟨hflow.wf, ?_⟩
    show (s.accepted ++ sent.accepted) ++ sent.conn.writeBuffer.readable = s.encoded ++ sent.encoded
    rw [List.append_assoc, hflow.bytes, ← List.append_assoc, h.bytes]
  unfold Session.after
  dsimp only
  split
  · exact hnext.close
  · exact hnext

theorem Session.Stream.processMessage {ctl : EpollCtl} {s : Session P} (h : s.Stream)
    (response : Option P) (pieces : List Piece) (out : WriteOut) :
    (s.processMessage ctl response pieces out).Stream :=
  h.after (processMessage_flow ctl s.loop h.wf response pieces out)

/-- The output side of a session is its own: other fields may change freely. -/
theorem Session.Stream.congr {s : Session P} (h : s.Stream) (s' : Session P)
    (hbuf : s'.conn.writeBuffer = s.conn.writeBuffer) (hacc : s'.accepted = s.accepted)
    (henc : s'.encoded = s.encoded) : s'.Stream :=
  ⟨hbuf ▸ h.wf, by rw [hbuf, hacc, henc]; exact h.bytes⟩

theorem onConnectionRead_writeBuffer (conn : Conn) (out : ReadOut) :
    (onConnectionRead conn out).1.writeBuffer = conn.writeBuffer := by
  unfold onConnectionRead
  split
  · rfl
  · cases out <;> rfl

theorem processReadBuffer_writeBuffer (conn : Conn) (out : DecodeOut P) :
    (processReadBuffer conn out).1.writeBuffer = conn.writeBuffer := by
  unfold processReadBuffer
  dsimp only
  split
  · rfl
  · split
    · rfl
    · split <;> rfl

theorem Session.Stream.processReadBuffer {workers : Bool} {ctl : EpollCtl} {s : Session P}
    (h : s.Stream) (decoded : DecodeOut P) (response : Option P) (pieces : List Piece)
    (write : WriteOut) :
    (s.processReadBuffer workers ctl decoded response pieces write).Stream := by
  have hbuf := processReadBuffer_writeBuffer s.conn decoded
  unfold Session.processReadBuffer
  rcases hread : Libxv.processReadBuffer s.conn decoded with ⟨conn, next⟩
  rw [hread] at hbuf
  cases next with
  | back => exact h.congr _ hbuf rfl rfl
  | close => exact (h.congr { s with conn := conn } hbuf rfl rfl).close
  | request r =>
      have hs : Session.Stream { s with conn := conn, handed := s.handed ++ [r] } :=
        h.congr _ hbuf rfl rfl
      dsimp only
      split
      · exact hs
      · exact hs.processMessage response pieces write

theorem Session.Stream.step {workers : Bool} {ctl : EpollCtl} {s s' : Session P}
    {callback : Callback P} (h : s.Stream) (hstep : s.step workers ctl callback = some s') :
    s'.Stream := by
  -- A read does not touch what is to be written.
  have hsame : ∀ {out : ReadOut} {conn : Conn} {next : ReadNext} (received : List Chunk),
      Libxv.onConnectionRead s.conn out = (conn, next) →
      Session.Stream { s with conn := conn, received := received } := by
    intro out conn next received hread
    have hbuf := onConnectionRead_writeBuffer s.conn out
    rw [hread] at hbuf
    exact h.congr _ hbuf rfl rfl
  cases Session.step_moves hstep with
  | readBack _ _ _ _ _ _ hread => exact hsame s.received hread
  | readClose _ _ _ _ _ _ hread => exact (hsame s.received hread).close
  | readProcess response pieces write _ _ hread =>
      exact (hsame _ hread).processReadBuffer _ response pieces write
  | write out => exact h.after (onConnectionWrite_flow ctl s.loop h.wf out)
  | answer response pieces write => exact h.processMessage response pieces write
  | release | otherStart | otherStop | refs => exact h.congr _ rfl rfl rfl

theorem Session.Stream.start {ctl : EpollCtl} {s : Session P} (h : Session.Start ctl s) :
    s.Stream := by
  obtain ⟨loop, fd, handle, rid, wid, mem, -, -, rfl⟩ := h
  exact ⟨xvBufferInit_wf _ _, rfl⟩

/-- Every state of a run satisfies the stream equation. -/
theorem Session.stream_of_reachable {workers : Bool} {ctl : EpollCtl} {s : Session P}
    (h : Reachable (Session.step workers ctl) (Session.Start ctl) s) : s.Stream :=
  h.invariant (fun _ => Session.Stream.start) fun _ _ _ hs _ hstep => hs.step hstep

/--
**The output stream is intact.**  While the connection is open, what the socket has
accepted followed by what is buffered is exactly what was encoded; open or closed, what
the socket has accepted is a prefix of it.
-/
theorem output_stream_intact {workers : Bool} {ctl : EpollCtl} {s : Session P}
    (h : Reachable (Session.step workers ctl) (Session.Start ctl) s) :
    (s.conn.status = .opened → s.accepted ++ s.conn.writeBuffer.readable = s.encoded) ∧
      s.accepted <+: s.encoded := by
  have hstream := Session.stream_of_reachable h
  exact ⟨fun _ => hstream.bytes, ⟨_, hstream.bytes⟩⟩

/-- Two bytes encoded, one of them accepted. -/
def partialWrite : Callback Unit := .returned (some ()) [⟨2, [1, 2], by decide⟩] (.wrote 1)

theorem output_stream_intact_partial_write :
    ∃ s : Session Unit, s.encoded = [1, 2] ∧ s.accepted = [1] ∧ s.conn.status = .opened ∧
      s.accepted ++ s.conn.writeBuffer.readable = s.encoded ∧ s.accepted <+: s.encoded := by
  have hrun : ∃ s : Session Unit,
      Reachable (Session.step true acceptAll) (Session.Start acceptAll) s ∧
        s.encoded = [1, 2] ∧ s.accepted = [1] ∧ s.conn.status = .opened :=
    ⟨_, .next (.start Session.sample_start) (i := partialWrite) trivial rfl, rfl, rfl, rfl⟩
  obtain ⟨s, hreach, hencoded, haccepted, hopen⟩ := hrun
  obtain ⟨hstream, hpre⟩ := output_stream_intact hreach
  exact ⟨s, hencoded, haccepted, hopen, hstream hopen, hpre⟩

end Libxv
