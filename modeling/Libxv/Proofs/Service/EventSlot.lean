/-
The slot of a connection in the event table of its loop.

A callback starts and stops the ios of its own connection, and every start and stop below the
size of the loop writes the io's flag and its slot together.  So where the slot shows which of
the two ios are started, it does so after the callback, and the other slots are as they were:
`Handles` is one callback seen that way, and composes.
-/
import Libxv.Poll
import Libxv.Proofs.Service.Frame
import Libxv.Proofs.WriteEvent

namespace Libxv

open Function

variable {P : Type} {ctl : EpollCtl}

/-! ### One slot -/

/-- The connection's io for a direction. -/
def Conn.io (conn : Conn) : Direction → Io
  | .read => conn.readIo
  | .write => conn.writeIo

def Conn.setIo (conn : Conn) (d : Direction) (io : Io) : Conn :=
  match d with
  | .read => { conn with readIo := io }
  | .write => { conn with writeIo := io }

/-- The slot that the connection's ios ask for. -/
def Conn.slot (conn : Conn) : EventIo :=
  { event :=
      (if conn.readIo.start then xvRead else xvNone) |||
        (if conn.writeIo.start then xvWrite else xvNone)
    readIo := if conn.readIo.start then some conn.readIo.id else none
    writeIo := if conn.writeIo.start then some conn.writeIo.id else none }

/-- Both ios watch the connection's fd, each in its direction. -/
def Conn.Proper (conn : Conn) : Prop :=
  ∀ d, (conn.io d).fd = conn.fd ∧ (conn.io d).event = d.event

/-- The loop has in the connection's slot what its ios ask for. -/
structure Shown (loop : Loop) (conn : Conn) : Prop where
  proper : conn.Proper
  fd_lt : conn.fd < loop.setsize
  slot : loop.slot conn.fd = conn.slot

section slots

variable {loop loop' : Loop} {conn conn' : Conn} {d : Direction}

theorem Direction.proper {io : Io} (h : io.event = d.event) : io.Proper := by
  cases d with
  | read => exact Or.inl h
  | write => exact Or.inr h

theorem Conn.setIo_fd (io : Io) : (conn.setIo d io).fd = conn.fd := by
  cases d <;> rfl

theorem Conn.Proper.setIo (h : conn.Proper) {io : Io} (hfd : io.fd = conn.fd)
    (hevent : io.event = d.event) : (conn.setIo d io).Proper := by
  intro d'
  cases d <;> cases d'
  · exact ⟨hfd, hevent⟩
  · exact h .write
  · exact h .read
  · exact ⟨hfd, hevent⟩

theorem Conn.slot_start (h : (conn.io d).event = d.event) (hstart : (conn.io d).start = false) :
    conn.slot.add (conn.io d) =
      (conn.setIo d { conn.io d with start := true }).slot := by
  cases d with
  | read =>
      have h : conn.readIo.event = xvRead := h
      have hstart : conn.readIo.start = false := hstart
      cases hwrite : conn.writeIo.start <;>
        simp [slot, EventIo.add, io, setIo, h, hstart, hwrite, xvRead, xvWrite, xvNone]
  | write =>
      have h : conn.writeIo.event = xvWrite := h
      have hstart : conn.writeIo.start = false := hstart
      cases hread : conn.readIo.start <;>
        simp [slot, EventIo.add, io, setIo, h, hstart, hread, xvRead, xvWrite, xvNone]

theorem Conn.slot_stop (h : (conn.io d).event = d.event) (hstart : (conn.io d).start = true) :
    conn.slot.del (conn.io d) =
      (conn.setIo d { conn.io d with start := false }).slot := by
  cases d with
  | read =>
      have h : conn.readIo.event = xvRead := h
      have hstart : conn.readIo.start = true := hstart
      cases hwrite : conn.writeIo.start <;>
        simp [slot, EventIo.del, io, setIo, h, hstart, hwrite, xvRead, xvWrite, xvNone]
  | write =>
      have h : conn.writeIo.event = xvWrite := h
      have hstart : conn.writeIo.start = true := hstart
      cases hread : conn.readIo.start <;>
        simp [slot, EventIo.del, io, setIo, h, hstart, hread, xvRead, xvWrite, xvNone]

/-- An io that has its flag already asks for nothing new. -/
theorem Conn.slot_same {start : Bool} (h : (conn.io d).start = start) :
    (conn.setIo d { conn.io d with start := start }).slot = conn.slot := by
  subst h
  cases d <;> rfl

theorem Conn.slot_stopped (hread : conn.readIo.start = false)
    (hwrite : conn.writeIo.start = false) : conn.slot = .empty := by
  simp [Conn.slot, EventIo.empty, hread, hwrite, xvNone]

/-! ### One start or stop -/

/-- A start below the size of the loop concerns one slot. -/
theorem xvIoStart_slot_off {io : Io} (h : io.fd < loop.setsize) {fd : Nat} (hne : fd ≠ io.fd) :
    (xvIoStart ctl loop io).2.1.slot fd = loop.slot fd := by
  unfold xvIoStart
  split
  · rfl
  · unfold xvLoopAddEvent
    have hfd : ¬ io.fd ≥ loop.setsize := Nat.not_le.mpr h
    simp only [if_neg hfd]
    split
    · rfl
    · exact update_of_ne hne _ _

theorem xvIoStart_setsize (ctl : EpollCtl) {io : Io} (h : io.fd < loop.setsize) :
    (xvIoStart ctl loop io).2.1.setsize = loop.setsize := by
  unfold xvIoStart
  split
  · rfl
  · unfold xvLoopAddEvent
    have hfd : ¬ io.fd ≥ loop.setsize := Nat.not_le.mpr h
    simp only [if_neg hfd]
    split <;> rfl

theorem xvIoStop_slot_del (ctl : EpollCtl) {io : Io} (hstart : io.start = true)
    (h : io.fd < loop.setsize) (hio : io.Proper) :
    (xvIoStop ctl loop io).2.1.slot io.fd = (loop.slot io.fd).del io := by
  have hfd : ¬ io.fd ≥ loop.setsize := Nat.not_le.mpr h
  have hevent : ¬ (io.event ≠ xvRead ∧ io.event ≠ xvWrite) := fun hbad =>
    hio.elim hbad.1 hbad.2
  simp only [xvIoStop, hstart, xvLoopDelEvent, if_neg hfd, if_neg hevent]
  exact update_self ..

theorem xvIoStop_stopped {io : Io} (h : io.start = false) :
    (xvIoStop ctl loop io).2.1 = loop := by
  simp [xvIoStop, h]

/-! ### One callback -/

/-- A callback on the connection makes these of the loop and the connection. -/
structure Handles (loop : Loop) (conn : Conn) (loop' : Loop) (conn' : Conn) : Prop where
  fd : conn'.fd = conn.fd
  shown : Shown loop' conn'
  off : ∀ fd, fd ≠ conn.fd → loop'.slot fd = loop.slot fd
  setsize : loop'.setsize = loop.setsize

theorem Handles.trans {loop'' : Loop} {conn'' : Conn} (h : Handles loop conn loop' conn')
    (h' : Handles loop' conn' loop'' conn'') : Handles loop conn loop'' conn'' where
  fd := h'.fd.trans h.fd
  shown := h'.shown
  off := fun fd hne => (h'.off fd (h.fd ▸ hne)).trans (h.off fd hne)
  setsize := h'.setsize.trans h.setsize

/-- The buffers, the status and the references are nothing to the loop. -/
theorem Shown.congr (h : Shown loop conn) (hfd : conn'.fd = conn.fd)
    (hread : conn'.readIo = conn.readIo) (hwrite : conn'.writeIo = conn.writeIo) :
    Handles loop conn loop conn' where
  fd := hfd
  shown :=
    { proper := by
        intro d
        rw [hfd, show conn'.io d = conn.io d by cases d <;> assumption]
        exact h.proper d
      fd_lt := hfd ▸ h.fd_lt
      slot := by rw [hfd, h.slot, Conn.slot, Conn.slot, hread, hwrite] }
  off := fun _ _ => rfl
  setsize := rfl

theorem Shown.refl (h : Shown loop conn) : Handles loop conn loop conn := h.congr rfl rfl rfl

theorem Shown.start (h : Shown loop conn) (ctl : EpollCtl) (d : Direction) :
    Handles loop conn (xvIoStart ctl loop (conn.io d)).2.1
      (conn.setIo d (xvIoStart ctl loop (conn.io d)).2.2) := by
  obtain ⟨hfd, hevent⟩ := h.proper d
  have hlt : (conn.io d).fd < loop.setsize := hfd.symm ▸ h.fd_lt
  have hsize := xvIoStart_setsize ctl hlt
  have hslot : (xvIoStart ctl loop (conn.io d)).2.1.slot conn.fd =
      (conn.setIo d { conn.io d with start := true }).slot := by
    cases hstart : (conn.io d).start with
    | true => rw [xvIoStart_started hstart, Conn.slot_same hstart, h.slot]
    | false =>
        rw [← hfd, xvIoStart_slot_self hstart hlt (Direction.proper hevent), hfd, h.slot,
          Conn.slot_start hevent hstart]
  rw [xvIoStart_io]
  exact
    { fd := Conn.setIo_fd _
      shown :=
        { proper := h.proper.setIo hfd hevent
          fd_lt := by rw [Conn.setIo_fd, hsize]; exact h.fd_lt
          slot := by rw [Conn.setIo_fd]; exact hslot }
      off := fun fd hne => xvIoStart_slot_off hlt (hfd.symm ▸ hne)
      setsize := hsize }

theorem Shown.stop (h : Shown loop conn) (ctl : EpollCtl) (d : Direction) :
    Handles loop conn (xvIoStop ctl loop (conn.io d)).2.1
      (conn.setIo d (xvIoStop ctl loop (conn.io d)).2.2) := by
  obtain ⟨hfd, hevent⟩ := h.proper d
  have hlt : (conn.io d).fd < loop.setsize := hfd.symm ▸ h.fd_lt
  have hsize := xvIoStop_setsize ctl loop (conn.io d)
  have hslot : (xvIoStop ctl loop (conn.io d)).2.1.slot conn.fd =
      (conn.setIo d { conn.io d with start := false }).slot := by
    cases hstart : (conn.io d).start with
    | false => rw [xvIoStop_stopped hstart, Conn.slot_same hstart, h.slot]
    | true =>
        have hslot := xvIoStop_slot_del ctl hstart hlt (Direction.proper hevent)
        rw [hfd, h.slot, Conn.slot_stop hevent hstart] at hslot
        exact hslot
  rw [xvIoStop_io]
  exact
    { fd := Conn.setIo_fd _
      shown :=
        { proper := h.proper.setIo hfd hevent
          fd_lt := by rw [Conn.setIo_fd, hsize]; exact h.fd_lt
          slot := by rw [Conn.setIo_fd]; exact hslot }
      off := fun fd hne => xvIoStop_slot_ne (hfd.symm ▸ hne)
      setsize := hsize }

theorem Shown.advance (h : Shown loop conn) (n : Int) :
    Handles loop conn loop (advance conn n) := by
  obtain ⟨hfd, hread, hwrite, -⟩ := advance_fields conn n
  exact h.congr hfd hread hwrite

theorem closeConnection_handles (h : Shown loop conn) :
    Handles loop conn (closeConnection ctl loop conn).1 (closeConnection ctl loop conn).2 := by
  unfold closeConnection
  split
  · have hclosed : Handles loop conn loop { conn with status := .closed } := h.congr rfl rfl rfl
    have hread := hclosed.trans (hclosed.shown.stop ctl .read)
    exact hread.trans (hread.shown.stop ctl .write)
  · exact h.refl

theorem processMessage_handles (h : Shown loop conn) (response : Option P) (pieces : List Piece)
    (out : WriteOut) :
    Handles loop conn (processMessage ctl loop conn response pieces out).loop
      (processMessage ctl loop conn response pieces out).conn := by
  unfold processMessage
  split
  · exact h.refl
  · have hencoded : Handles loop conn loop
        { conn with writeBuffer := pieces.foldl appendPiece conn.writeBuffer } :=
      h.congr rfl rfl rfl
    dsimp only
    split
    · exact hencoded
    · split
      · exact hencoded
      · have hsent := hencoded.trans (hencoded.shown.advance (out.nwritten
          (xvBufferReadableSize (pieces.foldl appendPiece conn.writeBuffer))))
        split
        · exact hsent.trans (hsent.shown.start ctl .write)
        · exact hsent

theorem onConnectionWrite_handles (h : Shown loop conn) (out : WriteOut) :
    Handles loop conn (onConnectionWrite ctl loop conn out).loop
      (onConnectionWrite ctl loop conn out).conn := by
  unfold onConnectionWrite
  dsimp only
  split
  · split
    · exact h.refl
    · have hsent := h.advance (out.nwritten (xvBufferReadableSize conn.writeBuffer))
      split
      · exact hsent.trans (hsent.shown.stop ctl .write)
      · exact hsent
  · exact h.stop ctl .write

/-! ### The flags -/

/-- The flags of a connection's ios say where it is in its life. -/
structure Conn.Regular (conn : Conn) : Prop where
  reading : conn.readIo.start = true ↔ conn.ioThread ≠ none ∧ conn.status = .opened
  writing : conn.writeIo.start = true → conn.ioThread ≠ none ∧ conn.status = .opened
  adopted : conn.status = .closed → conn.ioThread ≠ none

theorem Conn.Regular.congr (h : conn.Regular) (hthread : conn'.ioThread = conn.ioThread)
    (hstatus : conn'.status = conn.status) (hread : conn'.readIo.start = conn.readIo.start)
    (hwrite : conn'.writeIo.start = true → conn.writeIo.start = true ∨
      conn.ioThread ≠ none ∧ conn.status = .opened) : conn'.Regular := by
  refine ⟨?_, ?_, ?_⟩
  · rw [hread, hthread, hstatus]
    exact h.reading
  · rw [hthread, hstatus]
    intro hstart
    exact (hwrite hstart).elim h.writing id
  · rw [hthread, hstatus]
    exact h.adopted

theorem xvConnectionInit_regular (fd : Nat) (handle : Handle) (rid wid : Nat)
    (mem : Nat → UInt8) : (xvConnectionInit fd handle rid wid mem).Regular := by
  constructor <;> simp [xvConnectionInit, xvIoInit]

theorem Conn.Regular.advance (h : conn.Regular) (n : Int) : (advance conn n).Regular := by
  unfold Libxv.advance
  split
  · exact h.congr rfl rfl rfl Or.inl
  · exact h

/-- Closing stops both ios. -/
theorem closeConnection_regular (h : conn.Regular) (howner : conn.ioThread ≠ none) :
    (closeConnection ctl loop conn).2.Regular := by
  have hfrom := closeConnection_from ctl loop conn
  unfold closeConnection at hfrom ⊢
  split
  · rw [if_pos (by assumption)] at hfrom
    have hread : (xvConnectionStop ctl loop { conn with status := .closed }).2.readIo.start =
        false := by
      show (xvIoStop ctl loop conn.readIo).2.2.start = false
      rw [xvIoStop_io]
    have hwrite : (xvConnectionStop ctl loop { conn with status := .closed }).2.writeIo.start =
        false := by
      show (xvIoStop ctl _ conn.writeIo).2.2.start = false
      rw [xvIoStop_io]
    constructor <;> simp [hread, hwrite, hfrom.status, hfrom.ioThread, howner]
  · exact h

theorem processMessage_regular (h : conn.Regular) (howner : conn.ioThread ≠ none)
    (response : Option P) (pieces : List Piece) (out : WriteOut) :
    (processMessage ctl loop conn response pieces out).conn.Regular := by
  unfold processMessage
  split
  · exact h
  · have hencoded : Conn.Regular
        { conn with writeBuffer := pieces.foldl appendPiece conn.writeBuffer } :=
      h.congr rfl rfl rfl Or.inl
    dsimp only
    split
    · exact hencoded
    · split
      · exact hencoded
      · have hsent := hencoded.advance (out.nwritten
          (xvBufferReadableSize (pieces.foldl appendPiece conn.writeBuffer)))
        split
        · rename_i hmore
          refine hsent.congr rfl rfl rfl fun _ => Or.inr ⟨?_, hmore.2⟩
          rw [(advance_same _ _).ioThread]
          exact howner
        · exact hsent

theorem onConnectionWrite_regular (h : conn.Regular) (out : WriteOut) :
    (onConnectionWrite ctl loop conn out).conn.Regular := by
  have hstop : ∀ {conn' : Conn} (accepted : List UInt8), conn'.Regular →
      (stopWrite ctl loop conn' accepted).conn.Regular := by
    intro conn' accepted h'
    refine h'.congr rfl rfl rfl fun hstart => ?_
    have hstopped : (xvIoStop ctl loop conn'.writeIo).2.2.start = true := hstart
    rw [xvIoStop_io] at hstopped
    exact absurd hstopped (by simp)
  unfold onConnectionWrite
  dsimp only
  split
  · split
    · exact h
    · split
      · exact hstop _ (h.advance _)
      · exact h.advance _
  · exact hstop _ h

end slots

end Libxv
