/-
What the functions of a connection leave alone.

The callbacks of `Connection.lean` change a connection's buffers and ios.  They never change
who it belongs to, its references or, short of a close, its status; and the only io they
register is the connection's own.
-/
import Libxv.Proofs.Service.Instr
import Libxv.Proofs.Loop

namespace Libxv

open Function

variable {P : Type} {ctl : EpollCtl}

/-! ### The fields of a connection -/

/-- The connections differ in their buffers and the flags of their ios at most. -/
structure Conn.Same (conn conn' : Conn) : Prop where
  fd : conn'.fd = conn.fd
  handle : conn'.handle = conn.handle
  ioThread : conn'.ioThread = conn.ioThread
  status : conn'.status = conn.status
  refCount : conn'.refCount = conn.refCount
  readId : conn'.readIo.id = conn.readIo.id
  writeId : conn'.writeIo.id = conn.writeIo.id

theorem Conn.Same.refl (conn : Conn) : conn.Same conn := ⟨rfl, rfl, rfl, rfl, rfl, rfl, rfl⟩

theorem Conn.Same.trans {conn conn' conn'' : Conn} (h : conn.Same conn')
    (h' : conn'.Same conn'') : conn.Same conn'' where
  fd := h'.fd.trans h.fd
  handle := h'.handle.trans h.handle
  ioThread := h'.ioThread.trans h.ioThread
  status := h'.status.trans h.status
  refCount := h'.refCount.trans h.refCount
  readId := h'.readId.trans h.readId
  writeId := h'.writeId.trans h.writeId

theorem advance_same (conn : Conn) (n : Int) : conn.Same (advance conn n) := by
  unfold advance
  split <;> exact ⟨rfl, rfl, rfl, rfl, rfl, rfl, rfl⟩

theorem xvIoStart_id (loop : Loop) (io : Io) : (xvIoStart ctl loop io).2.2.id = io.id := by
  unfold xvIoStart
  split <;> rfl

theorem xvIoStop_id (loop : Loop) (io : Io) : (xvIoStop ctl loop io).2.2.id = io.id := by
  unfold xvIoStop
  split <;> rfl

theorem Conn.Same.setWriteIo {conn conn' : Conn} (h : conn.Same conn') {io : Io}
    (hid : io.id = conn'.writeIo.id) : conn.Same { conn' with writeIo := io } :=
  ⟨h.fd, h.handle, h.ioThread, h.status, h.refCount, h.readId, hid.trans h.writeId⟩

theorem Conn.Same.advance {conn conn' : Conn} (h : conn.Same conn') (n : Int) :
    conn.Same (advance conn' n) := by
  have hadv := advance_same conn' n
  exact ⟨hadv.fd.trans h.fd, hadv.handle.trans h.handle, hadv.ioThread.trans h.ioThread,
    hadv.status.trans h.status, hadv.refCount.trans h.refCount, hadv.readId.trans h.readId,
    hadv.writeId.trans h.writeId⟩

theorem stopWrite_same (loop : Loop) {conn conn' : Conn} (h : conn.Same conn')
    (accepted : List UInt8) : conn.Same (stopWrite ctl loop conn' accepted).conn :=
  h.setWriteIo (xvIoStop_id loop conn'.writeIo)

theorem onConnectionWrite_same (ctl : EpollCtl) (loop : Loop) (conn : Conn) (out : WriteOut) :
    conn.Same (onConnectionWrite ctl loop conn out).conn := by
  unfold onConnectionWrite
  dsimp only
  split
  · split
    · exact .refl conn
    · split
      · exact stopWrite_same loop ((Conn.Same.refl conn).advance _) _
      · exact (Conn.Same.refl conn).advance _
  · exact stopWrite_same loop (.refl conn) _

theorem onConnectionWrite_encoded (ctl : EpollCtl) (loop : Loop) (conn : Conn)
    (out : WriteOut) : (onConnectionWrite ctl loop conn out).encoded = [] := by
  unfold onConnectionWrite
  dsimp only
  split
  · split
    · rfl
    · split <;> rfl
  · rfl

theorem processMessage_same (ctl : EpollCtl) (loop : Loop) (conn : Conn) (response : Option P)
    (pieces : List Piece) (out : WriteOut) :
    conn.Same (processMessage ctl loop conn response pieces out).conn := by
  have hbuffer : ∀ buffer, conn.Same { conn with writeBuffer := buffer } :=
    fun _ => ⟨rfl, rfl, rfl, rfl, rfl, rfl, rfl⟩
  unfold processMessage
  dsimp only
  split
  · exact .refl conn
  · split
    · exact hbuffer _
    · split
      · exact hbuffer _
      · split
        · exact ((hbuffer _).advance _).setWriteIo (xvIoStart_id _ _)
        · exact (hbuffer _).advance _

theorem onConnectionRead_same (conn : Conn) (out : ReadOut) :
    conn.Same (onConnectionRead conn out).1 := by
  unfold onConnectionRead
  split
  · exact .refl conn
  · cases out <;> exact ⟨rfl, rfl, rfl, rfl, rfl, rfl, rfl⟩

theorem processReadBuffer_same {conn conn' : Conn} (h : conn.Same conn') (out : DecodeOut P) :
    conn.Same (processReadBuffer conn' out).1 := by
  have hbuffer : ∀ buffer, conn.Same { conn' with readBuffer := buffer } :=
    fun _ => ⟨h.fd, h.handle, h.ioThread, h.status, h.refCount, h.readId, h.writeId⟩
  unfold processReadBuffer
  dsimp only
  split
  · exact hbuffer _
  · split
    · exact hbuffer _
    · split <;> exact hbuffer _

theorem readAndDecode_same {conn conn' : Conn} {out : ReadOut} {decoded : DecodeOut P}
    {chunks : List Chunk} {next : Decoded P}
    (h : readAndDecode conn out decoded = some (conn', chunks, next)) : conn.Same conn' := by
  have hread := onConnectionRead_same conn out
  unfold readAndDecode at h
  split at h
  · rename_i mid hmid
    simp only [Option.some.injEq, Prod.mk.injEq] at h
    rw [hmid] at hread
    exact h.1 ▸ hread
  · rename_i mid hmid
    simp only [Option.some.injEq, Prod.mk.injEq] at h
    rw [hmid] at hread
    exact h.1 ▸ hread
  · rename_i mid hmid
    rw [hmid] at hread
    split at h
    · simp at h
    · simp only [Option.some.injEq, Prod.mk.injEq] at h
      exact h.1 ▸ processReadBuffer_same hread decoded

/-- What `xv_connection_close` leaves of the connection before its reference check. -/
structure Conn.ClosedFrom (conn conn' : Conn) : Prop where
  fd : conn'.fd = conn.fd
  handle : conn'.handle = conn.handle
  ioThread : conn'.ioThread = conn.ioThread
  status : conn'.status = .closed
  refCount : conn'.refCount = conn.refCount
  readId : conn'.readIo.id = conn.readIo.id
  writeId : conn'.writeIo.id = conn.writeIo.id

theorem closeConnection_from (ctl : EpollCtl) (loop : Loop) (conn : Conn) :
    conn.ClosedFrom (closeConnection ctl loop conn).2 := by
  unfold closeConnection
  split
  · exact ⟨rfl, rfl, rfl, rfl, rfl, xvIoStop_id _ _, xvIoStop_id _ _⟩
  · rename_i h
    exact ⟨rfl, rfl, rfl, not_not.mp h, rfl, rfl, rfl⟩

/-! ### The slots of a loop -/

/-- The second loop has no io in its slots that the first has not, but `id`. -/
structure Loop.AddsOnly (loop loop' : Loop) (id : Nat) : Prop where
  read : ∀ fd x, (loop'.slot fd).readIo = some x → (loop.slot fd).readIo = some x ∨ x = id
  write : ∀ fd x, (loop'.slot fd).writeIo = some x → (loop.slot fd).writeIo = some x ∨ x = id

theorem Loop.AddsOnly.refl (loop : Loop) (id : Nat) : loop.AddsOnly loop id :=
  ⟨fun _ _ h => Or.inl h, fun _ _ h => Or.inl h⟩

theorem Loop.AddsOnly.trans {loop mid loop' : Loop} {id : Nat} (h : loop.AddsOnly mid id)
    (h' : mid.AddsOnly loop' id) : loop.AddsOnly loop' id := by
  constructor
  · intro fd x hx
    rcases h'.read fd x hx with hmid | hid
    · exact h.read fd x hmid
    · exact Or.inr hid
  · intro fd x hx
    rcases h'.write fd x hx with hmid | hid
    · exact h.write fd x hmid
    · exact Or.inr hid

theorem xvLoopResize_addsOnly (loop : Loop) (n id : Nat) :
    loop.AddsOnly (xvLoopResize loop n) id := by
  unfold xvLoopResize
  split
  · exact .refl loop id
  · constructor <;>
    · intro fd x hx
      dsimp only at hx
      split at hx
      · exact absurd hx (by simp [EventIo.empty])
      · exact Or.inl hx

/-- A loop that differs in one slot, where only `id` is new. -/
theorem Loop.AddsOnly.of_update {loop loop' : Loop} {id fd : Nat} {slot : EventIo}
    (hslot : loop'.slot = update loop.slot fd slot)
    (hread : ∀ x, slot.readIo = some x → (loop.slot fd).readIo = some x ∨ x = id)
    (hwrite : ∀ x, slot.writeIo = some x → (loop.slot fd).writeIo = some x ∨ x = id) :
    loop.AddsOnly loop' id := by
  constructor
  · intro i x hx
    rw [hslot] at hx
    by_cases hi : i = fd
    · subst hi
      rw [update_self] at hx
      exact hread x hx
    · rw [update_of_ne hi] at hx
      exact Or.inl hx
  · intro i x hx
    rw [hslot] at hx
    by_cases hi : i = fd
    · subst hi
      rw [update_self] at hx
      exact hwrite x hx
    · rw [update_of_ne hi] at hx
      exact Or.inl hx

theorem xvIoStart_addsOnly (ctl : EpollCtl) (loop : Loop) (io : Io) :
    loop.AddsOnly (xvIoStart ctl loop io).2.1 io.id := by
  have hadd : ∀ slot : EventIo, (∀ x, (slot.add { io with start := true }).readIo = some x →
        slot.readIo = some x ∨ x = io.id) ∧
      ∀ x, (slot.add { io with start := true }).writeIo = some x →
        slot.writeIo = some x ∨ x = io.id := by
    intro slot
    unfold EventIo.add
    constructor <;>
    · intro x hx
      dsimp only at hx
      split at hx
      · exact Or.inr (Option.some.inj hx).symm
      · exact Or.inl hx
  have hone : ∀ mid : Loop, loop.AddsOnly mid io.id →
      loop.AddsOnly { mid with
        slot := update mid.slot io.fd ((mid.slot io.fd).add { io with start := true }) } io.id :=
    fun mid hmid => hmid.trans (.of_update rfl (hadd _).1 (hadd _).2)
  have hgrow : loop.AddsOnly
      (if io.fd ≥ loop.setsize then xvLoopResize loop (loop.setsize * 2) else loop) io.id := by
    split
    · exact xvLoopResize_addsOnly loop _ _
    · exact .refl loop _
  unfold xvIoStart
  split
  · exact .refl loop _
  · unfold xvLoopAddEvent
    dsimp only
    split
    · exact hgrow
    · exact ⟨(hone _ hgrow).read, (hone _ hgrow).write⟩

theorem xvIoStop_addsOnly (ctl : EpollCtl) (loop : Loop) (io : Io) (id : Nat) :
    loop.AddsOnly (xvIoStop ctl loop io).2.1 id := by
  have hdel : ∀ slot : EventIo, (∀ x, (slot.del { io with start := false }).readIo = some x →
        slot.readIo = some x ∨ x = id) ∧
      ∀ x, (slot.del { io with start := false }).writeIo = some x →
        slot.writeIo = some x ∨ x = id := by
    intro slot
    unfold EventIo.del
    constructor <;>
    · intro x hx
      dsimp only at hx
      split at hx
      · first | exact Or.inl hx | simp at hx
      · split at hx
        · first | exact Or.inl hx | simp at hx
        · exact Or.inl hx
  unfold xvIoStop
  split
  · exact .refl loop _
  · unfold xvLoopDelEvent
    dsimp only
    split
    · exact .refl loop _
    · split
      · exact .refl loop _
      · exact .of_update rfl (hdel _).1 (hdel _).2

theorem onConnectionWrite_addsOnly (ctl : EpollCtl) (loop : Loop) (conn : Conn) (out : WriteOut)
    (id : Nat) :
    loop.AddsOnly (onConnectionWrite ctl loop conn out).loop id := by
  unfold onConnectionWrite
  dsimp only
  split
  · split
    · exact .refl loop _
    · split
      · exact xvIoStop_addsOnly ..
      · exact .refl loop _
  · exact xvIoStop_addsOnly ..

theorem processMessage_addsOnly (ctl : EpollCtl) (loop : Loop) (conn : Conn) (response : Option P)
    (pieces : List Piece) (out : WriteOut) :
    loop.AddsOnly (processMessage ctl loop conn response pieces out).loop conn.writeIo.id := by
  unfold processMessage
  dsimp only
  split
  · exact .refl loop _
  · split
    · exact .refl loop _
    · split
      · exact .refl loop _
      · split
        · have hstart := xvIoStart_addsOnly ctl loop
            (advance { conn with writeBuffer := pieces.foldl appendPiece conn.writeBuffer }
              (out.nwritten (xvBufferReadableSize
                (pieces.foldl appendPiece conn.writeBuffer)))).writeIo
          rw [(advance_same _ _).writeId] at hstart
          exact hstart
        · exact .refl loop _

theorem closeConnection_addsOnly (ctl : EpollCtl) (loop : Loop) (conn : Conn) (id : Nat) :
    loop.AddsOnly (closeConnection ctl loop conn).1 id := by
  unfold closeConnection
  split
  · exact (xvIoStop_addsOnly ctl loop _ id).trans (xvIoStop_addsOnly ctl _ _ id)
  · exact .refl loop id

/-! ### What an instruction leaves of a connection -/

/-- What a connection keeps from its creation on. -/
structure Conn.Kept (conn conn' : Conn) : Prop where
  fd : conn'.fd = conn.fd
  handle : conn'.handle = conn.handle
  readId : conn'.readIo.id = conn.readIo.id
  writeId : conn'.writeIo.id = conn.writeIo.id

/-- The new connection a thread has in its hands. -/
def Pc.adopts : Pc P → Option Nat
  | .addConnection c | .assign c | .adopt c => some c
  | _ => none

variable {cfg : Config} {s : State P}

/-- A connection is there already, or it is the one just accepted. -/
theorem Instr.conns_cases {a : Agent} {pc pc' : Pc P} {act : Act P} {next : State P}
    (h : Instr cfg ctl s a pc act next pc') {c : Nat} (hc : c < next.nextConn) :
    c < s.nextConn ∨ (s.nextConn = c ∧ pc' = .addConnection c ∧
      ∃ fd handle mem, next = s.accept fd handle mem) := by
  cases h
  case accept t fd handle mem ht hfd =>
    have hc : c < s.nextConn + 1 := hc
    by_cases hnew : c = s.nextConn
    · subst hnew
      exact Or.inr ⟨rfl, rfl, fd, handle, mem, rfl⟩
    · exact Or.inl (by omega)
  all_goals exact Or.inl hc

theorem Instr.nextConn_le {a : Agent} {pc pc' : Pc P} {act : Act P} {next : State P}
    (h : Instr cfg ctl s a pc act next pc') : s.nextConn ≤ next.nextConn := by
  cases h
  case accept => exact Nat.le_succ _
  all_goals exact Nat.le_refl _

/-- The connection with `n` references more. -/
def Connection.addRef (conn : Connection) (n : Int) : Connection :=
  { conn with conn := { conn.conn with refCount := conn.conn.refCount + n } }

/-- What an instruction makes of a connection that exists. -/
inductive ConnStep (s : State P) (c : Nat) : Agent → Pc P → Connection → Prop
  | same {a : Agent} {pc : Pc P} : ConnStep s c a pc (s.conns c)
  /-- A callback on it reads or writes; only `process_message` appends anything. -/
  | used {t : Nat} {pc : Pc P} {conn : Conn} (chunks : List Chunk) (bytes : List UInt8)
      (hsame : (s.conns c).conn.Same conn)
      (hpc : (pc = .poll ∧ bytes = []) ∨
        ∃ m origin, pc = .respond m origin ∧ (s.msgs m).conn = c) :
      ConnStep s c (.io t) pc
        { s.conns c with
          conn := conn
          received := (s.conns c).received ++ chunks
          appended := (s.conns c).appended ++ bytes }
  /-- A request is read from it and a message made. -/
  | request {t fd : Nat} {conn : Conn} {chunks : List Chunk}
      (hslot : ((s.io t).loop.slot fd).readIo = some c) (hsame : (s.conns c).conn.Same conn) :
      ConnStep s c (.io t) .poll
        (Connection.addRef
          { s.conns c with conn := conn, received := (s.conns c).received ++ chunks } 1)
  | closed {t : Nat} {resume : Resume} {conn : Conn} (h : (s.conns c).conn.ClosedFrom conn) :
      ConnStep s c (.io t) (.close c resume) { s.conns c with conn := conn }
  | adopted {t : Nat} {pc : Pc P} {readIo : Io} (hpc : pc.adopts = some c)
      (hid : readIo.id = (s.conns c).conn.readIo.id) :
      ConnStep s c (.io t) pc
        { s.conns c with
          conn := { (s.conns c).conn with ioThread := some t, readIo := readIo } }
  | sender {u : Nat} {package : Option P} :
      ConnStep s c (.sender u) (.sendInit c package) ((s.conns c).addRef 1)
  | finished {t m : Nat} {origin : Origin} (hm : (s.msgs m).conn = c) :
      ConnStep s c (.io t) (.finish m origin) ((s.conns c).addRef (-1))
  | returned {t m : Nat} (hm : (s.msgs m).conn = c) (hstatus : (s.conns c).conn.status = .closed) :
      ConnStep s c (.io t) (.returned m) ((s.conns c).addRef (-1))
  | deleted {t n : Nat} {resume : Resume}
      (hn : n = if (xvServiceDelConnection s.table (s.conns c).conn.fd).1 = xvOk then 1 else 0) :
      ConnStep s c (.io t) (.closeDel c resume)
        { s.conns c with deleted := (s.conns c).deleted + n }
  | fdClosed {t : Nat} {resume : Resume} :
      ConnStep s c (.io t) (.closeFd c resume)
        { s.conns c with fdClosed := (s.conns c).fdClosed + 1 }
  | freed {t : Nat} {pc : Pc P}
      (hpc : (∃ resume, pc = .closeFree c resume) ∨ pc = .freeReturned c) :
      ConnStep s c (.io t) pc { s.conns c with freed := (s.conns c).freed + 1 }

theorem ConnStep.update {conns : Nat → Connection} {c i : Nat} {x : Connection} {a : Agent}
    {pc : Pc P} (hconns : conns = update s.conns i x)
    (hx : c = i → ConnStep s c a pc x) : ConnStep s c a pc (conns c) := by
  subst hconns
  by_cases hc : c = i
  · have hstep := hx hc
    subst hc
    rw [update_self]
    exact hstep
  · rw [update_of_ne hc]
    exact .same

/-- A read without a message, or a write without a read. -/
theorem ConnStep.read {t c : Nat} {conn : Conn} {chunks : List Chunk}
    (hsame : (s.conns c).conn.Same conn) :
    ConnStep s c (.io t) .poll
      { s.conns c with conn := conn, received := (s.conns c).received ++ chunks } := by
  have hused : ConnStep s c (.io t) .poll _ := .used chunks [] hsame (Or.inl ⟨rfl, rfl⟩)
  rwa [List.append_nil] at hused

/-- **What an instruction can make of a connection**, unless it creates it. -/
theorem Instr.connStep {a : Agent} {pc pc' : Pc P} {act : Act P} {next : State P}
    (h : Instr cfg ctl s a pc act next pc') {c : Nat}
    (hc : c = s.nextConn → ∀ fd handle mem, act ≠ .accept fd handle mem) :
    ConnStep s c a pc (next.conns c) := by
  cases h
  case accept t fd handle mem ht hfd =>
    exact ConnStep.update rfl fun hnew => absurd rfl (hc hnew fd handle mem)
  case request t fd c' out decoded conn chunks request hslot halive hread =>
    refine ConnStep.update (i := c') (x := Connection.addRef
      { s.conns c' with conn := conn, received := (s.conns c').received ++ chunks } 1) ?_ ?_
    · simp [State.xvMessageInit, State.addRef, State.setConn, State.receive, Connection.addRef]
    · rintro rfl
      exact .request hslot (readAndDecode_same hread)
  case readBack t fd c' out decoded conn chunks hslot halive hread
      | readClose t fd c' out decoded conn chunks hslot halive hread =>
    refine ConnStep.update rfl ?_
    rintro rfl
    exact .read (readAndDecode_same hread)
  case respond t m c' origin pieces out sent encodes hc' hsent hencodes =>
    refine ConnStep.update rfl ?_
    rintro rfl
    have hsame : (s.conns c).conn.Same sent.conn := hsent ▸ processMessage_same ..
    have hused : ConnStep s c (.io t) (.respond m origin) _ :=
      .used [] sent.encoded hsame (Or.inr ⟨m, origin, rfl, hc'.symm⟩)
    rwa [List.append_nil] at hused
  case write t fd c' out sent hslot halive hsent =>
    refine ConnStep.update rfl ?_
    rintro rfl
    have hsame : (s.conns c).conn.Same sent.conn := hsent ▸ onConnectionWrite_same ..
    have hencoded : sent.encoded = [] := hsent ▸ onConnectionWrite_encoded ..
    have hused : ConnStep s c (.io t) .poll _ :=
      .used [] sent.encoded hsame (Or.inl ⟨rfl, hencoded⟩)
    rwa [List.append_nil] at hused
  case close t c' owner resume howner =>
    refine ConnStep.update rfl ?_
    rintro rfl
    exact .closed (closeConnection_from ..)
  case assignSelf t c' _ | adopt t c' =>
    refine ConnStep.update rfl ?_
    rintro rfl
    exact .adopted rfl (xvIoStart_id ..)
  case closeDel t c' resume =>
    refine ConnStep.update rfl ?_
    rintro rfl
    exact .deleted rfl
  case closeFd t c' resume =>
    refine ConnStep.update rfl ?_
    rintro rfl
    exact .fdClosed
  case closeFree t c' resume =>
    refine ConnStep.update rfl ?_
    rintro rfl
    exact .freed (Or.inl ⟨resume, rfl⟩)
  case freeReturned t c' =>
    refine ConnStep.update rfl ?_
    rintro rfl
    exact .freed (Or.inr rfl)
  case sendInit u c' package =>
    refine ConnStep.update rfl ?_
    rintro rfl
    exact .sender
  case finish t m origin =>
    exact ConnStep.update rfl fun hm => hm ▸ .finished hm.symm
  case returnedClosed t m hstatus =>
    exact ConnStep.update rfl fun hm => hm ▸ .returned hm.symm (hm ▸ hstatus)
  all_goals exact .same

theorem ConnStep.kept {a : Agent} {pc : Pc P} {c : Nat} {conn : Connection}
    (h : ConnStep s c a pc conn) : (s.conns c).conn.Kept conn.conn := by
  cases h with
  | used _ _ hsame _ | request _ hsame =>
      exact ⟨hsame.fd, hsame.handle, hsame.readId, hsame.writeId⟩
  | closed h => exact ⟨h.fd, h.handle, h.readId, h.writeId⟩
  | adopted _ hid => exact ⟨rfl, rfl, hid, rfl⟩
  | _ => exact ⟨rfl, rfl, rfl, rfl⟩

theorem Instr.connStep_of_lt {a : Agent} {pc pc' : Pc P} {act : Act P} {next : State P}
    (h : Instr cfg ctl s a pc act next pc') {c : Nat} (hc : c < s.nextConn) :
    ConnStep s c a pc (next.conns c) :=
  h.connStep fun hnew => absurd hnew (Nat.ne_of_lt hc)

theorem Instr.kept {a : Agent} {pc pc' : Pc P} {act : Act P} {next : State P}
    (h : Instr cfg ctl s a pc act next pc') {c : Nat} (hc : c < s.nextConn) :
    (s.conns c).conn.Kept (next.conns c).conn := (h.connStep_of_lt hc).kept

/-- The status of a connection changes when it is closed. -/
theorem ConnStep.status_cases {a : Agent} {pc : Pc P} {c : Nat} {conn : Connection}
    (h : ConnStep s c a pc conn) : conn.conn.status = (s.conns c).conn.status ∨
      ((∃ resume, pc = .close c resume) ∧ conn.conn.status = .closed) := by
  cases h with
  | used _ _ hsame _ | request _ hsame => exact Or.inl hsame.status
  | closed h => exact Or.inr ⟨⟨_, rfl⟩, h.status⟩
  | _ => exact Or.inl rfl

/-- Only the thread in its callback closes a connection. -/
theorem Instr.status_eq {a : Agent} {act : Act P} {next : State P} {pc' : Pc P} {c : Nat}
    (hinstr : Instr cfg ctl s a (s.pc a) act next pc') (hc : c < s.nextConn)
    (hpc : ∀ resume, s.pc a ≠ .close c resume) :
    (next.conns c).conn.status = (s.conns c).conn.status := by
  rcases (hinstr.connStep_of_lt hc).status_cases with hsame | ⟨⟨resume, hclose⟩, -⟩
  · exact hsame
  · exact absurd hclose (hpc resume)

theorem Instr.status_closed {t c : Nat} {pc' : Pc P} {act : Act P} {next : State P}
    {resume : Resume} (h : Instr cfg ctl s (.io t) (.close c resume) act next pc') :
    (next.conns c).conn.status = .closed := by
  cases h with
  | close howner =>
      simp [State.markClosed, State.setConn, (closeConnection_from ..).status]

/-- A connection is opened, and stays so until it is closed. -/
theorem Instr.status_before {a : Agent} {pc pc' : Pc P} {act : Act P} {next : State P}
    (hinstr : Instr cfg ctl s a pc act next pc') {c : Nat} (hc : c < s.nextConn)
    (h : (next.conns c).conn.status = .opened) : (s.conns c).conn.status = .opened := by
  rcases (hinstr.connStep_of_lt hc).status_cases with hsame | ⟨-, hclosed⟩
  · rw [← hsame]
    exact h
  · rw [hclosed] at h
    exact absurd h (by decide)

/-- The owner of a connection is set when it is adopted. -/
theorem ConnStep.owner_cases {a : Agent} {pc : Pc P} {c : Nat} {conn : Connection}
    (h : ConnStep s c a pc conn) : conn.conn.ioThread = (s.conns c).conn.ioThread ∨
      pc.adopts = some c := by
  cases h with
  | used _ _ hsame _ | request _ hsame => exact Or.inl hsame.ioThread
  | closed h => exact Or.inl h.ioThread
  | adopted hpc _ => exact Or.inr hpc
  | _ => exact Or.inl rfl

/-- What is appended to `write_buffer` is a response of the connection. -/
theorem ConnStep.appended_cases {a : Agent} {pc : Pc P} {c : Nat} {conn : Connection}
    (h : ConnStep s c a pc conn) : conn.appended = (s.conns c).appended ∨
      ∃ m origin, pc = .respond m origin ∧ (s.msgs m).conn = c := by
  cases h with
  | used chunks bytes _ hpc =>
      rcases hpc with ⟨-, rfl⟩ | hrespond
      · exact Or.inl (List.append_nil _)
      · exact Or.inr hrespond
  | _ => exact Or.inl rfl

/-! ### The user's references -/

/-- The states differ in reference counts at most. -/
structure State.SameButRefs (s next : State P) : Prop where
  nextConn : next.nextConn = s.nextConn
  msgs : next.msgs = s.msgs
  nextMsg : next.nextMsg = s.nextMsg
  io : next.io = s.io
  workers : next.workers = s.workers
  pc : next.pc = s.pc
  table : next.table = s.table
  conns : ∀ c, ∃ refCount userRefs, next.conns c =
    { s.conns c with
      conn := { (s.conns c).conn with refCount := refCount }
      userRefs := userRefs }

theorem State.incrRef_same (s : State P) (c : Nat) : s.SameButRefs (s.incrRef c) := by
  refine ⟨rfl, rfl, rfl, rfl, rfl, rfl, rfl, fun c' => ?_⟩
  by_cases hc : c' = c
  · subst hc
    exact ⟨(s.conns c').conn.refCount + 1, (s.conns c').userRefs + 1, by
      simp only [State.incrRef, State.addRef, State.setConn, update_self]⟩
  · exact ⟨(s.conns c').conn.refCount, (s.conns c').userRefs, by
      simp only [State.incrRef, State.addRef, State.setConn, update_of_ne hc]⟩

theorem State.decrRef_same (s : State P) (c : Nat) : s.SameButRefs (s.decrRef c) := by
  refine ⟨rfl, rfl, rfl, rfl, rfl, rfl, rfl, fun c' => ?_⟩
  by_cases hc : c' = c
  · subst hc
    exact ⟨(s.conns c').conn.refCount + -1, (s.conns c').userRefs - 1, by
      simp only [State.decrRef, State.addRef, State.setConn, update_self]⟩
  · exact ⟨(s.conns c').conn.refCount, (s.conns c').userRefs, by
      simp only [State.decrRef, State.addRef, State.setConn, update_of_ne hc]⟩

/-- A step is an instruction of a thread, or the user takes or drops a reference. -/
theorem State.step_split {label : Label P} {s' : State P} (h : s.step cfg ctl label = some s') :
    (∃ a act next pc, label = .act a act ∧ s.safe a = true ∧
        Instr cfg ctl s a (s.pc a) act next pc ∧ s' = next.goto a pc) ∨ s.SameButRefs s' := by
  rcases State.step_cases h with ⟨a, act, next, pc, hlabel, hsafe, -, hinstr, hnext⟩ |
      ⟨c, -, -, rfl⟩ | ⟨c, -, -, -, rfl⟩
  · exact Or.inl ⟨a, act, next, pc, hlabel, hsafe, hinstr, hnext⟩
  · exact Or.inr (s.incrRef_same c)
  · exact Or.inr (s.decrRef_same c)

end Libxv
