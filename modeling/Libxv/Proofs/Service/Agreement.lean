/-
Worker mode agrees with inline mode.

`Replies.lean` says of every configuration that an open connection without messages has
been given the replies to its requests, and the requests are a function of the chunks.  So
all runs that read the same chunks append the same.  What is left to show is that the
configuration without workers has such a run: a connection that is open has only read what
`decode` accepted, but for its last chunk, and this can be read inline one chunk at a time.
-/
import Libxv.Proofs.Service.Replies

namespace Libxv

open Function Transition

variable {P : Type} {cfg : Config} {ctl : EpollCtl} {s : State P} {user : UserCode P} {c : Nat}
variable {handle : Handle} {chunks : List Chunk} {chunk : Chunk}

/-! ### Chunks that can be read -/

/-- What `decode` does with a chunk that is read after others. -/
def UserCode.next (user : UserCode P) (handle : Handle) (chunks : List Chunk) (chunk : Chunk) :
    DecodeOut P :=
  user.decode ((chunks.foldl (user.feed handle) ([], [])).1 ++ chunk.bytes)

/-- It takes no more than is there. -/
def UserCode.Fits (user : UserCode P) (handle : Handle) (chunks : List Chunk) (chunk : Chunk) :
    Prop :=
  (user.next handle chunks chunk).advances.sum ≤
    ((chunks.foldl (user.feed handle) ([], [])).1 ++ chunk.bytes).length

/-- It gives up the connection. -/
def UserCode.Refuses (user : UserCode P) (handle : Handle) (chunks : List Chunk)
    (chunk : Chunk) : Prop :=
  (handle.decode && handle.process) = true ∧ (user.next handle chunks chunk).ret = xvErr

/-- Chunks after which a connection reads on. -/
inductive UserCode.Accepts (user : UserCode P) (handle : Handle) : List Chunk → Prop
  | nil : user.Accepts handle []
  | snoc {chunks : List Chunk} {chunk : Chunk} (h : user.Accepts handle chunks)
      (hfits : user.Fits handle chunks chunk) (hret : ¬ user.Refuses handle chunks chunk) :
      user.Accepts handle (chunks ++ [chunk])

/-- How far an open connection is with what it has read. -/
inductive State.Consumed (user : UserCode P) (c : Nat) (s : State P) : Prop
  | readsOn (haccepts : user.Accepts (s.conns c).conn.handle (s.conns c).received)
  /-- It is about to be closed for its last chunk. -/
  | closing {before : List Chunk} {last : Chunk} {t : Nat}
      (hreceived : (s.conns c).received = before ++ [last])
      (haccepts : user.Accepts (s.conns c).conn.handle before)
      (hfits : user.Fits (s.conns c).conn.handle before last) (howner : s.owner c = some t)
      (hpc : s.pc (.io t) = .close c .poll)

/-- What a read event says about its chunk. -/
theorem readAndDecode_accepts {conn : Connection} {conn' : Conn} {out : ReadOut}
    {decoded : DecodeOut P} {next : Decoded P} (h : user.Reads conn)
    (hdecoded : decoded = user.decode (onConnectionRead conn.conn out).1.readBuffer.readable)
    (hread : readAndDecode conn.conn out decoded = some (conn', chunks, next)) :
    chunks = [] ∨ ∃ chunk, chunks = [chunk] ∧
      user.Fits conn.conn.handle conn.received chunk ∧
      (next ≠ .close → ¬ user.Refuses conn.conn.handle conn.received chunk) := by
  unfold readAndDecode at hread
  generalize hmid : onConnectionRead conn.conn out = mid at hread hdecoded
  obtain ⟨mid, how⟩ := mid
  cases how with
  | back | close =>
      simp only [Option.some.injEq, Prod.mk.injEq] at hread
      exact Or.inl hread.2.1.symm
  | process =>
      obtain ⟨chunk, rfl, hwf, hbuffer, hhandle⟩ := onConnectionRead_data h.1 hmid
      simp only [Option.ite_none_left_eq_some, Option.some.injEq, Prod.mk.injEq] at hread
      obtain ⟨hfits, -, rfl, hnext⟩ := hread
      have hunread : (conn.received.foldl (user.feed conn.conn.handle) ([], [])).1 =
          conn.conn.readBuffer.readable := congrArg Prod.fst h.2
      have hdec : user.next conn.conn.handle conn.received chunk = decoded := by
        unfold UserCode.next
        rw [hdecoded, hunread]
        exact congrArg user.decode hbuffer.symm
      refine Or.inr ⟨chunk, rfl, ?_, ?_⟩
      · unfold UserCode.Fits
        rw [hdec, hunread, ← hbuffer, Buffer.length_readable]
        have hfits : decoded.Fits mid.readBuffer := by simpa using hfits
        exact hfits
      · intro hclose hnow
        obtain ⟨hset, hret⟩ := hnow
        rw [hdec] at hret
        rw [← hhandle] at hset
        refine hclose ?_
        rw [← hnext]
        simp_all [processReadBuffer, xvErr, xvOk]

/-- What is not a read event on the connection. -/
theorem State.Consumed.keep (h : s.Consumed user c) (hsound : s.Sound) {t : Nat}
    (howner : s.owner c = some t) {a : Agent} {act : Act P} {next : State P} {pc' : Pc P}
    (hinstr : Instr cfg ctl s a (s.pc a) act next pc')
    (hreceived : (next.conns c).received = (s.conns c).received)
    (hopen : (next.conns c).conn.status = .opened) : (next.goto a pc').Consumed user c := by
  have hhandle : ((next.goto a pc').conns c).conn.handle = (s.conns c).conn.handle :=
    (hinstr.kept (hsound.adopted.known c t howner)).handle
  have hreceived : ((next.goto a pc').conns c).received = (s.conns c).received := hreceived
  cases h with
  | readsOn haccepts =>
      refine .readsOn ?_
      rw [hhandle, hreceived]
      exact haccepts
  | @closing before last t' hlast haccepts hfits ht hpc =>
      have hafter : (next.goto a pc').owner c = some t' := hsound.adopted.owner_mono hinstr ht
      refine .closing (hreceived.trans hlast) (hhandle ▸ haccepts) (hhandle ▸ hfits) hafter ?_
      by_cases ha : a = .io t'
      · subst ha
        rw [hpc] at hinstr
        exact absurd (hopen.symm.trans hinstr.status_closed) (by decide)
      · rw [State.goto_pc_of_ne _ _ (Ne.symm ha), hinstr.pc_eq]
        exact hpc

/-- A read event on the connection. -/
theorem State.Consumed.read (h : s.Consumed user c) (hsound : s.Sound)
    (hreads : user.Reads (s.conns c)) {t fd : Nat} {out : ReadOut} {decoded : DecodeOut P}
    {conn : Conn} {next : State P} {pc' : Pc P} {packet : Decoded P}
    (hpc : s.pc (.io t) = .poll)
    (hok : user.Follows c s (.act (.io t) (.read fd out decoded)))
    (hslot : ((s.io t).loop.slot fd).readIo = some c)
    (hread : readAndDecode (s.conns c).conn out decoded = some (conn, chunks, packet))
    (hinstr : Instr cfg ctl s (.io t) (s.pc (.io t)) (.read fd out decoded) next pc')
    (hreceived : (next.conns c).received = (s.conns c).received ++ chunks)
    (hclose : packet = .close → pc' = .close c .poll) :
    (next.goto (.io t) pc').Consumed user c := by
  have howner := hsound.affine.slots t fd c (Or.inl hslot)
  have hhandle : ((next.goto (.io t) pc').conns c).conn.handle = (s.conns c).conn.handle :=
    (hinstr.kept (hsound.adopted.known c t howner)).handle
  have hreceived : ((next.goto (.io t) pc').conns c).received = (s.conns c).received ++ chunks :=
    hreceived
  have haccepts : user.Accepts (s.conns c).conn.handle (s.conns c).received := by
    cases h with
    | readsOn haccepts => exact haccepts
    | closing _ _ _ ht hclosing =>
        rw [← Option.some.inj (howner.symm.trans ht), hpc] at hclosing
        simp at hclosing
  simp only [UserCode.Follows, hpc] at hok
  rcases readAndDecode_accepts hreads (hok hslot) hread with rfl | ⟨chunk, rfl, hfits, hret⟩
  · refine .readsOn ?_
    rw [hhandle, hreceived, List.append_nil]
    exact haccepts
  · by_cases hpacket : packet = .close
    · refine .closing hreceived (hhandle ▸ haccepts) (hhandle ▸ hfits)
        (hsound.adopted.owner_mono hinstr howner) ?_
      rw [State.goto_pc_self]
      exact hclose hpacket
    · refine .readsOn ?_
      rw [hhandle, hreceived]
      exact .snoc haccepts hfits (hret hpacket)

theorem State.Consumed.instr (h : s.Consumed user c) (hsound : s.Sound)
    (hreads : user.Reads (s.conns c)) {t : Nat} (howner : s.owner c = some t) {a : Agent}
    {act : Act P} {next : State P} {pc' : Pc P} (hok : user.Follows c s (.act a act))
    (hinstr : Instr cfg ctl s a (s.pc a) act next pc')
    (hopen : (next.conns c).conn.status = .opened) : (next.goto a pc').Consumed user c := by
  have hc : c < s.nextConn := hsound.adopted.known c t howner
  have hkeep := h.keep hsound howner hinstr
  have hquiet := hinstr.readSide_eq fun hnew => absurd hnew (Nat.ne_of_lt hc)
  have hinstr' := hinstr
  generalize hpc : s.pc a = pc at hinstr
  cases hinstr
  case readBack t' fd c' out decoded conn chunks hslot halive hread
      | readClose t' fd c' out decoded conn chunks hslot halive hread =>
    by_cases hcc : c' = c
    · subst hcc
      refine h.read hsound hreads hpc hok hslot hread hinstr' ?_ (by simp)
      simp [State.receive]
    · exact hkeep (congrArg Connection.received (update_of_ne (Ne.symm hcc) ..)) hopen
  case request t' fd c' out decoded conn chunks request hslot halive hread =>
    by_cases hcc : c' = c
    · subst hcc
      refine h.read hsound hreads hpc hok hslot hread hinstr' ?_ (by simp)
      simp [State.xvMessageInit, State.addRef, State.setConn, State.receive]
    · refine hkeep ?_ hopen
      simp [State.xvMessageInit, State.addRef, State.setConn, State.receive, Ne.symm hcc]
  all_goals exact hkeep (hquiet (by simp)).2 hopen

theorem State.Consumed.refs (h : s.Consumed user c) {next : State P} (hsame : s.SameButRefs next) :
    next.Consumed user c := by
  obtain ⟨refCount, userRefs, hconn⟩ := hsame.conns c
  have hreceived : (next.conns c).received = (s.conns c).received := by rw [hconn]
  have hhandle : (next.conns c).conn.handle = (s.conns c).conn.handle := by rw [hconn]
  cases h with
  | readsOn haccepts =>
      refine .readsOn ?_
      rw [hhandle, hreceived]
      exact haccepts
  | closing hlast haccepts hfits howner hpc =>
      exact .closing (hreceived.trans hlast) (hhandle ▸ haccepts) (hhandle ▸ hfits)
        ((hsame.owner c).trans howner) (hsame.pc ▸ hpc)

theorem State.consumed (h : Reach (State.step cfg ctl) (user.Follows c) (· = State.init) s)
    (hopen : (s.conns c).conn.status = .opened) : s.Consumed user c := by
  refine h.invariant_along
    (I := fun s => (s.conns c).conn.status = .opened → s.Consumed user c) ?_ ?_ hopen
  · rintro s rfl -
    exact .readsOn .nil
  · intro s label s' hreach hconsumed hok hstep hopen
    obtain ⟨hsound, hseq⟩ := State.sequenced hreach
    rcases State.step_split hstep with ⟨a, act, next, pc, rfl, -, hinstr, rfl⟩ | hsame
    · cases howner : s.owner c with
      | none =>
          refine .readsOn ?_
          rw [(hseq.instr_untouched hsound hinstr howner).received]
          exact .nil
      | some t =>
          have hc : c < s.nextConn := hsound.adopted.known c t howner
          exact (hconsumed (hinstr.status_before hc hopen)).instr hsound hseq.reads howner hok
            hinstr hopen
    · obtain ⟨refCount, userRefs, hconn⟩ := hsame.conns c
      rw [hconn] at hopen
      exact (hconsumed hopen).refs hsame

/-! ### Reading chunks inline -/

/-- In a run without workers connection 0 is open and watched, and has read these chunks. -/
structure State.Inline (user : UserCode P) (handle : Handle) (chunks : List Chunk)
    (s : State P) : Prop where
  reached : Reach (State.step inlineConfig acceptAll) (user.Follows 0) (· = State.init) s
  opened : (s.conns 0).conn.status = .opened
  handle : (s.conns 0).conn.handle = handle
  received : (s.conns 0).received = chunks
  slot : ((s.io 0).loop.slot 5).readIo = some 0
  alive : s.alive 0 = true

/-- No message but `m` is left of connection 0. -/
def State.OnlyLeft (m : Option Nat) (s : State P) : Prop :=
  ∀ m', s.live m' = true → (s.msgs m').conn = 0 → m = some m'

/-- The only io thread makes an instruction. -/
theorem State.step_inline {act : Act P} {next : State P} {pc' : Pc P}
    (hsafe : s.safe (.io 0) = true)
    (hio : ioStep inlineConfig acceptAll s 0 (s.pc (.io 0)) act = some (next, pc')) :
    s.step inlineConfig acceptAll (.act (.io 0) act) = some (next.goto (.io 0) pc') := by
  have hprogram : s.program inlineConfig acceptAll (.io 0) act = some (next, pc') := hio
  unfold State.step
  dsimp only
  rw [if_pos (by simp [Agent.runs, inlineConfig, hsafe]), hprogram]
  rfl

theorem State.inline_start (user : UserCode P) (handle : Handle) :
    ∃ s : State P, s.Inline user handle [] ∧ s.OnlyLeft none ∧ s.pc (.io 0) = .poll := by
  let moves : List (Label P) := goes (.io 0) 1 ++
    [.act (.io 0) (.accept 5 handle fun _ => 0), .act (.io 0) (.table fun _ => none)] ++
      goes (.io 0) 1
  have hstart : ((xvIoStart acceptAll (xvLoopInit xvDefaultLoopSize)
      (xvIoInit 0 5 xvRead)).2.1.slot 5).readIo = some 0 := by decide
  refine ⟨_, ⟨Reach.play moves (.start rfl) ?_ rfl, rfl, rfl, rfl, hstart, rfl⟩, ?_, rfl⟩
  · exact ⟨trivial, trivial, trivial, trivial, trivial⟩
  · exact fun m hm => absurd (State.lt_of_live hm) (Nat.not_lt_zero m)

/-- What `encode` appends, in one piece. -/
def UserCode.pieces (user : UserCode P) (response : Option P) : List Piece :=
  (response.map fun packet => ⟨_, user.encode packet, Nat.le_refl _⟩).toList

theorem UserCode.encodedBytes_pieces {response : Option P} {packet : P}
    (h : packet ∈ response) : encodedBytes (user.pieces response) = user.encode packet := by
  rw [Option.mem_def.mp h]
  simp [UserCode.pieces, encodedBytes]

/-- The `write` that takes everything leaves the loop alone. -/
theorem processMessage_full (ctl : EpollCtl) (loop : Loop) (conn : Conn) (response : Option P)
    (pieces : List Piece) :
    let sent := processMessage ctl loop conn response pieces
      (.wrote (xvBufferReadableSize (pieces.foldl appendPiece conn.writeBuffer)))
    sent.loop = loop ∧ sent.close = false := by
  unfold processMessage
  dsimp only
  split
  · exact ⟨rfl, rfl⟩
  · split
    · exact ⟨rfl, rfl⟩
    · simp [WriteOut.nwritten, WriteOut.hard]

theorem State.Inline.process (h : s.Inline user handle chunks) {m : Nat}
    (hpc : s.pc (.io 0) = .process m) (hm : (s.msgs m).conn = 0) (honly : s.OnlyLeft (some m)) :
    ∃ s' : State P, s'.Inline user handle chunks ∧ s'.OnlyLeft (some m) ∧
      s'.pc (.io 0) = .respond m .inline ∧ (s'.msgs m).conn = 0 := by
  have hstep : s.step inlineConfig acceptAll
      (.act (.io 0) (.process (user.process (s.msgs m).request))) =
        some ((s.setResponse m (user.process (s.msgs m).request)).goto (.io 0)
          (.respond m .inline)) :=
    State.step_inline (by simp [State.safe, hpc, Pc.touches]) (by rw [hpc]; rfl)
  have hok : user.Follows 0 s (.act (.io 0) (.process (user.process (s.msgs m).request))) := by
    simp [UserCode.Follows, hpc]
  have hconn : ∀ m', ((s.setResponse m (user.process (s.msgs m).request)).msgs m').conn =
      (s.msgs m').conn :=
    fun m' => update_same s.msgs m _ Message.conn (by rfl) m'
  refine ⟨_, ⟨.next h.reached hok hstep, h.opened, h.handle, h.received, h.slot, h.alive⟩,
    fun m' hlive hc => ?_, State.goto_pc_self .., (hconn m).trans hm⟩
  exact honly m' ((State.live_setResponse s m _ m').symm.trans hlive) ((hconn m').symm.trans hc)

theorem State.Inline.respond (h : s.Inline user handle chunks) {m : Nat}
    (hpc : s.pc (.io 0) = .respond m .inline) (hm : (s.msgs m).conn = 0)
    (honly : s.OnlyLeft (some m)) :
    ∃ s' : State P, s'.Inline user handle chunks ∧ s'.OnlyLeft (some m) ∧
      s'.pc (.io 0) = .finish m .inline ∧ (s'.msgs m).conn = 0 := by
  obtain ⟨hloop, hclose⟩ := processMessage_full acceptAll (s.io 0).loop (s.conns 0).conn
    (s.msgs m).response (user.pieces (s.msgs m).response)
  have hsame := processMessage_same acceptAll (s.io 0).loop (s.conns 0).conn (s.msgs m).response
    (user.pieces (s.msgs m).response) (.wrote (xvBufferReadableSize
      ((user.pieces (s.msgs m).response).foldl appendPiece (s.conns 0).conn.writeBuffer)))
  generalize hout : WriteOut.wrote (xvBufferReadableSize ((user.pieces
    (s.msgs m).response).foldl appendPiece (s.conns 0).conn.writeBuffer)) = out
      at hloop hclose hsame
  generalize hsent : Libxv.processMessage acceptAll (s.io 0).loop (s.conns 0).conn
    (s.msgs m).response (user.pieces (s.msgs m).response) out = sent at hloop hclose hsame
  obtain ⟨encodes, hstep⟩ : ∃ encodes, s.step inlineConfig acceptAll
      (.act (.io 0) (.respond (user.pieces (s.msgs m).response) out)) =
        some (((s.markEncoded m encodes).sent 0 0 sent).goto (.io 0) (.finish m .inline)) := by
    refine ⟨(s.msgs m).response.isSome && (s.conns 0).conn.handle.encode &&
        (s.conns 0).conn.status = .opened,
      State.step_inline (by simp [State.safe, hpc, Pc.touches, hm, h.alive]) ?_⟩
    have hio : ioStep inlineConfig acceptAll s 0 (.respond m .inline)
        (.respond (user.pieces (s.msgs m).response) out) =
          s.processMessage acceptAll 0 (.respond m .inline)
            (.respond (user.pieces (s.msgs m).response) out) := rfl
    rw [hpc, hio]
    unfold State.processMessage
    dsimp only
    rw [hm, hsent, hclose]
    rfl
  have hok : user.Follows 0 s
      (.act (.io 0) (.respond (user.pieces (s.msgs m).response) out)) := by
    simp only [UserCode.Follows, hpc]
    exact fun _ _ hpacket => UserCode.encodedBytes_pieces hpacket
  have hconn : ∀ m', ((s.markEncoded m encodes).msgs m').conn = (s.msgs m').conn :=
    fun m' => update_same s.msgs m _ Message.conn (by rfl) m'
  have hafter : ((s.markEncoded m encodes).sent 0 0 sent).conns 0 = { s.conns 0 with
      conn := sent.conn, appended := (s.conns 0).appended ++ sent.encoded } := by
    simp [State.sent, State.markEncoded]
  have hio : (((s.markEncoded m encodes).sent 0 0 sent).io 0).loop = (s.io 0).loop := by
    simp [State.sent, hloop]
  refine ⟨_, ⟨.next h.reached hok hstep, ?_, ?_, ?_, ?_, ?_⟩, fun m' hlive hc => ?_,
    State.goto_pc_self .., (hconn m).trans hm⟩
  · exact (congrArg (fun conn : Connection => conn.conn.status) hafter).trans
      (hsame.status.trans h.opened)
  · exact (congrArg (fun conn : Connection => conn.conn.handle) hafter).trans
      (hsame.handle.trans h.handle)
  · exact (congrArg Connection.received hafter).trans h.received
  · exact (congrArg (fun loop : Loop => (loop.slot 5).readIo) hio).trans h.slot
  · exact (congrArg (fun conn : Connection => decide (0 < s.nextConn) && conn.freed == 0)
      hafter).trans h.alive
  · exact honly m' ((State.live_markEncoded s m _ m').symm.trans hlive) ((hconn m').symm.trans hc)

theorem State.Inline.finish (h : s.Inline user handle chunks) {m : Nat}
    (hpc : s.pc (.io 0) = .finish m .inline) (hm : (s.msgs m).conn = 0)
    (honly : s.OnlyLeft (some m)) :
    ∃ s' : State P, s'.Inline user handle chunks ∧ s'.OnlyLeft none ∧ s'.pc (.io 0) = .poll := by
  have hstep : s.step inlineConfig acceptAll (.act (.io 0) .go) =
      some ((s.xvMessageDestroy m).goto (.io 0) .poll) :=
    State.step_inline (by simp [State.safe, hpc, Pc.touches, hm, h.alive]) (by rw [hpc]; rfl)
  have hok : user.Follows 0 s (.act (.io 0) .go) := by simp [UserCode.Follows, hpc]
  have hafter : (s.xvMessageDestroy m).conns 0 = (s.conns 0).addRef (-1) := by
    simp [State.xvMessageDestroy, State.addRef, State.setConn, hm, Connection.addRef]
  have hconn : ∀ m', ((s.xvMessageDestroy m).msgs m').conn = (s.msgs m').conn :=
    fun m' => update_same s.msgs m _ Message.conn (by rfl) m'
  refine ⟨_, ⟨.next h.reached hok hstep, ?_, ?_, ?_, h.slot, ?_⟩, fun m' hlive hc => ?_,
    State.goto_pc_self ..⟩
  · exact (congrArg (fun conn : Connection => conn.conn.status) hafter).trans h.opened
  · exact (congrArg (fun conn : Connection => conn.conn.handle) hafter).trans h.handle
  · exact (congrArg Connection.received hafter).trans h.received
  · exact (congrArg (fun conn : Connection => decide (0 < s.nextConn) && conn.freed == 0)
      hafter).trans h.alive
  · obtain ⟨hold, hne⟩ := (State.live_destroy s m m').mp hlive
    exact absurd (Option.some.inj (honly m' hold ((hconn m').symm.trans hc))).symm hne

/-- A chunk that fits can be read. -/
theorem readAndDecode_chunk {conn : Connection} (h : user.Reads conn)
    (hopen : conn.conn.status = .opened) (hfits : user.Fits conn.conn.handle conn.received chunk) :
    user.next conn.conn.handle conn.received chunk =
        user.decode (onConnectionRead conn.conn (.data chunk)).1.readBuffer.readable ∧
      ∃ conn' packet, readAndDecode conn.conn (.data chunk)
          (user.next conn.conn.handle conn.received chunk) = some (conn', [chunk], packet) ∧
        (packet = .close → user.Refuses conn.conn.handle conn.received chunk) := by
  obtain ⟨mid, hmid⟩ := onConnectionRead_chunk hopen chunk
  obtain ⟨chunk', hchunk, hwf, hbuffer, hhandle⟩ := onConnectionRead_data h.1 hmid
  obtain rfl : chunk = chunk' := by simpa using hchunk
  have hunread : (conn.conn.readBuffer.readable ++ chunk.bytes) =
      (conn.received.foldl (user.feed conn.conn.handle) ([], [])).1 ++ chunk.bytes := by
    rw [h.2]
  have hdecoded : user.next conn.conn.handle conn.received chunk =
      user.decode mid.readBuffer.readable := by
    rw [hbuffer, hunread]
    rfl
  have hroom : (user.next conn.conn.handle conn.received chunk).Fits mid.readBuffer := by
    unfold DecodeOut.Fits
    rw [← Buffer.length_readable, hbuffer, hunread]
    exact hfits
  refine ⟨by rw [hmid]; exact hdecoded, ?_⟩
  refine ⟨(processReadBuffer mid (user.next conn.conn.handle conn.received chunk)).1,
    (processReadBuffer mid (user.next conn.conn.handle conn.received chunk)).2, ?_, ?_⟩
  · unfold readAndDecode
    rw [hmid]
    simp [hroom, ReadOut.chunk?]
  · intro hclose
    unfold processReadBuffer at hclose
    rw [hhandle] at hclose
    unfold UserCode.Refuses
    split at hclose
    · simp at hclose
    · rename_i hset
      dsimp only at hclose
      split at hclose
      · simp at hclose
      · split at hclose
        · rename_i hret
          refine ⟨?_, hret⟩
          simpa using hset
        · simp at hclose

/-- Whatever a chunk decodes to, the connection has read it and is open still. -/
theorem State.Inline.receive (h : s.Inline user handle chunks) {act : Act P} {next : State P}
    {pc' : Pc P} {conn : Conn} {refCount : Int} (hok : user.Follows 0 s (.act (.io 0) act))
    (hstep : s.step inlineConfig acceptAll (.act (.io 0) act) = some (next.goto (.io 0) pc'))
    (hsame : (s.conns 0).conn.Same conn)
    (hconn : next.conns 0 = { s.conns 0 with
      conn := { conn with refCount := refCount }
      received := (s.conns 0).received ++ [chunk] })
    (hio : next.io = s.io) (hnext : next.nextConn = s.nextConn) :
    (next.goto (.io 0) pc').Inline user handle (chunks ++ [chunk]) := by
  refine ⟨.next h.reached hok hstep, ?_, ?_, ?_, ?_, ?_⟩
  · exact (congrArg (fun conn : Connection => conn.conn.status) hconn).trans
      (hsame.status.trans h.opened)
  · exact (congrArg (fun conn : Connection => conn.conn.handle) hconn).trans
      (hsame.handle.trans h.handle)
  · exact (congrArg Connection.received hconn).trans (congrArg (· ++ [chunk]) h.received)
  · show ((next.io 0).loop.slot 5).readIo = some 0
    rw [hio]
    exact h.slot
  · show (decide (0 < next.nextConn) && (next.conns 0).freed == 0) = true
    rw [hnext, hconn]
    exact h.alive

/-- The message made of a chunk is the only one left. -/
theorem State.OnlyLeft.make (hdone : s.OnlyLeft none) (conn : Conn) (request : Option P)
    (pc : Pc P) :
    (((s.receive 0 conn [chunk]).xvMessageInit 0 request none).goto (.io 0) pc).OnlyLeft
      (some s.nextMsg) := by
  intro m' hlive hc
  rcases (State.live_init (s.receive 0 conn [chunk]) 0 request none m').mp hlive with hold | hnew
  · have hold : s.live m' = true := hold
    have hne : m' ≠ s.nextMsg := Nat.ne_of_lt (State.lt_of_live hold)
    have hsame : ((s.receive 0 conn [chunk]).xvMessageInit 0 request none).msgs m' = s.msgs m' := by
      simp [State.xvMessageInit, State.addRef, State.setConn, State.receive, hne]
    exact absurd (hdone m' hold ((congrArg Message.conn hsame).symm.trans hc)) (by simp)
  · exact congrArg some hnew.symm

/-- The io thread reads a chunk that fits, and answers the request if there is one. -/
theorem State.Inline.read (h : s.Inline user handle chunks) (hdone : s.OnlyLeft none)
    (hpc : s.pc (.io 0) = .poll) (hfits : user.Fits handle chunks chunk) :
    ∃ s' : State P, s'.Inline user handle (chunks ++ [chunk]) ∧ s'.OnlyLeft none ∧
      (¬ user.Refuses handle chunks chunk → s'.pc (.io 0) = .poll) := by
  have hreads : user.Reads (s.conns 0) := (State.sequenced h.reached).2.reads
  have hchunk := readAndDecode_chunk hreads h.opened (h.handle ▸ h.received ▸ hfits)
  rw [h.handle, h.received] at hchunk
  obtain ⟨hdecoded, conn, packet, hread, hclose⟩ := hchunk
  have hsame := readAndDecode_same hread
  have hsafe : s.safe (.io 0) = true := by simp [State.safe, hpc, Pc.touches]
  have hok : user.Follows 0 s (.act (.io 0) (.read 5 (.data chunk)
      (user.next handle chunks chunk))) := by
    simp only [UserCode.Follows, hpc]
    exact fun _ => hdecoded
  have hafter : (s.receive 0 conn [chunk]).conns 0 = { s.conns 0 with
      conn := conn, received := (s.conns 0).received ++ [chunk] } := by
    simp [State.receive]
  have hstep : ∀ (next : State P) (pc' : Pc P),
      s.onConnectionRead inlineConfig 0 .poll (.read 5 (.data chunk)
        (user.next handle chunks chunk)) = some (next, pc') →
      s.step inlineConfig acceptAll (.act (.io 0) (.read 5 (.data chunk)
        (user.next handle chunks chunk))) = some (next.goto (.io 0) pc') := by
    intro next pc' hread
    refine State.step_inline hsafe ?_
    rw [hpc]
    simp [ioStep, ioThreadEntry, xvConnectionClose, State.processMessage,
      State.processReadBuffer, hread]
  cases packet with
  | back =>
      have hnext := hstep (s.receive 0 conn [chunk]) .poll
        (by simp [State.onConnectionRead, h.slot, h.alive, hread])
      exact ⟨_, h.receive hok hnext hsame hafter rfl rfl, hdone, fun _ => State.goto_pc_self ..⟩
  | close =>
      have hnext := hstep (s.receive 0 conn [chunk]) (.close 0 .poll)
        (by simp [State.onConnectionRead, h.slot, h.alive, hread])
      exact ⟨_, h.receive hok hnext hsame hafter rfl rfl, hdone,
        fun hret => absurd (hclose rfl) hret⟩
  | request request =>
      have hnext := hstep ((s.receive 0 conn [chunk]).xvMessageInit 0 request none)
        (.process s.nextMsg)
        (by simp [State.onConnectionRead, h.slot, h.alive, hread, inlineConfig])
      have hmade : ((s.receive 0 conn [chunk]).xvMessageInit 0 request none).conns 0 =
          { s.conns 0 with
            conn := { conn with refCount := conn.refCount + 1 }
            received := (s.conns 0).received ++ [chunk] } := by
        simp [State.xvMessageInit, State.addRef, State.setConn, hafter]
      have hread := h.receive hok hnext hsame hmade rfl rfl
      obtain ⟨s₁, hprocess, honly₁, hpc₁, hm₁⟩ := hread.process (m := s.nextMsg)
        (State.goto_pc_self ..)
        (by simp [State.xvMessageInit, State.addRef, State.setConn, State.receive, State.goto])
        (hdone.make conn request _)
      obtain ⟨s₂, hrespond, honly₂, hpc₂, hm₂⟩ := hprocess.respond hpc₁ hm₁ honly₁
      obtain ⟨s₃, hfinish, honly₃, hpc₃⟩ := hrespond.finish hpc₂ hm₂ honly₂
      exact ⟨s₃, hfinish, honly₃, fun _ => hpc₃⟩

/-- Whatever an open connection has read, an inline one can read, and come to rest. -/
theorem State.Consumed.inline (h : s.Consumed user c) :
    ∃ s' : State P, s'.Inline user (s.conns c).conn.handle (s.conns c).received ∧
      s'.OnlyLeft none := by
  have haccepts : ∀ {chunks : List Chunk}, user.Accepts (s.conns c).conn.handle chunks →
      ∃ s' : State P, s'.Inline user (s.conns c).conn.handle chunks ∧ s'.OnlyLeft none ∧
        s'.pc (.io 0) = .poll := by
    intro chunks haccepts
    induction haccepts with
    | nil => exact State.inline_start user _
    | snoc _ hfits hret ih =>
        obtain ⟨s₁, hinline, honly, hpc⟩ := ih
        obtain ⟨s₂, hread, hdone, hpoll⟩ := hinline.read honly hpc hfits
        exact ⟨s₂, hread, hdone, hpoll hret⟩
  cases h with
  | readsOn hall =>
      obtain ⟨s', hinline, honly, -⟩ := haccepts hall
      exact ⟨s', hinline, honly⟩
  | closing hlast hbefore hfits =>
      obtain ⟨s₁, hinline, honly, hpc⟩ := haccepts hbefore
      obtain ⟨s₂, hread, hdone, -⟩ := hinline.read honly hpc hfits
      exact ⟨s₂, hlast ▸ hread, hdone⟩

/-! ### The two configurations -/

/-- What the service appends to `write_buffer` without workers for these chunks: there are
runs in which it has read them and no message is left, and in all of them it has appended
this. -/
structure UserCode.InlineAppends (user : UserCode P) (handle : Handle) (chunks : List Chunk)
    (bytes : List UInt8) : Prop where
  some : ∃ s : State P, s.Inline user handle chunks ∧ s.OnlyLeft none
  every : ∀ (cfg : Config) (ctl : EpollCtl) (c : Nat) (s : State P), cfg.workerThreadCount = 0 →
    Reach (State.step cfg ctl) (user.Follows c) (· = State.init) s →
    (s.conns c).conn.status = .opened → (s.conns c).conn.handle = handle →
    (s.conns c).received = chunks → (∀ m, s.live m = true → (s.msgs m).conn ≠ c) →
    (s.conns c).appended = bytes

/--
**Worker mode agrees with inline mode, response order included**: in every run, whatever the
number of workers, in which the user's callbacks are functions and `malloc` returns
addresses above 16, the bytes appended to the `write_buffer` of an open connection are a
prefix of what the configuration without workers appends for the same chunks, and equal to
it when no message of the connection is in flight.  They are the replies to the connection's
first requests, in the order these were decoded.
-/
theorem worker_agrees_inline
    (h : Reach (State.step cfg ctl) (user.Follows c) (· = State.init) s)
    (hopen : (s.conns c).conn.status = .opened) :
    ∃ bytes, user.InlineAppends (s.conns c).conn.handle (s.conns c).received bytes ∧
      (s.conns c).appended <+: bytes ∧
      ((∀ m, s.live m = true → (s.msgs m).conn ≠ c) → (s.conns c).appended = bytes) ∧
      ∃ answered, answered <+: s.requests user c ∧
        (s.conns c).appended = answered.flatMap (user.reply (s.conns c).conn.handle) := by
  obtain ⟨answered, hpre, happended⟩ := State.replies_prefix h hopen
  refine ⟨(s.requests user c).flatMap (user.reply (s.conns c).conn.handle), ⟨?_, ?_⟩, ?_,
    State.replies_eq h hopen, answered, hpre, happended⟩
  · exact (State.consumed h hopen).inline
  · intro cfg' ctl' c' s' _ h' hopen' hhandle hreceived hdone
    rw [State.replies_eq h' hopen' hdone]
    unfold State.requests
    rw [hhandle, hreceived]
  · obtain ⟨rest, hrest⟩ := hpre
    rw [happended, ← hrest, List.flatMap_append]
    exact List.prefix_append ..

/-- Every read is a request, and is sent back. -/
def UserCode.echo : UserCode UInt8 :=
  { decode := fun bytes => ⟨[bytes.length], xvOk, bytes.head?⟩
    process := id
    encode := fun b => [b] }

/-- The reply to the first request has been appended when the second is with the worker. -/
theorem worker_agrees_inline_in_flight :
    ∃ (s : State UInt8) (bytes : List UInt8), s.live 1 = true ∧
      UserCode.echo.InlineAppends (s.conns 0).conn.handle (s.conns 0).received bytes ∧
      [7] <+: bytes := by
  have hrun : ∃ s : State UInt8,
      Reach (State.step workerConfig acceptAll) (UserCode.echo.Follows 0) (· = State.init) s ∧
        s.live 1 = true ∧ (s.conns 0).appended = [7] ∧ (s.conns 0).conn.status = .opened :=
    ⟨_, Reach.play
      (acceptOne ++ [readRequest UInt8 (byteChunk 7) 7, .act (.io 0) (.malloc 4096)] ++
        goes (.io 0) 1 ++ goes (.worker 0) 6 ++ [.act (.worker 0) (.process (some 7))] ++
        goes (.worker 0) 3 ++ popReturned ++ goes (.io 0) 1 ++
        [.act (.io 0) (.respond [⟨1, [7], Nat.le_refl _⟩] (.wrote 1))] ++ goes (.io 0) 2 ++
        [readRequest UInt8 (byteChunk 8) 8])
      (.start rfl) (by decide) rfl, rfl, rfl, rfl⟩
  obtain ⟨s, hreach, hlive, happended, hopen⟩ := hrun
  obtain ⟨bytes, hinline, hpre, -, -⟩ := worker_agrees_inline hreach hopen
  exact ⟨s, bytes, hlive, hinline, happended ▸ hpre⟩

end Libxv
