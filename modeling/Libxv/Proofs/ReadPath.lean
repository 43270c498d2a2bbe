/-
The int arithmetic of the read path.

`on_connection_read` makes room for one read before each read, and nothing limits how much a
decoder leaves in the buffer.  The size is always a whole number of reads, so the growth that
does not fit an int is the one from `2^31 - 4096`, and the buffer is asked for it when less than
one read is left of that.  The other addition, of the write index, never goes past the size.
-/
import Libxv.Proofs.Requests
import Libxv.Proofs.BufferUse

namespace Libxv

open Transition

variable {P : Type} {workers : Bool} {ctl : EpollCtl} {s s' : Session P} {buffer : Buffer}

/-! ### One call -/

/-- What `on_connection_read` does to the buffer fits the ints it is computed in, and `read` has
the room it is told it has. -/
structure Buffer.ReadSafe (buffer : Buffer) (out : ReadOut) : Prop where
  /-- `new_size`, where it is computed. -/
  grow : xvBufferWriteableSize buffer < xvDefaultReadSize →
    buffer.size + xvDefaultReadSize ≤ intMax
  room : xvDefaultReadSize ≤
    xvBufferWriteableSize (xvBufferEnsureWriteableSize buffer xvDefaultReadSize)
  /-- `write_idx`, after the read. -/
  incr : ∀ chunk, out = .data chunk →
    (xvBufferEnsureWriteableSize buffer xvDefaultReadSize).writeIdx + chunk.bytes.length ≤ intMax

/-- The last write index from which there is room for one more read: `2^31 - 8192`. -/
def readLimit : Nat := intMax + 1 - 2 * xvDefaultReadSize

example : readLimit = 2 ^ 31 - 8192 := by decide

/-- The size is a whole number of reads, and an int. -/
structure Buffer.Paged (buffer : Buffer) : Prop where
  wf : buffer.WF
  pages : xvDefaultReadSize ∣ buffer.size
  int : buffer.size ≤ intMax

/-- **A read is safe as long as there is room for one more.** -/
theorem Buffer.Paged.readSafe_iff (h : buffer.Paged) (out : ReadOut) :
    buffer.ReadSafe out ↔ buffer.writeIdx ≤ readLimit := by
  have hwrite := h.wf.write_le
  obtain ⟨k, hk⟩ := h.pages
  have hint := h.int
  have hroom := xvBufferEnsureWriteableSize_room h.wf xvDefaultReadSize
  unfold readLimit
  constructor
  · intro hsafe
    have hgrow := hsafe.grow
    unfold xvBufferWriteableSize xvDefaultReadSize intMax at *
    omega
  · intro hlow
    have hgrow : xvBufferWriteableSize buffer < xvDefaultReadSize →
        buffer.size + xvDefaultReadSize ≤ intMax := by
      unfold xvBufferWriteableSize xvDefaultReadSize intMax at *
      omega
    refine ⟨hgrow, hroom, fun chunk _ => ?_⟩
    have hle := chunk.le
    rw [xvBufferEnsureWriteableSize_writeIdx]
    unfold xvDefaultReadSize intMax at *
    omega

theorem Buffer.Paged.ensure (h : buffer.Paged) (hlow : buffer.writeIdx ≤ readLimit) :
    (xvBufferEnsureWriteableSize buffer xvDefaultReadSize).Paged := by
  have hgrow := ((h.readSafe_iff .eof).mpr hlow).grow
  refine ⟨xvBufferEnsureWriteableSize_wf h.wf xvDefaultReadSize, ?_, ?_⟩
  · unfold xvBufferEnsureWriteableSize
    split
    · exact (Nat.dvd_add_right h.pages).mpr (Nat.dvd_refl _)
    · exact h.pages
  · unfold xvBufferEnsureWriteableSize
    split
    · exact hgrow ‹_›
    · exact h.int

theorem consume_size {out : DecodeOut P} (buffer : Buffer) :
    (out.consume buffer).size = buffer.size := by
  unfold DecodeOut.consume
  generalize out.advances = advances
  induction advances generalizing buffer with
  | nil => rfl
  | cons n rest ih => exact (ih _).trans (xvBufferTryMove_size _)

/-! ### What a callback does to the read buffer -/

theorem Session.after_readBuffer (ctl : EpollCtl) (s : Session P) (sent : Sent) :
    (s.after ctl sent).conn.readBuffer = sent.conn.readBuffer := by
  unfold Session.after
  dsimp only
  split
  · exact (Session.close_read ctl _).1
  · rfl

theorem Session.processMessage_readBuffer (ctl : EpollCtl) (s : Session P) (response : Option P)
    (pieces : List Piece) (out : WriteOut) :
    (s.processMessage ctl response pieces out).conn.readBuffer = s.conn.readBuffer :=
  (Session.after_readBuffer ..).trans (Libxv.processMessage_readBuffer ..)

theorem Session.processReadBuffer_readBuffer (s : Session P) (decoded : DecodeOut P)
    (response : Option P) (pieces : List Piece) (write : WriteOut) :
    (s.processReadBuffer workers ctl decoded response pieces write).conn.readBuffer =
      (Libxv.processReadBuffer s.conn decoded).1.readBuffer := by
  unfold Session.processReadBuffer
  rcases Libxv.processReadBuffer s.conn decoded with ⟨conn, next⟩
  cases next with
  | back => rfl
  | close => exact (Session.close_read ctl _).1
  | request request =>
      dsimp only
      split
      · rfl
      · exact Session.processMessage_readBuffer ..

/-- After the bytes are in, the buffer is cleared or decoded from. -/
theorem processReadBuffer_readBuffer (conn : Conn) (decoded : DecodeOut P) :
    (processReadBuffer conn decoded).1.readBuffer = xvBufferClear conn.readBuffer ∨
      (processReadBuffer conn decoded).1.readBuffer = decoded.consume conn.readBuffer := by
  unfold processReadBuffer
  split
  · exact .inl rfl
  · right
    dsimp only
    split
    · rfl
    · split <;> rfl

theorem Buffer.Paged.process {conn : Conn} {decoded : DecodeOut P} (h : conn.readBuffer.Paged)
    (hfits : decoded.Fits conn.readBuffer) :
    (processReadBuffer conn decoded).1.readBuffer.Paged := by
  rcases processReadBuffer_readBuffer conn decoded with hclear | hconsume
  · rw [hclear]
    exact ⟨xvBufferClear_wf _, h.pages, h.int⟩
  · rw [hconsume]
    refine ⟨(consume_spec decoded.advances h.wf hfits).1, ?_, ?_⟩
    · rw [consume_size]
      exact h.pages
    · rw [consume_size]
      exact h.int

/-- A callback is safe on the read buffer. -/
def Session.ReadSafe (s : Session P) : Callback P → Prop
  | .read out .. => s.conn.status = .opened → s.conn.readBuffer.ReadSafe out
  | .write _ | .returned .. | .other .. | .refs _ => True

/-- A read starts with room for one more. -/
def Session.ReadsLow (s : Session P) : Callback P → Prop
  | .read .. => s.conn.status = .opened → s.conn.readBuffer.writeIdx ≤ readLimit
  | .write _ | .returned .. | .other .. | .refs _ => True

theorem Buffer.Paged.onConnectionRead {conn conn' : Conn} {out : ReadOut} {next : ReadNext}
    (h : conn.readBuffer.Paged)
    (hlow : conn.status = .opened → conn.readBuffer.writeIdx ≤ readLimit)
    (hread : Libxv.onConnectionRead conn out = (conn', next)) : conn'.readBuffer.Paged := by
  obtain rfl : (Libxv.onConnectionRead conn out).1 = conn' := congrArg Prod.fst hread
  unfold Libxv.onConnectionRead
  split
  · exact h
  · rename_i hopen
    have hopened : conn.status = .opened := by
      cases hstatus : conn.status with
      | opened => rfl
      | closed => exact absurd hstatus hopen
    have hensure := h.ensure (hlow hopened)
    cases out with
    | data chunk =>
        have hroom := xvBufferEnsureWriteableSize_room h.wf xvDefaultReadSize
        exact ⟨store_wf hensure.wf _ (Nat.le_trans chunk.le hroom), hensure.pages, hensure.int⟩
    | retry | eof | error => exact hensure

/-- What every callback keeps of the read buffer. -/
theorem Session.step_paged {callback : Callback P} (h : s.conn.readBuffer.Paged)
    (hlow : s.ReadsLow callback) (hstep : s.step workers ctl callback = some s') :
    s'.conn.readBuffer.Paged := by
  cases Session.step_moves hstep with
  | readBack _ _ _ _ _ _ hread => exact h.onConnectionRead hlow hread
  | readClose _ _ _ _ _ _ hread =>
      rw [(Session.close_read ctl _).1]
      exact h.onConnectionRead hlow hread
  | readProcess _ _ _ _ _ hread hfits =>
      rw [Session.processReadBuffer_readBuffer]
      exact (h.onConnectionRead hlow hread).process hfits
  | write out =>
      rw [Session.after_readBuffer, onConnectionWrite_readBuffer]
      exact h
  | answer =>
      rw [Session.processMessage_readBuffer]
      exact h
  | release | otherStart | otherStop | refs => exact h

theorem Session.Start.paged (h : Session.Start ctl s) : s.conn.readBuffer.Paged := by
  obtain ⟨loop, fd, handle, rid, wid, mem, -, -, rfl⟩ := h
  have hpages : xvDefaultReadSize ∣ xvDefaultBufferSize := by decide
  have hint : xvDefaultBufferSize ≤ intMax := by decide
  exact ⟨xvBufferInit_wf _ _, hpages, hint⟩

theorem Session.paged_of_reach
    (h : Reach (Session.step workers ctl) Session.ReadsLow (Session.Start ctl) s) :
    s.conn.readBuffer.Paged :=
  h.invariant (I := fun s => s.conn.readBuffer.Paged) (fun _ hs => hs.paged)
    fun _ _ _ hs hlow hstep => Session.step_paged hs hlow hstep

/--
**When the read path does not overflow**: in every run of a connection whose reads so far started
with their write index at most `2^31 - 8192`, the next one is safe, with no addition that
overflows and a whole read of room when `read` is called, if and only if it does so too.
-/
theorem read_path_iff
    (h : Reach (Session.step workers ctl) Session.ReadsLow (Session.Start ctl) s)
    (callback : Callback P) : s.ReadSafe callback ↔ s.ReadsLow callback := by
  cases callback with
  | read out decoded response pieces write =>
      exact imp_congr_right fun _ => (Session.paged_of_reach h).readSafe_iff out
  | write out | returned response pieces write | other io on | refs count => exact Iff.rfl

theorem read_path_iff_new :
    (Session.sample : Session Unit).ReadSafe (.read .eof ⟨[], xvAgain, none⟩ none [] .retry) :=
  have hstart : Reach (Session.step true acceptAll) Session.ReadsLow (Session.Start acceptAll)
      (Session.sample : Session Unit) := .start Session.sample_start
  (read_path_iff hstart _).mpr fun _ => Nat.zero_le _

/-! ### A frame that is never complete -/

/-- As many bytes as one `read` can deliver. -/
def fullChunk : Chunk where
  bytes := .replicate xvDefaultReadSize 0
  pos := by
    rw [List.length_replicate]
    exact (by decide : 0 < xvDefaultReadSize)
  le := Nat.le_of_eq List.length_replicate

/-- A decoder that finds no whole frame. -/
def incomplete : DecodeOut P := { advances := [], ret := xvAgain, request := none }

def fullRead : Callback P := .read (.data fullChunk) incomplete none [] .retry

/-- An open connection with this many reads in its buffer. -/
structure Session.Filled (k : Nat) (s : Session P) : Prop where
  live : s.freed = false
  registered : (s.loop.slot s.conn.fd).readIo = some s.conn.readIo.id
  opened : s.conn.status = .opened
  decode : s.conn.handle.decode = true
  process : s.conn.handle.process = true
  filled : s.conn.readBuffer.writeIdx = xvDefaultReadSize * k

/-- The read buffer after a full read. -/
def Buffer.readFull (buffer : Buffer) : Buffer :=
  xvBufferIncrWriteIndex
    (storeAtWriteBegin (xvBufferEnsureWriteableSize buffer xvDefaultReadSize) fullChunk.bytes)
    fullChunk.bytes.length

theorem Buffer.readFull_writeIdx (buffer : Buffer) :
    buffer.readFull.writeIdx = buffer.writeIdx + xvDefaultReadSize := by
  have hlen : fullChunk.bytes.length = xvDefaultReadSize := List.length_replicate
  show (xvBufferEnsureWriteableSize buffer xvDefaultReadSize).writeIdx + _ = _
  rw [hlen, xvBufferEnsureWriteableSize_writeIdx]

/-- A full read adds one. -/
theorem Session.Filled.fullRead {k : Nat} (h : s.Filled k) (workers : Bool) (ctl : EpollCtl) :
    ∃ s', s.step workers ctl fullRead = some s' ∧ s'.Filled (k + 1) := by
  have hread : Libxv.onConnectionRead s.conn (.data fullChunk) =
      ({ s.conn with readBuffer := s.conn.readBuffer.readFull }, .process) := by
    unfold Libxv.onConnectionRead
    rw [if_neg (by rw [h.opened]; simp)]
    rfl
  have hprocess : Libxv.processReadBuffer
      { s.conn with readBuffer := s.conn.readBuffer.readFull }
      (incomplete : DecodeOut P) =
        ({ s.conn with readBuffer := s.conn.readBuffer.readFull }, .back) := by
    simp [Libxv.processReadBuffer, incomplete, h.decode, h.process, DecodeOut.consume, xvAgain,
      xvOk, xvErr]
  have hfits : (incomplete : DecodeOut P).Fits s.conn.readBuffer.readFull := Nat.zero_le _
  refine ⟨{ s with
    conn := { s.conn with readBuffer := s.conn.readBuffer.readFull }
    received := s.received ++ [fullChunk] }, ?_, ?_⟩
  · unfold Libxv.fullRead Session.step
    dsimp only
    rw [if_neg (by simp [h.live, h.registered])]
    unfold Session.onConnectionRead
    rw [hread]
    dsimp only
    rw [if_pos hfits]
    unfold Session.processReadBuffer
    rw [hprocess]
    rfl
  · refine ⟨h.live, h.registered, h.opened, h.decode, h.process, ?_⟩
    show s.conn.readBuffer.readFull.writeIdx = _
    rw [Buffer.readFull_writeIdx, h.filled, Nat.mul_succ]

/-- A peer that never completes a frame: after 524287 full reads the next growth overflows. -/
theorem read_path_overflows :
    ∃ s : Session Unit,
      Reach (Session.step true acceptAll) Session.ReadsLow (Session.Start acceptAll) s ∧
        s.conn.status = .opened ∧ s.conn.readBuffer.writeIdx = 2 ^ 31 - 4096 ∧
        (s.step true acceptAll fullRead).isSome ∧ ¬ s.ReadSafe fullRead := by
  have hround : ∀ k (s : Session Unit), k < 524287 →
      Reach (Session.step true acceptAll) Session.ReadsLow (Session.Start acceptAll) s →
      s.Filled k → ∃ s' : Session Unit,
        Reach (Session.step true acceptAll) Session.ReadsLow (Session.Start acceptAll) s' ∧
          s'.Filled (k + 1) := by
    intro k s hk hreach hfilled
    obtain ⟨s', hstep, hfilled'⟩ := hfilled.fullRead true acceptAll
    have hlow : s.ReadsLow fullRead := by
      intro _
      rw [hfilled.filled]
      unfold readLimit intMax xvDefaultReadSize
      omega
    exact ⟨s', .next hreach hlow hstep, hfilled'⟩
  obtain ⟨s, hreach, hfilled⟩ := Reach.count hround (Nat.zero_le _)
    (.start Session.sample_start) ⟨rfl, rfl, rfl, rfl, rfl, rfl⟩
  obtain ⟨s', hstep, -⟩ := hfilled.fullRead true acceptAll
  have hindex : s.conn.readBuffer.writeIdx = 2 ^ 31 - 4096 := hfilled.filled
  refine ⟨s, hreach, hfilled.opened, hindex, by rw [hstep]; rfl, fun hsafe => ?_⟩
  have hlow := ((Session.paged_of_reach hreach).readSafe_iff _).mp (hsafe hfilled.opened)
  rw [hindex] at hlow
  exact absurd hlow (by decide)

end Libxv
