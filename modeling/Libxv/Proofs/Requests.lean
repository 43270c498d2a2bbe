/-
Which requests a stream of chunks yields.

`process_read_buffer` calls `decode` once for each read that delivered bytes, so a
connection is the receiver of `Lib/Framing.lean` that takes out at most one frame a
chunk.  `handed_eq_feedAll` is that refinement, for every run of a connection whose
`decode` implements a framing; what the receiver takes out, and when that is everything,
is then the library's.
-/
import Libxv.Lib.Framing
import Libxv.Lib.Run
import Libxv.Proofs.Connection
import Libxv.Proofs.Session
import Mathlib.Tactic.FinCases
import Mathlib.Tactic.IntervalCases

namespace Libxv

open Transition Chunked

variable {P : Type}

/-- The user's `decode` implements the framing on what it finds in the read buffer: with no
complete frame it answers `XV_AGAIN` and consumes nothing, otherwise it answers `XV_OK`,
consumes the first frame and makes it a packet. -/
def DecodesFirst (F : Framing UInt8) (packet : List UInt8 → Option P) (readable : List UInt8)
    (out : DecodeOut P) : Prop :=
  match F.first readable with
  | none => out.ret = xvAgain ∧ out.advances.sum = 0
  | some n => out.ret = xvOk ∧ out.advances.sum = n ∧ out.request = packet (readable.take n)

/-- A callback of a connection whose `decode` and `process` are set and whose `decode`
implements the framing. -/
def Framed (F : Framing UInt8) (packet : List UInt8 → Option P) (s : Session P) :
    Callback P → Prop
  | .read out decoded _ _ _ =>
      s.conn.handle.decode = true ∧ s.conn.handle.process = true ∧
        DecodesFirst F packet (onConnectionRead s.conn out).1.readBuffer.readable decoded
  | _ => True

/-! ### Decoding -/

/-- One call of a framing `decode`: what it leaves and what it hands on. -/
theorem processReadBuffer_framed {F : Framing UInt8} {packet : List UInt8 → Option P}
    {conn conn' : Conn} {out : DecodeOut P} {next : Decoded P} (h : conn.readBuffer.WF)
    (hdecode : conn.handle.decode = true) (hprocess : conn.handle.process = true)
    (hfits : out.Fits conn.readBuffer)
    (hframed : DecodesFirst F packet conn.readBuffer.readable out)
    (hread : processReadBuffer conn out = (conn', next)) :
    conn'.readBuffer.WF ∧
      match F.first conn.readBuffer.readable with
      | none => next = .back ∧ conn'.readBuffer.readable = conn.readBuffer.readable
      | some n => next = .request (packet (conn.readBuffer.readable.take n)) ∧
          conn'.readBuffer.readable = conn.readBuffer.readable.drop n := by
  obtain ⟨hwf, hdrop⟩ := consume_spec out.advances h hfits
  simp only [processReadBuffer, hdecode, hprocess, Bool.not_true, Bool.or_self,
    Bool.false_eq_true, if_false] at hread
  unfold DecodesFirst at hframed
  cases hfirst : F.first conn.readBuffer.readable with
  | none =>
      simp only [hfirst] at hframed
      obtain ⟨hret, hsum⟩ := hframed
      simp only [hret, xvAgain, xvOk, xvErr] at hread
      obtain ⟨rfl, rfl⟩ := Prod.mk.inj hread
      refine ⟨hwf, rfl, ?_⟩
      show (out.advances.foldl xvBufferIncrReadIndex conn.readBuffer).readable = _
      rw [hdrop, hsum, List.drop_zero]
  | some n =>
      simp only [hfirst] at hframed
      obtain ⟨hret, hsum, hrequest⟩ := hframed
      simp only [hret, if_true] at hread
      obtain ⟨rfl, rfl⟩ := Prod.mk.inj hread
      refine ⟨hwf, by rw [hrequest], ?_⟩
      show (out.advances.foldl xvBufferIncrReadIndex conn.readBuffer).readable = _
      rw [hdrop, hsum]

/-! ### A whole run -/

/-- The bytes of the chunks a session has received. -/
def Session.chunks (s : Session P) : List (List UInt8) := s.received.map Chunk.bytes

/-- A session is the receiver that takes out at most one frame a chunk. -/
structure Session.Receives (F : Framing UInt8) (packet : List UInt8 → Option P) (s : Session P) :
    Prop where
  wf : s.conn.readBuffer.WF
  buffered : s.conn.readBuffer.readable = (feedAll F [] s.chunks).1
  handed : s.handed = (feedAll F [] s.chunks).2.map packet

section Receives

variable {F : Framing UInt8} {packet : List UInt8 → Option P} {ctl : EpollCtl}
  {s s' : Session P}

theorem Session.Receives.congr (h : s.Receives F packet) (s' : Session P)
    (hwf : s'.conn.readBuffer.WF)
    (hbuf : s'.conn.readBuffer.readable = s.conn.readBuffer.readable)
    (hreceived : s'.received = s.received) (hhanded : s'.handed = s.handed) :
    s'.Receives F packet := by
  refine ⟨hwf, ?_, ?_⟩
  · rw [hbuf, Session.chunks, hreceived]; exact h.buffered
  · rw [hhanded, Session.chunks, hreceived]; exact h.handed

/-- Closing and writing leave the read side alone. -/
theorem Session.close_read (ctl : EpollCtl) (s : Session P) :
    (s.close ctl).conn.readBuffer = s.conn.readBuffer ∧
      (s.close ctl).received = s.received ∧ (s.close ctl).handed = s.handed := by
  unfold Session.close closeConnection
  dsimp only
  split <;> split <;> exact ⟨rfl, rfl, rfl⟩

theorem Session.Receives.close (h : s.Receives F packet) : (s.close ctl).Receives F packet := by
  obtain ⟨hbuf, hreceived, hhanded⟩ := Session.close_read ctl s
  exact h.congr _ (hbuf ▸ h.wf) (by rw [hbuf]) hreceived hhanded

theorem Session.Receives.after (h : s.Receives F packet) {sent : Sent}
    (hsent : sent.conn.readBuffer = s.conn.readBuffer) : (s.after ctl sent).Receives F packet := by
  have hnext : Session.Receives F packet { s with
      loop := sent.loop
      conn := sent.conn
      encoded := s.encoded ++ sent.encoded
      accepted := s.accepted ++ sent.accepted } :=
    h.congr _ (hsent ▸ h.wf) (by rw [hsent]) rfl rfl
  unfold Session.after
  dsimp only
  split
  · exact hnext.close
  · exact hnext

theorem Session.Receives.processMessage (h : s.Receives F packet) (response : Option P)
    (pieces : List Piece) (out : WriteOut) :
    (s.processMessage ctl response pieces out).Receives F packet :=
  h.after (processMessage_readBuffer ctl s.loop s.conn response pieces out)

/-- A chunk arrives: the session feeds it to the framing once. -/
theorem Session.Receives.data {workers : Bool} (h : s.Receives F packet) {chunk : Chunk}
    {conn : Conn} {decoded : DecodeOut P} {response : Option P} {pieces : List Piece}
    {write : WriteOut} (hwf : conn.readBuffer.WF)
    (hbuf : conn.readBuffer.readable = s.conn.readBuffer.readable ++ chunk.bytes)
    (hdecode : conn.handle.decode = true) (hprocess : conn.handle.process = true)
    (hfits : decoded.Fits conn.readBuffer)
    (hframed : DecodesFirst F packet conn.readBuffer.readable decoded) :
    (Session.processReadBuffer workers ctl
      { s with conn := conn, received := s.received ++ [chunk] } decoded response pieces
      write).Receives F packet := by
  unfold Session.processReadBuffer
  rcases hread : Libxv.processReadBuffer conn decoded with ⟨conn', next⟩
  obtain ⟨hwf', hnext⟩ := processReadBuffer_framed hwf hdecode hprocess hfits hframed hread
  have hconcat := feedAll_concat F chunk.bytes s.chunks []
  have hchunks : s.chunks ++ [chunk.bytes] = (s.received ++ [chunk]).map Chunk.bytes := by
    simp [Session.chunks]
  rw [← h.buffered, hchunks] at hconcat
  rw [hbuf] at hnext
  cases hfirst : F.first (s.conn.readBuffer.readable ++ chunk.bytes) with
  | none =>
      simp only [hfirst] at hnext
      obtain ⟨rfl, hrest⟩ := hnext
      simp only [feed, hfirst, List.append_nil] at hconcat
      refine ⟨hwf', ?_, ?_⟩
      · show conn'.readBuffer.readable = (feedAll F [] ((s.received ++ [chunk]).map _)).1
        rw [hconcat, hrest]
      · show s.handed = (feedAll F [] ((s.received ++ [chunk]).map _)).2.map packet
        rw [hconcat, h.handed]
  | some n =>
      simp only [hfirst] at hnext
      obtain ⟨rfl, hrest⟩ := hnext
      simp only [feed, hfirst] at hconcat
      have hs : Session.Receives F packet
          { s with
            conn := conn'
            received := s.received ++ [chunk]
            handed := s.handed ++
              [packet ((s.conn.readBuffer.readable ++ chunk.bytes).take n)] } := by
        refine ⟨hwf', ?_, ?_⟩
        · show conn'.readBuffer.readable = (feedAll F [] ((s.received ++ [chunk]).map _)).1
          rw [hconcat, hrest]
        · show s.handed ++ _ = (feedAll F [] ((s.received ++ [chunk]).map _)).2.map packet
          rw [hconcat, h.handed, List.map_append]
          rfl
      dsimp only
      split
      · exact hs
      · exact hs.processMessage response pieces write

theorem Session.Receives.step {workers : Bool} {callback : Callback P}
    (h : s.Receives F packet) (hok : Framed F packet s callback)
    (hstep : s.step workers ctl callback = some s') : s'.Receives F packet := by
  cases Session.step_moves hstep with
  | readBack _ _ _ _ _ _ hread =>
      obtain ⟨hwf, hbuf⟩ := onConnectionRead_idle h.wf hread (by simp)
      exact h.congr _ hwf hbuf rfl rfl
  | @readClose out conn _ _ _ _ _ _ hread =>
      obtain ⟨hwf, hbuf⟩ := onConnectionRead_idle h.wf hread (by simp)
      exact (h.congr { s with conn := conn } hwf hbuf rfl rfl).close
  | readProcess _ _ _ _ _ hread hfits =>
      obtain ⟨hdecode, hprocess, hframed⟩ := hok
      obtain ⟨chunk, rfl, hwf, hbuf, hhandle⟩ := onConnectionRead_data h.wf hread
      rw [hread] at hframed
      exact h.data hwf hbuf (hhandle ▸ hdecode) (hhandle ▸ hprocess) hfits hframed
  | write out => exact h.after (onConnectionWrite_readBuffer ctl s.loop s.conn out)
  | answer response pieces write => exact h.processMessage response pieces write
  | release | otherStart | otherStop | refs => exact h.congr _ h.wf rfl rfl rfl

theorem Session.Receives.start (h : Session.Start ctl s) : s.Receives F packet := by
  obtain ⟨loop, fd, handle, rid, wid, mem, -, -, rfl⟩ := h
  exact ⟨xvBufferInit_wf _ _, rfl, rfl⟩

/-- **A connection takes out at most one frame a chunk.** -/
theorem handed_eq_feedAll {workers : Bool}
    (h : Reach (Session.step workers ctl) (Framed F packet) (Session.Start ctl) s) :
    s.Receives F packet :=
  h.invariant (fun _ => Session.Receives.start) fun _ _ _ hs hok hstep => hs.step hok hstep

end Receives

/--
**When a stream's requests are all handed on.**  Once a connection has read a stream of
frames to its end, the requests handed to `process` are exactly the frames, in order, with
no complete frame left in the read buffer, if and only if no tail of the chunks completes
more frames than it has chunks.
-/
theorem requests_complete_iff {F : Framing UInt8} {packet : List UInt8 → Option P}
    {workers : Bool} {ctl : EpollCtl} {s : Session P} {frames : List (List UInt8)}
    (h : Reach (Session.step workers ctl) (Framed F packet) (Session.Start ctl) s)
    (hframes : ∀ frame ∈ frames, F.IsFrame frame)
    (hstream : s.chunks.flatten = frames.flatten) :
    (s.handed = frames.map packet ∧ F.first s.conn.readBuffer.readable = none) ↔
      KeepsUp frames s.chunks := by
  have hreceives := handed_eq_feedAll h
  have hpre := feedAll_prefix hframes hstream
  rw [← feedAll_eq_iff hframes hstream]
  constructor
  · rintro ⟨hhanded, -⟩
    rw [hreceives.handed] at hhanded
    have hlen := congrArg List.length hhanded
    rw [List.length_map, List.length_map] at hlen
    exact hpre.eq_of_length hlen
  · intro hall
    have hrest := feedAll_rest F [] s.chunks
    rw [hall, hstream, List.nil_append] at hrest
    have hnil : s.conn.readBuffer.readable = [] := by
      rw [hreceives.buffered]
      exact List.append_right_eq_self.mp hrest
    exact ⟨by rw [hreceives.handed, hall], by rw [hnil]; exact Framing.first_nil⟩

/-! ### Two requests in one chunk

Frames of one byte each, two of them in the chunk of a single read.
-/

/-- Every byte is a frame. -/
def byteFraming : Framing UInt8 where
  first bytes := if bytes = [] then none else some 1
  pos := by
    intro bytes n h
    split at h <;> simp at h
    omega
  le := by
    intro bytes n h
    split at h
    · simp at h
    · rename_i hne
      simp only [Option.some.injEq] at h
      have := List.length_pos_iff.mpr hne
      omega
  mono := by
    intro bytes n more h
    split at h
    · simp at h
    · rename_i hne
      rw [if_neg (by simp [hne])]
      exact h

/-- A read of `bytes` after which `decode` takes one byte and makes it the request. -/
def readByte (chunk : Chunk) (request : List UInt8) : Callback (List UInt8) :=
  .read (.data chunk) { advances := [1], ret := xvOk, request := some request } none [] .retry

/-- The second of two frames read together stays in the read buffer. -/
theorem second_request_waits :
    ∃ s : Session (List UInt8),
      Reach (Session.step true acceptAll) (Framed byteFraming some) (Session.Start acceptAll) s ∧
        (∀ frame ∈ [[1], [2]], byteFraming.IsFrame frame) ∧
        s.chunks.flatten = [[1], [2]].flatten ∧ s.conn.status = .opened ∧
        s.handed = [some [1]] ∧ byteFraming.first s.conn.readBuffer.readable = some 1 ∧
        ¬ (s.handed = [[1], [2]].map some ∧
          byteFraming.first s.conn.readBuffer.readable = none) := by
  refine ⟨_, .next (.start Session.sample_start) (i := readByte ⟨[1, 2], by decide, by decide⟩ [1])
    ⟨rfl, rfl, rfl, rfl, rfl⟩ rfl, ?_, rfl, rfl, rfl, rfl, ?_⟩
  · intro frame hframe
    fin_cases hframe <;> rfl
  · rintro ⟨hhanded, -⟩
    exact absurd (congrArg List.length hhanded) (by decide)

/-- The same two frames in a chunk each are both handed on. -/
theorem requests_complete_iff_two_chunks :
    ∃ s : Session (List UInt8), s.chunks = [[1], [2]] ∧ KeepsUp [[1], [2]] s.chunks ∧
      s.handed = [[1], [2]].map some ∧ byteFraming.first s.conn.readBuffer.readable = none := by
  have hrun : ∃ s : Session (List UInt8),
      Reach (Session.step true acceptAll) (Framed byteFraming some) (Session.Start acceptAll) s ∧
        s.chunks = [[1], [2]] :=
    ⟨_, .next (.next (.start Session.sample_start)
        (i := readByte ⟨[1], by decide, by decide⟩ [1]) ⟨rfl, rfl, rfl, rfl, rfl⟩ rfl)
      (i := readByte ⟨[2], by decide, by decide⟩ [2]) ⟨rfl, rfl, rfl, rfl, rfl⟩ rfl, rfl⟩
  obtain ⟨s, hreach, hchunks⟩ := hrun
  have hframes : ∀ frame ∈ [[1], [2]], byteFraming.IsFrame frame := by
    intro frame hframe
    fin_cases hframe <;> rfl
  have hkeeps : KeepsUp [[1], [2]] s.chunks := by
    rw [hchunks]
    intro i hi
    have hi' : i ≤ 2 := hi
    interval_cases i <;> decide
  obtain ⟨hhanded, hrest⟩ :=
    (requests_complete_iff hreach hframes (by rw [hchunks])).mpr hkeeps
  exact ⟨s, hchunks, hkeeps, hhanded, hrest⟩

end Libxv
