/-
A buffer over whole runs: it is a queue of bytes, and it does not grow without end.

Each call goes the way of an operation of the queue, so a run of calls does (`Fifo.refines`).
For the size, what counts is how far the read index can run ahead: compaction keeps it at
half of the size or at `XV_BUFFER_MOVE_CHECK_SIZE`, whichever is more, and growth does not
move it.  A buffer that grows is therefore nearly full of bytes that have not been read.
-/
import Libxv.Proofs.Buffer
import Libxv.Lib.Fifo

namespace Libxv

open Memory Transition

variable {buffer buffer' : Buffer}

/-! ### A queue of bytes -/

/-- The operation of the queue that a call is. -/
def Buffer.op (buffer : Buffer) : BufferCall → Fifo.Op UInt8
  | .writeData src => .append src
  | .readData len => .take len
  | .ensureWriteableSize _ => .keep
  | .store src n => .append (buffer.stored src n)
  | .incrReadIndex n => .drop n
  | .clear => .clear

/-- The bytes a call copies out. -/
def Buffer.out (buffer : Buffer) : BufferCall → List UInt8
  | .readData len => (xvBufferReadData buffer len).1
  | .writeData _ | .ensureWriteableSize _ | .store .. | .incrReadIndex _ | .clear => []

def Buffer.entry (buffer : Buffer) (call : BufferCall) : Fifo.Entry UInt8 :=
  ⟨buffer.op call, buffer.out call⟩

theorem xvBufferReadData_out (buffer : Buffer) (len : Nat) :
    (xvBufferReadData buffer len).1 = buffer.readable.take len := by
  unfold Buffer.readable
  rw [take_load]
  unfold xvBufferReadData
  dsimp only
  congr 1
  split <;> omega

/-- A read returns its bytes by advancing the read index. -/
theorem xvBufferReadData_buffer (buffer : Buffer) (len : Nat) :
    (xvBufferReadData buffer len).2 =
      xvBufferIncrReadIndex buffer (min len (xvBufferReadableSize buffer)) := by
  unfold xvBufferReadData xvBufferIncrReadIndex
  dsimp only
  congr 3
  split <;> omega

theorem xvBufferReadData_readable (buffer : Buffer) (len : Nat) :
    (xvBufferReadData buffer len).2.readable = buffer.readable.drop len := by
  rw [xvBufferReadData_buffer, xvBufferIncrReadIndex_readable, ← buffer.length_readable]
  rcases Nat.le_total len buffer.readable.length with hle | hge
  · rw [Nat.min_eq_left hle]
  · rw [Nat.min_eq_right hge, List.drop_length, List.drop_eq_nil_of_le hge]

theorem xvBufferWriteData_readable (h : buffer.WF) (src : List UInt8) :
    (xvBufferWriteData buffer src).readable = buffer.readable ++ src := by
  have hroom := xvBufferEnsureWriteableSize_wf h src.length
  have happend := append_readable hroom src
  rw [xvBufferEnsureWriteableSize_readable] at happend
  exact happend

theorem Buffer.WF.step (h : buffer.WF) {call : BufferCall}
    (hstep : buffer.step call = some buffer') : buffer'.WF := by
  cases call with
  | writeData src =>
      obtain rfl := Option.some.inj hstep
      exact store_wf (xvBufferEnsureWriteableSize_wf h src.length) src
        (xvBufferEnsureWriteableSize_room h src.length)
  | readData len =>
      obtain rfl := Option.some.inj hstep
      rw [xvBufferReadData_buffer]
      exact xvBufferIncrReadIndex_wf h (Nat.min_le_right ..)
  | ensureWriteableSize validSize =>
      obtain rfl := Option.some.inj hstep
      exact xvBufferEnsureWriteableSize_wf h validSize
  | store src n =>
      simp only [Buffer.step, Option.ite_none_right_eq_some, Option.some.injEq] at hstep
      obtain ⟨⟨-, hn⟩, rfl⟩ := hstep
      exact store_wf h src hn
  | incrReadIndex n =>
      simp only [Buffer.step, Option.ite_none_right_eq_some, Option.some.injEq] at hstep
      obtain ⟨hn, rfl⟩ := hstep
      exact xvBufferIncrReadIndex_wf h hn
  | clear =>
      obtain rfl := Option.some.inj hstep
      exact xvBufferClear_wf buffer

/-- **One call goes the way of the queue.** -/
theorem Buffer.step_queue (h : buffer.WF) {call : BufferCall}
    (hstep : buffer.step call = some buffer') :
    ((buffer.entry call).out, buffer'.readable) = (buffer.entry call).op.run buffer.readable := by
  cases call with
  | writeData src =>
      obtain rfl := Option.some.inj hstep
      exact congrArg (Prod.mk []) (xvBufferWriteData_readable h src)
  | readData len =>
      obtain rfl := Option.some.inj hstep
      exact congrArg₂ Prod.mk (xvBufferReadData_out buffer len)
        (xvBufferReadData_readable buffer len)
  | ensureWriteableSize validSize =>
      obtain rfl := Option.some.inj hstep
      exact congrArg (Prod.mk []) (xvBufferEnsureWriteableSize_readable buffer validSize)
  | store src n =>
      simp only [Buffer.step, Option.ite_none_right_eq_some, Option.some.injEq] at hstep
      obtain ⟨-, rfl⟩ := hstep
      exact congrArg (Prod.mk []) (store_readable h src n)
  | incrReadIndex n =>
      simp only [Buffer.step, Option.ite_none_right_eq_some, Option.some.injEq] at hstep
      obtain ⟨-, rfl⟩ := hstep
      exact congrArg (Prod.mk []) (xvBufferIncrReadIndex_readable buffer n)
  | clear =>
      obtain rfl := Option.some.inj hstep
      exact congrArg (Prod.mk []) (xvBufferClear_readable buffer)

theorem Buffer.wf_of_reachable {size : Nat} (h : Reachable Buffer.step (Buffer.New size) buffer) :
    buffer.WF := by
  refine h.invariant (I := Buffer.WF) ?_ fun _ _ _ hwf _ hstep => hwf.step hstep
  rintro buffer ⟨mem, rfl⟩
  exact xvBufferInit_wf size mem

/--
**A buffer is a queue of bytes**: after any calls, of any lengths and in any order, the indices
are in order and the readable bytes are what a queue would hold after the same operations, each
of which returned what the queue would return; a store appends the bytes that were stored, and
`xv_buffer_ensure_writeable_size` leaves the room it was asked for.
-/
theorem buffer_is_queue {size : Nat} {x : Traced Buffer (Fifo.Entry UInt8)}
    (h : Reachable (traced Buffer.step fun buffer call => some (buffer.entry call))
      (Traced.Start (Buffer.New size)) x) :
    x.state.WF ∧ Fifo.Run x.trace x.state.readable ∧
      (∀ src n, n ≤ src.length → x.state.op (.store src n) = .append (src.take n)) ∧
      ∀ n buffer', x.state.step (.ensureWriteableSize n) = some buffer' →
        n ≤ xvBufferWriteableSize buffer' := by
  have hwf := Buffer.wf_of_reachable h.untraced
  refine ⟨hwf, ?_, ?_, ?_⟩
  · refine Fifo.refines ?_ (fun s call s' hreach hstep => ?_) h
    · rintro buffer ⟨mem, rfl⟩
      exact xvBufferInit_readable size mem
    · exact Buffer.step_queue (Buffer.wf_of_reachable hreach) hstep
  · intro src n hn
    exact congrArg Fifo.Op.append (x.state.stored_eq hn)
  · intro n buffer' hstep
    obtain rfl := Option.some.inj hstep
    exact xvBufferEnsureWriteableSize_room hwf n

/-- On a block of four bytes that grows once, and is emptied of its first three. -/
theorem buffer_is_queue_small :
    ∃ x : Traced Buffer (Fifo.Entry UInt8),
      play (traced Buffer.step fun buffer call => some (buffer.entry call))
        { state := xvBufferInit 4 fun _ => 0, trace := [] }
        [.writeData [1, 2, 3], .readData 2, .store [4] 1, .ensureWriteableSize 2,
          .incrReadIndex 1] = some x ∧
      x.state.WF ∧ Fifo.Run x.trace [4] := by
  obtain ⟨x, hplay, hread⟩ :
      ∃ x : Traced Buffer (Fifo.Entry UInt8),
        play (traced Buffer.step fun buffer call => some (buffer.entry call))
          { state := xvBufferInit 4 fun _ => 0, trace := [] }
          [.writeData [1, 2, 3], .readData 2, .store [4] 1, .ensureWriteableSize 2,
            .incrReadIndex 1] = some x ∧ x.state.readable = [4] := ⟨_, rfl, rfl⟩
  have h := buffer_is_queue (Reachable.play _ (.start ⟨⟨fun _ => 0, rfl⟩, rfl⟩) hplay)
  exact ⟨x, hplay, h.1, hread ▸ h.2.1⟩

/-! ### Bounded memory -/

/-- The length a call passes to `xv_buffer_write_data` or `xv_buffer_ensure_writeable_size`. -/
def BufferCall.asked : BufferCall → Nat
  | .writeData src => src.length
  | .ensureWriteableSize validSize => validSize
  | .readData _ | .store .. | .incrReadIndex _ | .clear => 0

/-- The read index is not far into the block. -/
def Buffer.Compact (buffer : Buffer) : Prop :=
  buffer.readIdx ≤ max (buffer.size / 2) xvBufferMoveCheckSize

theorem xvBufferTryMove_size (buffer : Buffer) : (xvBufferTryMove buffer).size = buffer.size := by
  unfold xvBufferTryMove
  dsimp only
  split <;> split <;> rfl

/-- Compaction is there for this. -/
theorem xvBufferTryMove_compact (buffer : Buffer) : (xvBufferTryMove buffer).Compact := by
  unfold xvBufferTryMove
  dsimp only
  split
  · rw [if_neg (by simp)]
    exact Nat.zero_le _
  · split
    · exact Nat.zero_le _
    · rename_i hmove
      unfold Buffer.Compact
      omega

theorem xvBufferEnsureWriteableSize_readIdx (buffer : Buffer) (n : Nat) :
    (xvBufferEnsureWriteableSize buffer n).readIdx = buffer.readIdx := by
  unfold xvBufferEnsureWriteableSize
  split <;> rfl

theorem xvBufferEnsureWriteableSize_writeIdx (buffer : Buffer) (n : Nat) :
    (xvBufferEnsureWriteableSize buffer n).writeIdx = buffer.writeIdx := by
  unfold xvBufferEnsureWriteableSize
  split <;> rfl

/-- Growth does not put the read index further in. -/
theorem Buffer.Compact.ensureWriteableSize (h : buffer.Compact) (n : Nat) :
    (xvBufferEnsureWriteableSize buffer n).Compact := by
  unfold Buffer.Compact at h ⊢
  rw [xvBufferEnsureWriteableSize_readIdx]
  unfold xvBufferEnsureWriteableSize
  split
  · show buffer.readIdx ≤ max ((buffer.size + n) / 2) xvBufferMoveCheckSize
    omega
  · exact h

/-- **A buffer that grows is nearly full of unread bytes**, so it was not large. -/
theorem xvBufferEnsureWriteableSize_size_le (hcompact : buffer.Compact) {M W n : Nat}
    (hreadable : xvBufferReadableSize buffer ≤ M) (hn : n ≤ W) :
    (xvBufferEnsureWriteableSize buffer n).size ≤
      max buffer.size (max (2 * (M + W)) (M + W + 2048) + W) := by
  unfold Buffer.Compact xvBufferMoveCheckSize at hcompact
  unfold xvBufferReadableSize at hreadable
  unfold xvBufferEnsureWriteableSize
  split
  · rename_i hgrow
    unfold xvBufferWriteableSize at hgrow
    show buffer.size + n ≤ _
    omega
  · exact Nat.le_max_left ..

theorem Buffer.Compact.step (h : buffer.Compact) {call : BufferCall}
    (hstep : buffer.step call = some buffer') : buffer'.Compact := by
  cases call with
  | writeData src =>
      obtain rfl := Option.some.inj hstep
      exact h.ensureWriteableSize src.length
  | readData len =>
      obtain rfl := Option.some.inj hstep
      exact xvBufferTryMove_compact _
  | ensureWriteableSize validSize =>
      obtain rfl := Option.some.inj hstep
      exact h.ensureWriteableSize validSize
  | store src n =>
      simp only [Buffer.step, Option.ite_none_right_eq_some, Option.some.injEq] at hstep
      obtain ⟨-, rfl⟩ := hstep
      exact h
  | incrReadIndex n =>
      simp only [Buffer.step, Option.ite_none_right_eq_some, Option.some.injEq] at hstep
      obtain ⟨-, rfl⟩ := hstep
      exact xvBufferTryMove_compact _
  | clear =>
      obtain rfl := Option.some.inj hstep
      exact Nat.zero_le _

/-- Only the two calls that ask for room change the size, and as one of them does. -/
theorem Buffer.step_size {call : BufferCall} (hstep : buffer.step call = some buffer') :
    buffer'.size = (xvBufferEnsureWriteableSize buffer call.asked).size := by
  cases call with
  | writeData src | ensureWriteableSize validSize =>
      obtain rfl := Option.some.inj hstep
      rfl
  | readData len =>
      obtain rfl := Option.some.inj hstep
      exact xvBufferTryMove_size _
  | store src n =>
      simp only [Buffer.step, Option.ite_none_right_eq_some, Option.some.injEq] at hstep
      obtain ⟨-, rfl⟩ := hstep
      rfl
  | incrReadIndex n =>
      simp only [Buffer.step, Option.ite_none_right_eq_some, Option.some.injEq] at hstep
      obtain ⟨-, rfl⟩ := hstep
      exact xvBufferTryMove_size _
  | clear =>
      obtain rfl := Option.some.inj hstep
      rfl

/--
**Buffer memory stays bounded**: in a run in which no call asks for more than `W` and no more
than `M` bytes are readable at a time, the size has a bound that does not depend on how long
the run is.
-/
theorem buffer_size_bounded {S0 M W : Nat}
    (h : Reach Buffer.step (fun buffer call => call.asked ≤ W ∧ xvBufferReadableSize buffer ≤ M)
      (Buffer.New S0) buffer) :
    buffer.size ≤ max S0 (max (2 * (M + W)) (M + W + 2048) + W) := by
  have hboth : buffer.Compact ∧ buffer.size ≤ max S0 (max (2 * (M + W)) (M + W + 2048) + W) := by
    refine h.invariant (I := fun buffer => buffer.Compact ∧
      buffer.size ≤ max S0 (max (2 * (M + W)) (M + W + 2048) + W)) ?_ ?_
    · rintro buffer ⟨mem, rfl⟩
      exact ⟨Nat.zero_le _, Nat.le_max_left ..⟩
    · rintro buffer call buffer' ⟨hcompact, hsize⟩ ⟨hasked, hreadable⟩ hstep
      refine ⟨hcompact.step hstep, ?_⟩
      have hgrown := xvBufferEnsureWriteableSize_size_le hcompact hreadable hasked
      rw [Buffer.step_size hstep]
      exact Nat.le_trans hgrown (Nat.max_le.mpr ⟨hsize, Nat.le_max_right ..⟩)
  exact hboth.2

/-- With three bytes at a time, asked for and readable, from a block of one. -/
theorem buffer_size_bounded_small :
    ∃ buffer : Buffer,
      play Buffer.step (xvBufferInit 1 fun _ => 0)
        [.writeData [1, 2, 3], .readData 3, .ensureWriteableSize 3] = some buffer ∧
      buffer.size = 4 ∧ buffer.size ≤ max 1 (max (2 * (3 + 3)) (3 + 3 + 2048) + 3) :=
  ⟨_, rfl, rfl, buffer_size_bounded
    (Reach.play [.writeData [1, 2, 3], .readData 3, .ensureWriteableSize 3]
      (.start ⟨fun _ => 0, rfl⟩) (by decide) rfl)⟩

end Libxv
