/-
A buffer is a byte queue.

Each call a connection makes on its buffers keeps `0 <= read_idx <= write_idx <= size`
and acts on the content as the operation of a queue: appending at the back, dropping
from the front, or leaving the content alone.  The only call with a case split behind
it is `xv_buffer_try_move`, which either resets an empty buffer, moves the content to
the front of the block, or does nothing; the content is the same in all three.
-/
import Libxv.BufferUse

namespace Libxv

open Memory

variable {buffer : Buffer}

@[simp] theorem Buffer.length_readable (buffer : Buffer) :
    buffer.readable.length = xvBufferReadableSize buffer := by
  simp [Buffer.readable]

theorem Buffer.readable_eq_nil_iff (buffer : Buffer) :
    buffer.readable = [] ↔ xvBufferReadableSize buffer = 0 := by
  rw [← List.length_eq_zero_iff, Buffer.length_readable]

/-! ### A new and a cleared buffer -/

theorem xvBufferInit_wf (size : Nat) (mem : Nat → UInt8) : (xvBufferInit size mem).WF :=
  ⟨Nat.le_refl _, Nat.zero_le _⟩

@[simp] theorem xvBufferInit_readable (size : Nat) (mem : Nat → UInt8) :
    (xvBufferInit size mem).readable = [] := rfl

theorem xvBufferClear_wf (buffer : Buffer) : (xvBufferClear buffer).WF :=
  ⟨Nat.le_refl _, Nat.zero_le _⟩

@[simp] theorem xvBufferClear_readable (buffer : Buffer) :
    (xvBufferClear buffer).readable = [] := rfl

/-! ### Compaction -/

theorem xvBufferTryMove_wf (h : buffer.WF) : (xvBufferTryMove buffer).WF := by
  have hread := h.read_le
  have hwrite := h.write_le
  unfold xvBufferTryMove xvBufferReadableSize
  by_cases hempty : buffer.writeIdx - buffer.readIdx = 0
  · simp only [hempty, if_true]
    rw [if_neg (by omega)]
    exact ⟨Nat.le_refl _, Nat.zero_le _⟩
  · simp only [hempty, if_false]
    by_cases hmove : buffer.readIdx > buffer.size / 2 ∧ buffer.readIdx > xvBufferMoveCheckSize
    · rw [if_pos hmove]
      refine ⟨Nat.zero_le _, ?_⟩
      show buffer.writeIdx - buffer.readIdx ≤ buffer.size
      omega
    · rw [if_neg hmove]
      exact h

/-- Compaction does not touch the content. -/
theorem xvBufferTryMove_readable (buffer : Buffer) :
    (xvBufferTryMove buffer).readable = buffer.readable := by
  unfold xvBufferTryMove
  by_cases hempty : xvBufferReadableSize buffer = 0
  · simp only [hempty, if_true]
    rw [if_neg (by omega), (Buffer.readable_eq_nil_iff buffer).mpr hempty]
    rfl
  · simp only [hempty, if_false]
    by_cases hmove : buffer.readIdx > buffer.size / 2 ∧ buffer.readIdx > xvBufferMoveCheckSize
    · rw [if_pos hmove]
      exact load_move buffer.buf buffer.readIdx (xvBufferReadableSize buffer)
    · rw [if_neg hmove]

/-! ### Dropping from the front -/

theorem xvBufferIncrReadIndex_wf (h : buffer.WF) {n : Nat}
    (hn : n ≤ xvBufferReadableSize buffer) : (xvBufferIncrReadIndex buffer n).WF := by
  have hread := h.read_le
  unfold xvBufferReadableSize at hn
  refine xvBufferTryMove_wf ⟨?_, h.write_le⟩
  show buffer.readIdx + n ≤ buffer.writeIdx
  omega

/-- Advancing the read index drops that many bytes of the content. -/
theorem xvBufferIncrReadIndex_readable (buffer : Buffer) (n : Nat) :
    (xvBufferIncrReadIndex buffer n).readable = buffer.readable.drop n := by
  unfold xvBufferIncrReadIndex
  rw [xvBufferTryMove_readable]
  unfold Buffer.readable
  rw [drop_load]
  show load buffer.buf (buffer.readIdx + n) (buffer.writeIdx - (buffer.readIdx + n)) = _
  rw [Nat.sub_add_eq]
  rfl

/-! ### Making room and appending -/

theorem xvBufferEnsureWriteableSize_wf (h : buffer.WF) (n : Nat) :
    (xvBufferEnsureWriteableSize buffer n).WF := by
  have hwrite := h.write_le
  unfold xvBufferEnsureWriteableSize
  split
  · refine ⟨h.read_le, ?_⟩
    show buffer.writeIdx ≤ buffer.size + n
    omega
  · exact h

@[simp] theorem xvBufferEnsureWriteableSize_readable (buffer : Buffer) (n : Nat) :
    (xvBufferEnsureWriteableSize buffer n).readable = buffer.readable := by
  unfold xvBufferEnsureWriteableSize
  split <;> rfl

/-- Afterwards there is room for what was asked. -/
theorem xvBufferEnsureWriteableSize_room (h : buffer.WF) (n : Nat) :
    n ≤ xvBufferWriteableSize (xvBufferEnsureWriteableSize buffer n) := by
  have hwrite := h.write_le
  unfold xvBufferEnsureWriteableSize
  split
  · show n ≤ buffer.size + n - buffer.writeIdx
    omega
  · omega

/-- Storing at the write index and advancing it appends what is there then. -/
theorem store_readable (h : buffer.WF) (src : List UInt8) (n : Nat) :
    (xvBufferIncrWriteIndex (storeAtWriteBegin buffer src) n).readable
      = buffer.readable ++ buffer.stored src n := by
  have hread := h.read_le
  show load (store buffer.buf buffer.writeIdx src) buffer.readIdx
      (buffer.writeIdx + n - buffer.readIdx) = _
  have hlen : buffer.writeIdx + n - buffer.readIdx = (buffer.writeIdx - buffer.readIdx) + n := by
    omega
  have hend : buffer.readIdx + (buffer.writeIdx - buffer.readIdx) = buffer.writeIdx := by omega
  rw [hlen, load_add, load_store_below _ _ (by omega), hend]
  rfl

/-- What is there is what was stored, as far as that goes. -/
theorem Buffer.stored_eq (buffer : Buffer) {src : List UInt8} {n : Nat} (h : n ≤ src.length) :
    buffer.stored src n = src.take n := by
  calc load (store buffer.buf buffer.writeIdx src) buffer.writeIdx n
      = (load (store buffer.buf buffer.writeIdx src) buffer.writeIdx src.length).take n := by
        rw [take_load, Nat.min_eq_left h]
    _ = src.take n := by rw [load_store_self]

theorem append_readable (h : buffer.WF) (src : List UInt8) :
    (xvBufferIncrWriteIndex (storeAtWriteBegin buffer src) src.length).readable
      = buffer.readable ++ src := by
  rw [store_readable h, buffer.stored_eq (Nat.le_refl _), List.take_length]

theorem store_wf (h : buffer.WF) (src : List UInt8) {n : Nat}
    (hroom : n ≤ xvBufferWriteableSize buffer) :
    (xvBufferIncrWriteIndex (storeAtWriteBegin buffer src) n).WF := by
  have hread := h.read_le
  have hwrite := h.write_le
  unfold xvBufferWriteableSize at hroom
  refine ⟨?_, ?_⟩
  · show buffer.readIdx ≤ buffer.writeIdx + n
    omega
  · show buffer.writeIdx + n ≤ buffer.size
    omega

end Libxv
