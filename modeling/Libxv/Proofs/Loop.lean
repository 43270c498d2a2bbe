/-
What starting and stopping an io does to the loop.

A start or a stop of an io below the loop's size writes the slot of its own fd and no
other; a start past the size grows the loop first, which leaves the slots already there
alone.  Whether `epoll_ctl` succeeds makes no difference to the slots.
-/
import Libxv.Loop

namespace Libxv

open Function

variable {ctl : EpollCtl} {loop : Loop} {io : Io}

/-- An updated function has the same field everywhere if the new value has it. -/
theorem update_same {α β γ : Type} [DecidableEq α] (g : α → β) (i : α) (x : β) (f : β → γ)
    (h : f x = f (g i)) (j : α) : f (update g i x j) = f (g j) := by
  by_cases hj : j = i
  · subst hj
    rw [update_self]
    exact h
  · rw [update_of_ne hj]

/-- The io's event is one `xv_loop_add_event` accepts. -/
def Io.Proper (io : Io) : Prop := io.event = xvRead ∨ io.event = xvWrite

/-! ### Growing -/

theorem xvLoopResize_setsize_le (loop : Loop) (n : Nat) :
    loop.setsize ≤ (xvLoopResize loop n).setsize := by
  unfold xvLoopResize
  split
  · exact Nat.le_refl _
  · rename_i h
    exact Nat.le_of_not_le h

theorem xvLoopResize_start (loop : Loop) (n : Nat) :
    (xvLoopResize loop n).start = loop.start := by
  unfold xvLoopResize
  split <;> rfl

theorem xvLoopResize_slot {fd : Nat} (n : Nat) (h : fd < loop.setsize) :
    (xvLoopResize loop n).slot fd = loop.slot fd := by
  unfold xvLoopResize
  split
  · rfl
  · show (if loop.setsize ≤ fd ∧ fd < n then EventIo.empty else loop.slot fd) = loop.slot fd
    rw [if_neg (by omega)]

/-! ### Starting -/

theorem xvLoopAddEvent_setsize_le (ctl : EpollCtl) (loop : Loop) (io : Io) :
    loop.setsize ≤ (xvLoopAddEvent ctl loop io).2.setsize := by
  have hgrow := xvLoopResize_setsize_le loop (loop.setsize * 2)
  unfold xvLoopAddEvent
  dsimp only
  split <;> split <;> first | exact hgrow | exact Nat.le_refl _

theorem xvLoopAddEvent_slot_ne {fd : Nat} (h : fd < loop.setsize) (hne : fd ≠ io.fd) :
    (xvLoopAddEvent ctl loop io).2.slot fd = loop.slot fd := by
  have hgrow := xvLoopResize_slot (loop.setsize * 2) h
  unfold xvLoopAddEvent
  dsimp only
  split <;> split <;> simp only [update_of_ne hne, hgrow]

theorem xvLoopAddEvent_slot_self (io : Io) (h : io.fd < loop.setsize) (hio : io.Proper) :
    (xvLoopAddEvent ctl loop io).2.slot io.fd = (loop.slot io.fd).add io := by
  have hfd : ¬ io.fd ≥ loop.setsize := Nat.not_le.mpr h
  have hevent : ¬ (io.event ≠ xvRead ∧ io.event ≠ xvWrite) := fun hbad =>
    hio.elim hbad.1 hbad.2
  simp only [xvLoopAddEvent, if_neg hfd, if_neg hevent]
  exact update_self ..

/-- Starting an io sets its flag, whatever comes of it. -/
theorem xvIoStart_io (ctl : EpollCtl) (loop : Loop) (io : Io) :
    (xvIoStart ctl loop io).2.2 = { io with start := true } := by
  unfold xvIoStart
  split
  · rename_i h
    rw [← h]
  · rfl

theorem xvIoStart_setsize_le (ctl : EpollCtl) (loop : Loop) (io : Io) :
    loop.setsize ≤ (xvIoStart ctl loop io).2.1.setsize := by
  unfold xvIoStart
  split
  · exact Nat.le_refl _
  · exact xvLoopAddEvent_setsize_le ctl loop _

/-- Starting an io breaks no loop, and mends none. -/
theorem xvIoStart_start (ctl : EpollCtl) (loop : Loop) (io : Io) :
    (xvIoStart ctl loop io).2.1.start = loop.start := by
  have hgrow := xvLoopResize_start loop (loop.setsize * 2)
  unfold xvIoStart xvLoopAddEvent
  dsimp only
  split
  · rfl
  · split <;> split <;> first | exact hgrow | rfl

theorem xvIoStart_slot_ne {fd : Nat} (h : fd < loop.setsize) (hne : fd ≠ io.fd) :
    (xvIoStart ctl loop io).2.1.slot fd = loop.slot fd := by
  unfold xvIoStart
  split
  · rfl
  · exact xvLoopAddEvent_slot_ne h hne

/-- A second start is refused and changes nothing. -/
theorem xvIoStart_started (h : io.start = true) : (xvIoStart ctl loop io).2.1 = loop := by
  simp [xvIoStart, h]

theorem xvIoStart_slot_self (hstart : io.start = false) (h : io.fd < loop.setsize)
    (hio : io.Proper) :
    (xvIoStart ctl loop io).2.1.slot io.fd = (loop.slot io.fd).add io := by
  unfold xvIoStart
  rw [if_neg (by simp [hstart])]
  exact xvLoopAddEvent_slot_self { io with start := true } h hio

/-! ### Stopping -/

theorem xvIoStop_io (ctl : EpollCtl) (loop : Loop) (io : Io) :
    (xvIoStop ctl loop io).2.2 = { io with start := false } := by
  unfold xvIoStop
  split
  · rename_i h
    rw [Bool.not_eq_true'] at h
    rw [← h]
  · rfl

theorem xvIoStop_setsize (ctl : EpollCtl) (loop : Loop) (io : Io) :
    (xvIoStop ctl loop io).2.1.setsize = loop.setsize := by
  unfold xvIoStop xvLoopDelEvent
  dsimp only
  split
  · rfl
  · split
    · rfl
    · split <;> rfl

theorem xvIoStop_start (ctl : EpollCtl) (loop : Loop) (io : Io) :
    (xvIoStop ctl loop io).2.1.start = loop.start := by
  unfold xvIoStop xvLoopDelEvent
  dsimp only
  split
  · rfl
  · split
    · rfl
    · split <;> rfl

theorem xvIoStop_slot_ne {fd : Nat} (hne : fd ≠ io.fd) :
    (xvIoStop ctl loop io).2.1.slot fd = loop.slot fd := by
  unfold xvIoStop xvLoopDelEvent
  dsimp only
  split
  · rfl
  · split
    · rfl
    · split
      · rfl
      · exact update_of_ne hne _ _

/-- Stopping an io empties its own direction of the slot, or does nothing. -/
theorem xvIoStop_slot_self (ctl : EpollCtl) (loop : Loop) (io : Io) :
    (xvIoStop ctl loop io).2.1.slot io.fd = loop.slot io.fd ∨
      (xvIoStop ctl loop io).2.1.slot io.fd = (loop.slot io.fd).del io := by
  unfold xvIoStop xvLoopDelEvent
  dsimp only
  split
  · exact Or.inl rfl
  · split
    · exact Or.inl rfl
    · split
      · exact Or.inl rfl
      · exact Or.inr (update_self ..)

/-- Stopping the read io of a slot leaves its write direction alone. -/
theorem EventIo.del_read_write (slot : EventIo) {io : Io} (h : io.event = xvRead) :
    (slot.del io).writeIo = slot.writeIo ∧
      (slot.del io).event &&& xvWrite = slot.event &&& xvWrite := by
  have hread : io.event &&& xvRead ≠ 0#32 := by rw [h]; decide
  unfold EventIo.del
  rw [if_pos hread]
  refine ⟨rfl, ?_⟩
  show slot.event &&& ~~~io.event &&& xvWrite = slot.event &&& xvWrite
  rw [BitVec.and_assoc, h]
  congr 1

/-- Starting the write io of a slot fills its write direction. -/
theorem EventIo.add_write (slot : EventIo) {io : Io} (h : io.event = xvWrite) :
    (slot.add io).writeIo = some io.id ∧ (slot.add io).event &&& xvWrite ≠ 0#32 := by
  have hwrite : io.event &&& xvWrite ≠ 0#32 := by rw [h]; decide
  unfold EventIo.add
  refine ⟨by simp [hwrite], ?_⟩
  show (slot.event ||| io.event) &&& xvWrite ≠ 0#32
  intro hzero
  have hbit := congrArg (fun m : EventMask => m.getLsbD 1) hzero
  simp [h, xvWrite] at hbit

end Libxv
