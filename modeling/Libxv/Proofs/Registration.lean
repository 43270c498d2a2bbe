/-
The registration invariant of the event loop.

That an io is watched is written in four places: the io's own flag, the pointer in the slot
of its fd, the mask of the slot, and the kernel's interest list.  Each start and stop
changes all four, and picks `EPOLL_CTL_ADD`, `MOD` or `DEL` from the mask the slot held, so
as long as they agree the kernel never refuses.
-/
import Libxv.Poll
import Libxv.Proofs.Loop
import Libxv.Lib.Run
import Mathlib.Data.Set.Basic

namespace Libxv

open Function Transition

/-- The mask the two pointers of a slot stand for. -/
def EventIo.mask (slot : EventIo) : EventMask :=
  (if slot.readIo.isSome then xvRead else xvNone) |||
    (if slot.writeIo.isSome then xvWrite else xvNone)

/-- What `epoll_ctl` is asked to watch for a mask. -/
def epollEvents (mask : EventMask) : EventMask :=
  let events : EventMask := 0#32
  let events := if mask &&& xvRead ≠ 0#32 then events ||| epollIn else events
  if mask &&& xvWrite ≠ 0#32 then events ||| epollOut else events

/-- The kernel watches an fd for exactly this mask, and not at all for an empty one. -/
def Interest.Watches (interest : Interest) (fd : Nat) (mask : EventMask) : Prop :=
  interest fd = if mask = xvNone then none else some (epollEvents mask)

/-- The ios in `ids` are objects of their own, with an event the loop takes and an fd below
`n`, and no two of them share fd and event. -/
structure LoopUse.Family (n : Nat) (ids : Set Nat) (ios : Nat → Io) : Prop where
  id : ∀ i ∈ ids, (ios i).id = i
  event : ∀ i ∈ ids, ∃ d : Direction, (ios i).event = d.event
  below : ∀ i ∈ ids, (ios i).fd < n
  distinct : ∀ i ∈ ids, ∀ j ∈ ids, (ios i).fd = (ios j).fd → (ios i).event = (ios j).event → i = j

/-- A new loop, and nothing started. -/
structure LoopUse.Start (n : Nat) (ids : Set Nat) (s : LoopUse) : Prop where
  loop : s.loop = xvLoopInit n
  family : LoopUse.Family n ids s.ios
  stopped : ∀ i ∈ ids, (s.ios i).start = false

/-- At one fd the flag, the pointer, the mask and the interest list say the same. -/
structure LoopUse.InStep (ids : Set Nat) (s : LoopUse) (fd : Nat) : Prop where
  bit : ∀ d : Direction, (s.loop.slot fd).event &&& d.event ≠ 0#32 ↔
    (s.loop.slot fd).io d ≠ none
  io : ∀ (d : Direction) i, (s.loop.slot fd).io d = some i ↔
    i ∈ ids ∧ (s.ios i).fd = fd ∧ (s.ios i).event = d.event ∧ (s.ios i).start = true
  kernel : s.loop.poller.interest.Watches fd (s.loop.slot fd).event

/-- What every run keeps. -/
structure LoopUse.Registered (n : Nat) (ids : Set Nat) (s : LoopUse) : Prop where
  setsize : s.loop.setsize = n
  family : LoopUse.Family n ids s.ios
  mask : ∀ fd, (s.loop.slot fd).event = (s.loop.slot fd).mask
  io : ∀ fd (d : Direction) i, (s.loop.slot fd).io d = some i ↔
    i ∈ ids ∧ (s.ios i).fd = fd ∧ (s.ios i).event = d.event ∧ (s.ios i).start = true
  kernel : ∀ fd, s.loop.poller.interest.Watches fd (s.loop.slot fd).event

/-! ### A slot -/

theorem Direction.event_inj {d e : Direction} (h : d.event = e.event) : d = e := by
  cases d <;> cases e <;> first | rfl | exact absurd h (by decide)

theorem EventIo.mask_bit (slot : EventIo) (d : Direction) :
    slot.mask &&& d.event ≠ 0#32 ↔ slot.io d ≠ none := by
  obtain ⟨event, readIo, writeIo⟩ := slot
  cases readIo <;> cases writeIo <;> cases d <;> simp [mask, io, Direction.event] <;> decide

theorem EventIo.add_io (slot : EventIo) {io : Io} {d : Direction} (h : io.event = d.event)
    (e : Direction) : (slot.add io).io e = if e = d then some io.id else slot.io e := by
  cases d <;> cases e <;> simp [add, EventIo.io, h, Direction.event, xvRead, xvWrite]

theorem EventIo.del_io (slot : EventIo) {io : Io} {d : Direction} (h : io.event = d.event)
    (e : Direction) : (slot.del io).io e = if e = d then none else slot.io e := by
  cases d <;> cases e <;> simp [del, EventIo.io, h, Direction.event, xvRead, xvWrite]

theorem EventIo.add_event (slot : EventIo) (io : Io) :
    (slot.add io).event = slot.event ||| io.event := rfl

theorem EventIo.del_event (slot : EventIo) (io : Io) :
    (slot.del io).event = slot.event &&& ~~~io.event := by
  unfold del
  split
  · rfl
  · split <;> rfl

/-- Adding an io keeps mask and pointers together. -/
theorem EventIo.add_mask {slot : EventIo} {io : Io} {d : Direction} (h : io.event = d.event)
    (hmask : slot.event = slot.mask) : (slot.add io).event = (slot.add io).mask := by
  rw [add_event, hmask, h]
  obtain ⟨event, readIo, writeIo⟩ := slot
  cases d <;> cases readIo <;> cases writeIo <;>
    simp [mask, add, h, Direction.event, xvRead, xvWrite, xvNone]

theorem EventIo.del_mask {slot : EventIo} {io : Io} {d : Direction} (h : io.event = d.event)
    (hmask : slot.event = slot.mask) : (slot.del io).event = (slot.del io).mask := by
  rw [del_event, hmask, h]
  obtain ⟨event, readIo, writeIo⟩ := slot
  cases d <;> cases readIo <;> cases writeIo <;>
    simp [mask, del, h, Direction.event, xvRead, xvWrite, xvNone]

/-! ### The kernel's list -/

/-- `epoll_ctl` gives the fd this mask and leaves the others. -/
structure Poller.Sets (data data' : Poller) (fd : Nat) (mask : EventMask) : Prop where
  watches : data'.interest.Watches fd mask
  other : ∀ i, i ≠ fd → data'.interest i = data.interest i

theorem xvPollerAddEvent_kernel {data : Poller} {fd : Nat} {old event : EventMask}
    (hnew : old ||| event ≠ xvNone) (h : data.interest.Watches fd old) :
    ∃ data', xvPollerAddEvent epollKernel data fd old event = (xvOk, data') ∧
      data.Sets data' fd (old ||| event) := by
  have hafter : ∀ mask, mask = old ||| event → Poller.Sets data
      { data with interest := update data.interest fd (some (epollEvents mask)) } fd
        (old ||| event) := by
    intro mask hmask
    subst hmask
    refine ⟨?_, fun i hi => update_of_ne hi ..⟩
    unfold Interest.Watches
    rw [if_neg hnew]
    exact update_self ..
  unfold Interest.Watches at h
  by_cases hold : old = xvNone
  · rw [if_pos hold] at h
    refine ⟨_, ?_, hafter event (by simp [hold, xvNone])⟩
    simp [xvPollerAddEvent, xvPollerModifyEvent, epollCtl, epollKernel, hold, h, epollEvents]
  · rw [if_neg hold] at h
    refine ⟨_, ?_, hafter (event ||| old) (BitVec.or_comm ..)⟩
    simp [xvPollerAddEvent, xvPollerModifyEvent, epollCtl, epollKernel, hold, h, epollEvents]

theorem xvPollerDelEvent_kernel {data : Poller} {fd : Nat} {old : EventMask} (event : EventMask)
    (hold : old ≠ xvNone) (h : data.interest.Watches fd old) :
    ∃ data', xvPollerDelEvent epollKernel data fd old event = (xvOk, data') ∧
      data.Sets data' fd (old &&& ~~~event) := by
  unfold Interest.Watches at h
  rw [if_neg hold] at h
  by_cases hmask : old &&& ~~~event = xvNone
  · refine ⟨{ data with interest := update data.interest fd none }, ?_, ?_,
      fun i hi => update_of_ne hi ..⟩
    · simp [xvPollerDelEvent, xvPollerModifyEvent, epollCtl, epollKernel, hmask, h]
    · unfold Interest.Watches
      rw [if_pos hmask]
      exact update_self ..
  · refine ⟨{ data with
        interest := update data.interest fd (some (epollEvents (old &&& ~~~event))) }, ?_, ?_,
      fun i hi => update_of_ne hi ..⟩
    · simp [xvPollerDelEvent, xvPollerModifyEvent, epollCtl, epollKernel, hmask, h, epollEvents]
    · unfold Interest.Watches
      rw [if_neg hmask]
      exact update_self ..

/-! ### One call -/

variable {n : Nat} {ids : Set Nat} {s : LoopUse}

theorem setStart_fd (ios : Nat → Io) (i j : Nat) (b : Bool) :
    (update ios i { ios i with start := b } j).fd = (ios j).fd := by
  by_cases hj : j = i <;> simp [hj]

theorem setStart_event (ios : Nat → Io) (i j : Nat) (b : Bool) :
    (update ios i { ios i with start := b } j).event = (ios j).event := by
  by_cases hj : j = i <;> simp [hj]

/-- What the ios are does not depend on their flags. -/
theorem LoopUse.Family.set {ios : Nat → Io} (h : LoopUse.Family n ids ios) (i : Nat) (b : Bool) :
    LoopUse.Family n ids (update ios i { ios i with start := b }) where
  id := by
    intro j hj
    by_cases hji : j = i
    · subst hji
      simpa using h.id j hj
    · simpa [hji] using h.id j hj
  event := by
    intro j hj
    rw [setStart_event]
    exact h.event j hj
  below := by
    intro j hj
    rw [setStart_fd]
    exact h.below j hj
  distinct := by
    intro j hj k hk hsame hboth
    rw [setStart_fd, setStart_fd] at hsame
    rw [setStart_event, setStart_event] at hboth
    exact h.distinct j hj k hk hsame hboth

/-- A slot whose pointer follows the flag of one io still holds what is started. -/
theorem LoopUse.Registered.set_io (h : s.Registered n ids) {i : Nat} (hi : i ∈ ids) {d : Direction}
    (hd : (s.ios i).event = d.event) {slot : EventIo} {b : Bool}
    (hio : ∀ e, slot.io e =
      if e = d then (if b then some i else none) else (s.loop.slot (s.ios i).fd).io e)
    (fd : Nat) (e : Direction) (j : Nat) :
    (update s.loop.slot (s.ios i).fd slot fd).io e = some j ↔
      j ∈ ids ∧ (s.ios j).fd = fd ∧ (s.ios j).event = e.event ∧
        (update s.ios i { s.ios i with start := b } j).start = true := by
  have hold := h.io fd e j
  by_cases hne : fd = (s.ios i).fd
  · subst hne
    rw [update_self, hio]
    by_cases he : e = d
    · subst he
      rw [if_pos rfl]
      by_cases hji : j = i
      · subst hji
        cases b <;> simp [hi, hd]
      · -- Another io of this fd and event would be the same one.
        have hother : ¬ (j ∈ ids ∧ (s.ios j).fd = (s.ios i).fd ∧ (s.ios j).event = e.event) :=
          fun ⟨hj, hsame, hboth⟩ =>
            hji (h.family.distinct j hj i hi hsame (hboth.trans hd.symm))
        constructor
        · intro hsome
          cases b
          · simp at hsome
          · exact absurd (Option.some.inj hsome) (Ne.symm hji)
        · rintro ⟨hj, hsame, hboth, -⟩
          exact absurd ⟨hj, hsame, hboth⟩ hother
    · rw [if_neg he, hold]
      by_cases hji : j = i
      · subst hji
        have hne : (s.ios j).event ≠ e.event := fun hsame =>
          he (Direction.event_inj (hsame.symm.trans hd))
        simp [hne]
      · rw [update_of_ne hji]
  · rw [update_of_ne hne, hold]
    by_cases hji : j = i
    · subst hji
      simp [Ne.symm hne]
    · rw [update_of_ne hji]

/-- The flag of one io is set to `b`, and its slot and the kernel follow. -/
theorem LoopUse.Registered.set (h : s.Registered n ids) {i : Nat} (hi : i ∈ ids) {d : Direction}
    (hd : (s.ios i).event = d.event) {slot : EventIo} {data : Poller} {b : Bool}
    (hio : ∀ e, slot.io e =
      if e = d then (if b then some i else none) else (s.loop.slot (s.ios i).fd).io e)
    (hmask : slot.event = slot.mask)
    (hkernel : s.loop.poller.Sets data (s.ios i).fd slot.event) :
    LoopUse.Registered n ids
      { loop := { s.loop with
          slot := update s.loop.slot (s.ios i).fd slot
          poller := data }
        ios := update s.ios i { s.ios i with start := b } } := by
  refine ⟨h.setsize, h.family.set i b, ?_, ?_, ?_⟩
  · intro fd
    by_cases hne : fd = (s.ios i).fd
    · subst hne
      simpa using hmask
    · simpa [hne] using h.mask fd
  · intro fd e j
    dsimp only
    rw [setStart_fd, setStart_event]
    exact h.set_io hi hd hio fd e j
  · intro fd
    by_cases hne : fd = (s.ios i).fd
    · subst hne
      simpa using hkernel.watches
    · show data.interest.Watches fd (update s.loop.slot (s.ios i).fd slot fd).event
      rw [update_of_ne hne]
      unfold Interest.Watches
      rw [hkernel.other fd hne]
      exact h.kernel fd

theorem LoopUse.Registered.start (h : s.Registered n ids) {i : Nat} (hi : i ∈ ids)
    (hstart : (s.ios i).start = false) :
    (s.start epollKernel i).1 = xvOk ∧ (s.start epollKernel i).2.Registered n ids := by
  obtain ⟨d, hd⟩ := h.family.event i hi
  have hfd : ¬ (s.ios i).fd ≥ s.loop.setsize := by
    rw [h.setsize]
    exact Nat.not_le.mpr (h.family.below i hi)
  have hproper : ¬ ((s.ios i).event ≠ xvRead ∧ (s.ios i).event ≠ xvWrite) := by
    rw [hd]
    cases d <;> simp [Direction.event]
  have hnew : (s.loop.slot (s.ios i).fd).event ||| (s.ios i).event ≠ xvNone := by
    rw [hd, h.mask]
    obtain ⟨event, readIo, writeIo⟩ := s.loop.slot (s.ios i).fd
    cases d <;> cases readIo <;> cases writeIo <;> simp [EventIo.mask, Direction.event] <;> decide
  obtain ⟨data, hadd, hsets⟩ := xvPollerAddEvent_kernel hnew (h.kernel (s.ios i).fd)
  have hcall : s.start epollKernel i = (xvOk,
      { loop := { s.loop with
          slot := update s.loop.slot (s.ios i).fd
            ((s.loop.slot (s.ios i).fd).add { s.ios i with start := true })
          poller := data }
        ios := update s.ios i { s.ios i with start := true } }) := by
    simp [LoopUse.start, xvIoStart, xvLoopAddEvent, hstart, hfd, hproper, hadd, xvOk, xvErr]
  have hadded : ({ s.ios i with start := true } : Io).event = d.event := hd
  rw [hcall]
  refine ⟨rfl, h.set hi hd ?_ (EventIo.add_mask hadded (h.mask _)) ?_⟩
  · intro e
    rw [EventIo.add_io _ hadded, h.family.id i hi, if_pos rfl]
  · rw [EventIo.add_event]
    exact hsets

theorem LoopUse.Registered.stop (h : s.Registered n ids) {i : Nat} (hi : i ∈ ids)
    (hstart : (s.ios i).start = true) :
    (s.stop epollKernel i).1 = xvOk ∧ (s.stop epollKernel i).2.Registered n ids := by
  obtain ⟨d, hd⟩ := h.family.event i hi
  have hfd : ¬ (s.ios i).fd ≥ s.loop.setsize := by
    rw [h.setsize]
    exact Nat.not_le.mpr (h.family.below i hi)
  have hproper : ¬ ((s.ios i).event ≠ xvRead ∧ (s.ios i).event ≠ xvWrite) := by
    rw [hd]
    cases d <;> simp [Direction.event]
  have hslot : (s.loop.slot (s.ios i).fd).io d = some i :=
    (h.io _ d i).mpr ⟨hi, rfl, hd, hstart⟩
  have hold : (s.loop.slot (s.ios i).fd).event ≠ xvNone := by
    intro hnone
    have hbit := (EventIo.mask_bit (s.loop.slot (s.ios i).fd) d).mpr (by simp [hslot])
    rw [← h.mask, hnone] at hbit
    exact hbit (BitVec.zero_and ..)
  obtain ⟨data, hdel, hsets⟩ := xvPollerDelEvent_kernel (s.ios i).event hold
    (h.kernel (s.ios i).fd)
  have hcall : s.stop epollKernel i = (xvOk,
      { loop := { s.loop with
          slot := update s.loop.slot (s.ios i).fd
            ((s.loop.slot (s.ios i).fd).del { s.ios i with start := false })
          poller := data }
        ios := update s.ios i { s.ios i with start := false } }) := by
    simp [LoopUse.stop, xvIoStop, xvLoopDelEvent, hstart, hfd, hproper, hdel]
  have hremoved : ({ s.ios i with start := false } : Io).event = d.event := hd
  rw [hcall]
  refine ⟨rfl, h.set hi hd ?_ (EventIo.del_mask hremoved (h.mask _)) ?_⟩
  · intro e
    rw [EventIo.del_io _ hremoved]
    rfl
  · rw [EventIo.del_event]
    exact hsets

/-! ### Every run -/

/-- A call on an io that is already where the call would bring it changes nothing. -/
theorem LoopUse.start_started {i : Nat} (hstart : (s.ios i).start = true) (ctl : EpollCtl) :
    (s.start ctl i).2 = s := by
  simp [LoopUse.start, xvIoStart, hstart]

theorem LoopUse.stop_stopped {i : Nat} (hstart : (s.ios i).start = false) (ctl : EpollCtl) :
    (s.stop ctl i).2 = s := by
  simp [LoopUse.stop, xvIoStop, hstart]

theorem LoopUse.Registered.call (h : s.Registered n ids) {call : IoCall} (hi : call.io ∈ ids) :
    (s.call epollKernel call).2.Registered n ids := by
  cases call with
  | start i =>
      cases hstart : (s.ios i).start with
      | false => exact (h.start hi hstart).2
      | true =>
          show (s.start epollKernel i).2.Registered n ids
          rw [LoopUse.start_started hstart]
          exact h
  | stop i =>
      cases hstart : (s.ios i).start with
      | false =>
          show (s.stop epollKernel i).2.Registered n ids
          rw [LoopUse.stop_stopped hstart]
          exact h
      | true => exact (h.stop hi hstart).2

theorem LoopUse.Start.registered (h : s.Start n ids) : s.Registered n ids where
  setsize := by rw [h.loop]; rfl
  family := h.family
  mask := fun fd => by rw [h.loop]; simp [xvLoopInit, EventIo.mask, EventIo.empty]
  io := by
    intro fd d i
    rw [h.loop]
    constructor
    · intro hsome
      cases d <;> cases hsome
    · rintro ⟨hi, -, -, hstart⟩
      exact absurd (hstart.symm.trans (h.stopped i hi)) (by simp)
  kernel := fun fd => by rw [h.loop]; rfl

theorem LoopUse.registered
    (h : Reach (LoopUse.step epollKernel) (fun _ call => call.io ∈ ids) (LoopUse.Start n ids) s) :
    s.Registered n ids := by
  refine h.invariant (fun _ => LoopUse.Start.registered) fun s call s' hs hok hstep => ?_
  simp only [LoopUse.step, Option.some.injEq] at hstep
  exact hstep ▸ hs.call hok

theorem LoopUse.Registered.inStep (h : s.Registered n ids) (fd : Nat) : s.InStep ids fd where
  bit := fun d => by
    rw [h.mask]
    exact EventIo.mask_bit _ d
  io := h.io fd
  kernel := h.kernel fd

/--
**The registration invariant**: after any calls of `xv_io_start` and `xv_io_stop` on ios below
the loop's size, no two with the same fd and event, every fd has flag, pointer, mask and
interest list in step; and no start of a stopped io and no stop of a started one fails.
-/
theorem registration_in_step
    (h : Reach (LoopUse.step epollKernel) (fun _ call => call.io ∈ ids) (LoopUse.Start n ids) s) :
    (∀ fd, s.InStep ids fd) ∧
      (∀ i ∈ ids, (s.ios i).start = false → (s.start epollKernel i).1 = xvOk) ∧
      ∀ i ∈ ids, (s.ios i).start = true → (s.stop epollKernel i).1 = xvOk := by
  have hreg := LoopUse.registered h
  exact ⟨hreg.inStep, fun i hi hstart => (hreg.start hi hstart).1,
    fun i hi hstart => (hreg.stop hi hstart).1⟩

/-- Two ios of one connection, on a loop of the size the service gives its loops. -/
def twoIos : LoopUse where
  loop := xvLoopInit 1024
  ios := fun i => xvIoInit i 5 (if i = 0 then xvRead else xvWrite)

theorem twoIos_start : twoIos.Start 1024 {0, 1} where
  loop := rfl
  family := by
    refine ⟨fun _ _ => rfl, ?_, fun _ _ => (by decide : 5 < 1024), ?_⟩
    · rintro i (rfl | rfl)
      · exact ⟨.read, rfl⟩
      · exact ⟨.write, rfl⟩
    · rintro i (rfl | rfl) j (rfl | rfl) - hevent
      · rfl
      · exact absurd hevent (by decide)
      · exact absurd hevent (by decide)
      · rfl
  stopped := fun _ _ => rfl

theorem registration_in_step_two_ios :
    ∃ s : LoopUse, (s.ios 0).start = false ∧ (s.ios 1).start = true ∧
      ((∀ fd, s.InStep {0, 1} fd) ∧
        (∀ i ∈ ({0, 1} : Set Nat), (s.ios i).start = false → (s.start epollKernel i).1 = xvOk) ∧
        ∀ i ∈ ({0, 1} : Set Nat), (s.ios i).start = true → (s.stop epollKernel i).1 = xvOk) :=
  ⟨_, rfl, rfl, registration_in_step (n := 1024)
    (.next (i := .stop 0) (.next (i := .start 1) (.next (i := .start 0) (.start twoIos_start)
      (.inl rfl) rfl) (.inr rfl) rfl) (.inl rfl) rfl)⟩

end Libxv
