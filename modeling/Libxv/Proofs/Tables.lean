/-
What registering an fd does to the tables of the loop.

A start of an fd below the size touches one slot.  A start past it grows the loop once, by a
doubling, and the growth hands the block of `loop->events` to the `realloc` that is meant for
`loop->fired_events`: from then on `loop->events` is a retired block.  No later call brings it
back, so the loops whose tables are intact are those that have never grown.
-/
import Libxv.Poll
import Libxv.Proofs.Loop
import Libxv.Lib.Run

namespace Libxv

open Function Transition

variable {ctl : EpollCtl} {loop loop' : Loop} {n : Nat}

/-- A new loop, outside `xv_loop_poll`. -/
structure Polling.Start (n : Nat) (s : Polling) : Prop where
  loop : s.use.loop = xvLoopInit n
  pc : s.pc = .idle
  callback : s.callback = none

/-- What a registration of `fd` must leave of the tables that were there in `s`. -/
structure Polling.TablesIntact (s s' : Polling) (fd : Nat) : Prop where
  below : fd < s'.use.loop.setsize
  different : s'.use.loop.events ≠ s'.use.loop.firedEvents
  events : ∃ k, s'.use.loop.blocks.entries s'.use.loop.events = some k ∧ s'.use.loop.setsize ≤ k
  firedEvents : ∃ k,
    s'.use.loop.blocks.entries s'.use.loop.firedEvents = some k ∧ s'.use.loop.setsize ≤ k
  poller : s'.use.loop.poller.setsize = s'.use.loop.setsize
  slots : ∀ i, i ≠ fd → i < s'.use.loop.setsize →
    s'.use.loop.slot i = if i < s.use.loop.setsize then s.use.loop.slot i else .empty
  undispatched : ∀ first, s.pc.undispatched = some first → ∀ j, first ≤ j → j < s.count →
    s'.use.loop.firedEvent j = s.use.loop.firedEvent j

/-! ### What a call does to the blocks -/

/-- The blocks, the pointers to them and the sizes are the same. -/
structure Loop.SameTables (loop loop' : Loop) : Prop where
  blocks : loop'.blocks = loop.blocks
  events : loop'.events = loop.events
  firedEvents : loop'.firedEvents = loop.firedEvents
  setsize : loop'.setsize = loop.setsize
  poller : loop'.poller.setsize = loop.poller.setsize

/-- The loop has grown, and `loop->events` is left a retired block. -/
structure Loop.Grown (loop loop' : Loop) : Prop where
  larger : loop.setsize < loop'.setsize
  retired : loop'.blocks.entries loop'.events = none
  poller : loop'.poller.setsize = loop'.setsize

theorem Loop.SameTables.refl (loop : Loop) : loop.SameTables loop := ⟨rfl, rfl, rfl, rfl, rfl⟩

theorem xvPollerModifyEvent_setsize (ctl : EpollCtl) (data : Poller) (fd : Nat)
    (mask : EventMask) (op : EpollOp) :
    (xvPollerModifyEvent ctl data fd mask op).2.setsize = data.setsize := by
  unfold xvPollerModifyEvent
  dsimp only
  split <;> rfl

theorem xvPollerAddEvent_setsize (ctl : EpollCtl) (data : Poller) (fd : Nat)
    (old event : EventMask) :
    (xvPollerAddEvent ctl data fd old event).2.setsize = data.setsize := by
  unfold xvPollerAddEvent
  split <;> exact xvPollerModifyEvent_setsize ..

theorem xvPollerDelEvent_setsize (ctl : EpollCtl) (data : Poller) (fd : Nat)
    (old event : EventMask) :
    (xvPollerDelEvent ctl data fd old event).2.setsize = data.setsize := by
  unfold xvPollerDelEvent
  dsimp only
  split <;> exact xvPollerModifyEvent_setsize ..

/-- The wrong argument of the third `realloc`. -/
theorem xvLoopResize_grown {size : Nat} (h : loop.setsize < size) :
    loop.Grown (xvLoopResize loop size) := by
  have hgrow : ¬ size ≤ loop.setsize := Nat.not_le.mpr h
  refine ⟨?_, ?_, ?_⟩
  · simpa [xvLoopResize, hgrow] using h
  · simp [xvLoopResize, hgrow, Blocks.realloc, Blocks.malloc]
  · simp [xvLoopResize, hgrow, xvPollerResize]

theorem xvLoopAddEvent_sameTables {io : Io} (h : io.fd < loop.setsize) :
    loop.SameTables (xvLoopAddEvent ctl loop io).2 := by
  have hfd : ¬ io.fd ≥ loop.setsize := Nat.not_le.mpr h
  unfold xvLoopAddEvent
  rw [if_neg hfd]
  dsimp only
  split
  · exact .refl loop
  · exact ⟨rfl, rfl, rfl, rfl, xvPollerAddEvent_setsize ..⟩

/-- Past the size the loop grows, unless its size is zero and doubling does nothing. -/
theorem xvLoopAddEvent_grown {io : Io} (h : loop.setsize ≤ io.fd) (hpos : 0 < loop.setsize) :
    loop.Grown (xvLoopAddEvent ctl loop io).2 := by
  have hgrown : loop.Grown (xvLoopResize loop (loop.setsize * 2)) :=
    xvLoopResize_grown (by omega)
  unfold xvLoopAddEvent
  rw [if_pos h]
  dsimp only
  split
  · exact hgrown
  · exact ⟨hgrown.larger, hgrown.retired, (xvPollerAddEvent_setsize ..).trans hgrown.poller⟩

theorem xvLoopResize_zero (h : loop.setsize = 0) :
    xvLoopResize loop (loop.setsize * 2) = loop := by
  simp [xvLoopResize, h]

theorem xvLoopAddEvent_tables (ctl : EpollCtl) (loop : Loop) (io : Io) :
    loop.SameTables (xvLoopAddEvent ctl loop io).2 ∨ loop.Grown (xvLoopAddEvent ctl loop io).2 := by
  rcases Nat.lt_or_ge io.fd loop.setsize with hbelow | hpast
  · exact .inl (xvLoopAddEvent_sameTables hbelow)
  · rcases Nat.eq_zero_or_pos loop.setsize with hzero | hpos
    · left
      unfold xvLoopAddEvent
      rw [if_pos hpast, xvLoopResize_zero hzero]
      dsimp only
      split
      · exact .refl loop
      · exact ⟨rfl, rfl, rfl, rfl, xvPollerAddEvent_setsize ..⟩
    · exact .inr (xvLoopAddEvent_grown hpast hpos)

theorem xvLoopDelEvent_sameTables (ctl : EpollCtl) (loop : Loop) (io : Io) :
    loop.SameTables (xvLoopDelEvent ctl loop io).2 := by
  unfold xvLoopDelEvent
  split
  · exact .refl loop
  · split
    · exact .refl loop
    · exact ⟨rfl, rfl, rfl, rfl, xvPollerDelEvent_setsize ..⟩

theorem xvIoStart_tables (ctl : EpollCtl) (loop : Loop) (io : Io) :
    loop.SameTables (xvIoStart ctl loop io).2.1 ∨ loop.Grown (xvIoStart ctl loop io).2.1 := by
  unfold xvIoStart
  split
  · exact .inl (.refl loop)
  · exact xvLoopAddEvent_tables ctl loop _

theorem xvIoStart_sameTables {io : Io} (h : io.fd < loop.setsize) :
    loop.SameTables (xvIoStart ctl loop io).2.1 := by
  unfold xvIoStart
  split
  · exact .refl loop
  · have hstarted : ({ io with start := true } : Io).fd < loop.setsize := h
    exact xvLoopAddEvent_sameTables hstarted

theorem xvIoStop_sameTables (ctl : EpollCtl) (loop : Loop) (io : Io) :
    loop.SameTables (xvIoStop ctl loop io).2.1 := by
  unfold xvIoStop
  split
  · exact .refl loop
  · exact xvLoopDelEvent_sameTables ctl loop _

/-! ### Every run -/

/-- Whether the tables of a loop first made for `n` fds are whole shows from its size. -/
structure Loop.Tables (n : Nat) (loop : Loop) : Prop where
  size : n ≤ loop.setsize
  poller : loop.poller.setsize = loop.setsize
  different : loop.setsize = n → loop.events ≠ loop.firedEvents
  events : loop.setsize = n → loop.blocks.entries loop.events = some n
  firedEvents : loop.setsize = n → loop.blocks.entries loop.firedEvents = some n
  retired : loop.setsize ≠ n → loop.blocks.entries loop.events = none

theorem xvLoopInit_tables (n : Nat) : (xvLoopInit n).Tables n where
  size := Nat.le_refl n
  poller := rfl
  different := fun _ => Nat.zero_ne_one
  events := fun _ => rfl
  firedEvents := fun _ => rfl
  retired := fun hne => absurd rfl hne

theorem Loop.Tables.same (h : loop.Tables n) (hsame : loop.SameTables loop') : loop'.Tables n := by
  obtain ⟨hsize, hpoller, hdifferent, hevents, hfired, hretired⟩ := h
  constructor <;>
    simpa only [hsame.blocks, hsame.events, hsame.firedEvents, hsame.setsize, hsame.poller]

theorem Loop.Tables.grown (h : loop.Tables n) (hgrown : loop.Grown loop') : loop'.Tables n := by
  have hne : loop'.setsize ≠ n := by
    have hsize := h.size
    have hlarger := hgrown.larger
    omega
  exact {
    size := Nat.le_trans h.size (Nat.le_of_lt hgrown.larger)
    poller := hgrown.poller
    different := fun heq => absurd heq hne
    events := fun heq => absurd heq hne
    firedEvents := fun heq => absurd heq hne
    retired := fun _ => hgrown.retired }

theorem Loop.Tables.call {use : LoopUse} (h : use.loop.Tables n) (call : IoCall) :
    (use.call ctl call).2.loop.Tables n := by
  cases call with
  | start i =>
      rcases xvIoStart_tables ctl use.loop (use.ios i) with hsame | hgrown
      · exact h.same hsame
      · exact h.grown hgrown
  | stop i => exact h.same (xvIoStop_sameTables ctl use.loop (use.ios i))

theorem Polling.poll_use {s s' : Polling} (h : s.poll = some s') : s'.use = s.use := by
  unfold poll at h
  split at h
  · simp at h
  · split at h
    · split at h
      · simp at h
      · rw [← Option.some.inj h]
    · rw [← Option.some.inj h]
  · rw [← Option.some.inj h]
  · rw [← Option.some.inj h]

theorem Polling.tables {s : Polling} (h : Reachable (Polling.step ctl) (Polling.Start n) s) :
    s.use.loop.Tables n := by
  refine h.invariant (fun s hs => hs.loop ▸ xvLoopInit_tables n) fun s label s' hs _ hstep => ?_
  cases label with
  | wait ready =>
      simp only [Polling.step, Option.ite_none_right_eq_some, Option.some.injEq] at hstep
      obtain ⟨-, rfl⟩ := hstep
      exact ⟨hs.size, hs.poller, hs.different, hs.events, hs.firedEvents, hs.retired⟩
  | poll => exact (Polling.poll_use hstep) ▸ hs
  | call call =>
      simp only [Polling.step, Option.ite_none_right_eq_some, Option.some.injEq] at hstep
      obtain ⟨-, rfl⟩ := hstep
      exact hs.call call

/-- No start of an fd past the first size, no growth. -/
theorem Polling.setsize_kept {s : Polling}
    (h : Reach (Polling.step ctl)
      (fun s label => ∀ i, label = .call (.start i) → (s.use.ios i).fd < n)
      (Polling.Start n) s) : s.use.loop.setsize = n := by
  refine h.invariant (I := fun s => s.use.loop.setsize = n) (fun s hs => by rw [hs.loop]; rfl)
    fun s label s' hs hok hstep => ?_
  cases label with
  | wait ready =>
      simp only [Polling.step, Option.ite_none_right_eq_some, Option.some.injEq] at hstep
      exact hstep.2 ▸ hs
  | poll => exact (Polling.poll_use hstep) ▸ hs
  | call call =>
      simp only [Polling.step, Option.ite_none_right_eq_some, Option.some.injEq] at hstep
      obtain ⟨-, rfl⟩ := hstep
      cases call with
      | start i =>
          have hfd : (s.use.ios i).fd < s.use.loop.setsize := by
            rw [hs]
            exact hok i rfl
          exact (xvIoStart_sameTables hfd).setsize.trans hs
      | stop i => exact (xvIoStop_sameTables ctl s.use.loop (s.use.ios i)).setsize.trans hs

/-- A loop that has not grown is left whole by the start of an fd below its size. -/
theorem Polling.tablesIntact {s s' : Polling} (h : s.use.loop.Tables n) {i : Nat}
    (hcall : s' = { s with use := (s.use.start ctl i).2 }) (hsize : s.use.loop.setsize = n)
    (hfd : (s.use.ios i).fd < n) : s.TablesIntact s' (s.use.ios i).fd := by
  have hbelow : (s.use.ios i).fd < s.use.loop.setsize := by rwa [hsize]
  have hsame : s.use.loop.SameTables s'.use.loop := by
    rw [hcall]
    exact xvIoStart_sameTables hbelow
  have htables := h.same hsame
  have hsize' : s'.use.loop.setsize = n := hsame.setsize.trans hsize
  refine ⟨?_, htables.different hsize', ⟨n, htables.events hsize', Nat.le_of_eq hsize'⟩,
    ⟨n, htables.firedEvents hsize', Nat.le_of_eq hsize'⟩, htables.poller, ?_, ?_⟩
  · rwa [hsize']
  · intro j hne hj
    rw [hsame.setsize] at hj
    rw [if_pos hj, hcall]
    exact xvIoStart_slot_ne hj hne
  · intro first _ j _ _
    unfold Loop.firedEvent
    rw [hsame.blocks, hsame.firedEvents]

/--
**The tables of a loop stay whole as long as it does not grow**: in every state reached, in a
callback or between two polls, `xv_io_start` leaves the tables as they must be exactly when
the loop still has the size it was made with and the fd is below it.
-/
theorem tables_intact_iff {s s' : Polling}
    (h : Reachable (Polling.step ctl) (Polling.Start n) s) {i : Nat}
    (hstep : s.step ctl (.call (.start i)) = some s') :
    s.TablesIntact s' (s.use.ios i).fd ↔ s.use.loop.setsize = n ∧ (s.use.ios i).fd < n := by
  have htables := Polling.tables h
  simp only [Polling.step, Option.ite_none_right_eq_some, Option.some.injEq] at hstep
  obtain ⟨-, hcall⟩ := hstep
  constructor
  · intro hintact
    have htables' : s'.use.loop.Tables n := hcall ▸ htables.call (.start i)
    have hsize' : s'.use.loop.setsize = n := by
      by_contra hne
      obtain ⟨k, hlive, -⟩ := hintact.events
      exact absurd (hlive.symm.trans (htables'.retired hne)) (by simp)
    have hle : s.use.loop.setsize ≤ s'.use.loop.setsize := by
      rw [← hcall]
      exact xvIoStart_setsize_le ctl s.use.loop (s.use.ios i)
    refine ⟨Nat.le_antisymm (hsize' ▸ hle) htables.size, ?_⟩
    rw [← hsize']
    exact hintact.below
  · rintro ⟨hsize, hfd⟩
    exact Polling.tablesIntact htables hcall.symm hsize hfd

/-- A new loop of the service's size, two connections, and an io on the first fd past it. -/
def threeIos : Polling where
  use := {
    loop := xvLoopInit xvDefaultLoopSize
    ios := fun i => xvIoInit i (if i = 2 then 1024 else 5 + i) xvRead }
  pc := .idle
  count := 0
  callback := none

/-- Both connections are readable, and the first is called back. -/
def firstCallback : List PollLabel :=
  [.call (.start 0), .call (.start 1), .wait [(5, epollIn), (6, epollIn)], .poll]

theorem tables_intact_iff_below :
    ∃ s s' : Polling, s.callback = some 0 ∧
      s.step epollKernel (.call (.start 3)) = some s' ∧ s.TablesIntact s' (s.use.ios 3).fd := by
  have hmoves : ∃ s s', Transition.play (Polling.step epollKernel) threeIos firstCallback = some s ∧
      s.step epollKernel (.call (.start 3)) = some s' ∧ s.callback = some 0 ∧
      s.use.loop.setsize = xvDefaultLoopSize ∧ (s.use.ios 3).fd < xvDefaultLoopSize :=
    ⟨_, _, rfl, rfl, rfl, rfl, (by decide : 8 < 1024)⟩
  obtain ⟨s, s', hplay, hstep, hcallback, hsize, hfd⟩ := hmoves
  exact ⟨s, s', hcallback, hstep, (tables_intact_iff
    (Reachable.play firstCallback (.start ⟨rfl, rfl, rfl⟩) hplay) hstep).mpr ⟨hsize, hfd⟩⟩

/-- The callback starts the io past the size: `loop->events` is retired, and the second
connection's fired event is gone. -/
theorem growth_breaks_tables :
    ∃ s s' : Polling,
      Reachable (Polling.step epollKernel) (Polling.Start xvDefaultLoopSize) s ∧
      s.callback = some 0 ∧ (s.use.ios 2).event = xvRead ∧
      s.step epollKernel (.call (.start 2)) = some s' ∧
      s'.use.loop.blocks.entries s'.use.loop.events = none ∧
      s.use.loop.firedEvent 1 = some ⟨6, xvRead⟩ ∧ s'.use.loop.firedEvent 1 = none ∧
      ¬ s.TablesIntact s' (s.use.ios 2).fd := by
  refine ⟨_, _, Reachable.play firstCallback (s := threeIos) (.start ⟨rfl, rfl, rfl⟩) rfl,
    rfl, rfl, rfl, rfl, rfl, rfl, fun hintact => ?_⟩
  obtain ⟨k, hlive, -⟩ := hintact.events
  cases hlive

end Libxv
