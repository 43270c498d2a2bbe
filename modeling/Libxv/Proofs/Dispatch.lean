/-
What a pass of `xv_loop_poll` calls back.

Whatever the callbacks do, a slot only ever holds an io that is live, started and watches that
direction of that fd (`Dispatch.Sound`): a start puts it there, a stop takes it out, and only
what is stopped can be destroyed.  The turns of a pass are the reported events in order, READ
before WRITE (`Dispatch.InPass`), and each turn calls what it finds in the slot then.
-/
import Libxv.Dispatch
import Libxv.Proofs.Registration
import Libxv.Proofs.Tables
import Mathlib.Data.List.Chain

namespace Libxv

open Function Transition

variable {ctl : EpollCtl} {s s' : Dispatch}

/-! ### What the slots hold -/

/-- The io is in the slot of the fd for the direction, and is what it is there for. -/
structure Dispatch.Registered (s : Dispatch) (fd : Nat) (d : Direction) (i : Nat) : Prop where
  slot : (s.loop.slot fd).io d = some i
  live : s.live i = true
  start : (s.io i).start = true
  fd : (s.io i).fd = fd
  event : (s.io i).event = d.event

/-- Whatever is in a slot is registered there. -/
structure Dispatch.Sound (s : Dispatch) : Prop where
  id : ∀ i, s.live i = true → (s.io i).id = i
  slot : ∀ fd d i, (s.loop.slot fd).io d = some i →
    s.Registered fd d i ∧ fd < s.loop.setsize

/-- Below the size a start writes the io into its slot, or nothing. -/
theorem xvIoStart_slots (ctl : EpollCtl) {loop : Loop} {io : Io} (h : io.fd < loop.setsize) :
    (xvIoStart ctl loop io).2.1.slot = loop.slot ∨
      ∃ d : Direction, io.event = d.event ∧
        (xvIoStart ctl loop io).2.1.slot = update loop.slot io.fd ((loop.slot io.fd).add io) := by
  have hfd : ¬ io.fd ≥ loop.setsize := Nat.not_le.mpr h
  unfold xvIoStart xvLoopAddEvent
  dsimp only
  rw [if_neg hfd]
  split
  · exact .inl rfl
  · split
    · exact .inl rfl
    · rename_i hevent
      rcases not_and_or.mp hevent with hread | hwrite
      · exact .inr ⟨.read, not_not.mp hread, rfl⟩
      · exact .inr ⟨.write, not_not.mp hwrite, rfl⟩

/-- A stop takes the io out of its slot, where a start could have put it. -/
theorem xvIoStop_slots {loop : Loop} {io : Io} {d : Direction} (h : io.fd < loop.setsize)
    (hd : io.event = d.event) (hstarted : io.start = true) :
    (xvIoStop ctl loop io).2.1.slot = update loop.slot io.fd ((loop.slot io.fd).del io) := by
  have hfd : ¬ io.fd ≥ loop.setsize := Nat.not_le.mpr h
  have hevent : ¬ (io.event ≠ xvRead ∧ io.event ≠ xvWrite) := by
    rw [hd]
    cases d
    · exact fun hbad => hbad.1 rfl
    · exact fun hbad => hbad.2 rfl
  unfold xvIoStop xvLoopDelEvent
  dsimp only
  rw [if_neg (by simp [hstarted]), if_neg hfd, if_neg hevent]
  rfl

theorem EventIo.del_io_some {slot : EventIo} {io : Io} {d : Direction} {i : Nat}
    (h : (slot.del io).io d = some i) : slot.io d = some i := by
  unfold del at h
  split at h
  · cases d
    · cases h
    · exact h
  · split at h
    · cases d
      · exact h
      · cases h
    · exact h

/-- A stop puts nothing into a slot. -/
theorem xvIoStop_slot_io {loop : Loop} {io : Io} {fd : Nat} {d : Direction} {i : Nat}
    (h : ((xvIoStop ctl loop io).2.1.slot fd).io d = some i) :
    (loop.slot fd).io d = some i := by
  by_cases hfd : fd = io.fd
  · subst hfd
    rcases xvIoStop_slot_self ctl loop io with hsame | hdel
    · rwa [hsame] at h
    · rw [hdel] at h
      exact EventIo.del_io_some h
  · rwa [xvIoStop_slot_ne hfd] at h

theorem Dispatch.Registered.congr {fd : Nat} {d : Direction} {i : Nat}
    (h : s.Registered fd d i) (hslot : (s'.loop.slot fd).io d = some i)
    (hlive : s'.live i = s.live i) (hio : s'.io i = s.io i) : s'.Registered fd d i :=
  ⟨hslot, hlive.trans h.live, hio ▸ h.start, hio ▸ h.fd, hio ▸ h.event⟩

theorem LoopUse.start_io (use : LoopUse) (i j : Nat) :
    (use.start ctl i).2.ios j =
      if j = i then { use.ios j with start := true } else use.ios j := by
  by_cases hj : j = i
  · subst hj
    rw [if_pos rfl]
    exact (update_self ..).trans (xvIoStart_io ..)
  · rw [if_neg hj]
    exact update_of_ne hj ..

theorem LoopUse.stop_io (use : LoopUse) (i j : Nat) :
    (use.stop ctl i).2.ios j =
      if j = i then { use.ios j with start := false } else use.ios j := by
  by_cases hj : j = i
  · subst hj
    rw [if_pos rfl]
    exact (update_self ..).trans (xvIoStop_io ..)
  · rw [if_neg hj]
    exact update_of_ne hj ..

/-! ### What a user's call does -/

/-- A call leaves the pass where it is, and the tables of the loop. -/
structure Dispatch.Called (s s' : Dispatch) : Prop where
  runs : s.polling.UserRuns
  pc : s'.polling.pc = s.polling.pc
  callback : s'.polling.callback = s.polling.callback
  count : s'.polling.count = s.polling.count
  ready : s'.ready = s.ready
  turns : s'.turns = s.turns
  tables : s.loop.SameTables s'.loop

theorem Dispatch.start_some {i : Nat} (h : s.step ctl (.start i) = some s') :
    s.polling.UserRuns ∧ s.live i = true ∧ (s.io i).fd < s.loop.setsize ∧
      s' = { s with polling := { s.polling with use := (s.polling.use.start ctl i).2 } } := by
  simp only [step, Polling.step, Option.ite_none_right_eq_some, Option.map_eq_some_iff,
    Option.some.injEq] at h
  obtain ⟨⟨hlive, hfd⟩, polling, ⟨hruns, rfl⟩, rfl⟩ := h
  exact ⟨hruns, hlive, hfd, rfl⟩

theorem Dispatch.stop_some {i : Nat} (h : s.step ctl (.stop i) = some s') :
    s.polling.UserRuns ∧ s.live i = true ∧
      s' = { s with polling := { s.polling with use := (s.polling.use.stop ctl i).2 } } := by
  simp only [step, Polling.step, Option.ite_none_right_eq_some, Option.map_eq_some_iff,
    Option.some.injEq] at h
  obtain ⟨hlive, polling, ⟨hruns, rfl⟩, rfl⟩ := h
  exact ⟨hruns, hlive, rfl⟩

theorem Dispatch.init_some {i fd : Nat} {event : EventMask}
    (h : s.step ctl (.init i fd event) = some s') :
    s.polling.UserRuns ∧ s.live i = false ∧
      s' = { s with
        polling := { s.polling with
          use := { s.polling.use with
            ios := update s.polling.use.ios i (xvIoInit i fd event) } }
        live := update s.live i true } := by
  simp only [step, Option.ite_none_right_eq_some, Option.some.injEq] at h
  obtain ⟨⟨hruns, hfree⟩, rfl⟩ := h
  exact ⟨hruns, hfree, rfl⟩

/-- What is destroyed is stopped. -/
theorem Dispatch.destroy_some {i : Nat} (h : s.step ctl (.destroy i) = some s') :
    s.polling.UserRuns ∧
      (s' = s ∨ (s.io i).start = false ∧ s' = { s with live := update s.live i false }) := by
  simp only [step, Option.ite_none_right_eq_some] at h
  obtain ⟨⟨hruns, -⟩, h⟩ := h
  refine ⟨hruns, ?_⟩
  split at h
  · rename_i hok
    refine .inr ⟨?_, (Option.some.inj h).symm⟩
    by_contra hstart
    rw [Bool.not_eq_false] at hstart
    simp [xvIoDestroy, hstart, xvOk, xvErr] at hok
  · exact .inl (Option.some.inj h).symm

/-- A call is a step of the user's. -/
theorem Dispatch.step_called {label : DispatchLabel} (h : s.step ctl label = some s')
    (hwait : ∀ ready, label ≠ .wait ready) (hpoll : label ≠ .poll) : s.Called s' := by
  cases label with
  | wait ready => exact absurd rfl (hwait ready)
  | poll => exact absurd rfl hpoll
  | start i =>
      obtain ⟨hruns, -, hfd, rfl⟩ := start_some h
      exact ⟨hruns, rfl, rfl, rfl, rfl, rfl, xvIoStart_sameTables hfd⟩
  | stop i =>
      obtain ⟨hruns, -, rfl⟩ := stop_some h
      exact ⟨hruns, rfl, rfl, rfl, rfl, rfl, xvIoStop_sameTables ctl _ _⟩
  | init i fd event =>
      obtain ⟨hruns, -, rfl⟩ := init_some h
      exact ⟨hruns, rfl, rfl, rfl, rfl, rfl, .refl _⟩
  | destroy i =>
      obtain ⟨hruns, rfl | ⟨-, rfl⟩⟩ := destroy_some h
      · exact ⟨hruns, rfl, rfl, rfl, rfl, rfl, .refl _⟩
      · exact ⟨hruns, rfl, rfl, rfl, rfl, rfl, .refl _⟩

theorem Dispatch.Sound.start (h : s.Sound) {i : Nat} (hstep : s.step ctl (.start i) = some s') :
    s'.Sound := by
  obtain ⟨-, hlive, hfd, rfl⟩ := start_some hstep
  have hsize : (xvIoStart ctl s.loop (s.io i)).2.1.setsize = s.loop.setsize :=
    (xvIoStart_sameTables hfd).setsize
  refine ⟨fun j hj => ?_, fun fd d j hslot => ?_⟩
  · show ((s.polling.use.start ctl i).2.ios j).id = j
    rw [LoopUse.start_io]
    split <;> exact h.id j hj
  · have hcases : (s.loop.slot fd).io d = some j ∨
        j = i ∧ (s.io i).fd = fd ∧ (s.io i).event = d.event := by
      change ((xvIoStart ctl s.loop (s.io i)).2.1.slot fd).io d = some j at hslot
      rcases xvIoStart_slots ctl hfd with hsame | ⟨e, he, hadd⟩
      · exact .inl (hsame ▸ hslot)
      · rw [hadd] at hslot
        by_cases hother : fd = (s.io i).fd
        · subst hother
          rw [update_self, EventIo.add_io _ he] at hslot
          split at hslot
          · rename_i hde
            exact .inr ⟨(Option.some.inj hslot).symm.trans (h.id i hlive), rfl, hde ▸ he⟩
          · exact .inl hslot
        · rw [update_of_ne hother] at hslot
          exact .inl hslot
    have hio : ∀ k, (s.polling.use.start ctl i).2.ios k =
        if k = i then { s.io k with start := true } else s.io k := LoopUse.start_io s.polling.use i
    rcases hcases with hslot₀ | ⟨rfl, hfd', hevent⟩
    · obtain ⟨hreg, hbelow⟩ := h.slot fd d j hslot₀
      refine ⟨⟨hslot, hreg.live, ?_, ?_, ?_⟩, hsize.symm ▸ hbelow⟩
      all_goals
        show _ = _
        rw [Dispatch.io, hio j]
        split
      · rfl
      · exact hreg.start
      · exact hreg.fd
      · exact hreg.fd
      · exact hreg.event
      · exact hreg.event
    · refine ⟨⟨hslot, hlive, ?_, ?_, ?_⟩, hsize.symm ▸ hfd' ▸ hfd⟩
      all_goals rw [Dispatch.io, hio j, if_pos rfl]
      · exact hfd'
      · exact hevent

theorem Dispatch.Sound.stop (h : s.Sound) {i : Nat} (hstep : s.step ctl (.stop i) = some s') :
    s'.Sound := by
  obtain ⟨-, hlive, rfl⟩ := stop_some hstep
  refine ⟨fun j hj => ?_, fun fd d j hslot => ?_⟩
  · show ((s.polling.use.stop ctl i).2.ios j).id = j
    rw [LoopUse.stop_io]
    split <;> exact h.id j hj
  · have hslot' : ((xvIoStop ctl s.loop (s.io i)).2.1.slot fd).io d = some j := hslot
    obtain ⟨hreg, hbelow⟩ := h.slot fd d j (xvIoStop_slot_io hslot')
    -- The io that is stopped was in a slot only where the stop has taken it out.
    have hji : j ≠ i := by
      rintro rfl
      rw [← hreg.fd] at hbelow
      rw [xvIoStop_slots hbelow hreg.event hreg.start, hreg.fd, update_self,
        EventIo.del_io _ hreg.event, if_pos rfl] at hslot'
      simp at hslot'
    have hio : (s.polling.use.stop ctl i).2.ios j = s.io j :=
      (LoopUse.stop_io ..).trans (if_neg hji)
    refine ⟨hreg.congr hslot rfl hio, ?_⟩
    exact (xvIoStop_sameTables ctl s.loop (s.io i)).setsize.symm ▸ hbelow

theorem Dispatch.Sound.init (h : s.Sound) {i fd : Nat} {event : EventMask}
    (hstep : s.step ctl (.init i fd event) = some s') : s'.Sound := by
  obtain ⟨-, hfree, rfl⟩ := init_some hstep
  refine ⟨fun j hj => ?_, fun fd' d j hslot => ?_⟩
  · show (update s.polling.use.ios i (xvIoInit i fd event) j).id = j
    by_cases hji : j = i
    · subst hji
      rw [update_self]
      rfl
    · rw [update_of_ne hji]
      exact h.id j ((update_of_ne hji ..).symm.trans hj)
  · obtain ⟨hreg, hbelow⟩ := h.slot fd' d j hslot
    have hji : j ≠ i := by
      rintro rfl
      exact absurd (hfree.symm.trans hreg.live) (by simp)
    exact ⟨hreg.congr hslot (update_of_ne hji ..) (update_of_ne hji ..), hbelow⟩

theorem Dispatch.Sound.destroy (h : s.Sound) {i : Nat}
    (hstep : s.step ctl (.destroy i) = some s') : s'.Sound := by
  obtain ⟨-, rfl | ⟨hstopped, rfl⟩⟩ := destroy_some hstep
  · exact h
  · refine ⟨fun j hj => ?_, fun fd d j hslot => ?_⟩
    · by_cases hji : j = i
      · subst hji
        exact absurd ((update_self ..).symm.trans hj) (by simp)
      · exact h.id j ((update_of_ne hji ..).symm.trans hj)
    · obtain ⟨hreg, hbelow⟩ := h.slot fd d j hslot
      have hji : j ≠ i := by
        rintro rfl
        exact absurd (hstopped.symm.trans hreg.start) (by simp)
      exact ⟨hreg.congr hslot (update_of_ne hji ..) rfl, hbelow⟩

/-! ### One step of `xv_loop_poll` -/

/-- Where `xv_loop_poll` goes next, and what it calls there. -/
theorem Polling.poll_cases {p p' : Polling} (h : p.poll = some p') :
    (∃ i, p.pc = .fetch i ∧ p.count ≤ i ∧ p.turn = none ∧ p' = { p with pc := .idle }) ∨
    (∃ i fired, p.pc = .fetch i ∧ i < p.count ∧ p.use.loop.firedEvent i = some fired ∧
      p.turn = some (p.use.loop.turn fired .read) ∧
      p' = { p with pc := .read i fired, callback := (p.use.loop.turn fired .read).io }) ∨
    (∃ i fired, p.pc = .read i fired ∧ p.turn = some (p.use.loop.turn fired .write) ∧
      p' = { p with pc := .write i fired, callback := (p.use.loop.turn fired .write).io }) ∨
    ∃ i fired, p.pc = .write i fired ∧ p.turn = none ∧
      p' = { p with pc := .fetch (i + 1), callback := none } := by
  unfold poll at h
  split at h
  · simp at h
  · rename_i i hpc
    split at h
    · rename_i hlt
      split at h
      · simp at h
      · rename_i fired hfired
        refine .inr (.inl ⟨i, fired, hpc, hlt, hfired, ?_, (Option.some.inj h).symm⟩)
        simp [turn, hpc, hlt, hfired]
    · rename_i hge
      refine .inl ⟨i, hpc, Nat.not_lt.mp hge, ?_, (Option.some.inj h).symm⟩
      simp [turn, hpc, hge]
  · rename_i i fired hpc
    refine .inr (.inr (.inl ⟨i, fired, hpc, ?_, (Option.some.inj h).symm⟩))
    simp [turn, hpc]
  · rename_i i fired hpc
    refine .inr (.inr (.inr ⟨i, fired, hpc, ?_, (Option.some.inj h).symm⟩))
    simp [turn, hpc]

theorem Dispatch.poll_some (h : s.step ctl .poll = some s') :
    ∃ p, s.polling.poll = some p ∧
      s' = { s with polling := p, turns := s.turns ++ s.polling.turn.toList } := by
  simp only [step, Option.map_eq_some_iff] at h
  obtain ⟨p, hp, rfl⟩ := h
  exact ⟨p, hp, rfl⟩

theorem Dispatch.wait_some {ready : List (Nat × EventMask)}
    (h : s.step ctl (.wait ready) = some s') :
    (ready.map Prod.fst).Nodup ∧ (∀ e ∈ ready, e.1 < s.loop.setsize) ∧ s.polling.pc = .idle ∧
      s' = { s with
        polling := { s.polling with
          use := { s.polling.use with
            loop := { s.polling.use.loop with
              blocks := (xvPollerPoll s.loop.blocks s.loop.firedEvents ready).2 } }
          pc := .fetch 0
          count := ready.length }
        ready := ready
        turns := [] } := by
  simp only [step, Polling.step, Option.ite_none_right_eq_some, Option.map_eq_some_iff,
    Option.some.injEq] at h
  obtain ⟨⟨hnodup, hbelow⟩, polling, ⟨⟨hidle, -⟩, rfl⟩, rfl⟩ := h
  exact ⟨hnodup, hbelow, hidle, rfl⟩

theorem Dispatch.Sound.step (h : s.Sound) {label : DispatchLabel}
    (hstep : s.step ctl label = some s') : s'.Sound := by
  cases label with
  | wait ready =>
      obtain ⟨-, -, -, rfl⟩ := wait_some hstep
      exact ⟨h.id, fun fd d i hslot => ⟨(h.slot fd d i hslot).1.congr hslot rfl rfl,
        (h.slot fd d i hslot).2⟩⟩
  | poll =>
      obtain ⟨p, hp, rfl⟩ := poll_some hstep
      have huse : p.use = s.polling.use := Polling.poll_use hp
      refine ⟨fun i hi => ?_, fun fd d i hslot => ?_⟩
      · show (p.use.ios i).id = i
        rw [huse]
        exact h.id i hi
      · have hslot' : (s.loop.slot fd).io d = some i := by
          rw [Dispatch.loop, ← huse]
          exact hslot
        obtain ⟨hreg, hbelow⟩ := h.slot fd d i hslot'
        refine ⟨hreg.congr hslot rfl (congrFun (congrArg LoopUse.ios huse) i), ?_⟩
        show fd < p.use.loop.setsize
        rw [huse]
        exact hbelow
  | start i => exact h.start hstep
  | stop i => exact h.stop hstep
  | init i fd event => exact h.init hstep
  | destroy i => exact h.destroy hstep

/-! ### The turns of a pass -/

/-- The turns that what was reported calls for: in order, and READ before WRITE. -/
def schedule (ready : List (Nat × EventMask)) : List (FiredEvent × Direction) :=
  ready.flatMap fun e => [(.ofEpoll e.1 e.2, .read), (.ofEpoll e.1 e.2, .write)]

def PollPc.taken (ready : List (Nat × EventMask)) : PollPc → List (FiredEvent × Direction)
  | .idle => schedule ready
  | .fetch i => schedule (ready.take i)
  | .read i fired => schedule (ready.take i) ++ [(fired, .read)]
  | .write i _ => schedule (ready.take (i + 1))

/-- Between two events, and between two passes. -/
def PollPc.Between : PollPc → Prop
  | .idle | .fetch _ => True
  | .read .. | .write .. => False

def Turn.key (t : Turn) : FiredEvent × Direction := (t.fired, t.direction)

/-- A turn calls the io of the slot if the direction fired. -/
def Turn.Calls (t : Turn) : Prop :=
  t.io = if t.fired.event &&& t.direction.event ≠ 0#32 then t.slot.io t.direction else none

/-- After the READ turn of an event comes its WRITE turn, and where nothing was called nothing
has happened in between. -/
def Turn.Follows (t t' : Turn) : Prop :=
  t.direction = .read → t'.fired = t.fired ∧ t'.direction = .write ∧
    (t.io = none → t'.slot = t.slot)

/-- The last turn was the READ turn of this event, and its callback may still run. -/
structure Dispatch.Reading (s : Dispatch) (i : Nat) (fired : FiredEvent) (t : Turn) : Prop where
  entry : ∃ e, s.ready[i]? = some e ∧ fired = .ofEpoll e.1 e.2
  last : s.turns.getLast? = some t
  event : t.fired = fired
  direction : t.direction = .read
  callback : s.polling.callback = t.io
  slot : t.io = none → t.slot = s.loop.slot fired.fd

/-- What every pass keeps. -/
structure Dispatch.InPass (s : Dispatch) : Prop where
  distinct : (s.ready.map Prod.fst).Nodup
  count : s.polling.pc ≠ .idle → s.polling.count = s.ready.length
  entries : s.polling.pc ≠ .idle → ∀ i e, s.ready[i]? = some e →
    s.loop.firedEvent i = some (.ofEpoll e.1 e.2)
  taken : s.turns.map Turn.key = s.polling.pc.taken s.ready
  calls : ∀ t ∈ s.turns, t.Calls
  follows : s.turns.IsChain Turn.Follows
  reading : ∀ i fired, s.polling.pc = .read i fired → ∃ t, s.Reading i fired t
  resting : (∀ i fired, s.polling.pc ≠ .read i fired) →
    ∀ t, s.turns.getLast? = some t → t.direction = .write
  quiet : s.polling.pc.Between → s.polling.callback = none

theorem schedule_take_succ {ready : List (Nat × EventMask)} {i : Nat} {e : Nat × EventMask}
    (h : ready[i]? = some e) :
    schedule (ready.take (i + 1)) =
      schedule (ready.take i) ++ [(.ofEpoll e.1 e.2, .read), (.ofEpoll e.1 e.2, .write)] := by
  simp [schedule, List.take_add_one, h]

theorem Loop.turn_calls (loop : Loop) (fired : FiredEvent) (d : Direction) :
    (loop.turn fired d).Calls := rfl

theorem Dispatch.InPass.called (h : s.InPass) (hcalled : s.Called s') : s'.InPass := by
  have hfired : ∀ i, s'.loop.firedEvent i = s.loop.firedEvent i := by
    intro i
    unfold Loop.firedEvent
    rw [hcalled.tables.blocks, hcalled.tables.firedEvents]
  refine ⟨hcalled.ready ▸ h.distinct, ?_, ?_, ?_, hcalled.turns ▸ h.calls,
    hcalled.turns ▸ h.follows, ?_, ?_, ?_⟩
  · rw [hcalled.pc, hcalled.count, hcalled.ready]
    exact h.count
  · intro hpc i e he
    rw [hcalled.pc] at hpc
    rw [hcalled.ready] at he
    rw [hfired]
    exact h.entries hpc i e he
  · rw [hcalled.turns, hcalled.pc, hcalled.ready]
    exact h.taken
  · intro i fired hpc
    rw [hcalled.pc] at hpc
    obtain ⟨t, ht⟩ := h.reading i fired hpc
    -- A callback runs, so the turn has called one.
    have hsome : t.io ≠ none := by
      rw [← ht.callback]
      rcases hcalled.runs with hidle | hrunning
      · exact absurd (hidle.symm.trans hpc) (by simp)
      · exact Option.isSome_iff_ne_none.mp hrunning
    exact ⟨t, hcalled.ready ▸ ht.entry, hcalled.turns ▸ ht.last, ht.event, ht.direction,
      hcalled.callback ▸ ht.callback, fun hnone => absurd hnone hsome⟩
  · rw [hcalled.pc, hcalled.turns]
    exact h.resting
  · rw [hcalled.pc, hcalled.callback]
    exact h.quiet

theorem Dispatch.InPass.wait (h : s.InPass) {ready : List (Nat × EventMask)}
    (hstep : s.step ctl (.wait ready) = some s') : s'.InPass := by
  obtain ⟨hnodup, -, hidle, rfl⟩ := wait_some hstep
  refine ⟨hnodup, fun _ => rfl, fun _ i e he => ?_, rfl, by simp, .nil, by simp, fun _ t ht => ?_,
    fun _ => h.quiet (hidle ▸ trivial)⟩
  · have hentry : (xvPollerPoll s.loop.blocks s.loop.firedEvents ready).2.fired
        s.loop.firedEvents i = some (.ofEpoll e.1 e.2) := by
      simp [xvPollerPoll, he]
    exact hentry
  · simp at ht

/-- Taking a turn keeps what is said of the turns taken. -/
theorem Dispatch.InPass.turns_append (h : s.InPass) {t : Turn} (hcalls : t.Calls)
    (hfollows : ∀ last, s.turns.getLast? = some last → last.Follows t) :
    (∀ u ∈ s.turns ++ [t], u.Calls) ∧ (s.turns ++ [t]).IsChain Turn.Follows := by
  refine ⟨fun u hu => ?_, ?_⟩
  · rcases List.mem_append.mp hu with hu | hu
    · exact h.calls u hu
    · exact List.mem_singleton.mp hu ▸ hcalls
  · refine List.isChain_append.mpr ⟨h.follows, .singleton t, fun last hlast u hu => ?_⟩
    simp only [List.head?_cons, Option.mem_def, Option.some.injEq] at hu
    exact hu ▸ hfollows last hlast

theorem Dispatch.InPass.poll (h : s.InPass) (hstep : s.step ctl .poll = some s') : s'.InPass := by
  obtain ⟨p, hp, rfl⟩ := poll_some hstep
  rcases Polling.poll_cases hp with ⟨i, hpc, hge, hturn, rfl⟩ |
    ⟨i, fired, hpc, hlt, hfired, hturn, rfl⟩ | ⟨i, fired, hpc, hturn, rfl⟩ |
    ⟨i, fired, hpc, hturn, rfl⟩
  · -- The batch is done.
    have hbusy : s.polling.pc ≠ .idle := by rw [hpc]; simp
    have htaken := h.taken
    rw [hpc, PollPc.taken, List.take_of_length_le (h.count hbusy ▸ hge)] at htaken
    rw [hturn, Option.toList_none, List.append_nil]
    refine ⟨h.distinct, fun hne => absurd rfl hne, fun hne => absurd rfl hne, htaken, h.calls,
      h.follows, by simp, fun _ => h.resting ?_, fun _ => h.quiet (hpc ▸ trivial)⟩
    rw [hpc]
    simp
  · -- The READ turn of the next event.
    have hbusy : s.polling.pc ≠ .idle := by rw [hpc]; simp
    obtain ⟨e, he⟩ : ∃ e, s.ready[i]? = some e :=
      ⟨_, List.getElem?_eq_getElem (h.count hbusy ▸ hlt)⟩
    obtain rfl : fired = .ofEpoll e.1 e.2 :=
      Option.some.inj (hfired.symm.trans (h.entries hbusy i e he))
    have hnot : ∀ i fired, s.polling.pc ≠ .read i fired := by rw [hpc]; simp
    rw [hturn, Option.toList_some]
    obtain ⟨hcalls, hfollows⟩ := h.turns_append
      (s.loop.turn_calls (.ofEpoll e.1 e.2) .read) fun last hlast hread =>
        absurd (hread.symm.trans (h.resting hnot last hlast)) (by simp)
    refine ⟨h.distinct, fun _ => h.count hbusy, fun _ => h.entries hbusy, ?_, hcalls, hfollows,
      ?_, fun hne => absurd rfl (hne i _), nofun⟩
    · rw [List.map_append, h.taken, hpc]
      rfl
    · intro j fired' hpc'
      obtain ⟨rfl, rfl⟩ : i = j ∧ FiredEvent.ofEpoll e.1 e.2 = fired' := by
        simpa using hpc'
      exact ⟨_, ⟨e, he, rfl⟩, List.getLast?_concat .., rfl, rfl, rfl, fun _ => rfl⟩
  · -- The WRITE turn of the same event.
    have hbusy : s.polling.pc ≠ .idle := by rw [hpc]; simp
    obtain ⟨t, ht⟩ := h.reading i fired hpc
    obtain ⟨e, he, rfl⟩ := ht.entry
    rw [hturn, Option.toList_some]
    obtain ⟨hcalls, hfollows⟩ := h.turns_append
      (s.loop.turn_calls (.ofEpoll e.1 e.2) .write) fun last hlast _ => by
        obtain rfl : t = last := Option.some.inj (ht.last.symm.trans hlast)
        exact ⟨ht.event.symm, rfl, fun hnone => (ht.slot hnone).symm⟩
    refine ⟨h.distinct, fun _ => h.count hbusy, fun _ => h.entries hbusy, ?_, hcalls, hfollows,
      (by simp), fun _ u hu => ?_, nofun⟩
    · rw [List.map_append, h.taken, hpc]
      show schedule (s.ready.take i) ++ [_] ++ [_] = schedule (s.ready.take (i + 1))
      rw [schedule_take_succ he, List.append_assoc]
      rfl
    · rw [List.getLast?_concat, Option.some.injEq] at hu
      exact hu ▸ rfl
  · -- On to the next event.
    have hbusy : s.polling.pc ≠ .idle := by rw [hpc]; simp
    have htaken := h.taken
    rw [hpc] at htaken
    rw [hturn, Option.toList_none, List.append_nil]
    refine ⟨h.distinct, fun _ => h.count hbusy, fun _ => h.entries hbusy, htaken, h.calls,
      h.follows, by simp, fun _ => h.resting ?_, fun _ => rfl⟩
    rw [hpc]
    simp

theorem Dispatch.InPass.step (h : s.InPass) {label : DispatchLabel}
    (hstep : s.step ctl label = some s') : s'.InPass := by
  cases label with
  | wait ready => exact h.wait hstep
  | poll => exact h.poll hstep
  | start i | stop i | init i fd event | destroy i =>
      exact h.called (step_called hstep (by simp) (by simp))

/-- A state outside a pass, whose slots hold what is registered there: a new loop is one. -/
structure Dispatch.Start (s : Dispatch) : Prop where
  pc : s.polling.pc = .idle
  callback : s.polling.callback = none
  ready : s.ready = []
  turns : s.turns = []
  sound : s.Sound

theorem Dispatch.Start.inPass (h : s.Start) : s.InPass := by
  refine ⟨h.ready ▸ List.nodup_nil, fun hne => absurd h.pc hne, fun hne => absurd h.pc hne, ?_,
    ?_, h.turns ▸ .nil, fun i fired hpc => absurd (h.pc.symm.trans hpc) (by simp), fun _ t ht => ?_,
    fun _ => h.callback⟩
  · rw [h.turns, h.pc, h.ready]
    rfl
  · rw [h.turns]
    simp
  · rw [h.turns] at ht
    simp at ht

section Runs

variable (h : Reachable (Dispatch.step ctl) Dispatch.Start s)
include h

theorem Dispatch.sound_of_reachable : s.Sound :=
  h.invariant (I := Dispatch.Sound) (fun _ hs => hs.sound) fun _ _ _ hs _ hstep => hs.step hstep

theorem Dispatch.inPass_of_reachable : s.InPass :=
  h.invariant (I := Dispatch.InPass) (fun _ hs => hs.inPass) fun _ _ _ hs _ hstep => hs.step hstep

end Runs

theorem schedule_take (ready : List (Nat × EventMask)) (i : Nat) :
    schedule (ready.take i) <+: schedule ready := by
  refine ⟨schedule (ready.drop i), ?_⟩
  unfold schedule
  rw [← List.flatMap_append, List.take_append_drop]

theorem Dispatch.InPass.taken_leads (h : s.InPass) :
    s.turns.map Turn.key <+: schedule s.ready := by
  rw [h.taken]
  cases hpc : s.polling.pc with
  | idle => exact List.prefix_refl _
  | fetch i => exact schedule_take s.ready i
  | read i fired =>
      obtain ⟨t, ht⟩ := h.reading i fired hpc
      obtain ⟨e, he, rfl⟩ := ht.entry
      refine List.IsPrefix.trans ?_ (schedule_take s.ready (i + 1))
      rw [schedule_take_succ he]
      exact ⟨[(.ofEpoll e.1 e.2, .write)], by simp [PollPc.taken]⟩
  | write i fired => exact schedule_take s.ready (i + 1)

/-- Each direction of each fd has one turn. -/
theorem schedule_nodup {ready : List (Nat × EventMask)} (h : (ready.map Prod.fst).Nodup) :
    ((schedule ready).map fun k => (k.1.fd, k.2)).Nodup := by
  induction ready with
  | nil => exact List.nodup_nil
  | cons e rest ih =>
      rw [List.map_cons, List.nodup_cons] at h
      have hout : ∀ d : Direction,
          (e.1, d) ∉ (schedule rest).map fun k => (k.1.fd, k.2) := by
        intro d hmem
        simp only [schedule, List.map_flatMap, List.mem_flatMap, List.map_cons, List.map_nil,
          List.mem_cons, List.not_mem_nil, or_false, Prod.mk.injEq] at hmem
        obtain ⟨e', he', ⟨hfd, -⟩ | ⟨hfd, -⟩⟩ := hmem
        all_goals exact h.1 (List.mem_map.mpr ⟨e', he', hfd.symm⟩)
      have hcons : (schedule (e :: rest)).map (fun k => (k.1.fd, k.2)) =
          (e.1, .read) :: (e.1, .write) :: (schedule rest).map fun k => (k.1.fd, k.2) := rfl
      rw [hcons, List.nodup_cons, List.mem_cons, not_or, List.nodup_cons]
      exact ⟨⟨fun heq => absurd (congrArg Prod.snd heq) (by simp), hout .read⟩, hout .write, ih h.2⟩

/-- A pass is never stuck. -/
theorem Dispatch.InPass.poll_isSome (h : s.InPass) (hpc : s.polling.pc ≠ .idle) :
    (s.step ctl .poll).isSome := by
  have hpoll : s.polling.poll.isSome := by
    unfold Polling.poll
    split
    · exact absurd ‹_› hpc
    · rename_i i hfetch
      split
      · rename_i hlt
        have he := List.getElem?_eq_getElem (h.count hpc ▸ hlt)
        split
        · rename_i hnone
          exact absurd (hnone.symm.trans (h.entries hpc i _ he)) (by simp)
        · rfl
      · rfl
    · rfl
    · rfl
  simp only [Dispatch.step, Option.isSome_map, hpoll]

/-- What a turn calls is what is registered. -/
theorem Dispatch.Sound.turn_io (h : s.Sound) {t : Turn} (ht : s.polling.turn = some t) (i : Nat) :
    t.io = some i ↔
      t.fired.event &&& t.direction.event ≠ 0#32 ∧ s.Registered t.fired.fd t.direction i := by
  obtain ⟨fired, d, rfl⟩ : ∃ fired d, t = s.loop.turn fired d := by
    unfold Polling.turn at ht
    split at ht
    · split at ht
      · simp only [Option.map_eq_some_iff] at ht
        obtain ⟨fired, -, rfl⟩ := ht
        exact ⟨fired, .read, rfl⟩
      · simp at ht
    · exact ⟨_, .write, (Option.some.inj ht).symm⟩
    · simp at ht
    · simp at ht
  simp only [Loop.turn, Option.ite_none_right_eq_some]
  exact and_congr_right fun _ => ⟨fun hslot => (h.slot fired.fd d i hslot).1, fun hreg => hreg.slot⟩

/-- What a step of `xv_loop_poll` calls back is what its turn calls, if it has one. -/
theorem Dispatch.InPass.poll_turn (h : s.InPass) (hstep : s.step ctl .poll = some s') :
    s'.polling.callback = s.polling.turn.bind Turn.io ∧
      s'.turns = s.turns ++ s.polling.turn.toList := by
  obtain ⟨p, hp, rfl⟩ := poll_some hstep
  refine ⟨?_, rfl⟩
  rcases Polling.poll_cases hp with ⟨i, hpc, -, hturn, rfl⟩ | ⟨i, fired, -, -, -, hturn, rfl⟩ |
    ⟨i, fired, -, hturn, rfl⟩ | ⟨i, fired, -, hturn, rfl⟩
  · rw [hturn]
    exact h.quiet (hpc ▸ trivial)
  all_goals rw [hturn]; rfl

/--
**A pass only reaches live registrations**: whatever the callbacks start, stop, make and
destroy, the io that a turn calls is at that moment live, started and registered for the fd and
the direction of the turn, and the turn calls it if it is; the turns of a pass are those of the
reported events in order, READ before WRITE, each direction of each fd having one, and none is
left out when the pass ends, which nothing can keep it from.
-/
theorem dispatch_live (h : Reachable (Dispatch.step ctl) Dispatch.Start s) :
    (∀ t, s.polling.turn = some t → ∀ i, t.io = some i ↔
      t.fired.event &&& t.direction.event ≠ 0#32 ∧ s.Registered t.fired.fd t.direction i) ∧
    (∀ s', s.step ctl .poll = some s' →
      s'.polling.callback = s.polling.turn.bind Turn.io ∧
        s'.turns = s.turns ++ s.polling.turn.toList) ∧
    s.turns.map Turn.key <+: schedule s.ready ∧
    (s.turns.map fun t => (t.fired.fd, t.direction)).Nodup ∧
    (s.polling.pc = .idle → s.turns.map Turn.key = schedule s.ready) ∧
    (s.polling.pc ≠ .idle → (s.step ctl .poll).isSome) := by
  have hpass := Dispatch.inPass_of_reachable h
  refine ⟨fun t ht i => (Dispatch.sound_of_reachable h).turn_io ht i,
    fun s' hstep => hpass.poll_turn hstep, hpass.taken_leads, ?_, ?_, hpass.poll_isSome⟩
  · have hsub := (hpass.taken_leads.map fun k => (k.1.fd, k.2)).sublist
    rw [List.map_map] at hsub
    exact (schedule_nodup hpass.distinct).sublist hsub
  · intro hidle
    have htaken := hpass.taken
    rwa [hidle] at htaken

/-- A new loop, and no ios. -/
def newDispatch : Dispatch where
  polling := {
    use := { loop := xvLoopInit 1024, ios := fun i => xvIoInit i 0 xvRead }
    pc := .idle
    count := 0
    callback := none }
  live := fun _ => false
  ready := []
  turns := []

theorem newDispatch_start : newDispatch.Start where
  pc := rfl
  callback := rfl
  ready := rfl
  turns := rfl
  sound := ⟨nofun, fun fd d i hslot => by cases d <;> exact absurd hslot nofun⟩

/-- The READ callback of fd 5 closes both connections; fd 6 goes to a new owner. -/
theorem dispatch_live_closed :
    ∃ s, play (Dispatch.step epollKernel) newDispatch
        [.init 0 5 xvRead, .init 1 5 xvWrite, .init 2 6 xvRead, .start 0, .start 1, .start 2,
          .wait [(5, epollIn ||| epollOut), (6, epollIn)], .poll, .stop 1, .destroy 1, .stop 2,
          .destroy 2, .init 3 6 xvRead, .start 3, .poll, .poll, .poll] = some s ∧
      s.turns.map Turn.io = [some 0, none, some 3] ∧
      s.turns.map Turn.key <+: schedule s.ready := by
  obtain ⟨s, hplay, hturns⟩ : ∃ s, play (Dispatch.step epollKernel) newDispatch
        [.init 0 5 xvRead, .init 1 5 xvWrite, .init 2 6 xvRead, .start 0, .start 1, .start 2,
          .wait [(5, epollIn ||| epollOut), (6, epollIn)], .poll, .stop 1, .destroy 1, .stop 2,
          .destroy 2, .init 3 6 xvRead, .start 3, .poll, .poll, .poll] = some s ∧
      s.turns.map Turn.io = [some 0, none, some 3] := ⟨_, rfl, rfl⟩
  have hreach := Reachable.play _ (.start newDispatch_start) hplay
  exact ⟨s, hplay, hturns, (dispatch_live hreach).2.2.1⟩

end Libxv
