/-
Reported events that reach no callback.

`xv_poller_poll` turns EPOLLERR and EPOLLHUP into XV_WRITE, and `xv_loop_poll` looks for
XV_WRITE only at the write io.  An event therefore reaches a callback if the direction it is
turned into has an io when its turn comes, and is dropped if only the other one has.
-/
import Libxv.Proofs.Dispatch

namespace Libxv

open Function Transition

variable {ctl : EpollCtl} {s : Dispatch}

theorem FiredEvent.ofEpoll_read (fd : Nat) (events : EventMask) :
    (ofEpoll fd events).event &&& xvRead ≠ 0#32 ↔ events &&& epollIn ≠ 0#32 := by
  unfold ofEpoll
  by_cases hin : events &&& epollIn = 0#32 <;> by_cases hout : events &&& epollOut = 0#32 <;>
    by_cases hhup : events &&& epollHup = 0#32 <;> by_cases herr : events &&& epollErr = 0#32 <;>
    simp [hin, hout, hhup, herr, xvNone, xvRead, xvWrite]

theorem FiredEvent.ofEpoll_write (fd : Nat) (events : EventMask) :
    (ofEpoll fd events).event &&& xvWrite ≠ 0#32 ↔
      events &&& (epollOut ||| epollErr ||| epollHup) ≠ 0#32 := by
  rw [BitVec.and_or_distrib_left, BitVec.and_or_distrib_left]
  unfold ofEpoll
  by_cases hin : events &&& epollIn = 0#32 <;> by_cases hout : events &&& epollOut = 0#32 <;>
    by_cases hhup : events &&& epollHup = 0#32 <;> by_cases herr : events &&& epollErr = 0#32 <;>
    simp [hin, hout, hhup, herr, xvNone, xvRead, xvWrite]

/-- There is an io in the slot. -/
def EventIo.Watched (slot : EventIo) : Prop := slot.readIo ≠ none ∨ slot.writeIo ≠ none

/-- One of the two turns calls an io. -/
def Turn.Served (t t' : Turn) : Prop := t.io ≠ none ∨ t'.io ≠ none

/-- The slot has an io for the direction that the reported events are turned into. -/
def EventIo.Reached (slot : EventIo) (events : EventMask) : Prop :=
  events &&& epollIn ≠ 0#32 ∧ slot.readIo ≠ none ∨
    events &&& (epollOut ||| epollErr ||| epollHup) ≠ 0#32 ∧ slot.writeIo ≠ none

/-- What `epoll_wait` may report of an fd with these ios: some of what they watch, and errors. -/
structure EventIo.Allows (slot : EventIo) (events : EventMask) : Prop where
  watched : slot.Watched
  nonempty : events ≠ 0#32
  bits : events &&& (epollIn ||| (epollOut ||| epollErr ||| epollHup)) = events
  read : events &&& epollIn ≠ 0#32 → slot.readIo ≠ none
  write : events &&& epollOut ≠ 0#32 → slot.writeIo ≠ none

/-- The READ and the WRITE turn of an event that `epoll_wait` reported. -/
structure Turn.Of (t t' : Turn) (fd : Nat) (events : EventMask) : Prop where
  read : t.key = (.ofEpoll fd events, .read)
  write : t'.key = (.ofEpoll fd events, .write)

/-- In a pass that has ended each event has had its two turns, one after the other. -/
theorem Dispatch.InPass.turns_of (h : s.InPass) (hidle : s.polling.pc = .idle) {fd : Nat}
    {events : EventMask} (hready : (fd, events) ∈ s.ready) :
    ∃ t t' : Turn, [t, t'] <:+: s.turns ∧ t.Of t' fd events := by
  have htaken := h.taken
  obtain ⟨before, after, hsplit⟩ := List.append_of_mem hready
  rw [hidle, hsplit] at htaken
  have hschedule : PollPc.idle.taken (before ++ (fd, events) :: after) =
      schedule before ++ (.ofEpoll fd events, .read) :: (.ofEpoll fd events, .write) ::
        schedule after := List.flatMap_append
  rw [hschedule, List.map_eq_append_iff] at htaken
  obtain ⟨turns, rest, hturns, -, hrest⟩ := htaken
  obtain ⟨t, rest', rfl, hread, hrest'⟩ := List.map_eq_cons_iff.mp hrest
  obtain ⟨t', rest'', rfl, hwrite, -⟩ := List.map_eq_cons_iff.mp hrest'
  exact ⟨t, t', ⟨turns, rest'', by rw [hturns]; simp⟩, hread, hwrite⟩

/-- **An event reaches a callback where its direction has an io.** -/
theorem Dispatch.InPass.served_iff (h : s.InPass) {t t' : Turn} (hturns : [t, t'] <:+: s.turns)
    {fd : Nat} {events : EventMask} (hof : t.Of t' fd events) :
    t.Served t' ↔ t.slot.Reached events := by
  obtain ⟨before, after, hsplit⟩ := hturns
  have hcalls := h.calls t (hsplit ▸ by simp)
  have hcalls' := h.calls t' (hsplit ▸ by simp)
  have hfollows : t.Follows t' := by
    have hchain := h.follows
    rw [← hsplit, List.append_assoc] at hchain
    exact (List.isChain_cons_cons.mp (List.isChain_append.mp hchain).2.1).1
  obtain ⟨hfired, hdirection⟩ := Prod.mk.inj hof.read
  obtain ⟨hfired', hdirection'⟩ := Prod.mk.inj hof.write
  have hread : t.io ≠ none ↔ events &&& epollIn ≠ 0#32 ∧ t.slot.readIo ≠ none := by
    rw [hcalls, hfired, hdirection, ite_ne_right_iff]
    exact and_congr_left' (FiredEvent.ofEpoll_read fd events)
  have hwrite : t'.io ≠ none ↔
      events &&& (epollOut ||| epollErr ||| epollHup) ≠ 0#32 ∧ t'.slot.writeIo ≠ none := by
    rw [hcalls', hfired', hdirection', ite_ne_right_iff]
    exact and_congr_left' (FiredEvent.ofEpoll_write fd events)
  unfold Turn.Served EventIo.Reached
  by_cases hnone : t.io = none
  · -- Nothing was called in between, so the slot is still the same.
    rw [hwrite, (hfollows hdirection).2.2 hnone, hread]
  · exact iff_of_true (.inl hnone) (.inl (hread.mp hnone))

/-- Of what may be reported only errors of an fd that has no write io are dropped. -/
theorem EventIo.Allows.reached_iff {slot : EventIo} {events : EventMask}
    (h : slot.Allows events) :
    slot.Reached events ↔ events &&& epollIn ≠ 0#32 ∨ slot.writeIo ≠ none := by
  constructor
  · rintro (⟨hin, -⟩ | ⟨-, hwrite⟩)
    · exact .inl hin
    · exact .inr hwrite
  · rintro (hin | hwrite)
    · exact .inl ⟨hin, h.read hin⟩
    · by_cases hin : events &&& epollIn = 0#32
      · refine .inr ⟨fun hnone => h.nonempty ?_, hwrite⟩
        rw [← h.bits, BitVec.and_or_distrib_left, hin, hnone]
        rfl
      · exact .inl ⟨hin, h.read hin⟩

/--
**When a reported event is not swallowed**: each event of a pass has two turns, one after the
other, and if the fd still has an io when the first one comes, one of the two calls an io exactly
when EPOLLIN was reported and there is a read io, or EPOLLOUT, EPOLLERR or EPOLLHUP and there is
a write io.  Where the fd still has the ios for which the event was reported, that is whenever
EPOLLIN was reported or there is a write io.
-/
theorem event_served_iff (h : Reachable (Dispatch.step ctl) Dispatch.Start s)
    (hidle : s.polling.pc = .idle) {fd : Nat} {events : EventMask}
    (hready : (fd, events) ∈ s.ready) :
    ∃ t t' : Turn, [t, t'] <:+: s.turns ∧ t.Of t' fd events ∧
      ((t.slot.Watched → t.Served t') ↔ (t.slot.Watched → t.slot.Reached events)) ∧
      (t.slot.Allows events →
        (t.Served t' ↔ events &&& epollIn ≠ 0#32 ∨ t.slot.writeIo ≠ none)) := by
  have hpass := Dispatch.inPass_of_reachable h
  obtain ⟨t, t', hturns, hof⟩ := hpass.turns_of hidle hready
  have hserved := hpass.served_iff hturns hof
  exact ⟨t, t', hturns, hof, imp_congr_right fun _ => hserved,
    fun hallows => hserved.trans hallows.reached_iff⟩

/-- A pipe with a read io that is readable: its callback is called. -/
def readablePipe : List DispatchLabel :=
  [.init 0 5 xvRead, .start 0, .wait [(5, epollIn)], .poll, .poll, .poll, .poll]

theorem event_served_iff_readable :
    ∃ s t t', play (Dispatch.step epollKernel) newDispatch readablePipe = some s ∧
      [t, t'] <:+: s.turns ∧ t.Served t' := by
  obtain ⟨s, u, u', hplay, hidle, hready, hturns, hslot⟩ :
      ∃ s u u', play (Dispatch.step epollKernel) newDispatch readablePipe = some s ∧
        s.polling.pc = .idle ∧ s.ready = [(5, epollIn)] ∧ s.turns = [u, u'] ∧
        u.slot.readIo = some 0 := ⟨_, _, _, rfl, rfl, rfl, rfl, rfl⟩
  have hmem : (5, epollIn) ∈ s.ready := hready ▸ List.mem_singleton_self _
  obtain ⟨t, t', hpair, -, hiff, -⟩ :=
    event_served_iff (Reachable.play readablePipe (.start newDispatch_start) hplay) hidle hmem
  have heq : [t, t'] = [u, u'] := (hturns ▸ hpair).eq_of_length rfl
  obtain ⟨rfl, rfl⟩ : t = u ∧ t' = u' := by simpa using heq
  have hread : t.slot.readIo ≠ none := hslot ▸ (by simp)
  exact ⟨s, t, t', hplay, hpair, hiff.mpr (fun _ => .inl ⟨by decide, hread⟩) (.inl hread)⟩

/-- A pipe with a read io whose writer has closed without writing: the report is dropped. -/
def closedPipe : List DispatchLabel :=
  [.init 0 5 xvRead, .start 0, .wait [(5, epollHup)], .poll, .poll, .poll, .poll]

theorem hup_swallowed :
    ∃ s t t', Reachable (Dispatch.step epollKernel) Dispatch.Start s ∧ s.polling.pc = .idle ∧
      s.ready = [(5, epollHup)] ∧ s.loop.poller.interest 5 = some epollIn ∧
      (s.io 0).start = true ∧ s.turns = [t, t'] ∧ t.Of t' 5 epollHup ∧
      t.slot.Allows epollHup ∧ ¬ t.Served t' := by
  refine ⟨_, _, _, Reachable.play closedPipe (.start newDispatch_start) rfl, rfl, rfl, rfl, rfl,
    rfl, ⟨rfl, rfl⟩, ⟨.inl nofun, by decide, by decide, ?_, ?_⟩, ?_⟩
  · exact fun hin => absurd rfl hin
  · exact fun hout => absurd rfl hout
  · exact fun hserved => hserved.elim (fun hne => hne rfl) fun hne => hne rfl

end Libxv
