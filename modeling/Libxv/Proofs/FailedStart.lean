/-
What a start that fails leaves behind.

`xv_io_start` sets the io's flag and `xv_loop_add_event` writes the slot before `epoll_ctl` is
asked, and neither undoes it when the call fails.  So a start that fails always leaves a trace:
the io counts as started, and can be neither started nor destroyed.
-/
import Libxv.Async
import Libxv.Proofs.Registration

namespace Libxv

open Function

variable {ctl : EpollCtl} {loop : Loop} {io : Io} {async : Async}

/-- The io's flag, the slots and the kernel's interest list are as before. -/
structure Loop.Unchanged (loop : Loop) (io : Io) (loop' : Loop) (io' : Io) : Prop where
  start : io'.start = io.start
  slots : ∀ fd, fd < loop.setsize → loop'.slot fd = loop.slot fd
  interest : loop'.poller.interest = loop.poller.interest

/-- The loop that `xv_loop_add_event` works on. -/
def Loop.roomFor (loop : Loop) (fd : Nat) : Loop :=
  if fd ≥ loop.setsize then xvLoopResize loop (loop.setsize * 2) else loop

/-- `epoll_ctl` succeeds at what the mask of the io's slot calls for: to modify what is watched
if there is anything, and else to add the fd. -/
def Loop.Takes (ctl : EpollCtl) (loop : Loop) (io : Io) : Prop :=
  let old := ((loop.roomFor io.fd).slot io.fd).event
  if old ≠ xvNone then ctl loop.poller.interest .mod io.fd (epollEvents (io.event ||| old)) = true
  else ctl loop.poller.interest .add io.fd (epollEvents io.event) = true

theorem Loop.roomFor_interest (loop : Loop) (fd : Nat) :
    (loop.roomFor fd).poller.interest = loop.poller.interest := by
  unfold roomFor xvLoopResize
  split
  · split <;> rfl
  · rfl

theorem epollCtl_eq_none (ctl : EpollCtl) (interest : Interest) (op : EpollOp) (fd : Nat)
    (events : EventMask) :
    epollCtl ctl interest op fd events = none ↔ ¬ ctl interest op fd events = true := by
  unfold epollCtl
  split
  · rename_i hctl
    cases op <;> simp [hctl]
  · rename_i hctl
    simp [hctl]

theorem xvPollerModifyEvent_ret (data : Poller) (fd : Nat) (mask : EventMask) (op : EpollOp) :
    (xvPollerModifyEvent ctl data fd mask op).1 ≠ xvErr ↔
      ctl data.interest op fd (epollEvents mask) = true := by
  have hret : (xvPollerModifyEvent ctl data fd mask op).1 = xvErr ↔
      epollCtl ctl data.interest op fd (epollEvents mask) = none := by
    unfold xvPollerModifyEvent epollEvents
    dsimp only
    split <;> rename_i hctl
    · exact iff_of_true rfl hctl
    · refine iff_of_false xvOk_ne_xvErr fun hnone => ?_
      cases hctl.symm.trans hnone
  rw [Ne, hret, epollCtl_eq_none, Decidable.not_not]

/-- A call that fails has changed nothing in the kernel. -/
theorem xvPollerModifyEvent_failed {data : Poller} {fd : Nat} {mask : EventMask} {op : EpollOp}
    (herr : (xvPollerModifyEvent ctl data fd mask op).1 = xvErr) :
    (xvPollerModifyEvent ctl data fd mask op).2 = data := by
  unfold xvPollerModifyEvent at herr ⊢
  dsimp only at herr ⊢
  split
  · rfl
  · rename_i interest hctl
    rw [hctl] at herr
    exact absurd herr xvOk_ne_xvErr

theorem xvPollerAddEvent_failed {data : Poller} {fd : Nat} {old event : EventMask}
    (herr : (xvPollerAddEvent ctl data fd old event).1 = xvErr) :
    (xvPollerAddEvent ctl data fd old event).2 = data := by
  unfold xvPollerAddEvent at herr ⊢
  split
  · rename_i hold
    rw [if_pos hold] at herr
    exact xvPollerModifyEvent_failed herr
  · rename_i hold
    rw [if_neg hold] at herr
    exact xvPollerModifyEvent_failed herr

/-- What `xv_loop_add_event` asks of the poller. -/
def Loop.asks (ctl : EpollCtl) (loop : Loop) (io : Io) : Int × Poller :=
  xvPollerAddEvent ctl (loop.roomFor io.fd).poller io.fd ((loop.roomFor io.fd).slot io.fd).event
    io.event

theorem Loop.asks_ret (ctl : EpollCtl) (loop : Loop) (io : Io) :
    (loop.asks ctl io).1 ≠ xvErr ↔ loop.Takes ctl io := by
  unfold asks Takes xvPollerAddEvent
  rw [← loop.roomFor_interest io.fd]
  by_cases hold : ((loop.roomFor io.fd).slot io.fd).event ≠ xvNone
  · rw [if_pos hold, if_pos hold]
    exact xvPollerModifyEvent_ret ..
  · rw [if_neg hold, if_neg hold]
    exact xvPollerModifyEvent_ret ..

theorem xvLoopAddEvent_eq (ctl : EpollCtl) (loop : Loop) (io : Io) :
    xvLoopAddEvent ctl loop io =
      if io.event ≠ xvRead ∧ io.event ≠ xvWrite then (xvErr, loop.roomFor io.fd)
      else
        (if (loop.asks ctl io).1 = xvErr then xvErr else xvOk,
          { loop.roomFor io.fd with
            slot := update (loop.roomFor io.fd).slot io.fd
              (((loop.roomFor io.fd).slot io.fd).add io)
            poller := (loop.asks ctl io).2 }) := rfl

/-- `xv_loop_add_event` fails where the event is no direction, or `epoll_ctl` does. -/
theorem xvLoopAddEvent_ret (ctl : EpollCtl) (loop : Loop) (io : Io) :
    (xvLoopAddEvent ctl loop io).1 ≠ xvErr ↔ io.Proper ∧ loop.Takes ctl io := by
  rw [xvLoopAddEvent_eq, ← loop.asks_ret]
  by_cases hproper : io.Proper
  · have hevent : ¬ (io.event ≠ xvRead ∧ io.event ≠ xvWrite) := fun hbad =>
      hproper.elim hbad.1 hbad.2
    rw [if_neg hevent]
    by_cases hret : (loop.asks ctl io).1 = xvErr
    · rw [if_pos hret]
      exact iff_of_false (fun hne => hne rfl) fun hboth => hboth.2 hret
    · rw [if_neg hret]
      exact iff_of_true xvOk_ne_xvErr ⟨hproper, hret⟩
  · have hevent : io.event ≠ xvRead ∧ io.event ≠ xvWrite := not_or.mp hproper
    rw [if_pos hevent]
    exact iff_of_false (fun hne => hne rfl) fun hboth => hproper hboth.1

theorem xvLoopAddEvent_failed (herr : (xvLoopAddEvent ctl loop io).1 = xvErr) :
    (xvLoopAddEvent ctl loop io).2.poller.interest = loop.poller.interest := by
  rw [← loop.roomFor_interest io.fd]
  rw [xvLoopAddEvent_eq] at herr ⊢
  split
  · rfl
  · rename_i hevent
    rw [if_neg hevent] at herr
    have hasks : (loop.asks ctl io).1 = xvErr := by
      by_contra hok
      exact absurd ((if_neg hok).symm.trans herr) xvOk_ne_xvErr
    exact congrArg Poller.interest (xvPollerAddEvent_failed hasks)

theorem xvIoStart_stopped (hstopped : io.start = false) :
    xvIoStart ctl loop io =
      ((xvLoopAddEvent ctl loop { io with start := true }).1,
        (xvLoopAddEvent ctl loop { io with start := true }).2, { io with start := true }) := by
  unfold xvIoStart
  rw [if_neg (by simp [hstopped])]

/-- A start that fails is never undone. -/
theorem xvIoStart_unchanged_iff (hstopped : io.start = false) :
    ((xvIoStart ctl loop io).1 = xvErr →
        loop.Unchanged io (xvIoStart ctl loop io).2.1 (xvIoStart ctl loop io).2.2) ↔
      io.Proper ∧ loop.Takes ctl io := by
  have hret : (xvIoStart ctl loop io).1 ≠ xvErr ↔ io.Proper ∧ loop.Takes ctl io := by
    rw [xvIoStart_stopped hstopped]
    exact xvLoopAddEvent_ret ctl loop { io with start := true }
  rw [← hret]
  constructor
  · intro hunchanged herr
    have hstart := (hunchanged herr).start
    rw [xvIoStart_io, hstopped] at hstart
    simp at hstart
  · exact fun hok herr => absurd herr hok

/-- What a start that failed has left: all but the kernel's list as if it had not. -/
structure Loop.LeftStarted (loop : Loop) (io : Io) (loop' : Loop) (io' : Io) : Prop where
  start : io' = { io with start := true }
  slot : io.Proper → io.fd < loop.setsize → loop'.slot io.fd = (loop.slot io.fd).add io
  interest : loop'.poller.interest = loop.poller.interest
  restart : ∀ ctl loop, (xvIoStart ctl loop io').1 = xvErr
  destroy : xvIoDestroy io' = xvErr

theorem xvIoStart_failed (hstopped : io.start = false) (herr : (xvIoStart ctl loop io).1 = xvErr) :
    loop.LeftStarted io (xvIoStart ctl loop io).2.1 (xvIoStart ctl loop io).2.2 := by
  refine ⟨xvIoStart_io .., fun hio hfd => xvIoStart_slot_self hstopped hfd hio, ?_, ?_, ?_⟩
  · rw [xvIoStart_stopped hstopped] at herr ⊢
    exact xvLoopAddEvent_failed herr
  · rw [xvIoStart_io]
    exact fun _ _ => rfl
  · rw [xvIoStart_io]
    rfl

theorem xvAsyncStart_failed (hstopped : async.readIo.start = false)
    (herr : (xvAsyncStart ctl loop async).1 = xvErr) :
    loop.LeftStarted async.readIo (xvAsyncStart ctl loop async).2.1
        (xvAsyncStart ctl loop async).2.2.readIo ∧
      xvAsyncDestroy (xvAsyncStart ctl loop async).2.2 = xvErr := by
  have hleft := xvIoStart_failed hstopped herr
  exact ⟨hleft, hleft.destroy⟩

/--
**When a failed start changes nothing**: for any loop, any stopped io and any outcomes of
`epoll_ctl`, that `xv_io_start` changes nothing where it fails is true only where it does not
fail, the event being a direction and `epoll_ctl` succeeding.  After a failure the flag, the
pointer and the mask say that the io is started, and it can be neither started nor destroyed.
The same goes for `xv_async_start`.
-/
theorem failed_start_iff (hstopped : io.start = false) (hasync : async.readIo.start = false) :
    (((xvIoStart ctl loop io).1 = xvErr →
        loop.Unchanged io (xvIoStart ctl loop io).2.1 (xvIoStart ctl loop io).2.2) ↔
      io.Proper ∧ loop.Takes ctl io) ∧
    (((xvAsyncStart ctl loop async).1 = xvErr →
        loop.Unchanged async.readIo (xvAsyncStart ctl loop async).2.1
          (xvAsyncStart ctl loop async).2.2.readIo) ↔
      async.readIo.Proper ∧ loop.Takes ctl async.readIo) ∧
    ((xvIoStart ctl loop io).1 = xvErr →
      loop.LeftStarted io (xvIoStart ctl loop io).2.1 (xvIoStart ctl loop io).2.2) ∧
    ((xvAsyncStart ctl loop async).1 = xvErr →
      loop.LeftStarted async.readIo (xvAsyncStart ctl loop async).2.1
          (xvAsyncStart ctl loop async).2.2.readIo ∧
        xvAsyncDestroy (xvAsyncStart ctl loop async).2.2 = xvErr) :=
  ⟨xvIoStart_unchanged_iff hstopped, xvIoStart_unchanged_iff hasync, xvIoStart_failed hstopped,
    xvAsyncStart_failed hasync⟩

/-- On a new loop whose kernel takes everything, and on one whose kernel takes nothing. -/
theorem failed_start_iff_new :
    ((xvIoStart epollKernel (xvLoopInit 1024) (xvIoInit 0 5 xvRead)).1 = xvErr →
      (xvLoopInit 1024).Unchanged (xvIoInit 0 5 xvRead)
        (xvIoStart epollKernel (xvLoopInit 1024) (xvIoInit 0 5 xvRead)).2.1
        (xvIoStart epollKernel (xvLoopInit 1024) (xvIoInit 0 5 xvRead)).2.2) ∧
    (xvLoopInit 1024).LeftStarted (xvIoInit 0 5 xvRead)
      (xvIoStart (fun _ _ _ _ => false) (xvLoopInit 1024) (xvIoInit 0 5 xvRead)).2.1
      (xvIoStart (fun _ _ _ _ => false) (xvLoopInit 1024) (xvIoInit 0 5 xvRead)).2.2 :=
  have hasync : (xvAsyncInit 1 6).readIo.start = false := rfl
  ⟨(failed_start_iff rfl hasync).1.mpr ⟨.inl rfl, rfl⟩, (failed_start_iff rfl hasync).2.2.1 rfl⟩

/-- The kernel refuses the read io of fd 5, for want of memory.  The write io of the fd is then
refused too, by any kernel that goes by its list, as the leftover mask has it modified. -/
theorem failed_start_leaves_mask :
    let (ret, loop, io) :=
      xvIoStart (fun _ _ _ _ => false) (xvLoopInit 1024) (xvIoInit 0 5 xvRead)
    ret = xvErr ∧ io.start = true ∧ loop.slot 5 = ⟨xvRead, some 0, none⟩ ∧
      loop.poller.interest 5 = none ∧
      ¬ (xvLoopInit 1024).Unchanged (xvIoInit 0 5 xvRead) loop io ∧
      (xvIoStart epollKernel loop (xvIoInit 1 5 xvWrite)).1 = xvErr := by
  refine ⟨rfl, rfl, rfl, rfl, fun hunchanged => ?_, rfl⟩
  exact absurd hunchanged.start (by decide)

end Libxv
