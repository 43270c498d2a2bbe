/-
When a connection is freed.

An io thread frees a connection from two places.  `xv_connection_close` frees it after a
reference check, `io_thread_return_message_cb` when a message comes back to a connection
that is closed, without one.  Between the last test and `xv_connection_destroy` nobody else
is kept from taking a reference.  `SoleRelease` excludes these two gaps; under it a
connection is freed with its own reference alone left, and no live message refers to it
afterwards.
-/
import Libxv.Proofs.Service.Responses

namespace Libxv

open Function Transition

variable {P : Type} {cfg : Config} {ctl : EpollCtl} {s : State P}

/-- The connection a thread has made its last test of and is about to free. -/
def Pc.releases : Pc P → Option Nat
  | .closeDel c _ | .closeFd c _ | .closeFree c _ | .freeReturned c => some c
  | _ => none

/-- The connection's io thread is about to free it. -/
def State.releasing (s : State P) (c : Nat) : Bool :=
  match s.owner c with
  | some t => (s.pc (.io t)).releases == some c
  | none => false

/-- A message that comes back to a closed connection holds the only reference but one, and
nobody takes a reference to a connection that is about to be freed. -/
def SoleRelease (s : State P) : Label P → Prop
  | .act a _ =>
      match s.pc a with
      | .returned m =>
          (s.conns (s.msgs m).conn).conn.status = .closed →
            (s.conns (s.msgs m).conn).conn.refCount = 2
      | .sendInit c _ => s.releasing c = false
      | _ => True
  | .incrRef c => s.releasing c = false
  | .decrRef _ => True

/-- The message whose connection's status the next instruction tests. -/
def Pc.tests : Pc P → Option Nat
  | .returned m => some m
  | _ => none

/-- The connection that a user thread is about to refer to from a message. -/
def Pc.refers : Pc P → Option Nat
  | .sendInit c _ => some c
  | _ => none

theorem soleRelease_act {s : State P} {a : Agent} {act : Act P} :
    SoleRelease s (.act a act) ↔
      (∀ m ∈ (s.pc a).tests, (s.conns (s.msgs m).conn).conn.status = .closed →
        (s.conns (s.msgs m).conn).conn.refCount = 2) ∧
      ∀ c ∈ (s.pc a).refers, s.releasing c = false := by
  unfold SoleRelease
  dsimp only
  cases s.pc a <;> simp [Pc.tests, Pc.refers]

instance (s : State P) : ∀ label, Decidable (SoleRelease s label)
  | .act _ _ => decidable_of_iff' _ soleRelease_act
  | .incrRef c => inferInstanceAs (Decidable (s.releasing c = false))
  | .decrRef _ => inferInstanceAs (Decidable True)

/-- What a run without a premature release keeps. -/
structure State.Releases (s : State P) : Prop where
  /-- A connection about to be freed has its own reference alone. -/
  sole : ∀ a c, (s.pc a).releases = some c → (s.conns c).conn.refCount = 1
  /-- No live message refers to a freed connection. -/
  gone : ∀ m, s.live m = true → (s.conns (s.msgs m).conn).freed = 0

theorem Pc.serves_of_releases {pc : Pc P} {msgs : Nat → Message P} {c : Nat}
    (h : pc.releases = some c) : pc.serves msgs = some c := by
  cases pc <;> simp_all [Pc.releases, Pc.serves]

theorem State.Affine.releasing (h : s.Affine) {a : Agent} {c : Nat}
    (hc : (s.pc a).releases = some c) : s.releasing c = true := by
  obtain ⟨t, rfl, howner⟩ := h.serving a c (Pc.serves_of_releases hc)
  simp [State.releasing, howner, hc]

/-- The references of a connection that another thread is about to free do not change. -/
theorem State.Releases.other (h : s.Releases) (hsound : s.Sound) {a b : Agent} {act : Act P}
    {next : State P} {pc' : Pc P} {c : Nat} (hok : SoleRelease s (.act a act))
    (hinstr : Instr cfg ctl s a (s.pc a) act next pc') (hb : b ≠ a)
    (hc : (s.pc b).releases = some c) : (next.conns c).conn.refCount = 1 := by
  have hserves : (s.pc b).serves s.msgs = some c := Pc.serves_of_releases hc
  have hserving : (s.pc a).serves s.msgs ≠ some c :=
    fun ha => hb (hsound.affine.serving_unique hserves ha)
  obtain ⟨t, hbt, howner⟩ := hsound.affine.serving b c hserves
  have hreleasing := hsound.affine.releasing hc
  have hold := h.sole b c hc
  have hstep := hinstr.connStep_of_lt (hsound.adopted.known c t howner)
  unfold SoleRelease at hok
  dsimp only at hok
  generalize s.pc a = pc at hstep hserving hok
  generalize next.conns c = conn at hstep
  cases hstep with
  | used _ _ hsame _ => exact hsame.refCount.trans hold
  | request hslot hsame =>
      have hslots := hsound.affine.slots _ _ c (Or.inl hslot)
      rw [howner] at hslots
      exact absurd (hbt.trans (congrArg Agent.io (Option.some.inj hslots))) hb
  | closed hclosed => exact hclosed.refCount.trans hold
  | sender => exact absurd (hok.symm.trans hreleasing) (by decide)
  | finished hm => exact absurd (congrArg some hm) hserving
  | returned hm _ => exact absurd (congrArg some hm) hserving
  | _ => exact hold

/-- The thread that makes the instruction. -/
theorem State.Releases.own (h : s.Releases) (hsound : s.Sound) {a : Agent} {act : Act P}
    {next : State P} {pc' : Pc P} {c : Nat} (hok : SoleRelease s (.act a act))
    (hinstr : Instr cfg ctl s a (s.pc a) act next pc') (hc : pc'.releases = some c) :
    (next.conns c).conn.refCount = 1 := by
  have hserving := hsound.affine.serving a
  have hsole := h.sole a
  unfold SoleRelease at hok
  dsimp only at hok
  generalize s.pc a = pc at hinstr hserving hsole hok
  cases hinstr
  case closeLast t c' resume href =>
    obtain rfl : c' = c := Option.some.inj hc
    obtain ⟨t', -, howner⟩ := hserving c' rfl
    exact (hsound.counted.last (hsound.adopted.known c' t' howner) (by omega)).1
  case closeDel t c' resume | closeFd t c' resume =>
    obtain rfl : c' = c := Option.some.inj hc
    exact (update_same s.conns c' _ (fun conn => conn.conn.refCount) (by rfl) c').trans
      (hsole c' rfl)
  case returnedClosed t m hstatus =>
    obtain rfl : (s.msgs m).conn = c := Option.some.inj hc
    have href := s.addRef_refCount (s.msgs m).conn (-1) (s.msgs m).conn
    rw [hok hstatus, if_pos rfl] at href
    exact href
  case closeBusy t c' resume _ | closeFree t c' resume =>
    cases resume <;> exact absurd hc (by simp [Resume.pc, Pc.releases])
  case respond | write | request => split at hc <;> exact absurd hc (by simp [Pc.releases])
  case finish t m origin =>
    cases origin <;> exact absurd hc (by simp [Origin.pc, Pc.releases])
  case work i thread hrun hstep =>
    cases hthread : thread.pc <;> simp [hthread, WorkerPc.callback, Pc.releases] at hc
  all_goals exact absurd hc (by simp [Pc.releases])

theorem ConnStep.freed_cases {a : Agent} {pc : Pc P} {c : Nat} {conn : Connection}
    (h : ConnStep s c a pc conn) : conn.freed = (s.conns c).freed ∨ pc.releases = some c := by
  cases h with
  | freed hpc =>
      rcases hpc with ⟨resume, rfl⟩ | rfl
      · exact Or.inr rfl
      · exact Or.inr rfl
  | _ => exact Or.inl rfl

theorem State.freed_of_alive {c : Nat} (h : s.alive c = true) : (s.conns c).freed = 0 := by
  simp only [State.alive, Bool.and_eq_true, beq_iff_eq] at h
  exact h.2

/-- A message is made for a connection that is not freed. -/
theorem Instr.fresh_alive {a : Agent} {act : Act P} {next : State P} {pc' : Pc P}
    (hinstr : Instr cfg ctl s a (s.pc a) act next pc') (hsafe : s.safe a = true) {m : Nat}
    (hm : m < next.nextMsg) (hnew : ¬ m < s.nextMsg) :
    (next.conns (next.msgs m).conn).freed = 0 := by
  have htouch : ∀ c, (s.pc a).touches s.msgs = some c → s.alive c = true :=
    fun c hc => State.safe_alive hsafe hc
  generalize s.pc a = pc at hinstr htouch
  cases hinstr
  case request t fd c out decoded conn chunks request hslot halive hread =>
    obtain rfl : m = s.nextMsg := by
      have hm : m < s.nextMsg + 1 := hm
      omega
    simpa [State.xvMessageInit, State.addRef, State.setConn, State.receive] using
      State.freed_of_alive halive
  case sendInit u c package =>
    obtain rfl : m = s.nextMsg := by
      have hm : m < s.nextMsg + 1 := hm
      omega
    simpa [State.xvMessageInit, State.addRef, State.setConn] using
      State.freed_of_alive (htouch c rfl)
  all_goals exact absurd hm hnew

theorem State.Releases.instr_gone (h : s.Releases) (hsound : s.Sound) {a : Agent} {act : Act P}
    {next : State P} {pc' : Pc P} (hsafe : s.safe a = true)
    (hinstr : Instr cfg ctl s a (s.pc a) act next pc') (m : Nat) (hm : next.live m = true) :
    (next.conns (next.msgs m).conn).freed = 0 := by
  by_cases hlt : m < s.nextMsg
  · have hlive := hinstr.live_before hlt hm
    have hconn := hsound.counted.conns m hlt
    rw [hinstr.msg_conn hlt]
    rcases (hinstr.connStep_of_lt hconn).freed_cases with hsame | hfree
    · rw [hsame]
      exact h.gone m hlive
    · have href := h.sole a _ hfree
      exact absurd rfl ((hsound.counted.last hconn (by omega)).2.1 m hlive)
  · exact hinstr.fresh_alive hsafe (State.lt_of_live hm) hlt

/-- The user's own references. -/
theorem State.Releases.refs (h : s.Releases) {next : State P} (hsame : s.SameButRefs next)
    (hrefs : ∀ c, s.releasing c = true → (s.conns c).conn.refCount = 1 →
      (next.conns c).conn.refCount = 1) (haffine : s.Affine) : next.Releases where
  sole := by
    intro a c hc
    rw [hsame.pc] at hc
    exact hrefs c (haffine.releasing hc) (h.sole a c hc)
  gone := by
    intro m hm
    have hlive : next.live m = s.live m := by
      unfold State.live
      rw [hsame.nextMsg, hsame.msgs]
    rw [hlive] at hm
    rw [hsame.msgs]
    obtain ⟨refCount, userRefs, hc⟩ := hsame.conns (s.msgs m).conn
    rw [hc]
    exact h.gone m hm

theorem State.Releases.step (h : s.Releases) (hsound : s.Sound) {label : Label P} {s' : State P}
    (hok : SoleRelease s label) (hstep : s.step cfg ctl label = some s') : s'.Releases := by
  rcases State.step_cases hstep with ⟨a, act, next, pc, rfl, hsafe, -, hinstr, rfl⟩ |
      ⟨c, rfl, -, rfl⟩ | ⟨c, rfl, halive, hpos, rfl⟩
  · refine ⟨fun b c hc => ?_, fun m hm => h.instr_gone hsound hsafe hinstr m hm⟩
    show (next.conns c).conn.refCount = 1
    by_cases hb : b = a
    · subst hb
      rw [State.goto_pc_self] at hc
      exact h.own hsound hok hinstr hc
    · rw [State.goto_pc_of_ne _ _ hb, hinstr.pc_eq] at hc
      exact h.other hsound hok hinstr hb hc
  · refine h.refs (s.incrRef_same c) (fun c' hreleasing hold => ?_) hsound.affine
    have hne : c' ≠ c := by
      rintro rfl
      exact absurd (hreleasing.symm.trans hok) (by decide)
    simpa [State.incrRef, State.addRef, State.setConn, hne] using hold
  · refine h.refs (s.decrRef_same c) (fun c' _ hold => ?_) hsound.affine
    have hne : c' ≠ c := by
      rintro rfl
      have huser := (hsound.counted.last (State.lt_of_alive halive) (by omega)).2.2
      omega
    simpa [State.decrRef, State.addRef, State.setConn, hne] using hold

theorem State.Releases.init : (State.init : State P).Releases where
  sole := fun a c h => by cases a <;> cases h
  gone := fun _ _ => rfl

theorem State.releases (h : Reach (State.step cfg ctl) SoleRelease (· = State.init) s) :
    s.Sound ∧ s.Releases :=
  ⟨State.sound h,
    State.invariant h .init fun _ _ _ hsound hs hok hstep => hs.step hsound hok hstep⟩

/-- The next instruction of a thread is `xv_connection_destroy`. -/
def Pc.destroys : Pc P → Option Nat
  | .closeFree c _ | .freeReturned c => some c
  | _ => none

/--
**In a run of sole releases no connection is freed prematurely**: whenever an io thread
calls `xv_connection_destroy`, the reference count is one and no live message refers to the
connection; and no message in a queue or in a thread's hands refers to a freed one.
-/
theorem release_not_premature
    (h : Reach (State.step cfg ctl) SoleRelease (· = State.init) s) :
    (∀ a c, (s.pc a).destroys = some c →
        (s.conns c).conn.refCount = 1 ∧ ∀ m, s.live m = true → (s.msgs m).conn ≠ c) ∧
      ∀ p m, m ∈ s.contents p → (s.conns (s.msgs m).conn).freed = 0 := by
  obtain ⟨hsound, hreleases⟩ := State.releases h
  refine ⟨fun a c hc => ?_, fun p m hm => hreleases.gone m (hsound.owned.placed.live hm)⟩
  have hrel : (s.pc a).releases = some c := by
    cases hpc : s.pc a <;> simp_all [Pc.destroys, Pc.releases]
  obtain ⟨t, -, howner⟩ := hsound.affine.serving a c (Pc.serves_of_releases hrel)
  have href := hreleases.sole a c hrel
  exact ⟨href, (hsound.counted.last (hsound.adopted.known c t howner) (by omega)).2.1⟩

theorem release_not_premature_eof :
    ∃ s : State Unit, s.pc (.io 0) = .closeFree 0 .poll ∧ (s.conns 0).conn.refCount = 1 := by
  have hrun : ∃ s : State Unit,
      Reach (State.step inlineConfig acceptAll) SoleRelease (· = State.init) s ∧
        s.pc (.io 0) = .closeFree 0 .poll :=
    ⟨_, Reach.play (acceptOne ++ readEof ++ goes (.io 0) 2) (.start rfl) (by decide) rfl, rfl⟩
  obtain ⟨s, hreach, hpc⟩ := hrun
  exact ⟨s, hpc, ((release_not_premature hreach).1 (.io 0) 0 (by rw [hpc]; rfl)).1⟩

/-- The io thread reads a request and gives it to the worker. -/
def requestToWorker (b : UInt8) : List (Label Unit) :=
  readRequest Unit (byteChunk b) () :: .act (.io 0) (.malloc 4096) :: goes (.io 0) 1

/-- The worker takes a task, runs it and sends the message back. -/
def workOne : List (Label Unit) :=
  goes (.worker 0) 2 ++ [.act (.worker 0) (.process (some ()))] ++ goes (.worker 0) 3

/-- Two requests are with the workers when the peer closes; the first message to come back
frees the connection under the second. -/
theorem released_under_message :
    ∃ s : State Unit, Reachable (State.step workerConfig acceptAll) (· = State.init) s ∧
      s.pc (.io 0) = .freeReturned 0 ∧ (s.conns 0).conn.refCount = 2 ∧
      s.live 1 = true ∧ (s.msgs 1).conn = 0 ∧ (s.io 0).messageQueue = [1] :=
  ⟨_, Reachable.play
    (acceptOne ++ requestToWorker 1 ++ requestToWorker 2 ++ goes (.worker 0) 4 ++ workOne ++
      workOne ++ readEof ++ popReturned ++ goes (.io 0) 1)
    (.start rfl) rfl, rfl, rfl, rfl, rfl, rfl⟩

end Libxv
