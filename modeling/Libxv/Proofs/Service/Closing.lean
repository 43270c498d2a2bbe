/-
When a closed connection is released.

`xv_connection_close` releases a connection in three actions, each once and in order: it is
deleted from the table, its fd is closed, its memory is freed.  It starts on them only if
the reference check finds its own reference alone.  Where the check finds another one, the
close is left to whoever drops it, and nobody takes it up: `xv_message_destroy` and
`xv_connection_decr_ref` only count, and `io_thread_return_message_cb` does the third
action without the first two.  `ClosesLast` excludes such a check; under it a closed
connection is released as soon as the callback that closed it is over.
-/
import Libxv.Proofs.Service.Table

namespace Libxv

open Function Transition

variable {P : Type} {cfg : Config} {ctl : EpollCtl} {s : State P}

/-- The reference check of `xv_connection_close` finds no reference but the connection's
own. -/
def ClosesLast (s : State P) : Label P → Prop
  | .act a _ =>
      match s.pc a with
      | .closeRef c _ => (s.conns c).conn.refCount ≤ 1
      | _ => True
  | _ => True

/-- The connection whose references the next instruction counts. -/
def Pc.counts : Pc P → Option Nat
  | .closeRef c _ => some c
  | _ => none

theorem closesLast_act {a : Agent} {act : Act P} :
    ClosesLast s (.act a act) ↔ ∀ c ∈ (s.pc a).counts, (s.conns c).conn.refCount ≤ 1 := by
  unfold ClosesLast
  dsimp only
  cases s.pc a <;> simp [Pc.counts]

instance (s : State P) : ∀ label, Decidable (ClosesLast s label)
  | .act _ _ => decidable_of_iff' _ closesLast_act
  | .incrRef _ | .decrRef _ => inferInstanceAs (Decidable True)

/-- A connection that a thread is closing, and how far it has come. -/
def Pc.phase : Pc P → Option (Nat × Nat × Nat × Nat)
  | .closeRef c _ | .closeDel c _ => some (c, 0, 0, 0)
  | .closeFd c _ => some (c, 1, 0, 0)
  | .closeFree c _ => some (c, 1, 1, 0)
  | _ => none

/-- What a run keeps whose closes find the last reference. -/
structure State.Closes (s : State P) : Prop where
  phase : ∀ a c p, (s.pc a).phase = some (c, p) →
    (s.conns c).conn.status = .closed ∧ (s.conns c).cleaned = p
  opened : ∀ c, c < s.nextConn → (s.conns c).conn.status = .opened →
    (s.conns c).cleaned = (0, 0, 0)
  closed : ∀ c, c < s.nextConn → (s.conns c).conn.status = .closed →
    (s.conns c).cleaned = (1, 1, 1) ∨ ∃ a p, (s.pc a).phase = some (c, p)
  /-- `io_thread_return_message_cb` frees nothing. -/
  unreturned : ∀ a c, s.pc a ≠ .freeReturned c
  fresh : ∀ c, c < s.nextConn → s.owner c = none → (s.conns c).conn.status = .opened
  registered : ∀ c, c < s.nextConn →
    (∃ a, s.pc a = .addConnection c) ∨ (s.conns c).conn.fd < s.table.setsize
  slot : ∀ c, c < s.nextConn → (s.conns c).deleted ≠ 0 →
    s.table.slots (s.conns c).conn.fd ≠ some c

theorem Pc.serves_of_phase {pc : Pc P} {msgs : Nat → Message P} {c : Nat} {p : Nat × Nat × Nat}
    (h : pc.phase = some (c, p)) : pc.serves msgs = some c := by
  cases pc <;> simp_all [Pc.phase, Pc.serves]

theorem ConnStep.cleaned_cases {a : Agent} {pc : Pc P} {c : Nat} {conn : Connection}
    (h : ConnStep s c a pc conn) :
    conn.cleaned = (s.conns c).cleaned ∨ pc.releases = some c := by
  cases h with
  | freed hpc =>
      rcases hpc with ⟨resume, rfl⟩ | rfl
      · exact Or.inr rfl
      · exact Or.inr rfl
  | deleted _ | fdClosed => exact Or.inr rfl
  | _ => exact Or.inl rfl

/-- A thread that releases a connection is closing it. -/
theorem State.Closes.phase_of_releases (h : s.Closes) {a : Agent} {c : Nat}
    (hc : (s.pc a).releases = some c) : ∃ p, (s.pc a).phase = some (c, p) := by
  have hun := h.unreturned a
  generalize s.pc a = pc at hc hun
  cases pc
  case closeDel c' _ | closeFd c' _ | closeFree c' _ =>
    obtain rfl : c' = c := Option.some.inj hc
    exact ⟨_, rfl⟩
  case freeReturned c' => exact absurd rfl (hun c')
  all_goals exact absurd hc (by simp [Pc.releases])

/-- A thread in a callback of a closed connection that is not freed is closing it. -/
theorem State.Closes.phase_of_serves (h : s.Closes) (hsound : s.Sound) {a : Agent} {c : Nat}
    (hserves : (s.pc a).serves s.msgs = some c) (halive : s.alive c = true)
    (hclosed : (s.conns c).conn.status = .closed) : ∃ p, (s.pc a).phase = some (c, p) := by
  rcases h.closed c (State.lt_of_alive halive) hclosed with hall | ⟨b, p, hp⟩
  · have hfreed : (s.conns c).freed = 1 := (Prod.mk.inj (Prod.mk.inj hall).2).2
    rw [State.freed_of_alive halive] at hfreed
    exact absurd hfreed (by decide)
  · rw [hsound.affine.serving_unique hserves (Pc.serves_of_phase hp)]
    exact ⟨p, hp⟩

/-! ### The phases of a close -/

/-- A connection that another thread is closing. -/
theorem State.Closes.phase_other (h : s.Closes) (hsound : s.Sound) {a b : Agent} {act : Act P}
    {next : State P} {pc' : Pc P} {c : Nat} {p : Nat × Nat × Nat}
    (hinstr : Instr cfg ctl s a (s.pc a) act next pc') (hb : b ≠ a)
    (hp : (s.pc b).phase = some (c, p)) :
    (next.conns c).conn.status = .closed ∧ (next.conns c).cleaned = p := by
  have hserves : (s.pc b).serves s.msgs = some c := Pc.serves_of_phase hp
  have hnot : (s.pc a).serves s.msgs ≠ some c :=
    fun ha => hb (hsound.affine.serving_unique hserves ha)
  obtain ⟨t, -, howner⟩ := hsound.affine.serving b c hserves
  have hlt := hsound.adopted.known c t howner
  obtain ⟨hclosed, hcleaned⟩ := h.phase b c p hp
  constructor
  · rw [hinstr.status_eq hlt fun resume hpc => hnot (by rw [hpc]; rfl)]
    exact hclosed
  · rcases (hinstr.connStep_of_lt hlt).cleaned_cases with hsame | hrel
    · rw [hsame]
      exact hcleaned
    · exact absurd (Pc.serves_of_releases hrel) hnot

/-- The thread that makes the instruction. -/
theorem State.Closes.phase_own (h : s.Closes) (hsound : s.Sound) {a : Agent} {act : Act P}
    {next : State P} {pc' : Pc P} {c : Nat} {p : Nat × Nat × Nat} (hsafe : s.safe a = true)
    (hinstr : Instr cfg ctl s a (s.pc a) act next pc') (hp : pc'.phase = some (c, p)) :
    (next.conns c).conn.status = .closed ∧ (next.conns c).cleaned = p := by
  have htouch : ∀ c, (s.pc a).touches s.msgs = some c → s.alive c = true :=
    fun c hc => State.safe_alive hsafe hc
  have hphase := h.phase a
  have hserved := fun c hserves => h.phase_of_serves hsound (a := a) (c := c) hserves
  have hregistered : ∀ c, (s.pc a).serves s.msgs = some c →
      (s.conns c).conn.fd < s.table.setsize := by
    intro c hc
    obtain ⟨t, -, howner⟩ := hsound.affine.serving a c hc
    refine (h.registered c (hsound.adopted.known c t howner)).resolve_left ?_
    rintro ⟨b, hb⟩
    have hnew : c ∈ s.newcomers (.held b) := by simp [State.newcomers, hb, Pc.adopts]
    exact absurd ((hsound.adopted.placed.live hnew).2.symm.trans howner) (by simp)
  generalize s.pc a = pc at hinstr htouch hphase hserved hregistered
  cases hinstr
  case close t c' owner resume howner =>
    obtain ⟨rfl, rfl⟩ : c' = c ∧ (0, 0, 0) = p := by simpa [Pc.phase] using hp
    have halive := htouch c' rfl
    have hopen : (s.conns c').conn.status = .opened := by
      cases hst : (s.conns c').conn.status with
      | opened => rfl
      | closed =>
          obtain ⟨p, hp⟩ := hserved c' rfl halive hst
          exact absurd hp (by simp [Pc.phase])
    have hconns : ((s.markClosed ctl owner c').conns c').conn =
        (closeConnection ctl (s.io owner).loop (s.conns c').conn).2 := by
      simp [State.markClosed, State.setConn]
    constructor
    · rw [hconns]
      exact (closeConnection_from ..).status
    · exact (update_same s.conns c' _ Connection.cleaned (by rfl) c').trans
        (h.opened c' (State.lt_of_alive halive) hopen)
  case closeLast t c' resume href => exact hphase c p hp
  case closeDel t c' resume =>
    obtain ⟨rfl, rfl⟩ : c' = c ∧ (1, 0, 0) = p := by simpa [Pc.phase] using hp
    obtain ⟨hclosed, hcleaned⟩ := hphase c' _ rfl
    have hdel := s.delConnection_cleaned (hregistered c' rfl)
    have hsame := hcleaned
    simp only [Connection.cleaned, Prod.mk.injEq] at hsame
    obtain ⟨hdeleted, hfd, hfreed⟩ := hsame
    constructor
    · exact (update_same s.conns c' _ (fun conn => conn.conn.status) (by rfl) c').trans hclosed
    · unfold Connection.cleaned
      rw [hdel, hdeleted,
        show ((s.delConnection c').conns c').fdClosed = _ from
          update_same s.conns c' _ Connection.fdClosed (by rfl) c',
        show ((s.delConnection c').conns c').freed = _ from
          update_same s.conns c' _ Connection.freed (by rfl) c', hfd, hfreed]
  case closeFd t c' resume =>
    obtain ⟨rfl, rfl⟩ : c' = c ∧ (1, 1, 0) = p := by simpa [Pc.phase] using hp
    obtain ⟨hclosed, hcleaned⟩ := hphase c' _ rfl
    simp only [Connection.cleaned, Prod.mk.injEq] at hcleaned
    obtain ⟨hdeleted, hfd, hfreed⟩ := hcleaned
    constructor
    · exact (update_same s.conns c' _ (fun conn => conn.conn.status) (by rfl) c').trans hclosed
    · simp [State.closeFd, Connection.cleaned, hdeleted, hfd, hfreed]
  case closeBusy t c' resume _ | closeFree t c' resume =>
    cases resume <;> exact absurd hp (by simp [Resume.pc, Pc.phase])
  case respond | write | request => split at hp <;> exact absurd hp (by simp [Pc.phase])
  case finish t m origin => cases origin <;> exact absurd hp (by simp [Origin.pc, Pc.phase])
  case work i thread hrun hstep =>
    cases hthread : thread.pc <;> simp [hthread, WorkerPc.callback, Pc.phase] at hp
  all_goals exact absurd hp (by simp [Pc.phase])

/-- A close that has begun goes on until the connection is released. -/
theorem State.Closes.phase_next (h : s.Closes) (hsound : s.Sound) {a : Agent} {act : Act P}
    {next : State P}
    {pc' : Pc P} {c : Nat} {p : Nat × Nat × Nat} (hok : ClosesLast s (.act a act))
    (hinstr : Instr cfg ctl s a (s.pc a) act next pc') (hp : (s.pc a).phase = some (c, p)) :
    (next.conns c).cleaned = (1, 1, 1) ∨ ∃ p', pc'.phase = some (c, p') := by
  obtain ⟨t, rfl, -⟩ := hsound.affine.serving a c (Pc.serves_of_phase hp)
  have hphase := h.phase _ c p hp
  unfold ClosesLast at hok
  dsimp only at hok
  generalize s.pc (.io t) = pc at hinstr hp hok
  cases hinstr
  case closeBusy c' resume href => exact absurd hok (by omega)
  case closeLast c' resume href | closeDel c' resume | closeFd c' resume =>
    obtain ⟨rfl, -⟩ : c' = c ∧ _ = p := by simpa [Pc.phase] using hp
    exact Or.inr ⟨_, rfl⟩
  case closeFree c' resume =>
    obtain ⟨rfl, rfl⟩ : c' = c ∧ (1, 1, 0) = p := by simpa [Pc.phase] using hp
    obtain ⟨-, hcleaned⟩ := hphase
    simp only [Connection.cleaned, Prod.mk.injEq] at hcleaned
    obtain ⟨hdeleted, hfd, hfreed⟩ := hcleaned
    left
    simp [State.freeConn, Connection.cleaned, hdeleted, hfd, hfreed]
  all_goals exact absurd hp (by simp [Pc.phase])

/-! ### One instruction -/

theorem State.Closes.instr_fresh (h : s.Closes) (hsound : s.Sound) {a : Agent} {act : Act P}
    {next : State P} {pc' : Pc P} (hinstr : Instr cfg ctl s a (s.pc a) act next pc') {c : Nat}
    (hc : c < next.nextConn) (hnone : next.owner c = none) :
    (next.conns c).conn.status = .opened := by
  rcases hinstr.conns_cases hc with hlt | ⟨rfl, -, fd, handle, mem, rfl⟩
  · have hbefore : s.owner c = none := by
      cases howner : s.owner c with
      | none => rfl
      | some t =>
          exact absurd ((hsound.adopted.owner_mono hinstr howner).symm.trans hnone) (by simp)
    rw [hinstr.status_eq hlt fun resume hpc => ?_]
    · exact h.fresh c hlt hbefore
    · obtain ⟨t, -, howner⟩ := hsound.affine.serving a c (by rw [hpc]; rfl)
      exact absurd (howner.symm.trans hbefore) (by simp)
  · simp [State.accept, xvConnectionInit]

theorem State.Closes.instr_opened (h : s.Closes) {a : Agent} {act : Act P} {next : State P}
    {pc' : Pc P} (hinstr : Instr cfg ctl s a (s.pc a) act next pc') {c : Nat}
    (hc : c < next.nextConn) (hopen : (next.conns c).conn.status = .opened) :
    (next.conns c).cleaned = (0, 0, 0) := by
  rcases hinstr.conns_cases hc with hlt | ⟨rfl, -, fd, handle, mem, rfl⟩
  · have hbefore := hinstr.status_before hlt hopen
    rcases (hinstr.connStep_of_lt hlt).cleaned_cases with hsame | hrel
    · rw [hsame]
      exact h.opened c hlt hbefore
    · obtain ⟨p, hp⟩ := h.phase_of_releases hrel
      rw [(h.phase a c p hp).1] at hbefore
      exact absurd hbefore (by decide)
  · simp [State.accept, Connection.cleaned]

theorem State.Closes.instr_closed (h : s.Closes) (hsound : s.Sound) {a : Agent} {act : Act P}
    {next : State P} {pc' : Pc P} (hok : ClosesLast s (.act a act)) (hsafe : s.safe a = true)
    (hinstr : Instr cfg ctl s a (s.pc a) act next pc') {c : Nat} (hc : c < next.nextConn)
    (hclosed : (next.conns c).conn.status = .closed) :
    (next.conns c).cleaned = (1, 1, 1) ∨ ∃ b p, ((next.goto a pc').pc b).phase = some (c, p) := by
  rcases hinstr.conns_cases hc with hlt | ⟨rfl, -, fd, handle, mem, rfl⟩
  · rcases (hinstr.connStep_of_lt hlt).status_cases with hsame | ⟨⟨resume, hclose⟩, -⟩
    · rcases h.closed c hlt (hsame.symm.trans hclosed) with hall | ⟨b, p, hp⟩
      · left
        rcases (hinstr.connStep_of_lt hlt).cleaned_cases with hkeep | hrel
        · exact hkeep.trans hall
        · -- A connection that is freed is not touched any more.
          have hfreed : (s.conns c).freed = 1 := (Prod.mk.inj (Prod.mk.inj hall).2).2
          have htouch : (s.pc a).touches s.msgs = some c := by
            cases hpc : s.pc a <;> simp_all [Pc.releases, Pc.touches]
          rw [State.freed_of_alive (State.safe_alive hsafe htouch)] at hfreed
          exact absurd hfreed (by decide)
      · by_cases hb : b = a
        · subst hb
          rcases h.phase_next hsound hok hinstr hp with hall | ⟨p', hp'⟩
          · exact Or.inl hall
          · exact Or.inr ⟨b, p', by rw [State.goto_pc_self]; exact hp'⟩
        · exact Or.inr ⟨b, p, by rw [State.goto_pc_of_ne _ _ hb, hinstr.pc_eq]; exact hp⟩
    · -- The step closes the connection and goes on to its reference check.
      obtain ⟨t, rfl, -⟩ := hsound.affine.serving a c (by rw [hclose]; rfl)
      refine Or.inr ⟨.io t, (0, 0, 0), ?_⟩
      rw [State.goto_pc_self]
      rw [hclose] at hinstr
      cases hinstr
      rfl
  · simp [State.accept, xvConnectionInit] at hclosed

theorem State.Closes.instr_unreturned (h : s.Closes) (hsound : s.Sound) {a : Agent}
    {act : Act P} {next : State P} {pc' : Pc P} (hsafe : s.safe a = true)
    (hinstr : Instr cfg ctl s a (s.pc a) act next pc') (c : Nat) : pc' ≠ .freeReturned c := by
  have htouch : ∀ c, (s.pc a).touches s.msgs = some c → s.alive c = true :=
    fun c hc => State.safe_alive hsafe hc
  have hserved := fun c hserves => h.phase_of_serves hsound (a := a) (c := c) hserves
  generalize s.pc a = pc at hinstr htouch hserved
  intro hreturned
  cases hinstr
  case returnedClosed t m hstatus =>
    obtain ⟨p, hp⟩ := hserved _ rfl (htouch _ rfl) hstatus
    exact absurd hp (by simp [Pc.phase])
  case closeBusy t c' resume _ | closeFree t c' resume =>
    cases resume <;> exact absurd hreturned (by simp [Resume.pc])
  case respond | write | request => split at hreturned <;> simp at hreturned
  case finish t m origin => cases origin <;> exact absurd hreturned (by simp [Origin.pc])
  case work i thread hrun hstep =>
    cases hthread : thread.pc <;> simp [hthread, WorkerPc.callback] at hreturned
  all_goals simp at hreturned

/-- A connection that a thread is about to put in the table has not been deleted from it. -/
theorem State.Closes.adding (h : s.Closes) (hsound : s.Sound) {a : Agent} {c : Nat}
    (hc : s.pc a = .addConnection c) : (s.conns c).deleted = 0 := by
  have hnew : c ∈ s.newcomers (.held a) := by simp [State.newcomers, hc, Pc.adopts]
  obtain ⟨hlt, hnone⟩ := hsound.adopted.placed.live hnew
  exact (Prod.mk.inj (h.opened c hlt (h.fresh c hlt hnone))).1

theorem State.Closes.instr_slot (h : s.Closes) (hsound : s.Sound) {a : Agent} {act : Act P}
    {next : State P} {pc' : Pc P} (hinstr : Instr cfg ctl s a (s.pc a) act next pc') {c : Nat}
    (hc : c < next.nextConn) (hdeleted : (next.conns c).deleted ≠ 0) :
    next.table.slots (next.conns c).conn.fd ≠ some c := by
  rcases hinstr.conns_cases hc with hlt | ⟨rfl, -, fd, handle, mem, rfl⟩
  · rw [(hinstr.kept hlt).fd]
    by_cases hbefore : (s.conns c).deleted = 0
    · -- The step deletes it.
      rcases hinstr.deleted_cases hlt with hsame | hnone
      · exact absurd (hsame.trans hbefore) hdeleted
      · rw [hnone]
        simp
    · have hfd : (s.conns c).conn.fd < s.table.setsize :=
        (h.registered c hlt).resolve_left fun ⟨b, hb⟩ => hbefore (h.adding hsound hb)
      rcases hinstr.slots_cases hfd with hsame | ⟨-, -, -, -, hnone⟩ | ⟨c', hc', -, hslot⟩
      · rw [hsame]
        exact h.slot c hlt hbefore
      · rw [hnone]
        simp
      · rw [hslot]
        rintro hcc
        obtain rfl := Option.some.inj hcc
        exact hbefore (h.adding hsound hc')
  · simp [State.accept] at hdeleted

theorem State.Closes.instr (h : s.Closes) (hsound : s.Sound) {a : Agent} {act : Act P}
    {next : State P} {pc' : Pc P} (hok : ClosesLast s (.act a act)) (hsafe : s.safe a = true)
    (hinstr : Instr cfg ctl s a (s.pc a) act next pc') : (next.goto a pc').Closes where
  phase := by
    intro b c p hp
    by_cases hb : b = a
    · subst hb
      rw [State.goto_pc_self] at hp
      have hnext := h.phase_own hsound hsafe hinstr hp
      exact hnext
    · rw [State.goto_pc_of_ne _ _ hb, hinstr.pc_eq] at hp
      have hnext := h.phase_other hsound hinstr hb hp
      exact hnext
  opened := fun _ hc hopen => h.instr_opened hinstr hc hopen
  closed := fun _ hc hclosed => h.instr_closed hsound hok hsafe hinstr hc hclosed
  unreturned := by
    intro b c
    by_cases hb : b = a
    · subst hb
      rw [State.goto_pc_self]
      exact h.instr_unreturned hsound hsafe hinstr c
    · rw [State.goto_pc_of_ne _ _ hb, hinstr.pc_eq]
      exact h.unreturned b c
  fresh := fun _ hc hnone => h.instr_fresh hsound hinstr hc hnone
  registered := fun _ hc => hinstr.registered_next hsound.owned.resting h.registered hc
  slot := fun _ hc hdeleted => h.instr_slot hsound hinstr hc hdeleted

theorem State.Closes.refs (h : s.Closes) {next : State P} (hsame : s.SameButRefs next) :
    next.Closes := by
  have hconn : ∀ c, (next.conns c).conn.status = (s.conns c).conn.status ∧
      (next.conns c).conn.fd = (s.conns c).conn.fd ∧
      (next.conns c).cleaned = (s.conns c).cleaned := by
    intro c
    obtain ⟨refCount, userRefs, hc⟩ := hsame.conns c
    rw [hc]
    exact ⟨rfl, rfl, rfl⟩
  refine ⟨?_, ?_, ?_, ?_, ?_, ?_, ?_⟩
  · intro a c p hp
    rw [hsame.pc] at hp
    rw [(hconn c).1, (hconn c).2.2]
    exact h.phase a c p hp
  · intro c hc hopen
    rw [(hconn c).1] at hopen
    rw [(hconn c).2.2]
    exact h.opened c (hsame.nextConn ▸ hc) hopen
  · intro c hc hclosed
    rw [(hconn c).1] at hclosed
    rw [(hconn c).2.2, hsame.pc]
    exact h.closed c (hsame.nextConn ▸ hc) hclosed
  · intro a c
    rw [hsame.pc]
    exact h.unreturned a c
  · intro c hc hnone
    rw [hsame.owner] at hnone
    rw [(hconn c).1]
    exact h.fresh c (hsame.nextConn ▸ hc) hnone
  · intro c hc
    rw [hsame.pc, hsame.table, (hconn c).2.1]
    exact h.registered c (hsame.nextConn ▸ hc)
  · intro c hc hdeleted
    rw [(Prod.mk.inj (hconn c).2.2).1] at hdeleted
    rw [hsame.table, (hconn c).2.1]
    exact h.slot c (hsame.nextConn ▸ hc) hdeleted

theorem State.Closes.step (h : s.Closes) (hsound : s.Sound) {label : Label P} {s' : State P}
    (hok : ClosesLast s label) (hstep : s.step cfg ctl label = some s') : s'.Closes := by
  rcases State.step_split hstep with ⟨a, act, next, pc, rfl, hsafe, hinstr, rfl⟩ | hsame
  · exact h.instr hsound hok hsafe hinstr
  · exact h.refs hsame

theorem State.Closes.init : (State.init : State P).Closes where
  phase := fun a c p hp => by cases a <;> cases hp
  opened := fun c hc => absurd hc (Nat.not_lt_zero c)
  closed := fun c hc => absurd hc (Nat.not_lt_zero c)
  unreturned := fun a c => by cases a <;> nofun
  fresh := fun c hc => absurd hc (Nat.not_lt_zero c)
  registered := fun c hc => absurd hc (Nat.not_lt_zero c)
  slot := fun c hc => absurd hc (Nat.not_lt_zero c)

theorem State.closes (h : Reach (State.step cfg ctl) ClosesLast (· = State.init) s) :
    s.Sound ∧ s.Closes :=
  ⟨State.sound h,
    State.invariant h .init fun _ _ _ hsound hs hok hstep => hs.step hsound hok hstep⟩

end Libxv
