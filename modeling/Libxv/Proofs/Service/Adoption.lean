/-
Every new connection is adopted once.

A new connection is handed from the leader to the io thread that adopts it, and like a message
it is in one place all the while: in the hands of a thread or in one `conn_queue`.
-/
import Libxv.Proofs.Service.References

namespace Libxv

open Function Transition Placement

variable {P : Type} {cfg : Config} {ctl : EpollCtl} {s : State P}

/-- The io thread a connection belongs to. -/
def State.owner (s : State P) (c : Nat) : Option Nat := (s.conns c).conn.ioThread

/-! ### New connections -/

/-- Where a connection can be before it is adopted. -/
inductive NewPlace
  | held (a : Agent)
  | queued (t : Nat)
  deriving DecidableEq

def State.newcomers (s : State P) : NewPlace → List Nat
  | .held a => (s.pc a).adopts.toList
  | .queued t => (s.io t).connQueue

/-- The connection has been accepted and not yet adopted. -/
def State.isNew (s : State P) (c : Nat) : Prop := c < s.nextConn ∧ s.owner c = none

/-- Every new connection is in exactly one place. -/
structure State.Adopted (s : State P) : Prop where
  known : ∀ c t, s.owner c = some t → c < s.nextConn
  placed : Placed s.isNew s.newcomers

theorem newcomers_other {next : State P} {a : Agent} {pc : Pc P} (hpc : next.pc = s.pc)
    {p : NewPlace} (hheld : p ≠ .held a)
    (hqueue : ∀ t, p = .queued t → (next.io t).connQueue = (s.io t).connQueue) :
    (next.goto a pc).newcomers p = s.newcomers p := by
  cases p with
  | held b =>
      have hb : b ≠ a := fun hb => hheld (hb ▸ rfl)
      simp [State.newcomers, State.goto_pc_of_ne _ _ hb, hpc]
  | queued t => exact hqueue t rfl

theorem State.newcomers_held_self (s : State P) (a : Agent) (pc : Pc P) :
    (s.goto a pc).newcomers (.held a) = pc.adopts.toList := by
  simp [State.newcomers]

/-- A connection in a thread's hands has been accepted and not yet adopted. -/
theorem State.Adopted.lt_of_adopts (h : s.Adopted) {a : Agent} {c : Nat}
    (hadopts : (s.pc a).adopts = some c) : c < s.nextConn ∧ s.owner c = none :=
  h.placed.live (p := .held a) (by simp [State.newcomers, hadopts])

/-- An instruction that concerns no new connection. -/
theorem State.Adopted.frame (h : s.Adopted) {next : State P} {a : Agent} {pc : Pc P}
    (hpc : next.pc = s.pc) (hnext : next.nextConn = s.nextConn)
    (howner : ∀ c, next.owner c = s.owner c) (hadopts : pc.adopts = (s.pc a).adopts)
    (hqueue : ∀ t, (next.io t).connQueue = (s.io t).connQueue) : (next.goto a pc).Adopted where
  known := by
    intro c t hc
    show c < next.nextConn
    rw [hnext]
    exact h.known c t ((howner c).symm.trans hc)
  placed := by
    refine h.placed.congr (fun c => ?_) fun p => ?_
    · show c < next.nextConn ∧ next.owner c = none ↔ _
      rw [hnext, howner]
      rfl
    · by_cases hp : p = .held a
      · subst hp
        rw [State.newcomers_held_self, hadopts]
        rfl
      · exact newcomers_other hpc hp fun t _ => hqueue t

theorem State.adopt_owner (ctl : EpollCtl) (s : State P) (t c c' : Nat) :
    (s.adopt ctl t c).owner c' = if c' = c then some t else s.owner c' := by
  by_cases hc : c' = c
  · subst hc
    simp [State.adopt, State.owner, State.setConn]
  · simp [State.adopt, State.owner, State.setConn, State.setLoop, hc]

/-- The thread adopts the new connection it holds. -/
theorem State.Adopted.adopt (h : s.Adopted) {a : Agent} {pc : Pc P} {t c : Nat}
    (hbefore : (s.pc a).adopts = some c) (hafter : pc.adopts = none) :
    ((s.adopt ctl t c).goto a pc).Adopted where
  known := by
    intro c' t' hc'
    have howner := s.adopt_owner ctl t c c'
    by_cases hcc : c' = c
    · subst hcc
      have hmem : c' ∈ s.newcomers (.held a) := by simp [State.newcomers, hbefore]
      exact (h.placed.live hmem).1
    · rw [if_neg hcc] at howner
      exact h.known c' t' (howner.symm.trans hc')
  placed := by
    refine h.placed.destroy (m := c) (l := []) (p := .held a) ?_ ?_ ?_ ?_
    · simp [State.newcomers, hbefore]
    · intro x
      show x < s.nextConn ∧ (s.adopt ctl t c).owner x = none ↔ _
      rw [State.adopt_owner]
      by_cases hx : x = c
      · simp [hx]
      · simp [hx, State.isNew]
    · rw [State.newcomers_held_self, hafter]
      rfl
    · intro q hq
      exact newcomers_other (by rfl) hq fun t' _ =>
        update_same s.io _ _ IoThread.connQueue (by rfl) t'

/-- The thread takes a new connection into its hands. -/
theorem State.Adopted.accept (h : s.Adopted) {a : Agent} (fd : Nat) (handle : Handle)
    (mem : Nat → UInt8) (hbefore : (s.pc a).adopts = none) :
    ((s.accept fd handle mem).goto a (.addConnection s.nextConn)).Adopted := by
  have hold : ∀ c, c ≠ s.nextConn → (s.accept fd handle mem).owner c = s.owner c :=
    fun c hc => congrArg (fun conn : Connection => conn.conn.ioThread) (update_of_ne hc ..)
  have hnone : (s.accept fd handle mem).owner s.nextConn = none := by
    simp [State.owner, State.accept, xvConnectionInit]
  have hempty : s.newcomers (.held a) = [] := by simp [State.newcomers, hbefore]
  refine ⟨fun c t hc => ?_, ?_⟩
  · have hne : c ≠ s.nextConn := by
      rintro rfl
      exact absurd (hnone.symm.trans hc) (by simp)
    exact Nat.lt_succ_of_lt (h.known c t ((hold c hne).symm.trans hc))
  · refine h.placed.create (m := s.nextConn) (p := .held a) ?_ (fun c => ?_) ?_ ?_
    · exact fun hlt => absurd hlt.1 (Nat.lt_irrefl _)
    · show c < s.nextConn + 1 ∧ (s.accept fd handle mem).owner c = none ↔ _
      by_cases hc : c = s.nextConn
      · subst hc
        simp [hnone]
      · rw [hold c hc]
        have hlt : c < s.nextConn + 1 ↔ c < s.nextConn := by omega
        simp [State.isNew, hc, hlt]
    · rw [State.newcomers_held_self, hempty]
      rfl
    · exact fun q hq => newcomers_other (by rfl) hq fun _ _ => rfl

theorem Resume.adopts_pc (resume : Resume) : (resume.pc : Pc P).adopts = none := by
  cases resume <;> rfl

theorem Origin.adopts_pc (origin : Origin) : (origin.pc : Pc P).adopts = none := by
  cases origin <;> rfl

theorem WorkerPc.callback_adopts (pc : WorkerPc PoolTask) :
    (pc.callback : Pc P).adopts = none := by
  cases pc <;> rfl

/-- How a thread comes to have a new connection in its hands. -/
theorem Instr.adopts_cases {a : Agent} {pc pc' : Pc P} {act : Act P} {next : State P}
    (h : Instr cfg ctl s a pc act next pc') {c : Nat} (hc : pc'.adopts = some c) :
    (a = .io 0 ∧ pc' = .addConnection c ∧ s.nextConn = c) ∨
      (pc = .addConnection c ∧ pc' = .assign c) ∨
        ∃ t rest, a = .io t ∧ pc' = .adopt c ∧ (s.io t).connQueue = c :: rest := by
  cases h
  case accept t fd handle mem ht hfd =>
    exact Or.inl ⟨congrArg Agent.io ht, congrArg Pc.addConnection (Option.some.inj hc),
      Option.some.inj hc⟩
  case addConnection t c' garbage table htable =>
    obtain rfl : c' = c := Option.some.inj hc
    exact Or.inr (Or.inl ⟨rfl, rfl⟩)
  case addConnPop t c' rest hqueue =>
    obtain rfl : c' = c := Option.some.inj hc
    exact Or.inr (Or.inr ⟨t, rest, rfl, rfl, hqueue⟩)
  case closeBusy t c' resume _ | closeFree t c' resume =>
    exact absurd (resume.adopts_pc.symm.trans hc) (by simp)
  case finish t m origin => exact absurd (origin.adopts_pc.symm.trans hc) (by simp)
  case respond | write | request => split at hc <;> cases hc
  case work i thread hrun hstep => exact absurd (thread.pc.callback_adopts.symm.trans hc) (by simp)
  all_goals cases hc

/-- Only accepting and adopting say who a connection belongs to. -/
theorem Instr.owner_eq {a : Agent} {pc pc' : Pc P} {act : Act P} {next : State P}
    (h : Instr cfg ctl s a pc act next pc') (hadopts : pc.adopts = none)
    (hact : ∀ fd handle mem, act ≠ .accept fd handle mem) (c : Nat) :
    next.owner c = s.owner c :=
  (h.connStep fun _ => hact).owner_cases.resolve_right (by simp [hadopts])

/-- One instruction. -/
theorem State.Adopted.instr (h : s.Adopted) (hresting : s.Resting) {a : Agent} {act : Act P}
    {next : State P} {pc' : Pc P} (hinstr : Instr cfg ctl s a (s.pc a) act next pc') :
    (next.goto a pc').Adopted := by
  generalize hpc : s.pc a = pc at hinstr
  have hadopts : (s.pc a).adopts = pc.adopts := by rw [hpc]
  have howner := hinstr.owner_eq
  cases hinstr
  case accept t fd handle mem ht hfd => exact h.accept fd handle mem hadopts
  case assignSelf t c hone => exact h.adopt hadopts rfl
  case adopt t c => exact h.adopt hadopts rfl
  case assignOther t c index hmany hindex =>
    refine ⟨h.known, ?_⟩
    refine h.placed.move (m := c) (l := []) (p := .held (.io t)) (q := .queued index) (by simp)
      ?_ (fun _ => Iff.rfl) ?_ ?_ ?_
    · simp [State.newcomers, hpc, Pc.adopts]
    · rw [State.newcomers_held_self]
      rfl
    · simp [State.newcomers, State.pushConn, State.goto]
    · intro r hheld hr
      refine newcomers_other (by rfl) hheld fun j hj => ?_
      have hji : j ≠ index := fun hji => hr (hj.trans (by rw [hji]))
      exact congrArg IoThread.connQueue (update_of_ne hji ..)
  case addConnPop t c rest hqueue =>
    refine ⟨h.known, ?_⟩
    refine h.placed.move (m := c) (l := rest) (p := .queued t) (q := .held (.io t)) (by simp)
      hqueue (fun _ => Iff.rfl) ?_ ?_ ?_
    · simp [State.newcomers, State.popConn, State.goto, hqueue]
    · rw [State.newcomers_held_self]
      simp [State.newcomers, hpc, Pc.adopts]
    · intro r hr hheld
      refine newcomers_other (by rfl) hheld fun j hj => ?_
      have hjt : j ≠ t := fun hjt => hr (hj.trans (by rw [hjt]))
      exact congrArg IoThread.connQueue (update_of_ne hjt ..)
  case addConnection t c garbage table htable =>
    exact h.frame (by rfl) (by rfl) (fun _ => rfl) hadopts.symm fun _ => rfl
  case request t fd c out decoded conn chunks request hslot halive hread =>
    refine h.frame (by rfl) (by rfl) (howner rfl (by simp)) ?_ fun _ => rfl
    rw [hadopts]
    split <;> rfl
  case respond t m c origin pieces out sent encodes hc hsent hencodes =>
    refine h.frame (by rfl) (by rfl) (howner rfl (by simp)) ?_
      (update_same s.io _ _ IoThread.connQueue (by rfl))
    rw [hadopts]
    split <;> rfl
  case write t fd c out sent hslot halive hsent =>
    refine h.frame (by rfl) (by rfl) (howner rfl (by simp)) ?_
      (update_same s.io _ _ IoThread.connQueue (by rfl))
    rw [hadopts]
    split <;> rfl
  case closeBusy t c resume _ | closeFree t c resume =>
    exact h.frame (by rfl) (by rfl) (howner rfl (by simp)) (resume.adopts_pc.trans hadopts.symm)
      fun _ => rfl
  case finish t m origin =>
    exact h.frame (by rfl) (by rfl) (howner rfl (by simp)) (origin.adopts_pc.trans hadopts.symm)
      fun _ => rfl
  case work i thread hrun hstep =>
    refine h.frame (by rfl) (by rfl) (fun _ => rfl) ?_ fun _ => rfl
    rw [WorkerPc.callback_adopts, hresting i hrun]
    rfl
  case interrupt i thread hrun hstep =>
    refine h.frame (by rfl) (by rfl) (fun _ => rfl) ?_ fun _ => rfl
    rw [hresting i hrun]
  case entry | close | sendConn | addConnRead | taskPush | sendPush | returnPop | returnRead
      | sendSignal | taskSend =>
    exact h.frame (by rfl) (by rfl) (howner rfl (by simp)) hadopts.symm
      (update_same s.io _ _ IoThread.connQueue (by rfl))
  all_goals exact h.frame (by rfl) (by rfl) (howner rfl (by simp)) hadopts.symm fun _ => rfl

/-- A connection keeps its owner. -/
theorem State.Adopted.owner_mono (h : s.Adopted) {a : Agent} {act : Act P} {next : State P}
    {pc' : Pc P} (hinstr : Instr cfg ctl s a (s.pc a) act next pc') {c t : Nat}
    (hc : s.owner c = some t) : next.owner c = some t := by
  have hadopt : ∀ {t' c' : Nat}, (s.pc a).adopts = some c' →
      (s.adopt ctl t' c').owner c = some t := by
    intro t' c' hbefore
    have hmem : c' ∈ s.newcomers (.held a) := by simp [State.newcomers, hbefore]
    have hne : c ≠ c' := by
      rintro rfl
      exact absurd ((h.placed.live hmem).2.symm.trans hc) (by simp)
    rw [State.adopt_owner, if_neg hne]
    exact hc
  generalize hpc : s.pc a = pc at hinstr
  have hadopts : (s.pc a).adopts = pc.adopts := by rw [hpc]
  have howner := hinstr.owner_eq
  cases hinstr
  case accept t' fd handle mem ht hfd =>
    have hne : c ≠ s.nextConn := Nat.ne_of_lt (h.known c t hc)
    exact (congrArg (fun conn : Connection => conn.conn.ioThread) (update_of_ne hne ..)).trans hc
  case assignSelf | adopt => exact hadopt hadopts
  case addConnection | assignOther => exact hc
  case work | interrupt => exact hc
  all_goals exact (howner rfl (by simp) c).trans hc

theorem State.SameButRefs.owner {next : State P} (h : s.SameButRefs next) (c : Nat) :
    next.owner c = s.owner c := by
  obtain ⟨refCount, userRefs, hc⟩ := h.conns c
  unfold State.owner
  rw [hc]

theorem State.Adopted.refs (h : s.Adopted) {next : State P} (hsame : s.SameButRefs next) :
    next.Adopted where
  known := by
    intro c t hc
    rw [hsame.nextConn]
    exact h.known c t ((hsame.owner c).symm.trans hc)
  placed := by
    refine h.placed.congr (fun c => ?_) fun p => ?_
    · unfold State.isNew
      rw [hsame.nextConn, hsame.owner]
    · cases p with
      | held a => simp only [State.newcomers, hsame.pc]
      | queued t => simp only [State.newcomers, hsame.io]

theorem State.Adopted.step (h : s.Adopted) (hresting : s.Resting) {label : Label P}
    {s' : State P} (hstep : s.step cfg ctl label = some s') : s'.Adopted := by
  rcases State.step_split hstep with ⟨a, act, next, pc, -, -, hinstr, rfl⟩ | hsame
  · exact h.instr hresting hinstr
  · exact h.refs hsame

theorem State.Adopted.init : (State.init : State P).Adopted where
  known := fun c t h => absurd h (by simp [State.owner, State.init, xvConnectionInit])
  placed := by
    have hempty : ∀ p, (State.init : State P).newcomers p = [] := by
      rintro (a | t)
      · cases a <;> rfl
      · rfl
    refine ⟨?_, ?_, ?_, ?_⟩
    · intro p c hc
      rw [hempty p] at hc
      exact absurd hc List.not_mem_nil
    · intro p
      rw [hempty p]
      exact List.nodup_nil
    · intro p q c hc
      rw [hempty p] at hc
      exact absurd hc List.not_mem_nil
    · exact fun hc => absurd hc.1 (Nat.not_lt_zero _)

end Libxv
