/-
A slot of the connection table is never shared.

The kernel may give a closed fd to the next accept at once, on another thread.  A connection
is taken out of the table before its fd is closed, so by then its slot is empty, and whoever
closes a connection finds it in its slot.  A connection that is freed without that keeps both
its slot and its fd.
-/
import Libxv.Proofs.Service.Table

namespace Libxv

open Function Transition

variable {P : Type} {cfg : Config} {ctl : EpollCtl} {s : State P}

/-- The fds that `xv_tcp_accept` returns are below `conn_setsize`. -/
def AcceptsBelow (s : State P) : Label P → Prop
  | .act _ (.accept fd _ _) => fd < s.table.setsize
  | _ => True

instance (s : State P) : ∀ label, Decidable (AcceptsBelow s label)
  | .act _ (.accept fd _ _) => inferInstanceAs (Decidable (fd < s.table.setsize))
  | .act _ .go | .act _ (.table _) | .act _ (.read ..) | .act _ (.write ..)
  | .act _ .addConnReady | .act _ .returnReady | .act _ (.process _) | .act _ (.respond ..)
  | .act _ (.malloc _) | .act _ .interrupt | .act _ (.call ..)
  | .incrRef _ | .decrRef _ => inferInstanceAs (Decidable True)

/-- Nothing is in the table but the connections that have not been deleted. -/
structure State.Exact (s : State P) : Prop where
  below : ∀ c, c < s.nextConn → (s.conns c).conn.fd < s.table.setsize
  slot : ∀ fd c, s.table.slots fd = some c → c < s.nextConn ∧ (s.conns c).conn.fd = fd ∧
    (s.conns c).deleted = 0 ∧ ∀ a, s.pc a ≠ .addConnection c

/-- The slot of a connection that is about to be put in the table is empty. -/
theorem State.Exact.adding (h : s.Exact) (hsound : s.Sound) (hlisted : s.Listed) {a : Agent}
    {c : Nat} (hpc : s.pc a = .addConnection c) :
    s.table.slots (s.conns c).conn.fd = none := by
  obtain ⟨hlt, hnone⟩ := hsound.adopted.lt_of_adopts (a := a) (c := c) (by rw [hpc]; rfl)
  cases hslot : s.table.slots (s.conns c).conn.fd with
  | none => rfl
  | some c' =>
      obtain ⟨hlt', hfd, hdeleted, hadding⟩ := h.slot _ c' hslot
      obtain rfl := hlisted.apart c' c hlt' hlt (hlisted.ordered c' hlt' hdeleted)
        (Prod.mk.inj (hlisted.fresh c hlt hnone)).2 hfd
      exact absurd hpc (hadding a)

/-- What an instruction makes of the table. -/
theorem State.Exact.table_cases (h : s.Exact) (hsound : s.Sound) (hlisted : s.Listed) {a : Agent}
    {act : Act P} {next : State P} {pc' : Pc P} (hsafe : s.safe a = true)
    (hinstr : Instr cfg ctl s a (s.pc a) act next pc') :
    next.table = s.table ∨
      (∃ c, s.pc a = .addConnection c ∧ s.table.slots (s.conns c).conn.fd = none ∧
        next.table.setsize = s.table.setsize ∧
        next.table.slots = update s.table.slots (s.conns c).conn.fd (some c)) ∨
      ∃ c resume, s.pc a = .closeDel c resume ∧ s.table.slots (s.conns c).conn.fd = some c ∧
        next.table.setsize = s.table.setsize ∧
        next.table.slots = update s.table.slots (s.conns c).conn.fd none := by
  rcases hinstr.table_cases with hsame | ⟨c, garbage, hpc, hadd⟩ | ⟨c, resume, hpc, hdel⟩
  · exact Or.inl hsame
  · have hlt := (hsound.adopted.lt_of_adopts (a := a) (c := c) (by rw [hpc]; rfl)).1
    rw [xvServiceAddConnection_below (h.below c hlt), Option.some.injEq] at hadd
    refine Or.inr (Or.inl ⟨c, hpc, h.adding hsound hlisted hpc, ?_, ?_⟩) <;> rw [← hadd]
  · have halive := State.safe_alive hsafe (c := c) (by rw [hpc]; rfl)
    obtain ⟨-, hbelow, hslot⟩ := hlisted.deleting hsound hpc halive
    rw [xvServiceDelConnection_below hbelow] at hdel
    refine Or.inr (Or.inr ⟨c, resume, hpc, hslot, ?_, ?_⟩) <;> rw [hdel]

theorem State.Exact.instr_slot (h : s.Exact) (hsound : s.Sound) (hlisted : s.Listed) {a : Agent}
    {act : Act P} {next : State P} {pc' : Pc P} (hsafe : s.safe a = true)
    (hinstr : Instr cfg ctl s a (s.pc a) act next pc') {fd c : Nat}
    (hslot : next.table.slots fd = some c) :
    c < next.nextConn ∧ (next.conns c).conn.fd = fd ∧ (next.conns c).deleted = 0 ∧
      ∀ b, (next.goto a pc').pc b ≠ .addConnection c := by
  -- A connection that was there before, and is still in its slot.
  have hold : c < s.nextConn → (s.conns c).conn.fd = fd → (s.conns c).deleted = 0 →
      (∀ b, b ≠ a → s.pc b ≠ .addConnection c) →
      c < next.nextConn ∧ (next.conns c).conn.fd = fd ∧ (next.conns c).deleted = 0 ∧
        ∀ b, (next.goto a pc').pc b ≠ .addConnection c := by
    intro hlt hfd hdeleted hadding
    refine ⟨Nat.lt_of_lt_of_le hlt hinstr.nextConn_le, (hinstr.kept hlt).fd.trans hfd, ?_, ?_⟩
    · rcases hinstr.deleted_cases hlt with hsame | hnone
      · exact hsame.trans hdeleted
      · rw [hfd, hslot] at hnone
        cases hnone
    · intro b hb
      by_cases hba : b = a
      · subst hba
        rw [State.goto_pc_self] at hb
        rcases hinstr.adopts_cases (c := c) (by rw [hb]; rfl) with
          ⟨-, -, hnew⟩ | ⟨-, hpc⟩ | ⟨_, _, -, hpc, -⟩
        · exact absurd hlt (by omega)
        · cases hb.symm.trans hpc
        · cases hb.symm.trans hpc
      · rw [State.goto_pc_of_ne _ _ hba, hinstr.pc_eq] at hb
        exact hadding b hba hb
  have hbefore : s.table.slots fd = some c → c < next.nextConn ∧ (next.conns c).conn.fd = fd ∧
      (next.conns c).deleted = 0 ∧ ∀ b, (next.goto a pc').pc b ≠ .addConnection c := by
    intro hslot
    obtain ⟨hlt, hfd, hdeleted, hadding⟩ := h.slot fd c hslot
    exact hold hlt hfd hdeleted fun b _ => hadding b
  rcases h.table_cases hsound hlisted hsafe hinstr with
      hsame | ⟨c', hpc, -, -, hslots⟩ | ⟨c', resume, hpc, -, -, hslots⟩
  · exact hbefore (hsame ▸ hslot)
  · by_cases hfd : fd = (s.conns c').conn.fd
    · -- The connection that is put there.
      rw [hslots, hfd, update_self] at hslot
      obtain rfl := Option.some.inj hslot
      have hadopts : (s.pc a).adopts = some c' := by rw [hpc]; rfl
      obtain ⟨hlt, hnone⟩ := hsound.adopted.lt_of_adopts hadopts
      refine hold hlt hfd.symm (Prod.mk.inj (hlisted.fresh c' hlt hnone)).1 fun b hb hpcb => ?_
      have heq : NewPlace.held b = NewPlace.held a := hsound.adopted.placed.apart (m := c')
        (by simp [State.newcomers, hpcb, Pc.adopts]) (by simp [State.newcomers, hadopts])
      exact hb (NewPlace.held.inj heq)
    · rw [hslots, update_of_ne hfd] at hslot
      exact hbefore hslot
  · by_cases hfd : fd = (s.conns c').conn.fd
    · rw [hslots, hfd, update_self] at hslot
      cases hslot
    · rw [hslots, update_of_ne hfd] at hslot
      exact hbefore hslot

theorem State.Exact.instr (h : s.Exact) (hsound : s.Sound) (hlisted : s.Listed) {a : Agent}
    {act : Act P} {next : State P} {pc' : Pc P} (hok : AcceptsBelow s (.act a act))
    (hsafe : s.safe a = true) (hinstr : Instr cfg ctl s a (s.pc a) act next pc') :
    (next.goto a pc').Exact where
  below := by
    intro c hc
    show (next.conns c).conn.fd < next.table.setsize
    have hle := hinstr.setsize_le
    have hc : c < next.nextConn := hc
    by_cases hlt : c < s.nextConn
    · have hbelow := h.below c hlt
      rw [(hinstr.kept hlt).fd]
      omega
    · -- The connection has just been accepted.
      generalize s.pc a = pc at hinstr
      cases hinstr
      case accept fd handle mem t ht hfd =>
        obtain rfl : c = s.nextConn := by
          have hc : c < s.nextConn + 1 := hc
          omega
        have hfd : fd < s.table.setsize := hok
        simpa [State.accept, xvConnectionInit] using hfd
      all_goals exact absurd hc hlt
  slot := fun _ _ hslot => h.instr_slot hsound hlisted hsafe hinstr hslot

theorem State.Exact.refs (h : s.Exact) {next : State P} (hsame : s.SameButRefs next) :
    next.Exact := by
  have hconn : ∀ c, (next.conns c).conn.fd = (s.conns c).conn.fd ∧
      (next.conns c).deleted = (s.conns c).deleted := by
    intro c
    obtain ⟨refCount, userRefs, hc⟩ := hsame.conns c
    rw [hc]
    exact ⟨rfl, rfl⟩
  constructor
  · intro c hc
    rw [(hconn c).1, hsame.table]
    exact h.below c (hsame.nextConn ▸ hc)
  · intro fd c hslot
    rw [(hconn c).1, (hconn c).2, hsame.nextConn, hsame.pc]
    exact h.slot fd c (hsame.table ▸ hslot)

theorem State.exact (h : Reach (State.step cfg ctl) AcceptsBelow (· = State.init) s) :
    s.Exact := by
  refine h.invariant_along ?_ ?_
  · intro s hs
    subst hs
    exact ⟨fun c hc => absurd hc (Nat.not_lt_zero c), fun fd c hslot => absurd hslot nofun⟩
  · intro s label s' hreach hexact hok hstep
    rcases State.step_split hstep with ⟨a, act, next, pc, rfl, hsafe, hinstr, rfl⟩ | hsame
    · exact hexact.instr (State.sound hreach) (State.listed hreach) hok hsafe hinstr
    · exact hexact.refs hsame

/--
**fd reuse never crosses connections in the table**: below the size of the table
`xv_service_add_connection` only ever fills an empty slot, `xv_service_del_connection` clears
the slot that holds the very connection being closed, and nothing else changes the table.
-/
theorem fd_reuse_safe (h : Reach (State.step cfg ctl) AcceptsBelow (· = State.init) s) {a : Agent}
    {act : Act P} {s' : State P} (hstep : s.step cfg ctl (.act a act) = some s') :
    (∀ c, s.pc a = .addConnection c → s.table.slots (s.conns c).conn.fd = none ∧
        s'.table.slots = update s.table.slots (s.conns c).conn.fd (some c)) ∧
      (∀ c resume, s.pc a = .closeDel c resume → s.table.slots (s.conns c).conn.fd = some c ∧
        s'.table.slots = update s.table.slots (s.conns c).conn.fd none) ∧
      ((∀ c, s.pc a ≠ .addConnection c) → (∀ c resume, s.pc a ≠ .closeDel c resume) →
        s'.table = s.table) := by
  have hsound := State.sound h
  have hlisted := State.listed h
  have hexact := State.exact h
  obtain ⟨next, pc', hsafe, hinstr, rfl⟩ := State.step_instr hstep
  refine ⟨?_, ?_, ?_⟩
  · intro c hpc
    have hempty := hexact.adding hsound hlisted hpc
    have hbelow := hexact.below c (hsound.adopted.lt_of_adopts (a := a) (by rw [hpc]; rfl)).1
    have hresting := hsound.owned.resting
    rw [hpc] at hinstr
    refine ⟨hempty, ?_⟩
    cases hinstr with
    | addConnection htable =>
        rw [xvServiceAddConnection_below hbelow, Option.some.injEq] at htable
        rw [← htable]
        rfl
    | work hrun _ | interrupt hrun _ => exact absurd ((hresting _ hrun).symm.trans hpc) (by simp)
  · intro c resume hpc
    have halive := State.safe_alive hsafe (c := c) (by rw [hpc]; rfl)
    obtain ⟨-, hbelow, hslot⟩ := hlisted.deleting hsound hpc halive
    obtain ⟨t, rfl, -⟩ := hsound.affine.serving a c (by rw [hpc]; rfl)
    rw [hpc] at hinstr
    refine ⟨hslot, ?_⟩
    cases hinstr with
    | closeDel =>
        show (xvServiceDelConnection s.table (s.conns c).conn.fd).2.slots = _
        rw [xvServiceDelConnection_below hbelow]
  · intro hadd hdel
    rcases hinstr.table_cases with hsame | ⟨c, -, hpc, -⟩ | ⟨c, resume, hpc, -⟩
    · exact hsame
    · exact absurd hpc (hadd c)
    · exact absurd hpc (hdel c resume)

/-- The leader accepts a second connection on the fd of one that is gone. -/
theorem fd_reuse_safe_again :
    ∃ s s' : State Unit, s.pc (.io 0) = .addConnection 1 ∧ (s.conns 1).conn.fd = 5 ∧
      (s.conns 0).conn.fd = 5 ∧
      s.step inlineConfig acceptAll (.act (.io 0) (.table fun _ => none)) = some s' ∧
      s.table.slots 5 = none ∧ s'.table.slots = update s.table.slots 5 (some 1) := by
  have hrun : ∃ s s' : State Unit,
      Reach (State.step inlineConfig acceptAll) AcceptsBelow (· = State.init) s ∧
      s.pc (.io 0) = .addConnection 1 ∧ (s.conns 1).conn.fd = 5 ∧ (s.conns 0).conn.fd = 5 ∧
      s.step inlineConfig acceptAll (.act (.io 0) (.table fun _ => none)) = some s' :=
    ⟨_, _, Reach.play (acceptOne ++ readEof ++ goes (.io 0) 3 ++
      [.act (.io 0) (.accept 5 fullHandle fun _ => 0)]) (.start rfl) (by decide) rfl,
      rfl, rfl, rfl, rfl⟩
  obtain ⟨s, s', hreach, hpc, hfd, hfd0, hstep⟩ := hrun
  obtain ⟨hempty, hslots⟩ := (fd_reuse_safe hreach hstep).1 1 hpc
  rw [hfd] at hempty hslots
  exact ⟨s, s', hpc, hfd, hfd0, hstep, hempty, hslots⟩

end Libxv
