/-
The connection table and the fds that index it.

A connection is put in the table by the thread that accepted it and taken out by the thread
that closes it, which afterwards closes its fd and frees its memory.  As long as its fd is not
closed the kernel gives that fd to no other connection, so two connections never share a slot;
`State.Listed` collects what this gives in every state.
-/
import Libxv.Proofs.Service.Release

namespace Libxv

open Function Transition

variable {P : Type} {cfg : Config} {ctl : EpollCtl} {s : State P}

/-! ### What an instruction does to the table -/

theorem xvServiceAddConnection_some {table table' : ConnTable} {fd c : Nat}
    {garbage : Nat → Option Nat} (h : xvServiceAddConnection table fd c garbage = some table') :
    fd < table'.setsize ∧ table.setsize ≤ table'.setsize ∧ table'.slots fd = some c ∧
      ∀ i, i < table.setsize → i ≠ fd → table'.slots i = table.slots i := by
  unfold xvServiceAddConnection at h
  by_cases hgrow : fd > table.setsize
  · by_cases hbytes : sizeofPointer * (table.setsize * 2) ≤ intMax
    · simp only [hgrow, hbytes, if_true, Option.bind_eq_bind, Option.bind_some,
        Option.ite_none_right_eq_some, Option.some.injEq] at h
      obtain ⟨hfd, rfl⟩ := h
      refine ⟨hfd, Nat.le_mul_of_pos_right _ (by decide), by simp, fun i hi hne => ?_⟩
      simp [update_of_ne hne, hi]
    · simp [hgrow, hbytes] at h
  · simp only [hgrow, if_false, Option.bind_eq_bind, Option.bind_some,
      Option.ite_none_right_eq_some, Option.some.injEq] at h
    obtain ⟨hfd, rfl⟩ := h
    exact ⟨hfd, Nat.le_refl _, by simp, fun i _ hne => update_of_ne hne ..⟩

/-- Below the size of the table nothing is reallocated. -/
theorem xvServiceAddConnection_below {table : ConnTable} {fd c : Nat}
    {garbage : Nat → Option Nat} (h : fd < table.setsize) :
    xvServiceAddConnection table fd c garbage =
      some { table with slots := update table.slots fd (some c), count := table.count + 1 } := by
  have hgrow : ¬ fd > table.setsize := by omega
  simp [xvServiceAddConnection, hgrow, h]

theorem xvServiceDelConnection_below {table : ConnTable} {fd : Nat} (h : fd < table.setsize) :
    xvServiceDelConnection table fd =
      (xvOk, { table with slots := update table.slots fd none, count := table.count - 1 }) := by
  have hge : ¬ fd ≥ table.setsize := by omega
  simp [xvServiceDelConnection, hge]

theorem State.delConnection_cleaned (s : State P) {c : Nat}
    (hfd : (s.conns c).conn.fd < s.table.setsize) :
    ((s.delConnection c).conns c).deleted = (s.conns c).deleted + 1 := by
  simp [State.delConnection, xvServiceDelConnection_below hfd]

/-- The table changes when a connection is put there or removed. -/
theorem Instr.table_cases {a : Agent} {pc pc' : Pc P} {act : Act P} {next : State P}
    (h : Instr cfg ctl s a pc act next pc') :
    next.table = s.table ∨
      (∃ c garbage, pc = .addConnection c ∧
        xvServiceAddConnection s.table (s.conns c).conn.fd c garbage = some next.table) ∨
      ∃ c resume, pc = .closeDel c resume ∧
        next.table = (xvServiceDelConnection s.table (s.conns c).conn.fd).2 := by
  cases h
  case addConnection t c garbage table htable => exact Or.inr (Or.inl ⟨c, garbage, rfl, htable⟩)
  case closeDel t c resume => exact Or.inr (Or.inr ⟨c, resume, rfl, rfl⟩)
  all_goals exact Or.inl rfl

theorem Instr.setsize_le {a : Agent} {pc pc' : Pc P} {act : Act P} {next : State P}
    (h : Instr cfg ctl s a pc act next pc') : s.table.setsize ≤ next.table.setsize := by
  rcases h.table_cases with hsame | ⟨c, garbage, -, hadd⟩ | ⟨c, resume, -, hdel⟩
  · exact Nat.le_of_eq (congrArg ConnTable.setsize hsame.symm)
  · exact (xvServiceAddConnection_some hadd).2.1
  · rw [hdel]
    unfold xvServiceDelConnection
    split <;> exact Nat.le_refl _

/-- A slot changes when a new connection is put there, or a closed one removed. -/
theorem Instr.slots_cases {a : Agent} {pc pc' : Pc P} {act : Act P} {next : State P}
    (h : Instr cfg ctl s a pc act next pc') {fd : Nat} (hfd : fd < s.table.setsize) :
    next.table.slots fd = s.table.slots fd ∨
      (∃ c resume, pc = .closeDel c resume ∧ (s.conns c).conn.fd = fd ∧
        next.table.slots fd = none) ∨
      ∃ c, pc = .addConnection c ∧ (s.conns c).conn.fd = fd ∧ next.table.slots fd = some c := by
  rcases h.table_cases with hsame | ⟨c, garbage, hpc, hadd⟩ | ⟨c, resume, hpc, hdel⟩
  · exact Or.inl (by rw [hsame])
  · obtain ⟨-, -, hself, hother⟩ := xvServiceAddConnection_some hadd
    by_cases hc : fd = (s.conns c).conn.fd
    · exact Or.inr (Or.inr ⟨c, hpc, hc.symm, hc ▸ hself⟩)
    · exact Or.inl (hother fd hfd hc)
  · by_cases hc : fd = (s.conns c).conn.fd
    · refine Or.inr (Or.inl ⟨c, resume, hpc, hc.symm, ?_⟩)
      rw [hdel, xvServiceDelConnection_below (hc ▸ hfd), hc]
      exact update_self ..
    · left
      rw [hdel]
      unfold xvServiceDelConnection
      split
      · rfl
      · exact update_of_ne hc ..

/-- Whoever deletes a connection empties its slot. -/
theorem Instr.deleted_cases {a : Agent} {pc pc' : Pc P} {act : Act P} {next : State P}
    (h : Instr cfg ctl s a pc act next pc') {c : Nat} (hc : c < s.nextConn) :
    (next.conns c).deleted = (s.conns c).deleted ∨
      next.table.slots (s.conns c).conn.fd = none := by
  have hstep : (next.conns c).deleted = (s.conns c).deleted ∨
      ∃ resume, pc = .closeDel c resume := by
    have hstep := h.connStep_of_lt hc
    generalize next.conns c = conn at hstep
    cases hstep with
    | deleted _ => exact Or.inr ⟨_, rfl⟩
    | _ => exact Or.inl rfl
  rcases hstep with hsame | ⟨resume, rfl⟩
  · exact Or.inl hsame
  · cases h
    case closeDel t =>
      by_cases hfd : (s.conns c).conn.fd < s.table.setsize
      · right
        simp [State.delConnection, xvServiceDelConnection_below hfd]
      · left
        simp [State.delConnection, xvServiceDelConnection, Nat.not_lt.mp hfd, xvErr, xvOk]
    all_goals exact Or.inl rfl

/-- A connection is in the table's range once it has been put there. -/
theorem Instr.registered_next {a : Agent} {act : Act P} {next : State P} {pc' : Pc P}
    (hinstr : Instr cfg ctl s a (s.pc a) act next pc') (hresting : s.Resting)
    (hbefore : ∀ c, c < s.nextConn →
      (∃ b, s.pc b = .addConnection c) ∨ (s.conns c).conn.fd < s.table.setsize)
    {c : Nat} (hc : c < next.nextConn) :
    (∃ b, (next.goto a pc').pc b = .addConnection c) ∨
      (next.conns c).conn.fd < next.table.setsize := by
  rcases hinstr.conns_cases hc with hlt | ⟨rfl, rfl, -⟩
  · rw [(hinstr.kept hlt).fd]
    rcases hbefore c hlt with ⟨b, hb⟩ | hfd
    · by_cases hba : b = a
      · subst hba
        generalize hpc : s.pc b = pc at hinstr
        rw [hb] at hpc
        subst hpc
        cases hinstr
        case addConnection t garbage table htable =>
          exact Or.inr (xvServiceAddConnection_some htable).1
        case work i thread hrun _ | interrupt i thread hrun _ =>
          exact absurd (hb.symm.trans (hresting i hrun)) (by simp)
      · exact Or.inl ⟨b, by rw [State.goto_pc_of_ne _ _ hba, hinstr.pc_eq]; exact hb⟩
    · exact Or.inr (Nat.lt_of_lt_of_le hfd hinstr.setsize_le)
  · exact Or.inl ⟨a, State.goto_pc_self ..⟩

/-! ### Connections that have not been deleted -/

/-- How often a connection was deleted from the table, its fd closed and its memory freed. -/
def Connection.cleaned (conn : Connection) : Nat × Nat × Nat :=
  (conn.deleted, conn.fdClosed, conn.freed)

/-- How often a connection was deleted from the table and its fd closed. -/
def Connection.withdrawn (conn : Connection) : Nat × Nat := (conn.deleted, conn.fdClosed)

/-- A connection whose close has got past the table, and how far it has come. -/
def Pc.withdraws : Pc P → Option (Nat × Nat × Nat)
  | .closeFd c _ => some (c, 1, 0)
  | .closeFree c _ => some (c, 1, 1)
  | _ => none

/-- Every connection that has not been deleted is in the slot of its fd, and as long as its fd
is not closed it has it for itself. -/
structure State.Listed (s : State P) : Prop where
  registered : ∀ c, c < s.nextConn →
    (∃ a, s.pc a = .addConnection c) ∨ (s.conns c).conn.fd < s.table.setsize
  /-- Nobody closes a connection that is not adopted. -/
  fresh : ∀ c, c < s.nextConn → s.owner c = none → (s.conns c).withdrawn = (0, 0)
  phase : ∀ a c p, (s.pc a).withdraws = some (c, p) → (s.conns c).withdrawn = p
  idle : ∀ c, s.alive c = true →
    (s.conns c).withdrawn = (0, 0) ∨ ∃ a p, (s.pc a).withdraws = some (c, p)
  ordered : ∀ c, c < s.nextConn → (s.conns c).deleted = 0 → (s.conns c).fdClosed = 0
  opened : ∀ c, c < s.nextConn → (s.conns c).fdClosed = 0 →
    s.openFds (s.conns c).conn.fd = true
  apart : ∀ c c', c < s.nextConn → c' < s.nextConn → (s.conns c).fdClosed = 0 →
    (s.conns c').fdClosed = 0 → (s.conns c).conn.fd = (s.conns c').conn.fd → c = c'
  slot : ∀ c, c < s.nextConn → (s.conns c).deleted = 0 →
    (∃ a, s.pc a = .addConnection c) ∨ s.table.slots (s.conns c).conn.fd = some c

theorem Pc.serves_of_withdraws {pc : Pc P} {msgs : Nat → Message P} {c : Nat} {p : Nat × Nat}
    (h : pc.withdraws = some (c, p)) : pc.serves msgs = some c := by
  cases pc <;> simp_all [Pc.withdraws, Pc.serves]

theorem ConnStep.withdrawn_cases {a : Agent} {pc : Pc P} {c : Nat} {conn : Connection}
    (h : ConnStep s c a pc conn) :
    conn.withdrawn = (s.conns c).withdrawn ∨ (∃ resume, pc = .closeDel c resume) ∨
      ((∃ resume, pc = .closeFd c resume) ∧ conn.deleted = (s.conns c).deleted) := by
  cases h with
  | deleted _ => exact Or.inr (Or.inl ⟨_, rfl⟩)
  | fdClosed => exact Or.inr (Or.inr ⟨⟨_, rfl⟩, rfl⟩)
  | _ => exact Or.inl rfl

/-- What has happened to a connection stays so. -/
theorem ConnStep.counts_le {a : Agent} {pc : Pc P} {c : Nat} {conn : Connection}
    (h : ConnStep s c a pc conn) :
    (s.conns c).deleted ≤ conn.deleted ∧ (s.conns c).fdClosed ≤ conn.fdClosed ∧
      (s.conns c).freed ≤ conn.freed := by
  cases h with
  | deleted _ => exact ⟨Nat.le_add_right .., Nat.le_refl _, Nat.le_refl _⟩
  | fdClosed => exact ⟨Nat.le_refl _, Nat.le_succ _, Nat.le_refl _⟩
  | freed _ => exact ⟨Nat.le_refl _, Nat.le_refl _, Nat.le_succ _⟩
  | _ => exact ⟨Nat.le_refl _, Nat.le_refl _, Nat.le_refl _⟩

/-- Accepting opens an fd, and `xv_connection_close` closes one. -/
theorem Instr.openFds_cases {a : Agent} {pc pc' : Pc P} {act : Act P} {next : State P}
    (h : Instr cfg ctl s a pc act next pc') (fd : Nat) :
    next.openFds fd = s.openFds fd ∨ next.openFds fd = true ∨
      ∃ c resume, pc = .closeFd c resume ∧ (s.conns c).conn.fd = fd := by
  cases h
  case accept t fd' handle mem ht hfd =>
    by_cases hf : fd = fd'
    · exact Or.inr (Or.inl (by rw [hf]; exact update_self ..))
    · exact Or.inl (update_of_ne hf ..)
  case closeFd t c resume =>
    by_cases hf : fd = (s.conns c).conn.fd
    · exact Or.inr (Or.inr ⟨c, resume, rfl, hf.symm⟩)
    · exact Or.inl (update_of_ne hf ..)
  all_goals exact Or.inl rfl

/-- How a close gets past the table. -/
theorem Instr.withdraws_cases {a : Agent} {pc pc' : Pc P} {act : Act P} {next : State P}
    (h : Instr cfg ctl s a pc act next pc') {c : Nat} {p : Nat × Nat}
    (hp : pc'.withdraws = some (c, p)) :
    (∃ resume, pc = .closeDel c resume ∧ next = s.delConnection c ∧ p = (1, 0)) ∨
      ∃ resume, pc = .closeFd c resume ∧ next = s.closeFd c ∧ p = (1, 1) := by
  cases h
  case closeDel t c' resume =>
    obtain ⟨rfl, rfl⟩ : c' = c ∧ (1, 0) = p := by simpa [Pc.withdraws] using hp
    exact Or.inl ⟨resume, rfl, rfl, rfl⟩
  case closeFd t c' resume =>
    obtain ⟨rfl, rfl⟩ : c' = c ∧ (1, 1) = p := by simpa [Pc.withdraws] using hp
    exact Or.inr ⟨resume, rfl, rfl, rfl⟩
  case closeBusy t c' resume _ | closeFree t c' resume =>
    cases resume <;> cases hp
  case respond | write | request => split at hp <;> cases hp
  case finish t m origin => cases origin <;> cases hp
  case work i thread hrun hstep =>
    cases hthread : thread.pc <;> rw [hthread] at hp <;> cases hp
  all_goals cases hp

/-- A close that has got to the table goes on until the connection is freed. -/
theorem Instr.withdraws_next {t c : Nat} {pc pc' : Pc P} {act : Act P} {next : State P}
    (h : Instr cfg ctl s (.io t) pc act next pc')
    (hpc : (∃ resume, pc = .closeDel c resume) ∨ ∃ p, pc.withdraws = some (c, p)) :
    (∃ p, pc'.withdraws = some (c, p)) ∨ (next.conns c).freed ≠ 0 := by
  rcases hpc with ⟨resume, rfl⟩ | ⟨p, hp⟩
  · cases h
    exact Or.inl ⟨_, rfl⟩
  · cases h
    case closeFd c' resume =>
      obtain ⟨rfl, -⟩ : c' = c ∧ (1, 0) = p := by simpa [Pc.withdraws] using hp
      exact Or.inl ⟨_, rfl⟩
    case closeFree c' resume =>
      obtain ⟨rfl, -⟩ : c' = c ∧ (1, 1) = p := by simpa [Pc.withdraws] using hp
      right
      simp [State.freeConn]
    all_goals cases hp

/-! ### One instruction -/

/-- A connection that has been adopted is in no thread's hands. -/
theorem State.Sound.not_adding (h : s.Sound) {c : Nat} (howner : s.owner c ≠ none) (a : Agent) :
    s.pc a ≠ .addConnection c :=
  fun hpc => howner (h.adopted.lt_of_adopts (a := a) (by rw [hpc]; rfl)).2

/-- A connection that is about to be deleted is in the table, once. -/
theorem State.Listed.deleting (h : s.Listed) (hsound : s.Sound) {a : Agent} {c : Nat}
    {resume : Resume} (hpc : s.pc a = .closeDel c resume) (halive : s.alive c = true) :
    (s.conns c).withdrawn = (0, 0) ∧ (s.conns c).conn.fd < s.table.setsize ∧
      s.table.slots (s.conns c).conn.fd = some c := by
  have hserves : (s.pc a).serves s.msgs = some c := by rw [hpc]; rfl
  obtain ⟨hlt, howner⟩ := hsound.lt_of_serves hserves
  have hadding : ¬ ∃ b, s.pc b = .addConnection c := fun ⟨b, hb⟩ => hsound.not_adding howner b hb
  have hzero : (s.conns c).withdrawn = (0, 0) := by
    rcases h.idle c halive with hzero | ⟨b, p, hp⟩
    · exact hzero
    · obtain rfl : a = b := hsound.affine.serving_unique hserves (Pc.serves_of_withdraws hp)
      rw [hpc] at hp
      cases hp
  exact ⟨hzero, (h.registered c hlt).resolve_left hadding,
    (h.slot c hlt (congrArg Prod.fst hzero)).resolve_left hadding⟩

theorem State.Listed.instr_fresh (h : s.Listed) (hsound : s.Sound) {a : Agent} {act : Act P}
    {next : State P} {pc' : Pc P} (hinstr : Instr cfg ctl s a (s.pc a) act next pc') {c : Nat}
    (hc : c < next.nextConn) (hnone : next.owner c = none) :
    (next.conns c).withdrawn = (0, 0) := by
  rcases hinstr.conns_cases hc with hlt | ⟨rfl, -, fd, handle, mem, rfl⟩
  · have hbefore : s.owner c = none := by
      cases howner : s.owner c with
      | none => rfl
      | some t => cases (hsound.adopted.owner_mono hinstr howner).symm.trans hnone
    have hserves : (s.pc a).serves s.msgs ≠ some c :=
      fun hserves => (hsound.lt_of_serves hserves).2 hbefore
    rcases (hinstr.connStep_of_lt hlt).withdrawn_cases with
      hsame | ⟨resume, hpc⟩ | ⟨⟨resume, hpc⟩, -⟩
    · exact hsame.trans (h.fresh c hlt hbefore)
    · exact absurd (by rw [hpc]; rfl) hserves
    · exact absurd (by rw [hpc]; rfl) hserves
  · simp [State.accept, Connection.withdrawn]

theorem State.Listed.instr_phase (h : s.Listed) (hsound : s.Sound) {a : Agent} {act : Act P}
    {next : State P} {pc' : Pc P} (hsafe : s.safe a = true)
    (hinstr : Instr cfg ctl s a (s.pc a) act next pc') {b : Agent} {c : Nat} {p : Nat × Nat}
    (hp : ((next.goto a pc').pc b).withdraws = some (c, p)) : (next.conns c).withdrawn = p := by
  by_cases hb : b = a
  · subst hb
    rw [State.goto_pc_self] at hp
    rcases hinstr.withdraws_cases hp with ⟨resume, hpc, rfl, rfl⟩ | ⟨resume, hpc, rfl, rfl⟩
    · have halive := State.safe_alive hsafe (c := c) (by rw [hpc]; rfl)
      obtain ⟨hzero, hfd, -⟩ := h.deleting hsound hpc halive
      have hfdClosed : ((s.delConnection c).conns c).fdClosed = (s.conns c).fdClosed :=
        update_same s.conns c _ Connection.fdClosed (by rfl) c
      unfold Connection.withdrawn at hzero ⊢
      rw [s.delConnection_cleaned hfd, hfdClosed, (Prod.mk.inj hzero).1, (Prod.mk.inj hzero).2]
    · have hphase := h.phase b c (1, 0) (by rw [hpc]; rfl)
      simp only [Connection.withdrawn, Prod.mk.injEq] at hphase
      simp [State.closeFd, Connection.withdrawn, hphase.1, hphase.2]
  · rw [State.goto_pc_of_ne _ _ hb, hinstr.pc_eq] at hp
    have hserves : (s.pc b).serves s.msgs = some c := Pc.serves_of_withdraws hp
    have hother : (s.pc a).serves s.msgs ≠ some c :=
      fun ha => hb (hsound.affine.serving_unique hserves ha)
    have hlt := (hsound.lt_of_serves hserves).1
    rcases (hinstr.connStep_of_lt hlt).withdrawn_cases with
      hsame | ⟨resume, hpc⟩ | ⟨⟨resume, hpc⟩, -⟩
    · exact hsame.trans (h.phase b c p hp)
    · exact absurd (by rw [hpc]; rfl) hother
    · exact absurd (by rw [hpc]; rfl) hother

theorem State.Listed.instr_idle (h : s.Listed) (hsound : s.Sound) {a : Agent} {act : Act P}
    {next : State P} {pc' : Pc P} (hinstr : Instr cfg ctl s a (s.pc a) act next pc') {c : Nat}
    (halive : next.alive c = true) : (next.conns c).withdrawn = (0, 0) ∨
      ∃ b p, ((next.goto a pc').pc b).withdraws = some (c, p) := by
  have hfreed := State.freed_of_alive halive
  rcases hinstr.conns_cases (State.lt_of_alive halive) with hlt | ⟨rfl, -, fd, handle, mem, rfl⟩
  · have hstep := hinstr.connStep_of_lt hlt
    have hbefore : s.alive c = true := by
      have hle := hstep.counts_le.2.2
      have hzero : (s.conns c).freed = 0 := by omega
      simp [State.alive, hlt, hzero]
    -- The thread of the step, if it is the one that closes the connection.
    have hown : ((∃ resume, s.pc a = .closeDel c resume) ∨ ∃ p, (s.pc a).withdraws = some (c, p)) →
        ∃ b p, ((next.goto a pc').pc b).withdraws = some (c, p) := by
      intro hpc
      have hserves : (s.pc a).serves s.msgs = some c := by
        rcases hpc with ⟨resume, hpc⟩ | ⟨p, hp⟩
        · rw [hpc]
          rfl
        · exact Pc.serves_of_withdraws hp
      obtain ⟨t, rfl, -⟩ := hsound.affine.serving a c hserves
      obtain ⟨p, hp⟩ := (hinstr.withdraws_next hpc).resolve_right (fun hne => hne hfreed)
      exact ⟨.io t, p, by rw [State.goto_pc_self]; exact hp⟩
    rcases hstep.withdrawn_cases with hsame | ⟨resume, hpc⟩ | ⟨⟨resume, hpc⟩, -⟩
    · rcases h.idle c hbefore with hzero | ⟨b, p, hp⟩
      · exact Or.inl (hsame.trans hzero)
      · right
        by_cases hb : b = a
        · subst hb
          exact hown (Or.inr ⟨p, hp⟩)
        · exact ⟨b, p, by rw [State.goto_pc_of_ne _ _ hb, hinstr.pc_eq]; exact hp⟩
    · exact Or.inr (hown (Or.inl ⟨resume, hpc⟩))
    · exact Or.inr (hown (Or.inr ⟨_, by rw [hpc]; rfl⟩))
  · simp [State.accept, Connection.withdrawn]

theorem State.Listed.instr_ordered (h : s.Listed) {a : Agent} {act : Act P} {next : State P}
    {pc' : Pc P} (hinstr : Instr cfg ctl s a (s.pc a) act next pc') {c : Nat}
    (hc : c < next.nextConn) (hdeleted : (next.conns c).deleted = 0) :
    (next.conns c).fdClosed = 0 := by
  rcases hinstr.conns_cases hc with hlt | ⟨rfl, -, fd, handle, mem, rfl⟩
  · have hstep := hinstr.connStep_of_lt hlt
    have hbefore : (s.conns c).deleted = 0 := by
      have hle := hstep.counts_le.1
      omega
    rcases hstep.withdrawn_cases with hsame | ⟨resume, hpc⟩ | ⟨⟨resume, hpc⟩, -⟩
    · rw [(Prod.mk.inj hsame).2]
      exact h.ordered c hlt hbefore
    · rw [hpc] at hinstr
      rw [show (next.conns c).fdClosed = (s.conns c).fdClosed from ?_]
      · exact h.ordered c hlt hbefore
      · cases hinstr with
        | closeDel => exact update_same s.conns c _ Connection.fdClosed (by rfl) c
        | work | interrupt => rfl
    · have hphase := h.phase a c (1, 0) (by rw [hpc]; rfl)
      exact absurd ((Prod.mk.inj hphase).1.symm.trans hbefore) (by decide)
  · simp [State.accept]

/-- A thread that closes an fd closes that of a connection that still has it. -/
theorem State.Listed.closing (h : s.Listed) (hsound : s.Sound) {a : Agent} {c : Nat}
    {resume : Resume} (hpc : s.pc a = .closeFd c resume) :
    c < s.nextConn ∧ (s.conns c).fdClosed = 0 := by
  have hserves : (s.pc a).serves s.msgs = some c := by rw [hpc]; rfl
  have hphase := h.phase a c (1, 0) (by rw [hpc]; rfl)
  exact ⟨(hsound.lt_of_serves hserves).1, (Prod.mk.inj hphase).2⟩

theorem State.Listed.instr_opened (h : s.Listed) (hsound : s.Sound) {a : Agent} {act : Act P}
    {next : State P} {pc' : Pc P} (hinstr : Instr cfg ctl s a (s.pc a) act next pc') {c : Nat}
    (hc : c < next.nextConn) (hzero : (next.conns c).fdClosed = 0) :
    next.openFds (next.conns c).conn.fd = true := by
  rcases hinstr.conns_cases hc with hlt | ⟨rfl, -, fd, handle, mem, rfl⟩
  · have hbefore : (s.conns c).fdClosed = 0 := by
      have hle := (hinstr.connStep_of_lt hlt).counts_le.2.1
      omega
    rw [(hinstr.kept hlt).fd]
    rcases hinstr.openFds_cases (s.conns c).conn.fd with hsame | hopen | ⟨c', resume, hpc, hfd⟩
    · rw [hsame]
      exact h.opened c hlt hbefore
    · exact hopen
    · -- The fd that is closed is that of one connection only.
      obtain ⟨hlt', hzero'⟩ := h.closing hsound hpc
      obtain rfl := h.apart c' c hlt' hlt hzero' hbefore hfd
      obtain ⟨t, rfl, -⟩ := hsound.affine.serving a c' (by rw [hpc]; rfl)
      rw [hpc] at hinstr
      cases hinstr
      simp [State.closeFd] at hzero
  · simp [State.accept, xvConnectionInit]

theorem State.Listed.instr_apart (h : s.Listed) {a : Agent} {act : Act P} {next : State P}
    {pc' : Pc P} (hinstr : Instr cfg ctl s a (s.pc a) act next pc') {c c' : Nat}
    (hc : c < next.nextConn) (hc' : c' < next.nextConn) (hzero : (next.conns c).fdClosed = 0)
    (hzero' : (next.conns c').fdClosed = 0)
    (hfd : (next.conns c).conn.fd = (next.conns c').conn.fd) : c = c' := by
  have hbefore : ∀ {x : Nat}, x < s.nextConn → (next.conns x).fdClosed = 0 →
      (s.conns x).fdClosed = 0 := by
    intro x hx hnext
    have hle := (hinstr.connStep_of_lt hx).counts_le.2.1
    omega
  -- A connection that has just been accepted got an fd that was not open.
  have hnew : ∀ {x y : Nat}, x < s.nextConn → (next.conns x).fdClosed = 0 → s.nextConn = y →
      (∃ fd handle mem, act = .accept fd handle mem ∧ next = s.accept fd handle mem ∧
        s.openFds fd = false) →
      (next.conns x).conn.fd ≠ (next.conns y).conn.fd := by
    rintro x y hx hnext rfl ⟨fd, handle, mem, -, rfl, hclosed⟩ heq
    have hopen := h.opened x hx (hbefore hx hnext)
    rw [← (hinstr.kept hx).fd, heq] at hopen
    simp [State.accept, xvConnectionInit, hclosed] at hopen
  have haccept : ∀ {x : Nat}, s.nextConn = x → x < next.nextConn →
      ∃ fd handle mem, act = .accept fd handle mem ∧ next = s.accept fd handle mem ∧
        s.openFds fd = false := by
    rintro x rfl hx
    generalize s.pc a = pc at hinstr
    cases hinstr
    case accept t fd handle mem ht hclosed => exact ⟨fd, handle, mem, rfl, rfl, hclosed⟩
    all_goals exact absurd hx (Nat.lt_irrefl _)
  rcases hinstr.conns_cases hc with hlt | ⟨hx, -⟩ <;>
    rcases hinstr.conns_cases hc' with hlt' | ⟨hx', -⟩
  · rw [(hinstr.kept hlt).fd, (hinstr.kept hlt').fd] at hfd
    exact h.apart c c' hlt hlt' (hbefore hlt hzero) (hbefore hlt' hzero') hfd
  · exact absurd hfd (hnew hlt hzero hx' (haccept hx' hc'))
  · exact absurd hfd.symm (hnew hlt' hzero' hx (haccept hx hc))
  · exact hx.symm.trans hx'

theorem State.Listed.instr_slot (h : s.Listed) (hsound : s.Sound) {a : Agent} {act : Act P}
    {next : State P} {pc' : Pc P} (hsafe : s.safe a = true)
    (hinstr : Instr cfg ctl s a (s.pc a) act next pc') {c : Nat} (hc : c < next.nextConn)
    (hzero : (next.conns c).deleted = 0) :
    (∃ b, (next.goto a pc').pc b = .addConnection c) ∨
      next.table.slots (next.conns c).conn.fd = some c := by
  rcases hinstr.conns_cases hc with hlt | ⟨rfl, rfl, -⟩
  · have hbefore : (s.conns c).deleted = 0 := by
      have hle := (hinstr.connStep_of_lt hlt).counts_le.1
      omega
    rw [(hinstr.kept hlt).fd]
    by_cases hadding : ∃ b, s.pc b = .addConnection c
    · obtain ⟨b, hb⟩ := hadding
      by_cases hba : b = a
      · subst hba
        have hresting := hsound.owned.resting
        generalize hpc : s.pc b = pc at hinstr
        rw [hb] at hpc
        subst hpc
        cases hinstr
        case addConnection t garbage table htable =>
          exact Or.inr (xvServiceAddConnection_some htable).2.2.1
        case work i thread hrun _ | interrupt i thread hrun _ =>
          exact absurd (hb.symm.trans (hresting i hrun)) (by simp)
      · exact Or.inl ⟨b, by rw [State.goto_pc_of_ne _ _ hba, hinstr.pc_eq]; exact hb⟩
    · right
      have hslot := (h.slot c hlt hbefore).resolve_left hadding
      have hbelow := (h.registered c hlt).resolve_left hadding
      -- Whoever changes the slot of a connection has its fd, and so is the connection.
      have hsame : ∀ {c' : Nat}, c' < s.nextConn → (s.conns c').fdClosed = 0 →
          (s.conns c').conn.fd = (s.conns c).conn.fd → c' = c :=
        fun hlt' hzero' hfd =>
          h.apart _ c hlt' hlt hzero' (h.ordered c hlt hbefore) hfd
      rcases hinstr.slots_cases hbelow with hkeep | ⟨c', resume, hpc, hfd, -⟩ | ⟨c', hpc, hfd, hnew⟩
      · exact hkeep.trans hslot
      · have halive := State.safe_alive hsafe (c := c') (by rw [hpc]; rfl)
        obtain ⟨hzero', hbelow', -⟩ := h.deleting hsound hpc halive
        obtain rfl := hsame (State.lt_of_alive halive) (Prod.mk.inj hzero').2 hfd
        obtain ⟨t, rfl, -⟩ := hsound.affine.serving a c' (by rw [hpc]; rfl)
        rw [hpc] at hinstr
        cases hinstr
        rw [s.delConnection_cleaned hbelow'] at hzero
        exact absurd hzero (by omega)
      · obtain ⟨hlt', hnone⟩ := hsound.adopted.lt_of_adopts (a := a) (c := c') (by rw [hpc]; rfl)
        obtain rfl := hsame hlt' (Prod.mk.inj (h.fresh c' hlt' hnone)).2 hfd
        exact hnew
  · exact Or.inl ⟨a, State.goto_pc_self ..⟩

theorem State.Listed.instr (h : s.Listed) (hsound : s.Sound) {a : Agent} {act : Act P}
    {next : State P} {pc' : Pc P} (hsafe : s.safe a = true)
    (hinstr : Instr cfg ctl s a (s.pc a) act next pc') : (next.goto a pc').Listed where
  registered := fun _ hc => hinstr.registered_next hsound.owned.resting h.registered hc
  fresh := fun _ hc hnone => h.instr_fresh hsound hinstr hc hnone
  phase := fun _ _ _ hp => h.instr_phase hsound hsafe hinstr hp
  idle := fun _ halive => h.instr_idle hsound hinstr halive
  ordered := fun _ hc hdeleted => h.instr_ordered hinstr hc hdeleted
  opened := fun _ hc hzero => h.instr_opened hsound hinstr hc hzero
  apart := fun _ _ hc hc' hzero hzero' hfd => h.instr_apart hinstr hc hc' hzero hzero' hfd
  slot := fun _ hc hdeleted => h.instr_slot hsound hsafe hinstr hc hdeleted

/-! ### Every run -/

/-- A change that concerns neither the table nor a close. -/
theorem State.Listed.frame (h : s.Listed) {next : State P} (hnext : next.nextConn = s.nextConn)
    (hpc : next.pc = s.pc) (htable : next.table = s.table) (hopen : next.openFds = s.openFds)
    (hconn : ∀ c, (next.conns c).conn.fd = (s.conns c).conn.fd ∧ next.owner c = s.owner c ∧
      (next.conns c).cleaned = (s.conns c).cleaned) : next.Listed := by
  have hfd : ∀ c, (next.conns c).conn.fd = (s.conns c).conn.fd := fun c => (hconn c).1
  have howner : ∀ c, next.owner c = s.owner c := fun c => (hconn c).2.1
  have hdeleted : ∀ c, (next.conns c).deleted = (s.conns c).deleted :=
    fun c => (Prod.mk.inj (hconn c).2.2).1
  have hclosed : ∀ c, (next.conns c).fdClosed = (s.conns c).fdClosed :=
    fun c => (Prod.mk.inj (Prod.mk.inj (hconn c).2.2).2).1
  have hfreed : ∀ c, (next.conns c).freed = (s.conns c).freed :=
    fun c => (Prod.mk.inj (Prod.mk.inj (hconn c).2.2).2).2
  have hwithdrawn : ∀ c, (next.conns c).withdrawn = (s.conns c).withdrawn := fun c => by
    unfold Connection.withdrawn
    rw [hdeleted, hclosed]
  have halive : ∀ c, next.alive c = s.alive c := fun c => by
    unfold State.alive
    rw [hnext, hfreed]
  refine ⟨?_, ?_, ?_, ?_, ?_, ?_, ?_, ?_⟩
  · intro c hc
    rw [hpc, hfd, htable]
    exact h.registered c (hnext ▸ hc)
  · intro c hc hnone
    rw [hwithdrawn]
    exact h.fresh c (hnext ▸ hc) ((howner c).symm.trans hnone)
  · intro a c p hp
    rw [hwithdrawn]
    exact h.phase a c p (hpc ▸ hp)
  · intro c hc
    rw [hwithdrawn, hpc]
    exact h.idle c ((halive c).symm.trans hc)
  · intro c hc hzero
    rw [hclosed]
    exact h.ordered c (hnext ▸ hc) ((hdeleted c).symm.trans hzero)
  · intro c hc hzero
    rw [hopen, hfd]
    exact h.opened c (hnext ▸ hc) ((hclosed c).symm.trans hzero)
  · intro c c' hc hc' hzero hzero' heq
    rw [hfd, hfd] at heq
    exact h.apart c c' (hnext ▸ hc) (hnext ▸ hc') ((hclosed c).symm.trans hzero)
      ((hclosed c').symm.trans hzero') heq
  · intro c hc hzero
    rw [hpc, htable, hfd]
    exact h.slot c (hnext ▸ hc) ((hdeleted c).symm.trans hzero)

theorem State.Listed.refs (h : s.Listed) {next : State P} (hsame : s.SameButRefs next)
    (hopen : next.openFds = s.openFds) : next.Listed := by
  refine h.frame hsame.nextConn hsame.pc hsame.table hopen fun c => ?_
  obtain ⟨refCount, userRefs, hconn⟩ := hsame.conns c
  refine ⟨?_, hsame.owner c, ?_⟩
  · rw [hconn]
  · rw [hconn]
    rfl

theorem State.Listed.step (h : s.Listed) (hsound : s.Sound) {label : Label P} {s' : State P}
    (hstep : s.step cfg ctl label = some s') : s'.Listed := by
  rcases State.step_cases hstep with ⟨a, act, next, pc, -, hsafe, -, hinstr, rfl⟩ |
      ⟨c, -, -, rfl⟩ | ⟨c, -, -, -, rfl⟩
  · exact h.instr hsound hsafe hinstr
  · exact h.refs (s.incrRef_same c) rfl
  · exact h.refs (s.decrRef_same c) rfl

theorem State.Listed.init : (State.init : State P).Listed where
  registered := fun c hc => absurd hc (Nat.not_lt_zero c)
  fresh := fun c hc => absurd hc (Nat.not_lt_zero c)
  phase := fun a c p hp => by cases a <;> cases hp
  idle := fun c hc => absurd (State.lt_of_alive hc) (Nat.not_lt_zero c)
  ordered := fun c hc => absurd hc (Nat.not_lt_zero c)
  opened := fun c hc => absurd hc (Nat.not_lt_zero c)
  apart := fun c _ hc => absurd hc (Nat.not_lt_zero c)
  slot := fun c hc => absurd hc (Nat.not_lt_zero c)

/-- **In every reachable state each connection that has not been deleted is in the slot of
its fd.** -/
theorem State.listed {ok : State P → Label P → Prop}
    (h : Reach (State.step cfg ctl) ok (· = State.init) s) : s.Listed :=
  State.invariant h .init fun _ _ _ hsound hlisted _ hstep => hlisted.step hsound hstep

end Libxv
