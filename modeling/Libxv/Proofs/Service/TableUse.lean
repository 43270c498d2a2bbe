/-
The accesses to the connection table, one by one.

A call of one of the table functions takes effect, for the service of `Service/Program.lean`,
with its last access, the count.  `TableUse.Refines` says how the memory differs from the
table of that service meanwhile: a slot is ahead of it while a call has stored and not yet
counted, and `conn_setsize` while a call grows the table.  As long as no delete stores
through a pointer that a growth has made stale, every run of single accesses is a run of
whole calls (`TableUse.refines`).
-/
import Libxv.Proofs.Service.Closing
import Libxv.Proofs.Service.Growth
import Libxv.Proofs.Service.Homes
import Libxv.Proofs.Service.WithTable

namespace Libxv

open Function Transition

variable {P : Type} {cfg : Config} {ctl : EpollCtl} {s : State P}

/-! ### Calls of the table functions -/

/-- A connection that a thread has brought to the table stays as it is for the others. -/
theorem State.Sound.held_at_table (h : s.Sound) {label : Label P} {s' : State P}
    (hstep : s.step cfg ctl label = some s') (hlabel : s.atTable label = false) {a : Agent}
    {c : Nat} (hpc : s.pc a = .addConnection c ∨ ∃ resume, s.pc a = .closeDel c resume)
    (halive : s.alive c = true) :
    s'.pc a = s.pc a ∧ s'.alive c = true ∧ (s'.conns c).conn.fd = (s.conns c).conn.fd := by
  have hlt := State.lt_of_alive halive
  have halive' : ∀ {next : State P}, s.nextConn ≤ next.nextConn →
      (next.conns c).freed = (s.conns c).freed → next.alive c = true := by
    intro next hnext hfreed
    have hzero := State.freed_of_alive halive
    simp only [State.alive, Bool.and_eq_true, decide_eq_true_eq, beq_iff_eq]
    omega
  rcases State.step_split hstep with ⟨b, act, next, pc, rfl, -, hinstr, rfl⟩ | hsame
  · have hab : a ≠ b := by
      rintro rfl
      have hoff : (s.pc a).changesTable = false := hlabel
      rcases hpc with hpc | ⟨resume, hpc⟩ <;> rw [hpc] at hoff <;> cases hoff
    refine ⟨?_, halive' hinstr.nextConn_le ?_, (hinstr.kept hlt).fd⟩
    · rw [State.goto_pc_of_ne _ _ hab, hinstr.pc_eq]
    · show (next.conns c).freed = (s.conns c).freed
      rcases (hinstr.connStep_of_lt hlt).cleaned_cases with hkeep | hrel
      · exact congrArg (fun p => p.2.2) hkeep
      · -- Only the thread that serves it frees a connection, and here that is another one.
        have hserves : (s.pc b).serves s.msgs = some c := Pc.serves_of_releases hrel
        rcases hpc with hpc | ⟨resume, hpc⟩
        · exact absurd hpc (h.not_adding (h.lt_of_serves hserves).2 a)
        · exact absurd (h.affine.serving_unique (by rw [hpc]; rfl) hserves) hab
  · obtain ⟨refCount, userRefs, hconn⟩ := hsame.conns c
    refine ⟨congrFun hsame.pc a, halive' (Nat.le_of_eq hsame.nextConn.symm) ?_, ?_⟩
    · rw [hconn]
    · rw [hconn]

/-- The connection with which thread `a` is at the table. -/
def TableUse.conn (x : TableUse P) (a : Agent) : Nat :=
  match x.service.pc a with
  | .addConnection c | .closeDel c _ => c
  | _ => 0

/-- The slot it is at there. -/
def TableUse.fd (x : TableUse P) (a : Agent) : Nat := (x.service.conns (x.conn a)).conn.fd

/-- The leader is in `xv_service_add_connection`. -/
structure TableUse.Adds (x : TableUse P) (a : Agent) : Prop where
  leader : a = .io 0
  pc : x.service.pc a = .addConnection (x.conn a)
  alive : x.service.alive (x.conn a) = true

/-- Thread `a` is in `xv_service_del_connection`. -/
structure TableUse.Deletes (cfg : Config) (x : TableUse P) (a : Agent) : Prop where
  runs : a.runs cfg = true
  pc : ∃ resume, x.service.pc a = .closeDel (x.conn a) resume
  alive : x.service.alive (x.conn a) = true

theorem TableUse.conn_add {x : TableUse P} {a : Agent} {c : Nat}
    (h : x.service.pc a = .addConnection c) : x.conn a = c := by
  unfold TableUse.conn
  rw [h]

theorem TableUse.conn_del {x : TableUse P} {a : Agent} {c : Nat} {resume : Resume}
    (h : x.service.pc a = .closeDel c resume) : x.conn a = c := by
  unfold TableUse.conn
  rw [h]

/-- What is known of the service of whole calls in every state. -/
structure State.Tabled (cfg : Config) (s : State P) : Prop where
  sound : s.Sound
  listed : s.Listed
  homed : s.Homed cfg

theorem State.tabled {ok : State P → Label P → Prop}
    (h : Reach (State.step cfg ctl) ok (· = State.init) s) : s.Tabled cfg :=
  ⟨State.sound h, State.listed h, State.homed h.reachable⟩

section Calls

variable {x : TableUse P} {t : ConnTable}

theorem TableUse.Adds.fresh {a : Agent} (h : x.Adds a)
    (htabled : (x.service.withTable t).Tabled cfg) :
    x.service.owner (x.conn a) = none ∧ (x.service.conns (x.conn a)).fdClosed = 0 := by
  have hadopts : ((x.service.withTable t).pc a).adopts = some (x.conn a) := by
    rw [State.withTable_pc, h.pc]
    rfl
  obtain ⟨hlt, hnone⟩ := htabled.sound.adopted.lt_of_adopts hadopts
  exact ⟨hnone, (Prod.mk.inj (htabled.listed.fresh _ hlt hnone)).2⟩

/-- A connection that is deleted is in its slot. -/
theorem TableUse.Deletes.listed {a : Agent} (h : x.Deletes cfg a)
    (htabled : (x.service.withTable t).Tabled cfg) :
    (x.service.conns (x.conn a)).fdClosed = 0 ∧ x.fd a < t.setsize := by
  obtain ⟨resume, hpc⟩ := h.pc
  obtain ⟨hzero, hbelow, -⟩ := htabled.listed.deleting htabled.sound (a := a) hpc h.alive
  exact ⟨(Prod.mk.inj hzero).2, hbelow⟩

theorem TableUse.Deletes.serves {a : Agent} (h : x.Deletes cfg a) :
    (x.service.pc a).serves x.service.msgs = some (x.conn a) := by
  obtain ⟨resume, hpc⟩ := h.pc
  rw [hpc]
  rfl

/-- It is an io thread that deletes. -/
theorem TableUse.Deletes.io {a : Agent} (h : x.Deletes cfg a)
    (htabled : (x.service.withTable t).Tabled cfg) : ∃ u, a = .io u ∧ u < cfg.ioThreadCount := by
  obtain ⟨u, rfl, -⟩ := htabled.sound.affine.serving a _ h.serves
  exact ⟨u, rfl, of_decide_eq_true h.runs⟩

/-- Two threads at the table are at different slots. -/
theorem TableUse.fd_ne (htabled : (x.service.withTable t).Tabled cfg) {a b : Agent}
    (ha : x.Deletes cfg a) (hb : x.Adds b ∨ x.Deletes cfg b) (hne : a ≠ b) :
    x.fd a ≠ x.fd b := by
  intro hfd
  have hzero : (x.service.conns (x.conn b)).fdClosed = 0 := by
    rcases hb with hb | hb
    · exact (hb.fresh htabled).2
    · exact (hb.listed htabled).1
  have halive : x.service.alive (x.conn b) = true := hb.elim (·.alive) (·.alive)
  have hconn : x.conn a = x.conn b :=
    htabled.listed.apart _ _ (State.lt_of_alive ha.alive) (State.lt_of_alive halive)
      (ha.listed htabled).1 hzero hfd
  rcases hb with hb | hb
  · exact (htabled.sound.lt_of_serves (a := a) ha.serves).2 (hconn ▸ (hb.fresh htabled).1)
  · exact hne (htabled.sound.affine.serving_unique ha.serves (hconn ▸ hb.serves))

end Calls

/-! ### How the memory differs from the table -/

/-- The block that a delete has loaded. -/
def TablePc.loaded : TablePc → Option Nat
  | .clear b => some b
  | _ => none

/-- The block that `xv_realloc` has returned. -/
def TablePc.returned : TablePc → Option Nat
  | .assign b => some b
  | _ => none

/-- The call has changed `conn_setsize`, or may still do so. -/
def TablePc.adds : TablePc → Bool
  | .realloc | .assign _ | .put | .countUp => true
  | _ => false

/-- The call has stored and not counted yet. -/
def TablePc.stored : TablePc → Bool
  | .countUp | .countDown => true
  | _ => false

/-- The call of thread `a` has doubled `conn_setsize`. -/
def TableUse.Grown (x : TableUse P) (t : ConnTable) (a : Agent) : Prop :=
  t.setsize < x.fd a ∧ x.memory.setsize = t.setsize * 2

/-- A growth is over, or none was needed. -/
def TableUse.Room (x : TableUse P) (t : ConnTable) (a : Agent) : Prop :=
  (x.fd a ≤ t.setsize ∧ x.memory.setsize = t.setsize) ∨
    (x.Grown t a ∧ sizeofPointer * x.memory.setsize ≤ intMax)

/-- What holds of thread `a` at a place in one of the table functions. -/
def TableUse.Fits (cfg : Config) (x : TableUse P) (t : ConnTable) (a : Agent) : TablePc → Prop
  | .out => True
  | .realloc => x.Adds a ∧ x.Grown t a ∧ x.memory.size x.memory.connections = t.setsize
  | .assign b =>
      x.Adds a ∧ x.Grown t a ∧ sizeofPointer * x.memory.setsize ≤ intMax ∧
        x.memory.size b = x.memory.setsize ∧ b < x.memory.blocks ∧
          (b ≠ x.memory.connections → (∀ a', (x.inTable a').loaded = none) ∧
            ∀ i, i < t.setsize → x.memory.block b i = x.memory.slot i)
  | .put =>
      x.Adds a ∧ x.Room t a ∧ x.memory.size x.memory.connections = x.memory.setsize
  | .countUp =>
      x.Adds a ∧ x.Room t a ∧ x.memory.size x.memory.connections = x.memory.setsize ∧
        x.fd a < x.memory.setsize ∧ x.memory.slot (x.fd a) = some (x.conn a)
  | .load => x.Deletes cfg a
  | .clear b => x.Deletes cfg a ∧ b = x.memory.connections
  | .countDown => x.Deletes cfg a ∧ x.memory.slot (x.fd a) = none

/-- The memory holds the table `t`, up to the calls that have begun and not counted. -/
structure TableUse.Refines (cfg : Config) (x : TableUse P) (t : ConnTable) : Prop where
  calls : ∀ a, x.Fits cfg t a (x.inTable a)
  allocated : x.memory.connections < x.memory.blocks
  steady : (x.inTable (.io 0)).adds = false →
    x.memory.setsize = t.setsize ∧ x.memory.size x.memory.connections = x.memory.setsize
  slots : ∀ i, i < t.setsize → (∀ a, (x.inTable a).stored = true → x.fd a ≠ i) →
    x.memory.slot i = t.slots i

/-- No delete meets a growth: `xv_realloc` does not move the table while an io thread has
loaded `service->connections` for a delete and not stored yet, and none loads it while the
leader has a new block and has not assigned it. -/
def TableUse.Undisturbed (cfg : Config) (x : TableUse P) (a : Agent) (call : Realloc) : Prop :=
  (x.inTable a = .realloc → call.moved = true →
    ∀ u, u < cfg.ioThreadCount → (x.inTable (.io u)).loaded = none) ∧
  (x.inTable a = .load → ∀ b ∈ (x.inTable (.io 0)).returned, b = x.memory.connections)

instance (x : TableUse P) (a : Agent) (call : Realloc) : Decidable (x.Undisturbed cfg a call) :=
  inferInstanceAs (Decidable (_ ∧ _))

section Steps

variable {x y : TableUse P} {t t' : ConnTable} {a : Agent}

/-- A thread at the table is where it was, with its connection. -/
structure TableUse.Held (x y : TableUse P) (a : Agent) : Prop where
  pc : y.service.pc a = x.service.pc a
  alive : y.service.alive (x.conn a) = true
  fd : (y.service.conns (x.conn a)).conn.fd = x.fd a

theorem TableUse.Held.conn_eq (h : x.Held y a) : y.conn a = x.conn a := by
  unfold TableUse.conn
  rw [h.pc]

theorem TableUse.Held.fd_eq (h : x.Held y a) : y.fd a = x.fd a := by
  unfold TableUse.fd
  rw [h.conn_eq]
  exact h.fd

theorem TableUse.Held.adds (h : x.Held y a) (hadds : x.Adds a) : y.Adds a where
  leader := hadds.leader
  pc := by
    rw [h.pc, h.conn_eq]
    exact hadds.pc
  alive := by
    rw [h.conn_eq]
    exact h.alive

theorem TableUse.Held.deletes (h : x.Held y a) (hdeletes : x.Deletes cfg a) :
    y.Deletes cfg a where
  runs := hdeletes.runs
  pc := by
    rw [h.pc, h.conn_eq]
    exact hdeletes.pc
  alive := by
    rw [h.conn_eq]
    exact h.alive

theorem TableUse.Grown.congr (h : x.Grown t a) (hfd : y.fd a = x.fd a)
    (ht : t'.setsize = t.setsize) (hsize : y.memory.setsize = x.memory.setsize) :
    y.Grown t' a := by
  unfold TableUse.Grown at h ⊢
  rw [hfd, ht, hsize]
  exact h

theorem TableUse.Room.congr (h : x.Room t a) (hfd : y.fd a = x.fd a)
    (ht : t'.setsize = t.setsize) (hsize : y.memory.setsize = x.memory.setsize) :
    y.Room t' a := by
  unfold TableUse.Room at h ⊢
  rw [hfd, ht, hsize]
  exact h.imp_right fun hgrown => ⟨hgrown.1.congr hfd ht hsize, hgrown.2⟩

/-- A step that changes the service, and `conn_count` at most. -/
theorem TableUse.Fits.frame {pc : TablePc} (h : x.Fits cfg t a pc) {n : Int}
    (hmemory : y.memory = { x.memory with count := n })
    (hloaded : ∀ b, (y.inTable b).loaded = none ∨ (y.inTable b).loaded = (x.inTable b).loaded)
    (hheld : x.Adds a ∨ x.Deletes cfg a → x.Held y a)
    (hsize : x.Adds a → t'.setsize = t.setsize) : y.Fits cfg t' a pc := by
  have hgrown : x.Adds a → x.Grown t a → y.Grown t' a := fun hadds h =>
    h.congr (hheld (Or.inl hadds)).fd_eq (hsize hadds) (by rw [hmemory])
  have hroom : x.Adds a → x.Room t a → y.Room t' a := fun hadds h =>
    h.congr (hheld (Or.inl hadds)).fd_eq (hsize hadds) (by rw [hmemory])
  cases pc with
  | out => trivial
  | realloc =>
      obtain ⟨hadds, hgrows, hblock⟩ := h
      refine ⟨(hheld (Or.inl hadds)).adds hadds, hgrown hadds hgrows, ?_⟩
      rw [hmemory, hsize hadds]
      exact hblock
  | assign b =>
      obtain ⟨hadds, hgrows, hbytes, hblock, hlt, hmoved⟩ := h
      refine ⟨(hheld (Or.inl hadds)).adds hadds, hgrown hadds hgrows, ?_⟩
      rw [hmemory, hsize hadds]
      refine ⟨hbytes, hblock, hlt, fun hb => ⟨fun a' => ?_, (hmoved hb).2⟩⟩
      rcases hloaded a' with hnone | hsame
      · exact hnone
      · exact hsame.trans ((hmoved hb).1 a')
  | put =>
      obtain ⟨hadds, hfits, hblock⟩ := h
      refine ⟨(hheld (Or.inl hadds)).adds hadds, hroom hadds hfits, ?_⟩
      rw [hmemory]
      exact hblock
  | countUp =>
      obtain ⟨hadds, hfits, hblock, hbelow, hslot⟩ := h
      have hsame := hheld (Or.inl hadds)
      refine ⟨hsame.adds hadds, hroom hadds hfits, ?_⟩
      rw [hmemory, hsame.fd_eq, hsame.conn_eq]
      exact ⟨hblock, hbelow, hslot⟩
  | load => exact (hheld (Or.inr h)).deletes h
  | clear b =>
      refine ⟨(hheld (Or.inr h.1)).deletes h.1, ?_⟩
      rw [hmemory]
      exact h.2
  | countDown =>
      have hsame := hheld (Or.inr h.1)
      refine ⟨hsame.deletes h.1, ?_⟩
      rw [hmemory, hsame.fd_eq]
      exact h.2

/-- A thread that is in one of the table functions. -/
theorem TableUse.Refines.at_table (h : x.Refines cfg t) (hin : x.inTable a ≠ .out) :
    x.Adds a ∨ x.Deletes cfg a := by
  have hcall := h.calls a
  cases hpc : x.inTable a <;> rw [hpc] at hcall
  case out => exact absurd hpc hin
  case load => exact Or.inr hcall
  case clear | countDown => exact Or.inr hcall.1
  all_goals exact Or.inl hcall.1

/-- A step of the service away from the table. -/
theorem TableUse.Refines.service (h : x.Refines cfg t)
    (htabled : (x.service.withTable t).Tabled cfg) {label : Label P} {s' : State P}
    (hlabel : x.service.atTable label = false)
    (hstep : (x.service.withTable t).step cfg ctl label = some (s'.withTable t)) :
    ({ x with service := s' } : TableUse P).Refines cfg t := by
  have hheld : ∀ a, x.Adds a ∨ x.Deletes cfg a →
      x.Held { x with service := s' } a := by
    intro a ha
    have hpc : (x.service.withTable t).pc a = .addConnection (x.conn a) ∨
        ∃ resume, (x.service.withTable t).pc a = .closeDel (x.conn a) resume :=
      ha.imp (·.pc) (·.pc)
    obtain ⟨hsame, halive, hfd⟩ :=
      htabled.sound.held_at_table hstep hlabel hpc (ha.elim (·.alive) (·.alive))
    exact ⟨hsame, halive, hfd⟩
  refine ⟨fun a => (h.calls a).frame rfl (fun b => Or.inr rfl) (hheld a) fun _ => rfl,
    h.allocated, h.steady, fun i hi hnone => h.slots i hi fun a hstored => ?_⟩
  have hin : x.inTable a ≠ .out := fun hout => by rw [hout] at hstored; cases hstored
  rw [← (hheld a (h.at_table hin)).fd_eq]
  exact hnone a hstored

/-! ### One access -/

theorem TableUse.held_of_service (hservice : y.service = x.service)
    (ha : x.Adds a ∨ x.Deletes cfg a) : x.Held y a := by
  refine ⟨?_, ?_, ?_⟩
  · rw [hservice]
  · rw [hservice]
    exact ha.elim (·.alive) (·.alive)
  · rw [hservice]
    rfl

/-- A thread other than the leader, while another one makes an access. -/
theorem TableUse.Fits.deleter {pc : TablePc} (h : x.Fits cfg t a pc) (hnot : ¬ x.Adds a)
    (hheld : x.Deletes cfg a → x.Held y a)
    (hloaded : ∀ b, pc = .clear b → b = x.memory.connections → b = y.memory.connections)
    (hslot : x.Deletes cfg a → x.memory.slot (x.fd a) = none → y.memory.slot (x.fd a) = none) :
    y.Fits cfg t' a pc := by
  cases pc with
  | out => trivial
  | load => exact (hheld h).deletes h
  | clear b => exact ⟨(hheld h.1).deletes h.1, hloaded b rfl h.2⟩
  | countDown =>
      refine ⟨(hheld h.1).deletes h.1, ?_⟩
      rw [(hheld h.1).fd_eq]
      exact hslot h.1 h.2
  | realloc | assign | put | countUp => exact absurd h.1 hnot

/-- The leader, while another thread makes an access. -/
theorem TableUse.Fits.adder {pc : TablePc} (h : x.Fits cfg t a pc) (hnot : ¬ x.Deletes cfg a)
    {block : Nat → Nat → Option Nat} (hservice : y.service = x.service)
    (hmemory : y.memory = { x.memory with block := block })
    (hreturned : ∀ b, pc = .assign b → b = x.memory.connections ∨
      (block = x.memory.block ∧ ∀ c, (x.inTable c).loaded = none → (y.inTable c).loaded = none))
    (hslot : x.Adds a → y.memory.slot (x.fd a) = x.memory.slot (x.fd a)) :
    y.Fits cfg t a pc := by
  have hheld : x.Adds a → x.Held y a := fun hadds =>
    have hat : x.Adds a ∨ x.Deletes cfg a := Or.inl hadds
    TableUse.held_of_service hservice hat
  have hgrown : x.Adds a → x.Grown t a → y.Grown t a := fun hadds h =>
    h.congr (hheld hadds).fd_eq rfl (by rw [hmemory])
  have hroom : x.Adds a → x.Room t a → y.Room t a := fun hadds h =>
    h.congr (hheld hadds).fd_eq rfl (by rw [hmemory])
  cases pc with
  | out => trivial
  | load => exact absurd h hnot
  | clear | countDown => exact absurd h.1 hnot
  | realloc =>
      obtain ⟨hadds, hgrows, hblock⟩ := h
      refine ⟨(hheld hadds).adds hadds, hgrown hadds hgrows, ?_⟩
      rw [hmemory]
      exact hblock
  | assign b =>
      obtain ⟨hadds, hgrows, hbytes, hblock, hlt, hmoved⟩ := h
      refine ⟨(hheld hadds).adds hadds, hgrown hadds hgrows, ?_⟩
      rw [hmemory]
      refine ⟨hbytes, hblock, hlt, fun hb => ?_⟩
      rcases hreturned b rfl with hstays | ⟨rfl, hloaded⟩
      · exact absurd hstays hb
      · exact ⟨fun c => hloaded c ((hmoved hb).1 c), (hmoved hb).2⟩
  | put =>
      obtain ⟨hadds, hfits, hblock⟩ := h
      refine ⟨(hheld hadds).adds hadds, hroom hadds hfits, ?_⟩
      rw [hmemory]
      exact hblock
  | countUp =>
      obtain ⟨hadds, hfits, hblock, hbelow, hstored⟩ := h
      refine ⟨(hheld hadds).adds hadds, hroom hadds hfits, ?_, ?_, ?_⟩
      · rw [hmemory]
        exact hblock
      · rw [hmemory, (hheld hadds).fd_eq]
        exact hbelow
      · rw [(hheld hadds).fd_eq, (hheld hadds).conn_eq, hslot hadds]
        exact hstored

/-- One thread is somewhere else, and the others are where they were. -/
theorem TableUse.fits_update {pc : TablePc} (hin : y.inTable = update x.inTable a pc)
    (hself : y.Fits cfg t a pc) (hother : ∀ b, b ≠ a → y.Fits cfg t b (x.inTable b)) (b : Agent) :
    y.Fits cfg t b (y.inTable b) := by
  rw [hin]
  by_cases hb : b = a
  · subst hb
    rw [update_self]
    exact hself
  · rw [update_of_ne hb]
    exact hother b hb

theorem TableUse.Adds.unique {b : Agent} (h : x.Adds a) (hb : b ≠ a) : ¬ x.Adds b :=
  fun hadds => hb (hadds.leader.trans h.leader.symm)

theorem TableUse.Adds.not_deletes (h : x.Adds a) : ¬ x.Deletes cfg a := by
  intro hdeletes
  obtain ⟨resume, hpc⟩ := hdeletes.pc
  cases h.pc.symm.trans hpc

/-- The table in memory is not smaller. -/
theorem TableUse.Refines.setsize_le (h : x.Refines cfg t) : t.setsize ≤ x.memory.setsize := by
  have hcall := h.calls (.io 0)
  have hsteady := h.steady
  cases hpc : x.inTable (.io 0) <;> rw [hpc] at hcall hsteady
  case realloc | assign =>
    obtain ⟨-, ⟨-, hdouble⟩, -⟩ := hcall
    omega
  case put | countUp =>
    obtain ⟨-, ⟨-, hsame⟩ | ⟨⟨-, hdouble⟩, -⟩, -⟩ := hcall <;> omega
  all_goals exact Nat.le_of_eq (hsteady rfl).1.symm

/-- A slot, before an access of a thread that has not stored. -/
theorem TableUse.Refines.slot_before (h : x.Refines cfg t) {pc : TablePc} {i : Nat}
    (hquiet : (x.inTable a).stored = false) (hi : i < t.setsize)
    (hnone : ∀ b, (update x.inTable a pc b).stored = true → x.fd b ≠ i) :
    x.memory.slot i = t.slots i := by
  refine h.slots i hi fun b hstored => hnone b ?_
  have hb : b ≠ a := by
    rintro rfl
    cases hquiet.symm.trans hstored
  rw [update_of_ne hb]
  exact hstored

/-- A slot, after an access with which a thread has left the table. -/
theorem TableUse.Refines.slot_after (h : x.Refines cfg t) {i : Nat}
    (hin : y.inTable = update x.inTable a .out)
    (hheld : ∀ b, b ≠ a → x.Adds b ∨ x.Deletes cfg b → x.Held y b) (hi : i < t.setsize)
    (hfd : i ≠ x.fd a) (hnone : ∀ b, (y.inTable b).stored = true → y.fd b ≠ i) :
    x.memory.slot i = t.slots i := by
  refine h.slots i hi fun b hstored => ?_
  by_cases hb : b = a
  · rw [hb]
    exact Ne.symm hfd
  · have hat : x.inTable b ≠ .out := fun hout => by rw [hout] at hstored; cases hstored
    rw [← (hheld b hb (h.at_table hat)).fd_eq]
    exact hnone b (by rw [hin, update_of_ne hb]; exact hstored)

/-- The leader is in no add if it was in none and the thread is in none. -/
theorem TableUse.adds_before {pc : TablePc} (hpc : (x.inTable a).adds = false)
    (hidle : (update x.inTable a pc (.io 0)).adds = false) :
    (x.inTable (.io 0)).adds = false := by
  by_cases hzero : .io 0 = a
  · rw [hzero]
    exact hpc
  · rw [update_of_ne hzero] at hidle
    exact hidle

/-- A thread that has loaded the pointer is an io thread in a delete. -/
theorem TableUse.Refines.deletes_of_loaded (h : x.Refines cfg t) {b : Nat}
    (hloaded : (x.inTable a).loaded = some b) : x.Deletes cfg a ∧ b = x.memory.connections := by
  have hcall := h.calls a
  cases hpc : x.inTable a <;> rw [hpc] at hcall hloaded <;> cases hloaded
  exact hcall

theorem TableUse.Refines.not_loaded (h : x.Refines cfg t)
    (htabled : (x.service.withTable t).Tabled cfg)
    (hnone : ∀ u, u < cfg.ioThreadCount → (x.inTable (.io u)).loaded = none) (b : Agent) :
    (x.inTable b).loaded = none := by
  cases hloaded : (x.inTable b).loaded with
  | none => rfl
  | some c =>
      obtain ⟨u, rfl, hu⟩ := (h.deletes_of_loaded hloaded).1.io htabled
      cases (hnone u hu).symm.trans hloaded

/-- An access of the leader after which its call goes on. -/
theorem TableUse.Refines.add (h : x.Refines cfg t) (hadds : x.Adds a) {m : TableMemory}
    {pc : TablePc} (hpc : pc.adds = true)
    (hself : ({ x with memory := m, inTable := update x.inTable a pc } : TableUse P).Fits
      cfg t a pc)
    (hallocated : m.connections < m.blocks)
    (hloaded : ∀ b, b ≠ a → (x.inTable b).loaded = some x.memory.connections →
      x.memory.connections = m.connections)
    (hslot : ∀ b, b ≠ a → x.Deletes cfg b → x.memory.slot (x.fd b) = none → m.slot (x.fd b) = none)
    (hslots : ∀ i, i < t.setsize → (∀ b, (update x.inTable a pc b).stored = true → x.fd b ≠ i) →
      m.slot i = t.slots i) :
    ({ x with memory := m, inTable := update x.inTable a pc } : TableUse P).Refines cfg t := by
  refine ⟨TableUse.fits_update rfl hself fun b hb => ?_, hallocated, fun hidle => ?_, hslots⟩
  · refine (h.calls b).deleter (hadds.unique hb)
      (fun hdel => TableUse.held_of_service rfl (Or.inr hdel)) ?_ (hslot b hb)
    rintro c hclear rfl
    exact hloaded b hb (by rw [hclear]; rfl)
  · rw [← hadds.leader] at hidle
    dsimp only at hidle
    rw [update_self, hpc] at hidle
    cases hidle

theorem TableUse.Refines.add_double (h : x.Refines cfg t) (hadds : x.Adds a)
    (hpc : x.inTable a = .out) (hpast : x.fd a > x.memory.setsize) :
    ({ x with
        memory := { x.memory with setsize := x.memory.setsize * 2 }
        inTable := update x.inTable a .realloc } : TableUse P).Refines cfg t := by
  have hidle : (x.inTable (.io 0)).adds = false := by rw [← hadds.leader, hpc]; rfl
  obtain ⟨hsize, hblock⟩ := h.steady hidle
  refine h.add hadds rfl ⟨⟨hadds.leader, hadds.pc, hadds.alive⟩, ⟨?_, ?_⟩, hblock.trans hsize⟩
    h.allocated (fun _ _ _ => rfl) (fun _ _ _ hslot => hslot) fun i hi hnone =>
      h.slot_before (by rw [hpc]; rfl) hi hnone
  · exact Nat.lt_of_le_of_lt (Nat.le_of_eq hsize.symm) hpast
  · exact congrArg (· * 2) hsize

theorem TableUse.Refines.add_test (h : x.Refines cfg t) (hadds : x.Adds a)
    (hpc : x.inTable a = .out) (hbelow : ¬ x.fd a > x.memory.setsize) :
    ({ x with inTable := update x.inTable a .put } : TableUse P).Refines cfg t := by
  have hidle : (x.inTable (.io 0)).adds = false := by rw [← hadds.leader, hpc]; rfl
  obtain ⟨hsize, hblock⟩ := h.steady hidle
  refine h.add hadds rfl ⟨⟨hadds.leader, hadds.pc, hadds.alive⟩, Or.inl ⟨?_, hsize⟩, hblock⟩
    h.allocated (fun _ _ _ => rfl) (fun _ _ _ hslot => hslot) fun i hi hnone =>
      h.slot_before (by rw [hpc]; rfl) hi hnone
  exact Nat.le_trans (Nat.le_of_not_gt hbelow) (Nat.le_of_eq hsize)

theorem TableUse.Refines.add_realloc (h : x.Refines cfg t)
    (htabled : (x.service.withTable t).Tabled cfg) (hadds : x.Adds a)
    (hpc : x.inTable a = .realloc) {call : Realloc} (hok : x.Undisturbed cfg a call)
    (hbytes : sizeofPointer * x.memory.setsize ≤ intMax) :
    ({ x with
        memory := x.memory.xvRealloc call
        inTable := update x.inTable a (.assign (x.memory.reallocated call)) } :
      TableUse P).Refines cfg t := by
  have hcall := h.calls a
  rw [hpc] at hcall
  obtain ⟨-, hgrown, hblock⟩ := hcall
  have hallocated := h.allocated
  -- What the old block held it holds still, and so does the new one.
  have hslot : ∀ i, i < t.setsize →
      (x.memory.xvRealloc call).slot i = x.memory.slot i ∧
        (x.memory.xvRealloc call).block (x.memory.reallocated call) i = x.memory.slot i := by
    intro i hi
    have hnew : (x.memory.xvRealloc call).block (x.memory.reallocated call) i =
        x.memory.slot i := by
      simp only [TableMemory.xvRealloc, update_self]
      rw [if_pos (by omega)]
      rfl
    refine ⟨?_, hnew⟩
    by_cases hsame : x.memory.connections = x.memory.reallocated call
    · rw [← hnew, ← hsame]
      rfl
    · simp only [TableMemory.slot, TableMemory.xvRealloc, update_of_ne hsame]
  have hself : (x.memory.reallocated call) < (x.memory.xvRealloc call).blocks := by
    simp only [TableMemory.reallocated, TableMemory.xvRealloc]
    split <;> omega
  refine h.add hadds rfl ⟨⟨hadds.leader, hadds.pc, hadds.alive⟩, hgrown, hbytes, ?_, hself, ?_⟩
    ?_ (fun _ _ _ => rfl) (fun b _ hdel hnone => ?_) fun i hi hnone => ?_
  · simp [TableMemory.xvRealloc]
  · intro hmoved
    have hloaded : ∀ b, (x.inTable b).loaded = none := by
      refine h.not_loaded htabled (hok.1 hpc ?_)
      by_contra hstays
      exact hmoved (if_neg hstays)
    refine ⟨fun b => ?_, fun i hi => (hslot i hi).2.trans (hslot i hi).1.symm⟩
    by_cases hb : b = a
    · rw [hb]
      dsimp only
      rw [update_self]
      rfl
    · dsimp only
      rw [update_of_ne hb]
      exact hloaded b
  · simp only [TableMemory.xvRealloc]
    split <;> omega
  · exact (hslot _ (hdel.listed htabled).2).1.trans hnone
  · exact (hslot i hi).1.trans (h.slot_before (by rw [hpc]; rfl) hi hnone)

theorem TableUse.Refines.add_assign (h : x.Refines cfg t)
    (htabled : (x.service.withTable t).Tabled cfg) (hadds : x.Adds a) {b : Nat}
    (hpc : x.inTable a = .assign b) :
    ({ x with
        memory := { x.memory with connections := b }
        inTable := update x.inTable a .put } : TableUse P).Refines cfg t := by
  have hcall := h.calls a
  rw [hpc] at hcall
  obtain ⟨-, hgrown, hbytes, hblock, hlt, hmoved⟩ := hcall
  have hslot : ∀ i, i < t.setsize → x.memory.block b i = x.memory.slot i := by
    intro i hi
    by_cases hb : b = x.memory.connections
    · rw [hb]
      rfl
    · exact (hmoved hb).2 i hi
  refine h.add hadds rfl ⟨⟨hadds.leader, hadds.pc, hadds.alive⟩, Or.inr ⟨hgrown, hbytes⟩, hblock⟩
    hlt (fun b' _ hloaded => ?_)
    (fun b' _ hdel hnone => (hslot _ (hdel.listed htabled).2).trans hnone)
    fun i hi hnone =>
      (hslot i hi).trans (h.slot_before (by rw [hpc]; rfl) hi hnone)
  by_contra hb
  cases ((hmoved (Ne.symm hb)).1 b').symm.trans hloaded

theorem TableMemory.store_slot_self (m : TableMemory) (fd : Nat) (value : Option Nat) :
    (m.store m.connections fd value).slot fd = value := by
  simp [TableMemory.slot, TableMemory.store]

theorem TableMemory.store_slot_of_ne (m : TableMemory) {fd i : Nat} (value : Option Nat)
    (hi : i ≠ fd) : (m.store m.connections fd value).slot i = m.slot i := by
  simp [TableMemory.slot, TableMemory.store, hi]

theorem TableUse.Refines.add_put (h : x.Refines cfg t)
    (htabled : (x.service.withTable t).Tabled cfg) (hadds : x.Adds a) (hpc : x.inTable a = .put)
    (hfd : x.fd a < x.memory.size x.memory.connections) :
    ({ x with
        memory := x.memory.store x.memory.connections (x.fd a) (some (x.conn a))
        inTable := update x.inTable a .countUp } : TableUse P).Refines cfg t := by
  have hcall := h.calls a
  rw [hpc] at hcall
  obtain ⟨-, hroom, hblock⟩ := hcall
  have hslot := fun i (hi : i ≠ x.fd a) =>
    x.memory.store_slot_of_ne (some (x.conn a)) hi
  refine h.add hadds rfl ⟨⟨hadds.leader, hadds.pc, hadds.alive⟩, hroom, hblock, hblock ▸ hfd,
    x.memory.store_slot_self ..⟩ h.allocated (fun _ _ _ => rfl) (fun b hb hdel hnone => ?_)
    fun i hi hnone => ?_
  · exact (hslot _ (TableUse.fd_ne htabled hdel (Or.inl hadds) hb)).trans hnone
  · have hi' : i ≠ x.fd a := by
      rintro rfl
      exact hnone a (by rw [update_self]; rfl) rfl
    exact (hslot i hi').trans (h.slot_before (by rw [hpc]; rfl) hi hnone)

/-- Where `conn_setsize` has room for the fd, the whole call adds it. -/
theorem xvServiceAddConnection_room (garbage : Nat → Option Nat) {fd c n : Nat}
    (hroom : (fd ≤ t.setsize ∧ n = t.setsize) ∨
      ((t.setsize < fd ∧ n = t.setsize * 2) ∧ sizeofPointer * n ≤ intMax)) (hfd : fd < n) :
    ∃ t', xvServiceAddConnection t fd c garbage = some t' ∧ t'.setsize = n ∧
      t'.slots fd = some c ∧
        ∀ i, i < n → i ≠ fd → t'.slots i = if i < t.setsize then t.slots i else garbage i := by
  rcases hroom with ⟨-, rfl⟩ | ⟨⟨hpast, rfl⟩, hbytes⟩
  · refine ⟨_, xvServiceAddConnection_below hfd, rfl, update_self .., fun i hi hne => ?_⟩
    rw [if_pos hi]
    exact update_of_ne hne ..
  · exact ⟨_, (xvServiceAddConnection_grows hpast).trans (if_pos ⟨hbytes, hfd⟩), rfl,
      ConnTable.grown_slot, fun i _ hne => by simp [ConnTable.grown, hne]⟩

/-- The leader counts the connection it has put there: the call has taken effect. -/
theorem TableUse.Refines.add_count (h : x.Refines cfg t)
    (hadds : x.Adds a) (hpc : x.inTable a = .countUp) :
    ∃ t', xvServiceAddConnection t (x.fd a) (x.conn a) x.memory.slot = some t' ∧
      ∀ pc, ({ service := x.service.goto a pc
               memory := { x.memory with count := x.memory.count + 1 }
               inTable := update x.inTable a .out } : TableUse P).Refines cfg t' := by
  have hcall := h.calls a
  rw [hpc] at hcall
  obtain ⟨-, hroom, hblock, hbelow, hstored⟩ := hcall
  obtain ⟨t', hadd, hsize, hself, hother⟩ :=
    xvServiceAddConnection_room x.memory.slot hroom hbelow (c := x.conn a)
  refine ⟨t', hadd, fun pc => ?_⟩
  have hheld : ∀ b, b ≠ a → x.Adds b ∨ x.Deletes cfg b → x.Held
      { service := x.service.goto a pc, memory := { x.memory with count := x.memory.count + 1 }
        inTable := update x.inTable a .out } b :=
    fun b hb hat => ⟨State.goto_pc_of_ne _ _ hb, hat.elim (·.alive) (·.alive), rfl⟩
  refine ⟨TableUse.fits_update rfl trivial fun b hb => ?_, h.allocated,
    fun _ => ⟨hsize.symm, hblock⟩, fun i hi hnone => ?_⟩
  · exact (h.calls b).deleter (hadds.unique hb) (fun hdel => hheld b hb (Or.inr hdel))
      (fun _ _ heq => heq) fun _ hslot => hslot
  · show x.memory.slot i = t'.slots i
    by_cases hfd : i = x.fd a
    · rw [hfd, hself]
      exact hstored
    · rw [hother i (hsize ▸ hi) hfd]
      split
      · rename_i hold
        exact h.slot_after rfl hheld hold hfd hnone
      · rfl

/-- An access of a delete after which its call goes on. -/
theorem TableUse.Refines.del (h : x.Refines cfg t)
    (block : Nat → Nat → Option Nat) {pc : TablePc}
    (hself : ({ x with
        memory := { x.memory with block := block }
        inTable := update x.inTable a pc } : TableUse P).Fits cfg t a pc)
    (hidle : (x.inTable a).adds = false)
    (hreturned : ∀ b, x.inTable (.io 0) = .assign b → b = x.memory.connections ∨
      (block = x.memory.block ∧ pc.loaded = none))
    (hslot : ∀ b, b ≠ a → x.Adds b ∨ x.Deletes cfg b →
      block x.memory.connections (x.fd b) = x.memory.slot (x.fd b))
    (hslots : ∀ i, i < t.setsize → (∀ b, (update x.inTable a pc b).stored = true → x.fd b ≠ i) →
      block x.memory.connections i = t.slots i) :
    ({ x with
        memory := { x.memory with block := block }
        inTable := update x.inTable a pc } : TableUse P).Refines cfg t := by
  refine ⟨TableUse.fits_update rfl hself fun b hb => ?_, h.allocated, fun hadds => ?_, hslots⟩
  · by_cases hadds : x.Adds b
    · refine (h.calls b).adder hadds.not_deletes rfl rfl ?_ fun _ => hslot b hb (Or.inl hadds)
      rintro c hassign
      rw [hadds.leader] at hassign
      refine (hreturned c hassign).imp_right fun hquiet => ⟨hquiet.1, fun b' hnone => ?_⟩
      dsimp only
      by_cases hb' : b' = a
      · rw [hb', update_self]
        exact hquiet.2
      · rw [update_of_ne hb']
        exact hnone
    · exact (h.calls b).deleter hadds (fun hdel => TableUse.held_of_service rfl (Or.inr hdel))
        (fun _ _ heq => heq) fun hdel hnone => (hslot b hb (Or.inr hdel)).trans hnone
  · exact h.steady (TableUse.adds_before hidle hadds)

theorem TableUse.Refines.del_test (h : x.Refines cfg t) (hdel : x.Deletes cfg a)
    (hpc : x.inTable a = .out) :
    ({ x with inTable := update x.inTable a .load } : TableUse P).Refines cfg t :=
  h.del x.memory.block ⟨hdel.runs, hdel.pc, hdel.alive⟩ (by rw [hpc]; rfl)
    (fun _ _ => Or.inr ⟨rfl, rfl⟩) (fun _ _ _ => rfl) fun i hi hnone =>
      h.slot_before (by rw [hpc]; rfl) hi hnone

theorem TableUse.Refines.del_load (h : x.Refines cfg t) (hdel : x.Deletes cfg a)
    (hpc : x.inTable a = .load) {call : Realloc} (hok : x.Undisturbed cfg a call) :
    ({ x with inTable := update x.inTable a (.clear x.memory.connections) } :
      TableUse P).Refines cfg t := by
  refine h.del x.memory.block ⟨⟨hdel.runs, hdel.pc, hdel.alive⟩, rfl⟩ (by rw [hpc]; rfl)
    (fun b hassign => Or.inl (hok.2 hpc b ?_)) (fun _ _ _ => rfl) fun i hi hnone =>
      h.slot_before (by rw [hpc]; rfl) hi hnone
  rw [hassign]
  rfl

theorem TableUse.Refines.del_clear (h : x.Refines cfg t)
    (htabled : (x.service.withTable t).Tabled cfg) (hdel : x.Deletes cfg a) {b : Nat}
    (hpc : x.inTable a = .clear b) :
    ({ x with
        memory := x.memory.store b (x.fd a) none
        inTable := update x.inTable a .countDown } : TableUse P).Refines cfg t := by
  have hcall := h.calls a
  rw [hpc] at hcall
  obtain ⟨-, rfl⟩ := hcall
  have hslot := fun i (hi : i ≠ x.fd a) => x.memory.store_slot_of_ne none hi
  refine h.del _ ⟨⟨hdel.runs, hdel.pc, hdel.alive⟩, x.memory.store_slot_self ..⟩
    (by rw [hpc]; rfl) (fun b hassign => Or.inl ?_) (fun b hb hin => hslot _ ?_)
    fun i hi hnone => ?_
  · -- The leader has moved nothing while this thread has the pointer.
    have hleader := h.calls (.io 0)
    rw [hassign] at hleader
    by_contra hmoved
    have hnone := (hleader.2.2.2.2.2 hmoved).1 a
    rw [hpc] at hnone
    cases hnone
  · exact Ne.symm (TableUse.fd_ne htabled hdel hin (Ne.symm hb))
  · have hi' : i ≠ x.fd a := by
      rintro rfl
      exact hnone a (by rw [update_self]; rfl) rfl
    exact (hslot i hi').trans (h.slot_before (by rw [hpc]; rfl) hi hnone)

/-- A delete is counted: the call has taken effect. -/
theorem TableUse.Refines.del_count (h : x.Refines cfg t)
    (htabled : (x.service.withTable t).Tabled cfg) (hdel : x.Deletes cfg a)
    (hpc : x.inTable a = .countDown) (ret : Int) (pc : Pc P) :
    ({ service := (x.service.deleted (x.conn a) ret).goto a pc
       memory := { x.memory with count := x.memory.count - 1 }
       inTable := update x.inTable a .out } : TableUse P).Refines cfg
      (xvServiceDelConnection t (x.fd a)).2 := by
  have hcall := h.calls a
  rw [hpc] at hcall
  have hstored := hcall.2
  rw [xvServiceDelConnection_below (hdel.listed htabled).2]
  have hconns : ∀ c, ((x.service.deleted (x.conn a) ret).conns c).freed =
        (x.service.conns c).freed ∧
      ((x.service.deleted (x.conn a) ret).conns c).conn = (x.service.conns c).conn := by
    intro c
    by_cases hc : c = x.conn a
    · rw [hc]
      simp [State.deleted]
    · simp [State.deleted, hc]
  have hheld : ∀ b, b ≠ a → x.Adds b ∨ x.Deletes cfg b → x.Held
      { service := (x.service.deleted (x.conn a) ret).goto a pc
        memory := { x.memory with count := x.memory.count - 1 }
        inTable := update x.inTable a .out } b := by
    intro b hb hin
    refine ⟨State.goto_pc_of_ne _ _ hb, ?_, congrArg Conn.fd (hconns _).2⟩
    have halive : x.service.alive (x.conn b) = true := hin.elim (·.alive) (·.alive)
    unfold State.alive at halive ⊢
    show (decide (x.conn b < x.service.nextConn) &&
      ((x.service.deleted (x.conn a) ret).conns (x.conn b)).freed == 0) = true
    rw [(hconns _).1]
    exact halive
  refine ⟨TableUse.fits_update rfl trivial fun b hb => ?_, h.allocated, fun hidle => ?_,
    fun i hi hnone => ?_⟩
  · refine (h.calls b).frame rfl (fun b' => ?_) (hheld b hb) fun _ => rfl
    by_cases hb' : b' = a
    · left
      dsimp only
      rw [hb', update_self]
      rfl
    · right
      dsimp only
      rw [update_of_ne hb']
  · exact h.steady (TableUse.adds_before (by rw [hpc]; rfl) hidle)
  · show x.memory.slot i = update t.slots (x.fd a) none i
    by_cases hfd : i = x.fd a
    · rw [hfd, update_self]
      exact hstored
    · rw [update_of_ne hfd]
      exact h.slot_after rfl hheld hi hfd hnone

end Steps

/-! ### Every run -/

theorem State.step_addConnection {u c : Nat} {garbage : Nat → Option Nat} {table : ConnTable}
    (hruns : (Agent.io u).runs cfg = true) (hsafe : s.safe (.io u) = true)
    (hpc : s.pc (.io u) = .addConnection c)
    (hadd : xvServiceAddConnection s.table (s.conns c).conn.fd c garbage = some table) :
    s.step cfg ctl (.act (.io u) (.table garbage)) =
      some ((s.withTable table).goto (.io u) (.assign c)) := by
  have hnew : onNewConnection cfg ctl s u (.addConnection c) (.table garbage) =
      some (s.withTable table, .assign c) := by
    simp only [onNewConnection, hadd]
    rfl
  have hprogram : s.program cfg ctl (.io u) (.table garbage) =
      some (s.withTable table, .assign c) := by
    show ioStep cfg ctl s u (s.pc (.io u)) (.table garbage) = _
    rw [hpc]
    unfold ioStep
    rw [hnew]
    rfl
  simp [State.step, hruns, hsafe, hprogram]

theorem State.step_closeDel {u c : Nat} {resume : Resume} (hruns : (Agent.io u).runs cfg = true)
    (hsafe : s.safe (.io u) = true) (hpc : s.pc (.io u) = .closeDel c resume) :
    s.step cfg ctl (.act (.io u) .go) =
      some ((s.delConnection c).goto (.io u) (.closeFd c resume)) := by
  have hprogram : s.program cfg ctl (.io u) .go = some (s.delConnection c, .closeFd c resume) := by
    show ioStep cfg ctl s u (s.pc (.io u)) .go = _
    rw [hpc]
    rfl
  simp [State.step, hruns, hsafe, hprogram]

theorem State.withTable_delConnection (s : State P) (t : ConnTable) (c : Nat) :
    (s.withTable t).delConnection c =
      (s.deleted c (xvServiceDelConnection t (s.conns c).conn.fd).1).withTable
        (xvServiceDelConnection t (s.conns c).conn.fd).2 :=
  rfl

/-- What the steps of a run are asked: `ok` of those away from the table, and of the others
that no delete meets a growth. -/
def TableUse.Lifts (cfg : Config) (ok : State P → Label P → Prop) (x : TableUse P) :
    TableLabel P → Prop
  | .service label => ok x.service label
  | .table a call => x.Undisturbed cfg a call

/-- What the steps of a run away from the table are asked. -/
def TableUse.Away (ok : State P → Label P → Prop) (x : TableUse P) : TableLabel P → Prop
  | .service label => ok x.service label
  | .table _ _ => True

/-- The service of whole calls has answered a step. -/
inductive TableUse.Answered (cfg : Config) (ctl : EpollCtl) (x : TableUse P) (t : ConnTable)
    (a : Agent) (x' : TableUse P) : Prop
  /-- The call goes on. -/
  | stay (hservice : x'.service = x.service) (hrefines : x'.Refines cfg t)
  /-- The call has returned. -/
  | move (act : Act P) (t' : ConnTable) (hpc : (x.service.pc a).changesTable = true)
      (hstep : (x.service.withTable t).step cfg ctl (.act a act) = some (x'.service.withTable t'))
      (hrefines : x'.Refines cfg t')

section Runs

variable {x x' : TableUse P} {t : ConnTable}

theorem TableUse.Refines.access_add (h : x.Refines cfg t)
    (htabled : (x.service.withTable t).Tabled cfg) {a : Agent} {c : Nat} {call : Realloc}
    (hruns : a.runs cfg = true) (hsafe : x.service.safe a = true)
    (hpc : x.service.pc a = .addConnection c) (hok : x.Undisturbed cfg a call)
    (hstep : x.access a call = some x') : x.Answered cfg ctl t a x' := by
  have hconn := TableUse.conn_add hpc
  have hadds : x.Adds a :=
    ⟨htabled.homed.accepting a c (Or.inl hpc), hconn.symm ▸ hpc,
      hconn.symm ▸ State.safe_alive hsafe (by rw [hpc]; rfl)⟩
  unfold TableUse.access at hstep
  rw [hpc] at hstep
  subst hconn
  simp only [Option.map_eq_some_iff] at hstep
  obtain ⟨⟨memory, next⟩, hnext, rfl⟩ := hstep
  have hfd : (x.service.conns (x.conn a)).conn.fd = x.fd a := rfl
  rw [hfd] at hnext
  cases hin : x.inTable a <;> rw [hin] at hnext <;>
    simp only [TableMemory.xvServiceAddConnection, reduceCtorEq] at hnext
  case out =>
    split at hnext
    · rename_i hpast
      obtain ⟨rfl, rfl⟩ := Prod.mk.inj (Option.some.inj hnext)
      exact .stay rfl (h.add_double hadds hin hpast)
    · rename_i hbelow
      obtain ⟨rfl, rfl⟩ := Prod.mk.inj (Option.some.inj hnext)
      exact .stay rfl (h.add_test hadds hin hbelow)
  case realloc =>
    simp only [Option.ite_none_right_eq_some, Option.some.injEq, Prod.mk.injEq] at hnext
    obtain ⟨hbytes, rfl, rfl⟩ := hnext
    exact .stay rfl (h.add_realloc htabled hadds hin hok hbytes)
  case assign b =>
    obtain ⟨rfl, rfl⟩ := Prod.mk.inj (Option.some.inj hnext)
    exact .stay rfl (h.add_assign htabled hadds hin)
  case put =>
    simp only [Option.ite_none_right_eq_some, Option.some.injEq, Prod.mk.injEq] at hnext
    obtain ⟨hroom, rfl, rfl⟩ := hnext
    exact .stay rfl (h.add_put htabled hadds hin hroom)
  case countUp =>
    obtain ⟨rfl, rfl⟩ := Prod.mk.inj (Option.some.inj hnext)
    obtain ⟨t', hadd, hrefines⟩ := h.add_count hadds hin
    obtain rfl := hadds.leader
    exact .move (.table x.memory.slot) t' (by rw [hpc]; rfl)
      (State.step_addConnection (s := x.service.withTable t) hruns hsafe hpc hadd) (hrefines _)

theorem TableUse.Refines.access_del (h : x.Refines cfg t)
    (htabled : (x.service.withTable t).Tabled cfg) {a : Agent} {c : Nat} {resume : Resume}
    {call : Realloc} (hruns : a.runs cfg = true) (hsafe : x.service.safe a = true)
    (hpc : x.service.pc a = .closeDel c resume) (hok : x.Undisturbed cfg a call)
    (hstep : x.access a call = some x') : x.Answered cfg ctl t a x' := by
  have hconn := TableUse.conn_del hpc
  have hdel : x.Deletes cfg a :=
    ⟨hruns, ⟨resume, hconn.symm ▸ hpc⟩, hconn.symm ▸ State.safe_alive hsafe (by rw [hpc]; rfl)⟩
  have hbelow := (hdel.listed htabled).2
  unfold TableUse.access at hstep
  rw [hpc] at hstep
  subst hconn
  simp only [Option.map_eq_some_iff] at hstep
  obtain ⟨⟨memory, next⟩, hnext, rfl⟩ := hstep
  have hfd : (x.service.conns (x.conn a)).conn.fd = x.fd a := rfl
  rw [hfd] at hnext
  cases hin : x.inTable a <;> rw [hin] at hnext <;>
    simp only [TableMemory.xvServiceDelConnection, reduceCtorEq] at hnext
  case out =>
    rw [if_neg (Nat.not_le.mpr (Nat.lt_of_lt_of_le hbelow h.setsize_le))] at hnext
    obtain ⟨rfl, rfl⟩ := Prod.mk.inj (Option.some.inj hnext)
    exact .stay rfl (h.del_test hdel hin)
  case load =>
    obtain ⟨rfl, rfl⟩ := Prod.mk.inj (Option.some.inj hnext)
    exact .stay rfl (h.del_load hdel hin hok)
  case clear b =>
    obtain ⟨rfl, rfl⟩ := Prod.mk.inj (Option.some.inj hnext)
    exact .stay rfl (h.del_clear htabled hdel hin)
  case countDown =>
    obtain ⟨rfl, rfl⟩ := Prod.mk.inj (Option.some.inj hnext)
    obtain ⟨u, rfl, -⟩ := hdel.io htabled
    refine .move .go _ (by rw [hpc]; rfl) ?_ (h.del_count htabled hdel hin xvOk _)
    rw [State.step_closeDel (s := x.service.withTable t) hruns hsafe hpc,
      State.withTable_delConnection]
    have hret : (xvServiceDelConnection t (x.fd (.io u))).1 = xvOk := by
      rw [xvServiceDelConnection_below hbelow]
    rw [TableUse.fd] at hret
    rw [hret]
    rfl

theorem TableUse.Refines.init :
    (TableUse.init : TableUse P).Refines cfg (State.init : State P).table where
  calls := fun _ => trivial
  allocated := Nat.one_pos
  steady := fun _ => ⟨rfl, rfl⟩
  slots := fun _ _ _ => rfl

/-- Any step of single accesses is answered by the service of whole calls. -/
theorem TableUse.Refines.step {ok : State P → Label P → Prop}
    (hframe : ∀ s table label, ok s label → ok (s.withTable table) label)
    (hcall : ∀ s a act, (s.pc a).changesTable = true → ok s (.act a act))
    (h : x.Refines cfg t)
    (hreach : Reach (State.step cfg ctl) ok (· = State.init) (x.service.withTable t))
    {label : TableLabel P} (hok : x.Lifts cfg ok label) (hstep : x.step cfg ctl label = some x') :
    ∃ t', Reach (State.step cfg ctl) ok (· = State.init) (x'.service.withTable t') ∧
      x'.Refines cfg t' := by
  have htabled : (x.service.withTable t).Tabled cfg := State.tabled hreach
  cases label with
  | service label =>
      simp only [TableUse.step, Option.ite_none_left_eq_some, Option.map_eq_some_iff,
        Bool.not_eq_true] at hstep
      obtain ⟨hoff, s', hmove, rfl⟩ := hstep
      have hmove' : (x.service.withTable t).step cfg ctl label = some (s'.withTable t) := by
        rw [State.step_withTable hoff, hmove]
        rfl
      exact ⟨t, .next hreach (hframe _ _ _ hok) hmove', h.service htabled hoff hmove'⟩
  | table a call =>
      simp only [TableUse.step, Option.ite_none_right_eq_some, Bool.and_eq_true] at hstep
      obtain ⟨⟨hruns, hsafe⟩, haccess⟩ := hstep
      have hanswer : x.Answered cfg ctl t a x' := by
        cases hpc : x.service.pc a
        case addConnection => exact h.access_add htabled hruns hsafe hpc hok haccess
        case closeDel => exact h.access_del htabled hruns hsafe hpc hok haccess
        all_goals
          unfold TableUse.access at haccess
          rw [hpc] at haccess
          cases haccess
      cases hanswer with
      | stay hservice hrefines => exact ⟨t, hservice ▸ hreach, hrefines⟩
      | move act t' hpc hmove hrefines =>
          exact ⟨t', .next hreach (hcall _ _ _ hpc) hmove, hrefines⟩

/-- **Single accesses refine whole calls**: as long as no delete meets a growth, the service
is where a run of whole calls leads it, and the memory holds the table of that run up to the
calls under way. -/
theorem TableUse.refines {ok : State P → Label P → Prop}
    (hframe : ∀ s table label, ok s label → ok (s.withTable table) label)
    (hcall : ∀ s a act, (s.pc a).changesTable = true → ok s (.act a act))
    (h : Reach (TableUse.step cfg ctl) (TableUse.Lifts cfg ok) (· = TableUse.init) x) :
    ∃ t, Reach (State.step cfg ctl) ok (· = State.init) (x.service.withTable t) ∧
      x.Refines cfg t := by
  refine h.invariant (I := fun x => ∃ t, Reach (State.step cfg ctl) ok (· = State.init)
    (x.service.withTable t) ∧ x.Refines cfg t) ?_ ?_
  · rintro x rfl
    exact ⟨State.init.table, .start rfl, .init⟩
  · rintro x label x' ⟨t, hreach, hrefines⟩ hok hstep
    exact hrefines.step hframe hcall hreach hok hstep

end Runs

/-! ### Complete release -/

/-- Closes find the last reference, and no delete meets a growth. -/
def TableUse.Releases (cfg : Config) : TableUse P → TableLabel P → Prop :=
  TableUse.Lifts cfg ClosesLast

instance (x : TableUse P) : ∀ label, Decidable (x.Away ClosesLast label)
  | .service label => inferInstanceAs (Decidable (ClosesLast x.service label))
  | .table _ _ => inferInstanceAs (Decidable True)

instance (x : TableUse P) : ∀ label, Decidable (x.Releases cfg label)
  | .service label => inferInstanceAs (Decidable (ClosesLast x.service label))
  | .table a call => inferInstanceAs (Decidable (x.Undisturbed cfg a call))

/-- Two threads at the table: a follower has loaded `service->connections` to delete its
connection when the leader puts a connection on fd 1030 there, for which the table moves.
Every close finds the last reference, and yet the slot goes on pointing to freed memory. -/
theorem delete_lost :
    ∃ x : TableUse Unit,
      Reach (TableUse.step followerConfig acceptAll) (TableUse.Away ClosesLast)
        (· = TableUse.init) x ∧
      (x.service.conns 0).conn.status = .closed ∧ x.service.liveMessages 0 = ∅ ∧
      (x.service.conns 0).userRefs = 0 ∧ x.service.owner 0 = some 1 ∧
      x.service.pc (.io 1) = .poll ∧ (x.service.conns 0).conn.fd = 5 ∧
      x.memory.slot 5 = some 0 ∧ (x.service.conns 0).deleted = 1 ∧
      (x.service.conns 0).fdClosed = 1 ∧ (x.service.conns 0).freed = 1 :=
  ⟨_, Reach.play
    (inService (goes (.io 1) 1) ++ acceptInTable ++
      inService (goes (.io 0) 1 ++ .act (.io 1) .addConnReady :: goes (.io 1) 5 ++
        .act (.io 1) (.read 5 .eof ⟨[], 0, none⟩) :: goes (.io 1) 2) ++
      accesses (.io 1) 2 ++ inService [acceptFd 1030] ++ accesses (.io 0) 1 ++
      [.table (.io 0) ⟨true, fun _ => none⟩] ++ accesses (.io 0) 3 ++ accesses (.io 1) 2 ++
      inService (goes (.io 1) 2))
    (.start rfl) (by decide) rfl, rfl, rfl, rfl, rfl, rfl, rfl, rfl, rfl, rfl, rfl⟩

end Libxv
