/-
The service does not look at its table except where it changes it.

`State.step_withTable` is the frame lemma: a step of a thread that is in neither of the two
table functions does the same whatever the table holds, and leaves it alone.
-/
import Libxv.Service.TableUse

namespace Libxv

variable {P : Type} {cfg : Config} {ctl : EpollCtl} {s : State P}

/-- The service with another table. -/
def State.withTable (s : State P) (table : ConnTable) : State P := { s with table := table }

section Projections

variable (s) (table : ConnTable)

@[simp] theorem State.withTable_conns : (s.withTable table).conns = s.conns := rfl

@[simp] theorem State.withTable_msgs : (s.withTable table).msgs = s.msgs := rfl

@[simp] theorem State.withTable_io : (s.withTable table).io = s.io := rfl

@[simp] theorem State.withTable_workers : (s.withTable table).workers = s.workers := rfl

@[simp] theorem State.withTable_pc : (s.withTable table).pc = s.pc := rfl

@[simp] theorem State.withTable_openFds : (s.withTable table).openFds = s.openFds := rfl

@[simp] theorem State.withTable_alive (c : Nat) : (s.withTable table).alive c = s.alive c := rfl

end Projections

/-- An instruction's outcome with another table. -/
def State.outcome (table : ConnTable) (next : State P × Pc P) : State P × Pc P :=
  (next.1.withTable table, next.2)

section Elsewhere

variable {t : Nat} {pc : Pc P} {act : Act P} {table : ConnTable}

theorem xvConnectionClose_withTable (hpc : pc.changesTable = false) :
    xvConnectionClose ctl (s.withTable table) pc act =
      (xvConnectionClose ctl s pc act).map (State.outcome table) := by
  cases pc <;> cases act <;> try rfl
  case close.go c resume =>
    simp only [xvConnectionClose, State.withTable_conns]
    cases (s.conns c).conn.ioThread <;> rfl
  case closeRef.go c resume =>
    simp only [xvConnectionClose, State.withTable_conns]
    rw [apply_ite (Option.map (State.outcome table))]
    rfl
  case closeDel.go => cases hpc

theorem State.processMessage_withTable :
    (s.withTable table).processMessage ctl t pc act =
      (s.processMessage ctl t pc act).map (State.outcome table) := by
  cases pc <;> cases act <;> rfl

theorem State.processReadBuffer_withTable :
    (s.withTable table).processReadBuffer cfg pc act =
      (s.processReadBuffer cfg pc act).map (State.outcome table) := by
  cases pc <;> cases act <;> rfl

theorem State.onConnectionRead_withTable :
    (s.withTable table).onConnectionRead cfg t pc act =
      (s.onConnectionRead cfg t pc act).map (State.outcome table) := by
  cases pc <;> cases act <;> try rfl
  case poll.read fd out decoded =>
    simp only [State.onConnectionRead, State.withTable_io, State.withTable_conns,
      State.withTable_alive]
    cases ((s.io t).loop.slot fd).readIo with
    | none => rfl
    | some c =>
        dsimp only
        rw [apply_ite (Option.map (State.outcome table))]
        cases readAndDecode (s.conns c).conn out decoded with
        | none => rfl
        | some result =>
            obtain ⟨conn, chunks, decoded'⟩ := result
            cases decoded' <;> rfl

theorem State.onConnectionWrite_withTable :
    (s.withTable table).onConnectionWrite ctl t pc act =
      (s.onConnectionWrite ctl t pc act).map (State.outcome table) := by
  cases pc <;> cases act <;> try rfl
  case poll.write fd out =>
    simp only [State.onConnectionWrite, State.withTable_io, State.withTable_alive]
    cases ((s.io t).loop.slot fd).writeIo with
    | none => rfl
    | some c =>
        dsimp only
        rw [apply_ite (Option.map (State.outcome table))]
        rfl

theorem onNewConnection_withTable (hpc : pc.changesTable = false) :
    onNewConnection cfg ctl (s.withTable table) t pc act =
      (onNewConnection cfg ctl s t pc act).map (State.outcome table) := by
  cases pc <;> cases act <;> try rfl
  case poll.accept fd handle mem =>
    simp only [onNewConnection, State.withTable_openFds]
    rw [apply_ite (Option.map (State.outcome table))]
    rfl
  case addConnection.table => cases hpc
  case assign.go c =>
    simp only [onNewConnection]
    rw [apply_ite (Option.map (State.outcome table))]
    rfl

theorem ioThreadAddConnCb_withTable :
    ioThreadAddConnCb ctl (s.withTable table) t pc act =
      (ioThreadAddConnCb ctl s t pc act).map (State.outcome table) := by
  cases pc <;> cases act <;> try rfl
  case poll.addConnReady =>
    simp only [ioThreadAddConnCb, State.withTable_io]
    rw [apply_ite (Option.map (State.outcome table))]
    rfl
  case addConnPop.go =>
    simp only [ioThreadAddConnCb, State.withTable_io]
    cases (s.io t).connQueue <;> rfl

theorem ioThreadReturnMessageCb_withTable :
    ioThreadReturnMessageCb (s.withTable table) t pc act =
      (ioThreadReturnMessageCb s t pc act).map (State.outcome table) := by
  cases pc <;> cases act <;> try rfl
  case poll.returnReady =>
    simp only [ioThreadReturnMessageCb, State.withTable_io]
    rw [apply_ite (Option.map (State.outcome table))]
    rfl
  case returnPop.go =>
    simp only [ioThreadReturnMessageCb, State.withTable_io]
    cases (s.io t).messageQueue <;> rfl
  case returned.go m =>
    simp only [ioThreadReturnMessageCb, State.withTable_msgs, State.withTable_conns]
    rw [apply_ite (Option.map (State.outcome table))]
    rfl

theorem threadPoolTaskCb_withTable {i : Nat} :
    threadPoolTaskCb (s.withTable table) i pc act =
      (threadPoolTaskCb s i pc act).map (State.outcome table) := by
  cases pc <;> cases act <;> try rfl
  case taskFetch.go m =>
    simp only [threadPoolTaskCb, State.withTable_msgs, State.withTable_conns]
    cases (s.conns (s.msgs m).conn).conn.ioThread <;> rfl
  case taskSend.go t =>
    simp only [threadPoolTaskCb, State.withTable_workers]
    cases (s.workers i).taskReturns <;> rfl

theorem xvServiceSendMessage_withTable :
    xvServiceSendMessage (s.withTable table) pc act =
      (xvServiceSendMessage s pc act).map (State.outcome table) := by
  cases pc <;> cases act <;> try rfl
  case sendTest.go c package =>
    simp only [xvServiceSendMessage, State.withTable_conns]
    rw [apply_ite (Option.map (State.outcome table))]
    rfl
  case sendFetch.go c m =>
    simp only [xvServiceSendMessage, State.withTable_conns]
    cases (s.conns c).conn.ioThread <;> rfl

theorem ioStep_withTable (hpc : pc.changesTable = false) :
    ioStep cfg ctl (s.withTable table) t pc act =
      (ioStep cfg ctl s t pc act).map (State.outcome table) := by
  have hentry : ioThreadEntry (s.withTable table) t pc act =
      (ioThreadEntry s t pc act).map (State.outcome table) := by
    cases pc <;> cases act <;> rfl
  unfold ioStep
  simp only [Option.orElse_eq_orElse, Option.orElse_eq_or, Option.map_or]
  rw [hentry, xvConnectionClose_withTable hpc, State.processMessage_withTable,
    State.processReadBuffer_withTable, State.onConnectionRead_withTable,
    State.onConnectionWrite_withTable, onNewConnection_withTable hpc,
    ioThreadAddConnCb_withTable, ioThreadReturnMessageCb_withTable]

theorem workerStep_withTable {i : Nat} :
    workerStep (s.withTable table) i pc act =
      (workerStep s i pc act).map (State.outcome table) := by
  unfold workerStep
  rw [State.withTable_workers]
  split
  · exact threadPoolTaskCb_withTable
  · split <;> rfl
  · split <;> rfl
  · rfl

end Elsewhere

/-- Away from the table the service goes on as it would with any other table. -/
theorem State.step_withTable {label : Label P} (hlabel : s.atTable label = false)
    (table : ConnTable) : (s.withTable table).step cfg ctl label =
      (s.step cfg ctl label).map fun next => next.withTable table := by
  cases label with
  | act a act =>
      have hprogram : (s.withTable table).program cfg ctl a act =
          (s.program cfg ctl a act).map (State.outcome table) := by
        cases a with
        | io t => exact ioStep_withTable hlabel
        | worker i => exact workerStep_withTable
        | sender u => exact xvServiceSendMessage_withTable
      have hsafe : (s.withTable table).safe a = s.safe a := rfl
      simp only [State.step, hsafe, hprogram]
      rw [apply_ite (Option.map fun next : State P => next.withTable table), Option.map_map,
        Option.map_map]
      rfl
  | incrRef c =>
      exact (apply_ite (Option.map fun next : State P => next.withTable table) (s.alive c = true)
        (some (s.incrRef c)) none).symm
  | decrRef c =>
      exact (apply_ite (Option.map fun next : State P => next.withTable table)
        (s.alive c = true ∧ 0 < (s.conns c).userRefs) (some (s.decrRef c)) none).symm

end Libxv
