/-
What one instruction of the service can do.

`Instr` lists every instruction of every thread once, with the test that leads to it;
`State.program_instr` says that the programs of `Service/Program.lean` make no other.  The
invariants of the service are all shown by cases on it.
-/
import Libxv.Service.Program
import Libxv.Lib.Run

namespace Libxv

open Function Transition

variable {P : Type}

/-- At `pc`, thread `a` can make of `s` the first state and go on at the second place. -/
inductive Instr (cfg : Config) (ctl : EpollCtl) (s : State P) :
    Agent → Pc P → Act P → State P → Pc P → Prop
  -- `io_thread_entry`
  | entry (t : Nat) : Instr cfg ctl s (.io t) .entry .go (s.startIoThread t) .poll
  -- `xv_connection_close`
  | close {t c owner : Nat} {resume : Resume} (h : (s.conns c).conn.ioThread = some owner) :
      Instr cfg ctl s (.io t) (.close c resume) .go (s.markClosed ctl owner c)
        (.closeRef c resume)
  | closeBusy {t c : Nat} {resume : Resume} (h : (s.conns c).conn.refCount > 1) :
      Instr cfg ctl s (.io t) (.closeRef c resume) .go s resume.pc
  | closeLast {t c : Nat} {resume : Resume} (h : ¬ (s.conns c).conn.refCount > 1) :
      Instr cfg ctl s (.io t) (.closeRef c resume) .go s (.closeDel c resume)
  | closeDel {t c : Nat} {resume : Resume} :
      Instr cfg ctl s (.io t) (.closeDel c resume) .go (s.delConnection c) (.closeFd c resume)
  | closeFd {t c : Nat} {resume : Resume} :
      Instr cfg ctl s (.io t) (.closeFd c resume) .go (s.closeFd c) (.closeFree c resume)
  | closeFree {t c : Nat} {resume : Resume} :
      Instr cfg ctl s (.io t) (.closeFree c resume) .go (s.freeConn c) resume.pc
  -- `process_message`
  | respond {t m c : Nat} {origin : Origin} {pieces : List Piece} {out : WriteOut} {sent : Sent}
      {encodes : Bool} (hc : c = (s.msgs m).conn)
      (hsent : sent = processMessage ctl (s.io t).loop (s.conns c).conn (s.msgs m).response
        pieces out)
      (hencodes : encodes = ((s.msgs m).response.isSome && (s.conns c).conn.handle.encode &&
        (s.conns c).conn.status = .opened)) :
      Instr cfg ctl s (.io t) (.respond m origin) (.respond pieces out)
        ((s.markEncoded m encodes).sent t c sent)
        (if sent.close then .close c (.finish m origin) else .finish m origin)
  | finish {t m : Nat} {origin : Origin} :
      Instr cfg ctl s (.io t) (.finish m origin) .go (s.xvMessageDestroy m) origin.pc
  -- `process_read_buffer`
  | process {t m : Nat} {response : Option P} :
      Instr cfg ctl s (.io t) (.process m) (.process response) (s.setResponse m response)
        (.respond m .inline)
  | pushTask {t m i addr : Nat} (hi : i = xvThreadPoolIndex cfg (taskHashcode addr)) :
      Instr cfg ctl s (.io t) (.pushTask m) (.malloc addr)
        (s.setWorker i ((s.workers i).push (poolTask m))) (.sendTask i)
  | sendTask {t i : Nat} :
      Instr cfg ctl s (.io t) (.sendTask i) .go (s.setWorker i (s.workers i).send) .poll
  -- `on_connection_read`
  | readBack {t fd c : Nat} {out : ReadOut} {decoded : DecodeOut P} {conn : Conn}
      {chunks : List Chunk} (hslot : ((s.io t).loop.slot fd).readIo = some c)
      (halive : s.alive c = true)
      (hread : readAndDecode (s.conns c).conn out decoded = some (conn, chunks, .back)) :
      Instr cfg ctl s (.io t) .poll (.read fd out decoded) (s.receive c conn chunks) .poll
  | readClose {t fd c : Nat} {out : ReadOut} {decoded : DecodeOut P} {conn : Conn}
      {chunks : List Chunk} (hslot : ((s.io t).loop.slot fd).readIo = some c)
      (halive : s.alive c = true)
      (hread : readAndDecode (s.conns c).conn out decoded = some (conn, chunks, .close)) :
      Instr cfg ctl s (.io t) .poll (.read fd out decoded) (s.receive c conn chunks)
        (.close c .poll)
  | request {t fd c : Nat} {out : ReadOut} {decoded : DecodeOut P} {conn : Conn}
      {chunks : List Chunk} {request : Option P}
      (hslot : ((s.io t).loop.slot fd).readIo = some c) (halive : s.alive c = true)
      (hread : readAndDecode (s.conns c).conn out decoded =
        some (conn, chunks, .request request)) :
      Instr cfg ctl s (.io t) .poll (.read fd out decoded)
        ((s.receive c conn chunks).xvMessageInit c request none)
        (if cfg.workerThreadCount = 0 then .process s.nextMsg else .pushTask s.nextMsg)
  -- `on_connection_write`
  | write {t fd c : Nat} {out : WriteOut} {sent : Sent}
      (hslot : ((s.io t).loop.slot fd).writeIo = some c) (halive : s.alive c = true)
      (hsent : sent = onConnectionWrite ctl (s.io t).loop (s.conns c).conn out) :
      Instr cfg ctl s (.io t) .poll (.write fd out) (s.sent t c sent)
        (if sent.close then .close c .poll else .poll)
  -- `on_new_connection`
  | accept {t fd : Nat} {handle : Handle} {mem : Nat → UInt8} (ht : t = 0)
      (hfd : s.openFds fd = false) :
      Instr cfg ctl s (.io t) .poll (.accept fd handle mem) (s.accept fd handle mem)
        (.addConnection s.nextConn)
  | addConnection {t c : Nat} {garbage : Nat → Option Nat} {table : ConnTable}
      (htable : xvServiceAddConnection s.table (s.conns c).conn.fd c garbage = some table) :
      Instr cfg ctl s (.io t) (.addConnection c) (.table garbage) { s with table := table }
        (.assign c)
  | assignSelf {t c : Nat} (hone : cfg.ioThreadCount = 1) :
      Instr cfg ctl s (.io t) (.assign c) .go (s.adopt ctl t c) .poll
  | assignOther {t c index : Nat} (hmany : ¬ cfg.ioThreadCount = 1)
      (hindex : index = (s.conns c).conn.fd % (cfg.ioThreadCount - 1) + 1) :
      Instr cfg ctl s (.io t) (.assign c) .go (s.pushConn index c) (.sendConn index)
  | sendConn {t index : Nat} :
      Instr cfg ctl s (.io t) (.sendConn index) .go (s.sendAddConn index) .poll
  -- `io_thread_add_conn_cb`
  | addConnReady {t : Nat} (h : (s.io t).asyncStart ∧ 0 < (s.io t).addConnEvfd) :
      Instr cfg ctl s (.io t) .poll .addConnReady s .addConnRead
  | addConnRead {t : Nat} :
      Instr cfg ctl s (.io t) .addConnRead .go (s.readAddConn t) .addConnSize
  | addConnMore {t : Nat} (h : (s.io t).connQueue.length > 0) :
      Instr cfg ctl s (.io t) .addConnSize .go s .addConnPop
  | addConnDone {t : Nat} (h : ¬ (s.io t).connQueue.length > 0) :
      Instr cfg ctl s (.io t) .addConnSize .go s .poll
  | addConnNull {t : Nat} (h : (s.io t).connQueue = []) :
      Instr cfg ctl s (.io t) .addConnPop .go s .addConnSize
  | addConnPop {t c : Nat} {rest : List Nat} (h : (s.io t).connQueue = c :: rest) :
      Instr cfg ctl s (.io t) .addConnPop .go (s.popConn t) (.adopt c)
  | adopt {t c : Nat} :
      Instr cfg ctl s (.io t) (.adopt c) .go (s.adopt ctl t c) .addConnSize
  -- `io_thread_return_message_cb`
  | returnReady {t : Nat} (h : (s.io t).asyncStart ∧ 0 < (s.io t).returnEvfd) :
      Instr cfg ctl s (.io t) .poll .returnReady s .returnRead
  | returnRead {t : Nat} :
      Instr cfg ctl s (.io t) .returnRead .go (s.readReturn t) .returnSize
  | returnMore {t : Nat} (h : (s.io t).messageQueue.length > 0) :
      Instr cfg ctl s (.io t) .returnSize .go s .returnPop
  | returnDone {t : Nat} (h : ¬ (s.io t).messageQueue.length > 0) :
      Instr cfg ctl s (.io t) .returnSize .go s .poll
  | returnNull {t : Nat} (h : (s.io t).messageQueue = []) :
      Instr cfg ctl s (.io t) .returnPop .go s .returnSize
  | returnPop {t m : Nat} {rest : List Nat} (h : (s.io t).messageQueue = m :: rest) :
      Instr cfg ctl s (.io t) .returnPop .go (s.popMessage t) (.returned m)
  | returnedOpen {t m : Nat} (h : (s.conns (s.msgs m).conn).conn.status ≠ .closed) :
      Instr cfg ctl s (.io t) (.returned m) .go s (.respond m .returned)
  | returnedClosed {t m : Nat} (h : (s.conns (s.msgs m).conn).conn.status = .closed) :
      Instr cfg ctl s (.io t) (.returned m) .go (s.xvMessageDestroy m)
        (.freeReturned (s.msgs m).conn)
  | freeReturned {t c : Nat} :
      Instr cfg ctl s (.io t) (.freeReturned c) .go (s.freeConn c) .returnSize
  -- `worker_async_cb` and `thread_pool_task_cb`
  | work {i : Nat} {pc : Pc P} {thread : WorkerThread PoolTask}
      (hrun : ∀ task, (s.workers i).pc ≠ .run task) (hstep : (s.workers i).step = some thread) :
      Instr cfg ctl s (.worker i) pc .go (s.setWorker i thread) thread.pc.callback
  | interrupt {i : Nat} {pc : Pc P} {thread : WorkerThread PoolTask}
      (hrun : ∀ task, (s.workers i).pc ≠ .run task)
      (hstep : (s.workers i).interrupt = some thread) :
      Instr cfg ctl s (.worker i) pc .interrupt (s.setWorker i thread) .rest
  | taskProcess {i m : Nat} {response : Option P} :
      Instr cfg ctl s (.worker i) (.taskProcess m) (.process response)
        (s.setResponse m response) (.taskFetch m)
  | taskFetch {i m t : Nat} (h : (s.conns (s.msgs m).conn).conn.ioThread = some t) :
      Instr cfg ctl s (.worker i) (.taskFetch m) .go s (.taskPush t m)
  | taskPush {i t m : Nat} :
      Instr cfg ctl s (.worker i) (.taskPush t m) .go (s.pushMessage t m) (.taskSend t)
  | taskSend {i t : Nat} {thread : WorkerThread PoolTask}
      (hstep : (s.workers i).taskReturns = some thread) :
      Instr cfg ctl s (.worker i) (.taskSend t) .go ((s.sendReturn t).setWorker i thread) .rest
  -- `xv_service_send_message`
  | call {u c : Nat} {package : Option P} :
      Instr cfg ctl s (.sender u) .rest (.call c package) s (.sendTest c package)
  | sendClosed {u c : Nat} {package : Option P} (h : (s.conns c).conn.status = .closed) :
      Instr cfg ctl s (.sender u) (.sendTest c package) .go s .rest
  | sendOpen {u c : Nat} {package : Option P} (h : (s.conns c).conn.status ≠ .closed) :
      Instr cfg ctl s (.sender u) (.sendTest c package) .go s (.sendInit c package)
  | sendInit {u c : Nat} {package : Option P} :
      Instr cfg ctl s (.sender u) (.sendInit c package) .go (s.xvMessageInit c none package)
        (.sendFetch c s.nextMsg)
  | sendFetch {u c m t : Nat} (h : (s.conns c).conn.ioThread = some t) :
      Instr cfg ctl s (.sender u) (.sendFetch c m) .go s (.sendPush t m)
  | sendPush {u t m : Nat} :
      Instr cfg ctl s (.sender u) (.sendPush t m) .go (s.pushMessage t m) (.sendSignal t)
  | sendSignal {u t : Nat} :
      Instr cfg ctl s (.sender u) (.sendSignal t) .go (s.sendReturn t) .rest

variable {cfg : Config} {ctl : EpollCtl} {s : State P}

/-! ### Every program makes only these -/

theorem ioThreadEntry_instr {t : Nat} {pc : Pc P} {act : Act P} {next : State P × Pc P}
    (h : ioThreadEntry s t pc act = some next) :
    Instr cfg ctl s (.io t) pc act next.1 next.2 := by
  unfold ioThreadEntry at h
  split at h
  · simp only [Option.some.injEq] at h
    subst h
    exact .entry t
  · simp at h

theorem xvConnectionClose_instr {t : Nat} {pc : Pc P} {act : Act P} {next : State P × Pc P}
    (h : xvConnectionClose ctl s pc act = some next) :
    Instr cfg ctl s (.io t) pc act next.1 next.2 := by
  unfold xvConnectionClose at h
  split at h
  · split at h
    · simp at h
    · rename_i owner howner
      simp only [Option.some.injEq] at h
      subst h
      exact .close howner
  · split at h <;> rename_i href <;> simp only [Option.some.injEq] at h <;> subst h
    · exact .closeBusy href
    · exact .closeLast href
  · simp only [Option.some.injEq] at h
    subst h
    exact .closeDel
  · simp only [Option.some.injEq] at h
    subst h
    exact .closeFd
  · simp only [Option.some.injEq] at h
    subst h
    exact .closeFree
  · simp at h

theorem processMessage_instr {t : Nat} {pc : Pc P} {act : Act P} {next : State P × Pc P}
    (h : s.processMessage ctl t pc act = some next) :
    Instr cfg ctl s (.io t) pc act next.1 next.2 := by
  unfold State.processMessage at h
  split at h
  · simp only [Option.some.injEq] at h
    subst h
    exact .respond rfl rfl rfl
  · simp only [Option.some.injEq] at h
    subst h
    exact .finish
  · simp at h

theorem processReadBuffer_instr {t : Nat} {pc : Pc P} {act : Act P} {next : State P × Pc P}
    (h : s.processReadBuffer cfg pc act = some next) :
    Instr cfg ctl s (.io t) pc act next.1 next.2 := by
  unfold State.processReadBuffer at h
  split at h
  · simp only [Option.some.injEq] at h
    subst h
    exact .process
  · simp only [Option.some.injEq] at h
    subst h
    exact .pushTask rfl
  · simp only [Option.some.injEq] at h
    subst h
    exact .sendTask
  · simp at h

theorem onConnectionRead_instr {t : Nat} {pc : Pc P} {act : Act P} {next : State P × Pc P}
    (h : s.onConnectionRead cfg t pc act = some next) :
    Instr cfg ctl s (.io t) pc act next.1 next.2 := by
  unfold State.onConnectionRead at h
  split at h
  · split at h
    · simp at h
    · rename_i c hslot
      split at h
      · simp at h
      · rename_i halive
        have halive : s.alive c = true := by simpa using halive
        split at h
        · simp at h
        all_goals
          rename_i hread
          simp only [Option.some.injEq] at h
          subst h
        · exact .readBack hslot halive hread
        · exact .readClose hslot halive hread
        · exact .request hslot halive hread
  · simp at h

theorem onConnectionWrite_instr {t : Nat} {pc : Pc P} {act : Act P} {next : State P × Pc P}
    (h : s.onConnectionWrite ctl t pc act = some next) :
    Instr cfg ctl s (.io t) pc act next.1 next.2 := by
  unfold State.onConnectionWrite at h
  split at h
  · split at h
    · simp at h
    · rename_i c hslot
      split at h
      · simp at h
      · rename_i halive
        simp only [Option.some.injEq] at h
        subst h
        exact .write hslot (by simpa using halive) rfl
  · simp at h

theorem onNewConnection_instr {t : Nat} {pc : Pc P} {act : Act P} {next : State P × Pc P}
    (h : onNewConnection cfg ctl s t pc act = some next) :
    Instr cfg ctl s (.io t) pc act next.1 next.2 := by
  unfold onNewConnection at h
  split at h
  · simp only [Option.ite_none_right_eq_some, Option.some.injEq] at h
    obtain ⟨⟨ht, -, hfd⟩, rfl⟩ := h
    exact .accept ht hfd
  · split at h
    · simp at h
    · rename_i table htable
      simp only [Option.some.injEq] at h
      subst h
      exact .addConnection htable
  · split at h <;> rename_i hone <;> simp only [Option.some.injEq] at h <;> subst h
    · exact .assignSelf hone
    · exact .assignOther hone rfl
  · simp only [Option.some.injEq] at h
    subst h
    exact .sendConn
  · simp at h

theorem ioThreadAddConnCb_instr {t : Nat} {pc : Pc P} {act : Act P} {next : State P × Pc P}
    (h : ioThreadAddConnCb ctl s t pc act = some next) :
    Instr cfg ctl s (.io t) pc act next.1 next.2 := by
  unfold ioThreadAddConnCb at h
  split at h
  · simp only [Option.ite_none_right_eq_some, Option.some.injEq] at h
    obtain ⟨hready, rfl⟩ := h
    exact .addConnReady hready
  · simp only [Option.some.injEq] at h
    subst h
    exact .addConnRead
  · simp only [Option.some.injEq] at h
    subst h
    by_cases hsize : (s.io t).connQueue.length > 0
    · simpa only [if_pos hsize] using .addConnMore hsize
    · simpa only [if_neg hsize] using .addConnDone hsize
  · split at h <;> rename_i hqueue <;> simp only [Option.some.injEq] at h <;> subst h
    · exact .addConnNull hqueue
    · exact .addConnPop hqueue
  · simp only [Option.some.injEq] at h
    subst h
    exact .adopt
  · simp at h

theorem ioThreadReturnMessageCb_instr {t : Nat} {pc : Pc P} {act : Act P}
    {next : State P × Pc P} (h : ioThreadReturnMessageCb s t pc act = some next) :
    Instr cfg ctl s (.io t) pc act next.1 next.2 := by
  unfold ioThreadReturnMessageCb at h
  split at h
  · simp only [Option.ite_none_right_eq_some, Option.some.injEq] at h
    obtain ⟨hready, rfl⟩ := h
    exact .returnReady hready
  · simp only [Option.some.injEq] at h
    subst h
    exact .returnRead
  · simp only [Option.some.injEq] at h
    subst h
    by_cases hsize : (s.io t).messageQueue.length > 0
    · simpa only [if_pos hsize] using .returnMore hsize
    · simpa only [if_neg hsize] using .returnDone hsize
  · split at h <;> rename_i hqueue <;> simp only [Option.some.injEq] at h <;> subst h
    · exact .returnNull hqueue
    · exact .returnPop hqueue
  · dsimp only at h
    split at h <;> rename_i hstatus <;> simp only [Option.some.injEq] at h <;> subst h
    · exact .returnedOpen hstatus
    · exact .returnedClosed (by simpa using hstatus)
  · simp only [Option.some.injEq] at h
    subst h
    exact .freeReturned
  · simp at h

theorem ioStep_instr {t : Nat} {pc : Pc P} {act : Act P} {next : State P × Pc P}
    (h : ioStep cfg ctl s t pc act = some next) :
    Instr cfg ctl s (.io t) pc act next.1 next.2 := by
  unfold ioStep at h
  simp only [Option.orElse_eq_orElse, Option.orElse_eq_or, Option.or_eq_some_iff] at h
  rcases h with h | ⟨-, h | ⟨-, h | ⟨-, h | ⟨-, h | ⟨-, h | ⟨-, h | ⟨-, h | ⟨-, h⟩⟩⟩⟩⟩⟩⟩⟩
  · exact ioThreadEntry_instr h
  · exact xvConnectionClose_instr h
  · exact processMessage_instr h
  · exact processReadBuffer_instr h
  · exact onConnectionRead_instr h
  · exact onConnectionWrite_instr h
  · exact onNewConnection_instr h
  · exact ioThreadAddConnCb_instr h
  · exact ioThreadReturnMessageCb_instr h

theorem workerStep_instr {i : Nat} {pc : Pc P} {act : Act P} {next : State P × Pc P}
    (h : workerStep s i pc act = some next) :
    Instr cfg ctl s (.worker i) pc act next.1 next.2 := by
  unfold workerStep at h
  split at h
  · unfold threadPoolTaskCb at h
    split at h
    · simp only [Option.some.injEq] at h
      subst h
      exact .taskProcess
    · split at h
      · simp at h
      · rename_i t howner
        simp only [Option.some.injEq] at h
        subst h
        exact .taskFetch howner
    · simp only [Option.some.injEq] at h
      subst h
      exact .taskPush
    · split at h
      · simp at h
      · rename_i thread hreturns
        simp only [Option.some.injEq] at h
        subst h
        exact .taskSend hreturns
    · simp at h
  · rename_i hrun
    split at h
    · simp at h
    · rename_i thread hstep
      simp only [Option.some.injEq] at h
      subst h
      exact .work hrun hstep
  · rename_i hrun
    split at h
    · simp at h
    · rename_i thread hstep
      simp only [Option.some.injEq] at h
      subst h
      exact .interrupt hrun hstep
  · simp at h

theorem xvServiceSendMessage_instr {u : Nat} {pc : Pc P} {act : Act P} {next : State P × Pc P}
    (h : xvServiceSendMessage s pc act = some next) :
    Instr cfg ctl s (.sender u) pc act next.1 next.2 := by
  unfold xvServiceSendMessage at h
  split at h
  · simp only [Option.some.injEq] at h
    subst h
    exact .call
  · split at h <;> rename_i hstatus <;> simp only [Option.some.injEq] at h <;> subst h
    · exact .sendClosed hstatus
    · exact .sendOpen hstatus
  · simp only [Option.some.injEq] at h
    subst h
    exact .sendInit
  · split at h
    · simp at h
    · rename_i t howner
      simp only [Option.some.injEq] at h
      subst h
      exact .sendFetch howner
  · simp only [Option.some.injEq] at h
    subst h
    exact .sendPush
  · simp only [Option.some.injEq] at h
    subst h
    exact .sendSignal
  · simp at h

theorem State.program_instr {a : Agent} {act : Act P} {next : State P × Pc P}
    (h : s.program cfg ctl a act = some next) :
    Instr cfg ctl s a (s.pc a) act next.1 next.2 := by
  unfold State.program at h
  split at h
  · exact ioStep_instr h
  · exact workerStep_instr h
  · exact xvServiceSendMessage_instr h

/-- **What a step of the service is**: an instruction of a thread that touches no freed
connection, or the user taking or dropping a reference. -/
theorem State.step_cases {label : Label P} {s' : State P} (h : s.step cfg ctl label = some s') :
    (∃ a act next pc, label = .act a act ∧ s.safe a = true ∧ a.runs cfg = true ∧
        Instr cfg ctl s a (s.pc a) act next pc ∧ s' = next.goto a pc) ∨
      (∃ c, label = .incrRef c ∧ s.alive c = true ∧ s' = s.incrRef c) ∨
        ∃ c, label = .decrRef c ∧ s.alive c = true ∧ 0 < (s.conns c).userRefs ∧
          s' = s.decrRef c := by
  unfold State.step at h
  cases label with
  | act a act =>
      simp only [Option.ite_none_right_eq_some, Bool.and_eq_true, Option.map_eq_some_iff] at h
      obtain ⟨⟨hruns, hsafe⟩, next, hnext, rfl⟩ := h
      exact Or.inl ⟨a, act, next.1, next.2, rfl, hsafe, hruns, State.program_instr hnext, rfl⟩
  | incrRef c =>
      simp only [Option.ite_none_right_eq_some, Option.some.injEq] at h
      obtain ⟨halive, rfl⟩ := h
      exact Or.inr (Or.inl ⟨c, rfl, halive, rfl⟩)
  | decrRef c =>
      simp only [Option.ite_none_right_eq_some, Option.some.injEq] at h
      obtain ⟨⟨halive, hrefs⟩, rfl⟩ := h
      exact Or.inr (Or.inr ⟨c, rfl, halive, hrefs, rfl⟩)

/-- A step of a thread is one of its instructions. -/
theorem State.step_instr {a : Agent} {act : Act P} {s' : State P}
    (h : s.step cfg ctl (.act a act) = some s') :
    ∃ next pc, s.safe a = true ∧ Instr cfg ctl s a (s.pc a) act next pc ∧ s' = next.goto a pc := by
  rcases State.step_cases h with ⟨b, act', next, pc, hlabel, hsafe, -, hinstr, hnext⟩ |
      ⟨c, hlabel, -⟩ | ⟨c, hlabel, -⟩
  · obtain ⟨rfl, rfl⟩ := Label.act.inj hlabel
    exact ⟨next, pc, hsafe, hinstr, hnext⟩
  · simp at hlabel
  · simp at hlabel

end Libxv
