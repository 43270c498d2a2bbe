/-
Every task is freed once.

A task's block is in one place at a time: in the hands of the thread that pushes it, in the
queue, or with the worker that runs it.  So the worker reads what was pushed, whatever has been
freed and handed out again in between, and frees no block twice.  A task without a callback is
the exception: `worker_async_cb` drops it without freeing it.  The tasks that are queued when the
worker is destroyed are those that `xv_queue_destroy` calls back with, if it comes to its end.
-/
import Libxv.TaskMemory
import Libxv.Proofs.Worker
import Libxv.Proofs.QueueDestroy
import Libxv.Lib.Placement
import Libxv.Lib.Run

namespace Libxv

open Function Transition Placement

variable {A : Type}

/-! ### Freeing a list of blocks -/

theorem freeAll_eq {heap : Nat → Option (TaskBlock A)} {addrs : List Nat} (hnodup : addrs.Nodup)
    (hlive : ∀ addr ∈ addrs, heap addr ≠ none) :
    ∃ heap', freeAll heap addrs = some heap' ∧
      ∀ addr, heap' addr = if addr ∈ addrs then none else heap addr := by
  induction addrs generalizing heap with
  | nil => exact ⟨heap, rfl, by simp⟩
  | cons addr rest ih =>
      obtain ⟨hnot, hrest⟩ := List.nodup_cons.mp hnodup
      obtain ⟨block, hblock⟩ := Option.ne_none_iff_exists'.mp (hlive addr List.mem_cons_self)
      have hother : ∀ a ∈ rest, update heap addr none a ≠ none := by
        intro a ha
        have hne : a ≠ addr := fun heq => hnot (heq ▸ ha)
        rw [update_of_ne hne]
        exact hlive a (List.mem_cons_of_mem _ ha)
      obtain ⟨heap', hfree, hheap'⟩ := ih hrest hother
      refine ⟨heap', by simp [freeAll, hblock, hfree], fun a => ?_⟩
      rw [hheap', update_apply]
      by_cases ha : a = addr
      · simp [ha]
      · simp [ha]

namespace TaskMemory

variable {s s' : TaskMemory A}

/-! ### Where a block is -/

inductive Place
  /-- Producer `p` has allocated it and not yet pushed it. -/
  | hands (p : Nat)
  | queued
  | running
  /-- Nowhere: the worker has dropped it. -/
  | skipped
  deriving DecidableEq

/-- The block a producer has in its hands. -/
def held : Producer A → List Nat
  | .pushing task => [task.id]
  | .idle | .sending _ => []

/-- The block of the task that runs. -/
def runs : WorkerPc A → List Nat
  | .run task => [task.id]
  | _ => []

def contents (s : TaskMemory A) : Place → List Nat
  | .hands p => held (s.system.producers p)
  | .queued => s.taskQueue.content
  | .running => runs s.system.worker.pc
  | .skipped => s.skipped

/-- The block has been allocated and not freed. -/
def Live (s : TaskMemory A) (addr : Nat) : Prop := s.heap addr ≠ none

structure Kept (s : TaskMemory A) : Prop where
  placed : Placed s.Live s.contents
  /-- What a producer is about to push is in its block. -/
  hands : ∀ p task, s.system.producers p = .pushing task → s.taskAt task.id = some task
  /-- Of the tasks pushed the first have been popped, and the others are queued. -/
  ledger : ∃ popped rest, s.system.pushed = popped ++ rest ∧
    s.system.invoked = popped.filter (·.cb) ∧
    s.skipped = (popped.filter (!·.cb)).map Task.id ∧
    (s.destroyed = false → s.taskQueue.content.map s.taskAt = rest.map some)
  owns : s.taskQueue.Owns
  /-- No block is both a node and a task. -/
  apart : ∀ addr, s.taskQueue.nodes addr ≠ none → ¬ s.Live addr
  joined : s.system.destroyer = .joined → s.system.worker.pc = .exited
  destroyed : s.destroyed = true →
    (∀ addr, s.taskQueue.nodes addr = none) ∧ s.system.destroyer = .joined

theorem Kept.init : (TaskMemory.init : TaskMemory A).Kept where
  placed := by
    refine ⟨fun {p m} hm => ?_, fun p => ?_, fun {p q m} hm => ?_, fun {m} hm => absurd rfl hm⟩
    · cases p <;> exact absurd hm List.not_mem_nil
    · cases p <;> exact List.nodup_nil
    · cases p <;> exact absurd hm List.not_mem_nil
  hands := fun p task h => by cases h
  ledger := ⟨[], [], rfl, rfl, rfl, fun _ => rfl⟩
  owns := xvQueueInit_owns
  apart := fun _ hnode => absurd rfl hnode
  joined := fun h => by cases h
  destroyed := fun h => by cases h

/-- A step that concerns no task's memory. -/
theorem Kept.frame (h : s.Kept) (hheap : s'.heap = s.heap) (hqueue : s'.taskQueue = s.taskQueue)
    (hskipped : s'.skipped = s.skipped) (hdestroyed : s'.destroyed = s.destroyed)
    (hpushed : s'.system.pushed = s.system.pushed)
    (hinvoked : s'.system.invoked = s.system.invoked)
    (hheld : ∀ p task, s'.system.producers p = .pushing task ↔
      s.system.producers p = .pushing task)
    (hruns : runs s'.system.worker.pc = runs s.system.worker.pc)
    (hjoined : s'.system.destroyer = .joined → s'.system.worker.pc = .exited)
    (hstays : s.destroyed = true → s'.system.destroyer = s.system.destroyer) : s'.Kept := by
  have htaskAt : s'.taskAt = s.taskAt := by
    funext addr
    simp only [taskAt, hheap]
  refine ⟨h.placed.congr (fun m => by simp only [Live, hheap]) fun place => ?_, ?_, ?_,
    hqueue ▸ h.owns, ?_, hjoined, ?_⟩
  · cases place with
    | hands p =>
        simp only [contents]
        cases hp : s.system.producers p with
        | pushing task => rw [(hheld p task).mpr hp]
        | idle | sending task =>
            cases hp' : s'.system.producers p with
            | pushing task' =>
                rw [(hheld p task').mp hp'] at hp
                simp at hp
            | idle | sending task' => rfl
    | queued => exact congrArg Queue.content hqueue
    | running => exact hruns
    | skipped => exact hskipped
  · intro p task hp
    rw [htaskAt]
    exact h.hands p task ((hheld p task).mp hp)
  · rw [hpushed, hinvoked, hskipped, hdestroyed, hqueue, htaskAt]
    exact h.ledger
  · intro addr
    simp only [Live, hheap, hqueue]
    exact h.apart addr
  · intro hgone
    rw [hdestroyed] at hgone
    rw [hqueue, hstays hgone]
    exact h.destroyed hgone

/-! ### The steps -/

theorem taskAt_of_heap {addr : Nat} (h : s'.heap addr = s.heap addr) :
    s'.taskAt addr = s.taskAt addr := by
  simp only [taskAt, h]

theorem free_iff {addr : Nat} :
    s.free addr = true ↔ s.heap addr = none ∧ s.taskQueue.nodes addr = none := by
  simp [TaskMemory.free]

/-- `malloc` returns a block, and its fields are written. -/
theorem Kept.call (h : s.Kept) {p addr : Nat} {cb : Bool} {args : A}
    (hidle : s.system.producers p = .idle) (hfree : s.heap addr = none)
    (hnode : s.taskQueue.nodes addr = none) :
    Kept { s with
      system := { s.system with
        producers := update s.system.producers p (.pushing ⟨addr, cb, args⟩) }
      heap := update s.heap addr (some ⟨cb, args⟩) } := by
  have hnowhere : ∀ place, addr ∉ s.contents place := fun place hmem => h.placed.live hmem hfree
  have hother : ∀ a, a ≠ addr → update s.heap addr (some ⟨cb, args⟩) a = s.heap a :=
    fun a ha => update_of_ne ha ..
  refine ⟨?_, fun q task hq => ?_, ?_, h.owns, fun a ha => ?_, h.joined, h.destroyed⟩
  · refine h.placed.create (m := addr) (p := .hands p) (fun hlive => hlive hfree) (fun a => ?_) ?_
      fun place hplace => ?_
    · unfold Live
      by_cases ha : a = addr
      · subst ha
        simp
      · simp [ha]
    · simp [contents, hidle, held]
    · cases place with
      | hands q =>
          have hq : q ≠ p := fun heq => hplace (by rw [heq])
          simp [contents, update_of_ne hq]
      | queued | running | skipped => rfl
  · by_cases hqp : q = p
    · subst hqp
      dsimp only at hq
      rw [update_self] at hq
      obtain rfl := Producer.pushing.inj hq
      simp [taskAt]
    · dsimp only at hq
      rw [update_of_ne hqp] at hq
      have hne : task.id ≠ addr := by
        rintro rfl
        exact hnowhere (.hands q) (by simp [contents, hq, held])
      rw [← h.hands q task hq]
      exact taskAt_of_heap (hother _ hne)
  · obtain ⟨popped, rest, hpushed, hinvoked, hskipped, hqueue⟩ := h.ledger
    refine ⟨popped, rest, hpushed, hinvoked, hskipped, fun hdestroyed => ?_⟩
    rw [← hqueue hdestroyed]
    refine List.map_congr_left fun a ha => taskAt_of_heap (hother a ?_)
    rintro rfl
    exact hnowhere .queued ha
  · have hne : a ≠ addr := fun heq => ha (heq ▸ hnode)
    exact fun hlive => h.apart a ha fun hnone => hlive ((hother a hne).trans hnone)

/-- A producer takes the mutex and pushes. -/
theorem Kept.push (h : s.Kept) (hd : s.destroyed = false) {p addr : Nat} {next : Option Nat}
    {task : Task A} {queue : Queue Nat} (hpushing : s.system.producers p = .pushing task)
    (hheap : s.heap addr = none) (hnode : s.taskQueue.nodes addr = none)
    (hpush : xvQueuePush s.taskQueue addr next task.id = some queue) :
    Kept { s with
      system := { s.system with
        producers := update s.system.producers p (.sending task)
        pushed := s.system.pushed ++ [task] }
      taskQueue := queue } := by
  obtain ⟨queue', hpush', howns, hentries⟩ := h.owns.push next task.id hnode
  obtain rfl : queue' = queue := Option.some.inj (hpush'.symm.trans hpush)
  have hcontent : queue'.content = s.taskQueue.content ++ [task.id] := by
    simp only [Queue.content, hentries, List.map_append]
    rfl
  refine ⟨?_, fun q task' hq => ?_, ?_, howns, fun a ha => ?_, h.joined, ?_⟩
  · refine h.placed.move (m := task.id) (l := []) (p := .hands p) (q := .queued) (by simp) ?_
      (fun _ => Iff.rfl) ?_ hcontent fun place hplace hplace' => ?_
    · simp [contents, hpushing, held]
    · simp [contents, held]
    · cases place with
      | hands q =>
          have hq : q ≠ p := fun heq => hplace (by rw [heq])
          simp [contents, update_of_ne hq]
      | queued => exact absurd rfl hplace'
      | running | skipped => rfl
  · have hq' := (Producer.of_update hq (by simp)).2
    exact h.hands q task' hq'
  · obtain ⟨popped, rest, hpushed, hinvoked, hskipped, hqueue⟩ := h.ledger
    refine ⟨popped, rest ++ [task], by simp [hpushed], hinvoked, hskipped, fun hdestroyed => ?_⟩
    dsimp only
    rw [hcontent, List.map_append, List.map_append, ← hqueue hdestroyed]
    exact congrArg (_ ++ ·) (congrArg (fun t => [t]) (h.hands p task hpushing))
  · rcases xvQueuePush_live hpush' ha with rfl | hlive
    · exact fun hlive => hlive hheap
    · exact h.apart a hlive
  · exact fun hgone => absurd (hd.symm.trans hgone) (by simp)

/-- The first task in the queue is the first that was pushed and not popped. -/
theorem Kept.front (h : s.Kept) (hd : s.destroyed = false) {addr : Nat} {rest : List Nat}
    (hqueue : s.taskQueue.content = addr :: rest) :
    ∃ task popped others, s.taskAt addr = some task ∧
      task.id = addr ∧ s.system.pushed = popped ++ task :: others ∧
      s.system.invoked = popped.filter (·.cb) ∧
      s.skipped = (popped.filter (!·.cb)).map Task.id ∧ rest.map s.taskAt = others.map some := by
  obtain ⟨popped, left, hpushed, hinvoked, hskipped, hleft⟩ := h.ledger
  have hmap := hleft hd
  rw [hqueue] at hmap
  cases left with
  | nil => simp at hmap
  | cons task others =>
      simp only [List.map_cons, List.cons.injEq] at hmap
      refine ⟨task, popped, others, hmap.1, ?_, hpushed, hinvoked, hskipped, hmap.2⟩
      obtain ⟨block, -, htask⟩ := Option.map_eq_some_iff.mp hmap.1
      rw [← htask]

/-- The worker pops a task and calls its callback. -/
theorem Kept.take (h : s.Kept) (hd : s.destroyed = false) (hpc : s.system.worker.pc = .pop)
    {addr : Nat} {queue : Queue Nat} (hpop : xvQueuePop s.taskQueue = some (some addr, queue))
    (hstep : s.take addr queue = some s') : s'.Kept := by
  obtain ⟨howns, hhead, htail⟩ := h.owns.popped hpop
  obtain ⟨hnodes, -⟩ := xvQueuePop_nodes hpop
  obtain ⟨rest, hqueue, hcontent⟩ :
      ∃ rest, s.taskQueue.content = addr :: rest ∧ queue.content = rest := by
    unfold Queue.content
    rw [htail]
    cases hentries : s.taskQueue.entries with
    | nil => simp [hentries] at hhead
    | cons entry others =>
        rw [hentries] at hhead
        exact ⟨_, by rw [Option.some.inj hhead]; rfl, rfl⟩
  have hapart : ∀ a, queue.nodes a ≠ none → ¬ s.Live a := by
    intro a ha
    obtain ⟨node, hnode⟩ := Option.ne_none_iff_exists'.mp ha
    exact h.apart a (by rw [hnodes a node hnode]; simp)
  obtain ⟨task, popped, others, htask, rfl, hpushed, hinvoked, hskipped, hrest⟩ :=
    h.front hd hqueue
  simp only [TaskMemory.take, htask, Option.map_some, Option.some.injEq] at hstep
  have hnot : s.system.destroyer ≠ .joined := fun hjoined => by
    rw [h.joined hjoined] at hpc
    cases hpc
  cases hcb : task.cb with
  | true =>
      rw [if_pos hcb] at hstep
      subst hstep
      refine ⟨?_, h.hands, ⟨popped ++ [task], others, ?_, ?_, ?_, fun _ => hcontent ▸ hrest⟩,
        howns, hapart, fun hjoined => absurd hjoined hnot,
        fun hgone => absurd (hd.symm.trans hgone) (by simp)⟩
      · refine h.placed.move (m := task.id) (l := rest) (p := .queued) (q := .running) (by simp)
          hqueue (fun _ => Iff.rfl) hcontent ?_ fun place hplace hplace' => ?_
        · simp [contents, runs, hpc, setPc]
        · cases place with
          | hands q => rfl
          | queued => exact absurd rfl hplace
          | running => exact absurd rfl hplace'
          | skipped => rfl
      · simp [setPc, hpushed]
      · simp [setPc, hinvoked, List.filter_append, hcb]
      · simp [setPc, hskipped, List.filter_append, hcb]
  | false =>
      rw [if_neg (by simp [hcb])] at hstep
      subst hstep
      refine ⟨?_, h.hands, ⟨popped ++ [task], others, ?_, ?_, ?_, fun _ => hcontent ▸ hrest⟩,
        howns, hapart, fun hjoined => absurd hjoined hnot,
        fun hgone => absurd (hd.symm.trans hgone) (by simp)⟩
      · refine h.placed.move (m := task.id) (l := rest) (p := .queued) (q := .skipped) (by simp)
          hqueue (fun _ => Iff.rfl) hcontent rfl fun place hplace hplace' => ?_
        cases place with
        | hands q => rfl
        | queued => exact absurd rfl hplace
        | running => simp [contents, runs, hpc, setPc]
        | skipped => exact absurd rfl hplace'
      · simp [setPc, hpushed]
      · simp [setPc, hinvoked, List.filter_append, hcb]
      · simp [hskipped, List.filter_append, hcb]

/-- The callback has returned, and its block is freed. -/
theorem Kept.taskReturns (h : s.Kept) (hd : s.destroyed = false)
    (hstep : s.taskReturns = some s') : s'.Kept := by
  unfold TaskMemory.taskReturns at hstep
  split at hstep
  · rename_i task hpc
    split at hstep
    · cases hstep
    · obtain rfl := Option.some.inj hstep
      have hrunning : s.contents .running = [task.id] := by simp [contents, runs, hpc]
      have hapart : ∀ place, place ≠ .running → ∀ addr ∈ s.contents place, addr ≠ task.id := by
        rintro place hplace addr hmem rfl
        exact hplace (h.placed.apart hmem (by rw [hrunning]; exact List.mem_cons_self))
      have hother : ∀ a, a ≠ task.id → update s.heap task.id none a = s.heap a :=
        fun a ha => update_of_ne ha ..
      refine ⟨?_, fun q task' hq => ?_, ?_, h.owns, fun a ha hlive => ?_, fun hjoined => ?_,
        fun hgone => absurd (hd.symm.trans hgone) (by simp)⟩
      · refine h.placed.destroy (m := task.id) (l := []) (p := .running) hrunning (fun a => ?_) rfl
          fun place hplace => ?_
        · unfold Live
          by_cases ha : a = task.id
          · subst ha
            simp
          · simp [ha]
        · cases place with
          | running => exact absurd rfl hplace
          | hands q => rfl
          | queued | skipped => rfl
      · have hne := hapart (.hands q) (by simp) task'.id (by
          have hq : s.system.producers q = .pushing task' := hq
          simp [contents, hq, held])
        rw [← h.hands q task' hq]
        exact taskAt_of_heap (hother _ hne)
      · obtain ⟨popped, rest, hpushed, hinvoked, hskipped, hqueue⟩ := h.ledger
        refine ⟨popped, rest, hpushed, hinvoked, hskipped, fun hdestroyed => ?_⟩
        rw [← hqueue hdestroyed]
        exact List.map_congr_left fun a ha =>
          taskAt_of_heap (hother a (hapart .queued (by simp) a ha))
      · have hne : a ≠ task.id := by
          rintro rfl
          exact hlive (update_self ..)
        exact h.apart a ha fun hnone => hlive ((hother a hne).trans hnone)
      · have hexited := h.joined hjoined
        rw [hpc] at hexited
        cases hexited
  · cases hstep

theorem destroyFree_some {fuel : Nat} (hstep : s.destroyFree fuel = some s') :
    ∃ done heap, xvQueueDestroy s.taskQueue true fuel = some done ∧
      freeAll s.heap done.called = some heap ∧
      s' = { s with
        heap := heap
        taskQueue := { nodes := done.nodes, head := none, tail := none, size := 0 }
        destroyed := true } := by
  unfold TaskMemory.destroyFree at hstep
  split at hstep
  · cases hstep
  · rename_i done hdone
    obtain ⟨heap, hfree, rfl⟩ := Option.map_eq_some_iff.mp hstep
    exact ⟨done, heap, hdone, hfree, rfl⟩

/-- `xv_worker_thread_destroy` frees what is still queued. -/
theorem Kept.destroyFree (h : s.Kept) (hjoined : s.system.destroyer = .joined) {fuel : Nat}
    (hstep : s.destroyFree fuel = some s') : s'.Kept := by
  obtain ⟨done, heap, hdone, hfree, rfl⟩ := destroyFree_some hstep
  obtain ⟨-, hdestroyed⟩ := h.owns.destroyed hdone
  have hcalled : done.called = s.taskQueue.content := hdestroyed.called
  obtain ⟨heap', hfree', hheap⟩ := freeAll_eq (h.placed.nodup .queued) fun addr haddr =>
    h.placed.live (p := .queued) haddr
  have hfree' : freeAll s.heap s.taskQueue.content = some heap' := hfree'
  obtain rfl : heap' = heap := Option.some.inj (hfree'.symm.trans (hcalled ▸ hfree))
  have hheap : ∀ addr, heap' addr = if addr ∈ s.taskQueue.content then none else s.heap addr :=
    hheap
  have hkept : ∀ place, place ≠ .queued → ∀ addr ∈ s.contents place, heap' addr = s.heap addr := by
    intro place hplace addr hmem
    rw [hheap, if_neg]
    exact fun hqueued => hplace (h.placed.apart hmem hqueued)
  have hempty : Queue.Holds
      ({ nodes := done.nodes, head := none, tail := none, size := 0 } : Queue Nat) [] :=
    ⟨List.nodup_nil, rfl, rfl, rfl, by simp, .nil⟩
  have howns := hempty.owns fun addr hlive => absurd (hdestroyed.nodes addr) hlive
  refine ⟨?_, fun q task hq => ?_, ?_, howns,
    fun addr hnode => absurd (hdestroyed.nodes addr) hnode, h.joined,
    fun _ => ⟨hdestroyed.nodes, hjoined⟩⟩
  · refine h.placed.clear (p := .queued) (fun addr => ?_) rfl fun place hplace => ?_
    · show heap' addr ≠ none ↔ s.heap addr ≠ none ∧ addr ∉ s.taskQueue.content
      rw [hheap]
      by_cases haddr : addr ∈ s.taskQueue.content
      · simp [haddr]
      · simp [haddr]
    · cases place with
      | queued => exact absurd rfl hplace
      | hands q => rfl
      | running | skipped => rfl
  · have hq : s.system.producers q = .pushing task := hq
    rw [← h.hands q task hq]
    exact taskAt_of_heap (hkept (.hands q) (by simp) _ (by simp [contents, hq, held]))
  · obtain ⟨popped, rest, hpushed, hinvoked, hskipped, -⟩ := h.ledger
    exact ⟨popped, rest, hpushed, hinvoked, hskipped, fun hgone => by cases hgone⟩

/-- The worker elsewhere in its program. -/
theorem Kept.worker (h : s.Kept) (hd : s.destroyed = false) (hstep : s.worker = some s') :
    s'.Kept := by
  have hpcs : ∀ pc : WorkerPc A, runs pc = runs s.system.worker.pc →
      s.system.worker.pc ≠ .exited → (s.setPc pc).Kept := fun pc hruns hpc =>
    h.frame rfl rfl rfl rfl rfl rfl (fun _ _ => Iff.rfl) hruns
      (fun hjoined => absurd (h.joined hjoined) hpc) fun _ => rfl
  unfold TaskMemory.worker at hstep
  split at hstep
  · rename_i hpc
    obtain rfl := Option.some.inj hstep
    refine hpcs _ ?_ (by simp [hpc])
    rw [hpc]
    split <;> rfl
  · rename_i hpc
    split at hstep
    · cases hstep
    · rename_i queue hpop
      -- The queue is empty, and stays as it is.
      obtain ⟨-, hhead, -⟩ := h.owns.popped hpop
      have hnil : s.taskQueue.entries = [] := by
        cases hentries : s.taskQueue.entries with
        | nil => rfl
        | cons entry rest => simp [hentries] at hhead
      obtain rfl : s.taskQueue = queue :=
        (Prod.mk.inj (Option.some.inj ((h.owns.pop_nil hnil).symm.trans hpop))).2
      obtain rfl := Option.some.inj hstep
      exact hpcs .sizeTest (by rw [hpc]; rfl) (by simp [hpc])
    · rename_i addr queue hpop
      exact h.take hd hpc hpop hstep
  · rename_i hsize hpop
    obtain ⟨system, hsystem, rfl⟩ := Option.map_eq_some_iff.mp hstep
    cases WorkerSystem.step_moves hsystem with
    | @worker thread hthread =>
        have hexited : s.system.worker.pc ≠ .exited := fun hpc => by
          simp [WorkerThread.step, hpc] at hthread
        have hinvokes : s.system.worker.invokes = [] := by
          unfold WorkerThread.invokes
          split
          · exact absurd ‹_› hpop
          · rfl
        have hbefore : runs s.system.worker.pc = [] := by
          cases hpc : s.system.worker.pc with
          | run task => simp [WorkerThread.step, hpc] at hthread
          | _ => rfl
        have hafter : runs thread.pc = [] := by
          cases WorkerThread.step_moves hthread with
          | run hpc _ _ => exact absurd hpc hpop
          | _ => rfl
        refine h.frame rfl rfl rfl rfl rfl ?_ (fun _ _ => Iff.rfl) (hafter.trans hbefore.symm)
          (fun hjoined => absurd (h.joined hjoined) hexited) fun _ => rfl
        simp [hinvokes]

/-- A step of another thread that concerns no task's memory. -/
theorem Kept.other (h : s.Kept) (hd : s.destroyed = false) {label : WorkerLabel A}
    (hplain : plain label = true) {system : WorkerSystem A}
    (hstep : s.system.step label = some system) : Kept { s with system := system } := by
  have hgone : s.destroyed = true → system.destroyer = s.system.destroyer :=
    fun hgone => absurd (hd.symm.trans hgone) (by simp)
  cases WorkerSystem.step_moves hstep with
  | call | push | worker | taskReturns => simp [plain] at hplain
  | start hcreated hstart =>
      have hpc : s.system.worker.pc = .absent := by
        cases hpc : s.system.worker.pc <;> simp [hpc, WorkerPc.created] at hcreated ⊢
      refine h.frame rfl rfl rfl rfl rfl rfl (fun _ _ => Iff.rfl) ?_ (fun hjoined => ?_) hgone
      · rcases xvWorkerThreadStart_cases hstart with hsame | hstarted
        · rw [hsame]
        · simp [hstarted, hpc, runs]
      · exact absurd ((h.joined hjoined).symm.trans hpc) (by simp)
  | @send p task hsending =>
      refine h.frame rfl rfl rfl rfl rfl rfl (fun q task' => ?_) rfl h.joined hgone
      by_cases hq : q = p
      · subst hq
        simp [hsending]
      · simp [update_of_ne hq]
  | interrupt hthread =>
      obtain ⟨hpc, rfl⟩ := WorkerThread.interrupt_some hthread
      refine h.frame rfl rfl rfl rfl rfl rfl (fun _ _ => Iff.rfl) (by simp [runs, hpc])
        (fun hjoined => ?_) hgone
      exact absurd ((h.joined hjoined).symm.trans hpc) (by simp)
  | stop => exact h.frame rfl rfl rfl rfl rfl rfl (fun _ _ => Iff.rfl) rfl h.joined hgone
  | destroy _ _ | destroyStop _ | destroySend _ =>
      exact h.frame rfl rfl rfl rfl rfl rfl (fun _ _ => Iff.rfl) rfl (by simp) hgone
  | destroyJoin _ hexited =>
      refine h.frame rfl rfl rfl rfl rfl rfl (fun _ _ => Iff.rfl) rfl (fun _ => ?_) hgone
      cases hpc : s.system.worker.pc <;> simp [hpc, WorkerPc.hasExited] at hexited ⊢

theorem Kept.step (h : s.Kept) {label : TaskMemoryLabel A} (hstep : s.step label = some s') :
    s'.Kept := by
  simp only [TaskMemory.step, Option.ite_none_left_eq_some, Bool.not_eq_true] at hstep
  obtain ⟨hd, hstep⟩ := hstep
  cases label with
  | call p addr cb args =>
      dsimp only at hstep
      split at hstep
      · rename_i hidle hfree
        obtain ⟨hheap, hnode⟩ := free_iff.mp hfree
        obtain rfl := Option.some.inj hstep
        exact h.call hidle hheap hnode
      · cases hstep
  | push p addr next =>
      dsimp only at hstep
      split at hstep
      · rename_i task hpushing hfree
        obtain ⟨hheap, hnode⟩ := free_iff.mp hfree
        obtain ⟨queue, hpush, rfl⟩ := Option.map_eq_some_iff.mp hstep
        exact h.push hd hpushing hheap hnode hpush
      · cases hstep
  | worker => exact h.worker hd hstep
  | taskReturns => exact h.taskReturns hd hstep
  | destroyFree fuel =>
      simp only [Option.ite_none_right_eq_some] at hstep
      exact h.destroyFree hstep.1 hstep.2
  | other label =>
      simp only [Option.ite_none_right_eq_some, Option.map_eq_some_iff] at hstep
      obtain ⟨hplain, system, hsystem, rfl⟩ := hstep
      exact h.other hd hplain hsystem

theorem reachable_kept (h : Reachable TaskMemory.step (· = TaskMemory.init) s) : s.Kept := by
  apply h.invariant
  · intro s hs
    subst hs
    exact Kept.init
  · intro s label s' hkept _ hstep
    exact hkept.step hstep

/-! ### What the invariant gives -/

/-- The block at the front of the queue is live when the worker comes to read it. -/
theorem Kept.pops (h : s.Kept) (hd : s.destroyed = false) (hpc : s.system.worker.pc = .pop) :
    s.worker.isSome := by
  unfold TaskMemory.worker
  rw [hpc]
  cases hentries : s.taskQueue.entries with
  | nil =>
      dsimp only
      rw [h.owns.pop_nil hentries]
      rfl
  | cons entry rest =>
      obtain ⟨node, addr⟩ := entry
      obtain ⟨queue, hpop, -⟩ := h.owns.pop_cons hentries
      have hcontent : s.taskQueue.content = addr :: rest.map Prod.snd := by
        rw [Queue.content, hentries]
        rfl
      obtain ⟨task, -, -, htask, -⟩ := h.front hd hcontent
      dsimp only
      rw [hpop]
      simp [TaskMemory.take, htask]

/-- The block of the task that runs is live when it is freed. -/
theorem Kept.frees (h : s.Kept) {task : Task A} (hpc : s.system.worker.pc = .run task) :
    s.taskReturns.isSome := by
  have hlive : s.Live task.id := h.placed.live (p := .running) (by simp [contents, runs, hpc])
  obtain ⟨block, hblock⟩ := Option.ne_none_iff_exists'.mp hlive
  simp [TaskMemory.taskReturns, hpc, hblock]

/-- The blocks that are still queued are live when `xv_worker_thread_destroy` frees them, and it
comes to free them if the last node lets it. -/
theorem Kept.freesAll (h : s.Kept) :
    (∃ fuel, (s.destroyFree fuel).isSome) ↔ s.taskQueue.EndsNull := by
  constructor
  · rintro ⟨fuel, hsome⟩
    obtain ⟨s', hstep⟩ := Option.isSome_iff_exists.mp hsome
    obtain ⟨done, heap, hdone, -, -⟩ := destroyFree_some hstep
    exact (h.owns.destroyed hdone).1
  · intro hnull
    obtain ⟨fuel, done, hdone, hdestroyed⟩ := (h.owns.destroyed_iff true).mpr hnull
    obtain ⟨heap, hfree, -⟩ := freeAll_eq (h.placed.nodup .queued) fun addr haddr =>
      h.placed.live (p := .queued) haddr
    have hfree : freeAll s.heap done.called = some heap := by
      rw [hdestroyed.called]
      exact hfree
    exact ⟨fuel, by simp [TaskMemory.destroyFree, hdone, hfree]⟩

/-- After `xv_worker_thread_destroy` the worker has nothing left. -/
theorem Kept.leaked (h : s.Kept) (hgone : s.destroyed = true) {addr : Nat} (hlive : s.Live addr) :
    addr ∈ s.skipped ∨ ∃ p task, s.system.producers p = .pushing task ∧ task.id = addr := by
  obtain ⟨hnodes, hjoined⟩ := h.destroyed hgone
  obtain ⟨place, hplace⟩ := h.placed.placed hlive
  cases place with
  | hands p =>
      refine Or.inr ⟨p, ?_⟩
      cases hp : s.system.producers p with
      | pushing task =>
          refine ⟨task, rfl, ?_⟩
          simpa [contents, hp, held, eq_comm] using hplace
      | idle | sending task => simp [contents, hp, held] at hplace
  | queued =>
      obtain ⟨entry, hentry, -⟩ := List.mem_map.mp hplace
      exact absurd (hnodes entry.1) ((h.owns.live_iff entry.1).mpr (List.mem_map_of_mem hentry))
  | running => simp [contents, h.joined hjoined, runs] at hplace
  | skipped => exact Or.inl hplace

end TaskMemory

/-- **The memory of the tasks.**  In every run, whichever addresses `malloc` hands out again and
whatever it leaves in them: an allocated task is in exactly one place, and what is queued, running
or in a producer's hands is allocated and no node of the queue; the callbacks called, and their
arguments, are those of the first tasks pushed, in that order, without the tasks that have none;
the worker never reads or frees a block that is not allocated; nor does `xv_worker_thread_destroy`
if the last node of its queue, when there is one, holds NULL in its `next`, and it does not come to
its end otherwise; and when it is over no node is left, and what is still allocated are the tasks
that had no callback, and what a producer has yet to push. -/
theorem task_memory_safe {s : TaskMemory A}
    (h : Reachable TaskMemory.step (· = TaskMemory.init) s) :
    (∀ addr, s.Live addr → ∃! place, addr ∈ s.contents place) ∧
    (∀ place, (s.contents place).Nodup ∧
      ∀ addr ∈ s.contents place, s.Live addr ∧ s.taskQueue.nodes addr = none) ∧
    (∃ popped, popped <+: s.system.pushed ∧ s.system.invoked = popped.filter (·.cb) ∧
      s.skipped = (popped.filter (!·.cb)).map Task.id) ∧
    (s.destroyed = false → s.system.worker.pc = .pop → (s.step .worker).isSome) ∧
    (∀ task, s.destroyed = false → s.system.worker.pc = .run task →
      (s.step .taskReturns).isSome) ∧
    (s.destroyed = false → s.system.destroyer = .joined →
      ((∃ fuel, (s.step (.destroyFree fuel)).isSome) ↔ s.taskQueue.EndsNull)) ∧
    (s.destroyed = true → (∀ addr, s.taskQueue.nodes addr = none) ∧
      ∀ addr, s.Live addr → addr ∈ s.skipped ∨
        ∃ p task, s.system.producers p = .pushing task ∧ task.id = addr) := by
  have hkept := TaskMemory.reachable_kept h
  refine ⟨fun addr hlive => hkept.placed.existsUnique hlive, fun place => ⟨hkept.placed.nodup place,
    fun addr haddr => ?_⟩, ?_, ?_, ?_, ?_, fun hgone => ⟨(hkept.destroyed hgone).1,
      fun addr => hkept.leaked hgone⟩⟩
  · have hlive : s.Live addr := hkept.placed.live haddr
    exact ⟨hlive, by_contra fun hnode => hkept.apart addr hnode hlive⟩
  · obtain ⟨popped, rest, hpushed, hinvoked, hskipped, -⟩ := hkept.ledger
    exact ⟨popped, ⟨rest, hpushed.symm⟩, hinvoked, hskipped⟩
  · intro hd hpc
    simpa [TaskMemory.step, hd] using hkept.pops hd hpc
  · intro task hd hpc
    simpa [TaskMemory.step, hd] using hkept.frees hpc
  · intro hd hjoined
    rw [← hkept.freesAll]
    simp [TaskMemory.step, hd, hjoined]

/-- The blocks of a task and of its node are handed out again, crosswise, to a task without a
callback, and a third task is pushed when the worker has exited, on a node that ends with NULL: at
the end the second one is still allocated, and it alone. -/
theorem task_memory_safe_reused : ∃ s : TaskMemory Unit, s.destroyed = true ∧
    s.system.pushed.map Task.id = [0, 1, 2] ∧ s.system.invoked.map Task.id = [0] ∧
    (∀ addr, s.taskQueue.nodes addr = none) ∧
    ∀ addr, s.Live addr → addr ∈ [1] ∨ ∃ p task, s.system.producers p = .pushing task ∧
      task.id = addr := by
  have hrun : ∃ s : TaskMemory Unit, Reachable TaskMemory.step (· = TaskMemory.init) s ∧
      s.destroyed = true ∧ s.system.pushed.map Task.id = [0, 1, 2] ∧
      s.system.invoked.map Task.id = [0] ∧ s.skipped = [1] :=
    ⟨_, Reachable.play
      ([.call 0 0 true (), .push 0 1 (some 7), .other (.send 0), .other .start] ++
        List.replicate 6 .worker ++ [.taskReturns, .call 0 1 false (), .push 0 0 (some 3)] ++
        List.replicate 3 .worker ++
        [.call 1 2 true (), .other .destroy, .other .destroyStop, .other .destroySend] ++
        List.replicate 3 .worker ++ [.push 1 0 none, .other .destroyJoin, .destroyFree 2])
      (.start rfl) rfl, rfl, rfl, rfl, rfl⟩
  obtain ⟨s, hreach, hgone, hpushed, hinvoked, hskipped⟩ := hrun
  obtain ⟨-, -, -, -, -, -, hover⟩ := task_memory_safe hreach
  obtain ⟨hnodes, hleaked⟩ := hover hgone
  exact ⟨s, hgone, hpushed, hinvoked, hnodes, fun addr hlive => hskipped ▸ hleaked addr hlive⟩

end Libxv
