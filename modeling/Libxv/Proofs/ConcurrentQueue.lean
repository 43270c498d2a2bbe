/-
The concurrent queue is a queue.

The statements of `xv_queue_push` and `xv_queue_pop`, run one after the other, do what
`xvQueuePush` and `xvQueuePop` do in one step, and so what an append and a removal do to the
list that is queued.  Under the mutex that is all that any thread can see.
-/
import Libxv.ConcurrentQueue
import Libxv.Proofs.QueueUse
import Mathlib.Data.Set.Finite.Lemmas

namespace Libxv

open Function Transition Monitor

variable {α : Type} {queue queue' : Queue α} {Q : Queue α → ConcurrentQueueResult α → Prop}

/-! ### The statements, one after the other -/

theorem ConcurrentQueuePlace.fits_any {place : ConcurrentQueuePlace α}
    (hplace : ∀ data, place ≠ .pushNode data) : ∃ block, place.Fits queue block := by
  refine ⟨⟨0, none⟩, ?_⟩
  cases place with
  | pushNode data => exact absurd rfl (hplace data)
  | _ => trivial

/-- A statement that goes on to one other. -/
theorem returns_next {place place' : ConcurrentQueuePlace α}
    (hplace : ∀ data, place ≠ .pushNode data)
    (hrun : ∀ block, place.run queue block = some (queue', .inl place'))
    (h : xvConcurrentQueue.Returns (fun q p w => p.Fits q w) Q queue' place') :
    xvConcurrentQueue.Returns (fun q p w => p.Fits q w) Q queue place :=
  .next (ConcurrentQueuePlace.fits_any hplace) hrun h

/-- The last statement. -/
theorem returns_done {place : ConcurrentQueuePlace α} {result : ConcurrentQueueResult α}
    (hplace : ∀ data, place ≠ .pushNode data)
    (hrun : ∀ block, place.run queue block = some (queue', .inr result)) (h : Q queue' result) :
    xvConcurrentQueue.Returns (fun q p w => p.Fits q w) Q queue place :=
  .done (ConcurrentQueuePlace.fits_any hplace) hrun h

theorem Queue.deref_some {ptr : Option Nat} {addr : Nat} {node : Node α} (hptr : ptr = some addr)
    (hnode : queue.nodes addr = some node) : queue.deref ptr = some node := by
  rw [Queue.deref, hptr, Option.bind_some, hnode]

theorem Queue.free_some {ptr : Option Nat} {addr : Nat} {node : Node α} (hptr : ptr = some addr)
    (hnode : queue.nodes addr = some node) :
    queue.free ptr = some { queue with nodes := update queue.nodes addr none } := by
  simp [Queue.free, hptr, hnode]

/-- After the new node is made, the statements of `xv_queue_push` do what `xvQueuePush` does. -/
theorem pushTest_returns {addr : Nat} {next : Option Nat} {data : α}
    (hpush : xvQueuePush queue addr next data = some queue') (h : Q queue' .pushed) :
    xvConcurrentQueue.Returns (fun q p w => p.Fits q w) Q
      { queue with
        nodes := update queue.nodes addr (some { data := data, next := next, linked := false }) }
      (.pushTest addr) := by
  unfold xvQueuePush at hpush
  cases htail : queue.tail with
  | none =>
      simp only [htail, Option.some.injEq] at hpush
      subst hpush
      refine returns_next (by simp) (fun _ => rfl) ?_
      refine returns_next (by simp) (fun _ => rfl) ?_
      refine returns_next (by simp) (fun _ => rfl) ?_
      exact returns_done (by simp) (fun _ => rfl) h
  | some tail =>
      simp only [htail, Option.map_eq_some_iff] at hpush
      obtain ⟨last, hlast, rfl⟩ := hpush
      refine returns_next (by simp) (fun _ => rfl) ?_
      refine returns_next (by simp) (fun _ => by
        simp only [ConcurrentQueuePlace.run, Option.bind_eq_bind, Option.bind_some, hlast]
        rfl) ?_
      refine returns_next (by simp) (fun _ => rfl) ?_
      exact returns_done (by simp) (fun _ => rfl) h

/-- The statements of `xv_queue_pop` do what `xvQueuePop` does. -/
theorem popTestOne_returns {data : Option α} (hpop : xvQueuePop queue = some (data, queue'))
    (h : Q queue' (.popped data)) :
    xvConcurrentQueue.Returns (fun q p w => p.Fits q w) Q queue .popTestOne := by
  unfold xvQueuePop at hpop
  by_cases hone : queue.size = 1
  · rw [if_pos hone] at hpop
    simp only [Option.bind_eq_bind, Option.bind_eq_some_iff, Option.pure_def, Option.some.injEq,
      Prod.mk.injEq] at hpop
    obtain ⟨head, hhead, node, hnode, rfl, rfl⟩ := hpop
    refine returns_next (by simp) (fun _ => if_pos hone) ?_
    refine returns_next (by simp)
      (fun _ => congrArg (Option.map _) (Queue.deref_some hhead hnode)) ?_
    refine returns_next (by simp)
      (fun _ => congrArg (Option.map _) (Queue.free_some hhead hnode)) ?_
    refine returns_next (by simp) (fun _ => rfl) ?_
    refine returns_next (by simp) (fun _ => rfl) ?_
    exact returns_done (by simp) (fun _ => rfl) h
  rw [if_neg hone] at hpop
  refine returns_next (by simp) (fun _ => if_neg hone) ?_
  by_cases hmore : queue.size > 1
  · rw [if_pos hmore] at hpop
    simp only [Option.bind_eq_bind, Option.bind_eq_some_iff, Option.pure_def, Option.some.injEq,
      Prod.mk.injEq] at hpop
    obtain ⟨head, hhead, node, hnode, rfl, rfl⟩ := hpop
    refine returns_next (by simp) (fun _ => if_pos hmore) ?_
    refine returns_next (by simp)
      (fun _ => congrArg (Option.map _) (Queue.deref_some hhead hnode)) ?_
    refine returns_next (by simp) (fun _ => rfl) ?_
    refine returns_next (by simp)
      (fun _ => congrArg (Option.map _) (Queue.deref_some hhead hnode)) ?_
    refine returns_next (by simp) (fun _ => by
      rw [ConcurrentQueuePlace.run, Queue.free_some hhead]
      · rfl
      · exact hnode) ?_
    exact returns_done (by simp) (fun _ => rfl) h
  · rw [if_neg hmore] at hpop
    simp only [Option.pure_def, Option.some.injEq, Prod.mk.injEq] at hpop
    obtain ⟨rfl, rfl⟩ := hpop
    exact returns_done (by simp) (fun _ => if_neg hmore) h

/-! ### The operations -/

/-- The nodes are the queue's own, and hold this list. -/
def Queue.Represents (queue : Queue α) (list : List α) : Prop :=
  queue.Owns ∧ queue.content = list

/-- There is memory for one more node. -/
theorem Queue.Owns.fresh (h : queue.Owns) : ∃ addr, queue.nodes addr = none := by
  obtain ⟨addr, haddr⟩ := Infinite.exists_notMem_finset (queue.entries.map Prod.fst).toFinset
  refine ⟨addr, ?_⟩
  by_contra hlive
  exact haddr (List.mem_toFinset.mpr (h.live addr hlive))

theorem Queue.Represents.push {list : List α} (h : queue.Represents list) (data : α) :
    xvConcurrentQueue.Returns (fun q p w => p.Fits q w)
      (Agrees ConcurrentQueueOp.onList Queue.Represents (.push data) list) queue
      (.pushNode data) := by
  obtain ⟨howns, rfl⟩ := h
  obtain ⟨addr, haddr⟩ := howns.fresh
  refine .step ⟨⟨addr, none⟩, haddr⟩ (fun block _ => Option.some_ne_none _) ?_ ?_
  · intro block queue' place' hfree hrun
    simp only [xvConcurrentQueue, ConcurrentQueuePlace.run, Option.some.injEq, Prod.mk.injEq,
      Sum.inl.injEq] at hrun
    obtain ⟨rfl, rfl⟩ := hrun
    obtain ⟨queue', hpush, howns', hentries⟩ := howns.push block.next data hfree
    refine pushTest_returns hpush ⟨⟨howns', ?_⟩, rfl⟩
    simp [Queue.content, hentries, ConcurrentQueueOp.onList]
  · intro block queue' result _ hrun
    simp [xvConcurrentQueue, ConcurrentQueuePlace.run] at hrun

theorem Queue.Represents.pop {list : List α} (h : queue.Represents list) :
    xvConcurrentQueue.Returns (fun q p w => p.Fits q w)
      (Agrees ConcurrentQueueOp.onList Queue.Represents .pop list) queue .popTestOne := by
  obtain ⟨howns, rfl⟩ := h
  cases hentries : queue.entries with
  | nil =>
      refine popTestOne_returns (howns.pop_nil hentries) ⟨⟨howns, ?_⟩, ?_⟩
      · simp [Queue.content, hentries, ConcurrentQueueOp.onList]
      · simp [Queue.content, hentries, ConcurrentQueueOp.onList]
  | cons entry rest =>
      obtain ⟨queue', hpop, howns', hrest, -⟩ := howns.pop_cons hentries
      refine popTestOne_returns hpop ⟨⟨howns', ?_⟩, ?_⟩
      · simp [Queue.content, hentries, hrest, ConcurrentQueueOp.onList]
      · simp [Queue.content, hentries, ConcurrentQueueOp.onList]

theorem Queue.Represents.size {list : List α} (h : queue.Represents list) :
    xvConcurrentQueue.Returns (fun q p w => p.Fits q w)
      (Agrees ConcurrentQueueOp.onList Queue.Represents .size list) queue .readSize := by
  obtain ⟨howns, rfl⟩ := h
  refine returns_done (by simp) (fun _ => rfl) ⟨⟨howns, rfl⟩, ?_⟩
  simp [Queue.content, ConcurrentQueueOp.onList, howns.holds.size]

/-- **Each operation, run alone, does to the nodes what it does to a list.** -/
theorem xvConcurrentQueue_meets : (xvConcurrentQueue (α := α)).Meets
    (fun queue place block => place.Fits queue block) ConcurrentQueueOp.onList
    Queue.Represents := by
  intro queue list op h
  cases op with
  | push data => exact h.push data
  | pop => exact h.pop
  | size => exact h.size

theorem xvQueueInit_represents : (xvQueueInit : Queue α).Represents [] :=
  ⟨xvQueueInit_owns, rfl⟩

/-! ### Any number of threads -/

variable {Thread : Type} [DecidableEq Thread]

/-- The system of the threads, and of what they see. -/
abbrev ConcurrentQueue.Runs
    (x : Traced (ConcurrentQueue Thread α) (Event Thread (ConcurrentQueueOp α)
      (ConcurrentQueueResult α))) : Prop :=
  Reach (traced (Sys.step xvConcurrentQueue) Sys.emits)
    (fun x => x.state.Fits fun queue place block => place.Fits queue block)
    (Traced.Start (Sys.Start xvQueueInit)) x

/-- **The concurrent queue is atomic and first in, first out.**  Whatever calls and returns the
threads see, they could have seen of a list on which each operation is one step between its call
and its return; two threads are never between lock and unlock; no statement follows a pointer
that is NULL or freed; while the mutex is free the nodes hold the list; and no call is stuck. -/
theorem concurrentQueue_atomic
    {x : Traced (ConcurrentQueue Thread α) (Event Thread (ConcurrentQueueOp α)
      (ConcurrentQueueResult α))} (h : ConcurrentQueue.Runs x) :
    (∃ y, Reachable (traced (Atomic.step ConcurrentQueueOp.onList) Atomic.emits)
        (Traced.Start (Atomic.Start [])) y ∧ y.trace = x.trace ∧
        (x.state.owner = none → x.state.obj.Represents y.state.obj)) ∧
      (∀ t u, (x.state.phase t).holds = true → (x.state.phase u).holds = true → t = u) ∧
      (∀ t op place block, x.state.phase t = .inside op place →
        place.Fits x.state.obj block → place.run x.state.obj block ≠ none) ∧
      ∀ t, ∃ s', Reach (Sys.step xvConcurrentQueue)
        (Sys.Fits fun queue place block => place.Fits queue block) (· = x.state) s' ∧
        s'.phase t = .idle := by
  obtain ⟨y, hreach, htrace, hrel⟩ := atomic xvConcurrentQueue_meets xvQueueInit_represents h
  refine ⟨⟨y, hreach, htrace, hrel.free_of_owner⟩, fun t u => hrel.exclusive, ?_, fun t => ?_⟩
  · intro t op place block hinside hfits
    cases hrel.inside t op place hinside with
    | step _ hrun _ _ => exact hrun block hfits
  · exact hrel.returns xvConcurrentQueue_meets t

/-- One thread pushes while another, which has called first, waits to pop. -/
theorem concurrentQueue_atomic_two : ∃ x : Traced (ConcurrentQueue Nat Nat)
    (Event Nat (ConcurrentQueueOp Nat) (ConcurrentQueueResult Nat)), ConcurrentQueue.Runs x ∧
      x.trace = [.call 1 .pop, .call 0 (.push 7), .back 0 (.push 7) .pushed,
        .back 1 .pop (.popped (some 7))] ∧
      ∃ y, Reachable (traced (Atomic.step ConcurrentQueueOp.onList) Atomic.emits)
        (Traced.Start (Atomic.Start [])) y ∧ y.trace = x.trace ∧
        (x.state.owner = none → x.state.obj.Represents y.state.obj) := by
  let block : MallocBlock := ⟨64, some 1⟩
  let moves : List (Label Nat (ConcurrentQueueOp Nat) MallocBlock) :=
    [.call 1 .pop, .call 0 (.push 7), .lock 0, .run 0 block, .run 0 block, .run 0 block,
      .run 0 block, .run 0 block, .unlock 0, .lock 1, .run 1 block, .back 0, .run 1 block,
      .run 1 block, .run 1 block, .run 1 block, .run 1 block, .unlock 1, .back 1]
  let start : Traced (ConcurrentQueue Nat Nat) (Event Nat (ConcurrentQueueOp Nat)
      (ConcurrentQueueResult Nat)) :=
    .new { obj := xvQueueInit, owner := none, phase := fun _ => .idle }
  have hstart : ConcurrentQueue.Runs start := .start (Traced.new_start rfl)
  have hplay : (Transition.play (traced (Sys.step xvConcurrentQueue) Sys.emits) start moves).map
      Traced.trace = some [.call 1 .pop, .call 0 (.push 7), .back 0 (.push 7) .pushed,
        .back 1 .pop (.popped (some 7))] := by
    decide +kernel
  obtain ⟨x, hx, htrace⟩ := Option.map_eq_some_iff.mp hplay
  have hrun := hstart.play moves
    ⟨trivial, trivial, trivial, rfl, trivial, trivial, trivial, trivial, trivial, trivial,
      trivial, trivial, trivial, trivial, trivial, trivial, trivial, trivial, trivial, trivial⟩ hx
  exact ⟨x, hrun, htrace, (concurrentQueue_atomic hrun).1⟩

end Libxv
