/-
A linked queue over whole runs.

The nodes that are live are always those from the head on, as many as the count says
(`Queue.Owns`), so that a push or a pop does to the content what it does to a list.  The last
node's `next` is never written: `xv_queue_pop` does not read it, and `xv_queue_destroy` does.
-/
import Libxv.QueueUse
import Libxv.Proofs.Queue
import Libxv.Lib.Fifo

namespace Libxv

open Function Transition

variable {α : Type} {queue queue' : Queue α} {entries : List (Nat × α)}

/-! ### The content -/

/-- From the first of a chain of nodes on are the nodes of the chain. -/
theorem Queue.walk_eq (hstores : ∀ entry ∈ entries, queue.Stores entry)
    (hlinks : entries.IsChain queue.Links) :
    queue.walk entries.length (entries.head?.map Prod.fst) = entries := by
  induction entries with
  | nil => rfl
  | cons entry rest ih =>
      obtain ⟨node, hnode, hdata⟩ := hstores entry List.mem_cons_self
      have hrest := ih (fun e he => hstores e (List.mem_cons_of_mem _ he)) hlinks.of_cons
      have hnext : queue.walk rest.length node.next = rest := by
        cases rest with
        | nil => rfl
        | cons second rest =>
            have hlink := (List.isChain_cons_cons.mp hlinks).1
            simp only [Queue.Links, hnode, Option.bind_some, Node.link] at hlink
            split at hlink
            · exact hlink ▸ hrest
            · cases hlink
      simp only [List.length_cons, List.head?_cons, Option.map_some, Queue.walk, hnode, hnext,
        hdata]

theorem Queue.Holds.entries_eq (h : queue.Holds entries) : queue.entries = entries := by
  unfold Queue.entries
  rw [h.size, h.head]
  exact Queue.walk_eq h.stores h.links

/-- The live nodes are those queued, each once. -/
structure Queue.Owns (queue : Queue α) : Prop where
  holds : queue.Holds queue.entries
  live : ∀ addr, queue.nodes addr ≠ none → addr ∈ queue.entries.map Prod.fst

theorem Queue.Holds.owns (h : queue.Holds entries)
    (hlive : ∀ addr, queue.nodes addr ≠ none → addr ∈ entries.map Prod.fst) : queue.Owns :=
  ⟨h.entries_eq.symm ▸ h, h.entries_eq.symm ▸ hlive⟩

theorem xvQueueInit_owns : (xvQueueInit : Queue α).Owns :=
  xvQueueInit_holds.owns fun _ hlive => (hlive rfl).elim

theorem Queue.Owns.live_iff (h : queue.Owns) (addr : Nat) :
    queue.nodes addr ≠ none ↔ addr ∈ queue.entries.map Prod.fst := by
  refine ⟨h.live addr, fun hmem => ?_⟩
  obtain ⟨entry, hentry, rfl⟩ := List.mem_map.mp hmem
  obtain ⟨node, hnode, -⟩ := h.holds.stores entry hentry
  exact fun hnone => absurd (hnone.symm.trans hnode) (by simp)

/-! ### The calls -/

/-- The only block a push may make live is the one `malloc` returned. -/
theorem xvQueuePush_live {addr : Nat} {next : Option Nat} {data : α}
    (hpush : xvQueuePush queue addr next data = some queue') {a : Nat}
    (hlive : queue'.nodes a ≠ none) : a = addr ∨ queue.nodes a ≠ none := by
  by_cases ha : a = addr
  · exact .inl ha
  · refine .inr fun hnone => hlive ?_
    unfold xvQueuePush at hpush
    split at hpush
    · simp only [Option.map_eq_some_iff] at hpush
      obtain ⟨node, hnode, rfl⟩ := hpush
      dsimp only
      by_cases htail : a = ‹Nat›
      · subst htail
        rw [update_of_ne ha] at hnode
        exact absurd (hnone.symm.trans hnode) (by simp)
      · rw [update_of_ne htail, update_of_ne ha, hnone]
    · obtain rfl := Option.some.inj hpush
      exact (update_of_ne ha ..).trans hnone

/-- **A push succeeds and appends.** -/
theorem Queue.Owns.push (h : queue.Owns) {addr : Nat} (next : Option Nat) (data : α)
    (hfree : queue.nodes addr = none) :
    ∃ queue', xvQueuePush queue addr next data = some queue' ∧ queue'.Owns ∧
      queue'.entries = queue.entries ++ [(addr, data)] := by
  obtain ⟨queue', hpush, hholds⟩ := h.holds.push next data hfree
  refine ⟨queue', hpush, hholds.owns fun a ha => ?_, hholds.entries_eq⟩
  rw [List.map_append, List.mem_append]
  rcases xvQueuePush_live hpush ha with rfl | hlive
  · exact .inr (List.mem_singleton_self _)
  · exact .inl (h.live a hlive)

theorem Queue.Owns.pop_nil (h : queue.Owns) (hnil : queue.entries = []) :
    xvQueuePop queue = some (none, queue) :=
  Queue.Holds.pop_nil (hnil ▸ h.holds)

/-- **A pop succeeds, takes the oldest and frees its node.** -/
theorem Queue.Owns.pop_cons (h : queue.Owns) {addr : Nat} {data : α}
    (hcons : queue.entries = (addr, data) :: entries) :
    ∃ queue', xvQueuePop queue = some (some data, queue') ∧ queue'.Owns ∧
      queue'.entries = entries ∧ queue'.nodes = update queue.nodes addr none := by
  have hholds : queue.Holds ((addr, data) :: entries) := hcons ▸ h.holds
  obtain ⟨queue', hpop, hholds', hnodes⟩ := hholds.pop_cons
  refine ⟨queue', hpop, hholds'.owns fun a ha => ?_, hholds'.entries_eq, hnodes⟩
  have hne : a ≠ addr := by
    rintro rfl
    rw [hnodes, update_self] at ha
    exact ha rfl
  rw [hnodes, update_of_ne hne] at ha
  have hmem := h.live a ha
  rw [hcons, List.map_cons, List.mem_cons] at hmem
  exact hmem.resolve_left hne

/-- **No call reads a field that was never written.** -/
theorem Queue.Owns.reads_written (h : queue.Owns) (op : QueueOp α) {addr : Option Nat}
    {field : NodeField} (hread : (addr, field) ∈ queue.reads op) : queue.Written addr field := by
  cases op with
  | push addr next data => exact absurd hread List.not_mem_nil
  | pop =>
      have hsize := h.holds.size
      cases hentries : queue.entries with
      | nil =>
          rw [hentries] at hsize
          simp [Queue.reads, hsize] at hread
      | cons entry rest =>
          have hholds : queue.Holds ((entry.1, entry.2) :: rest) := hentries ▸ h.holds
          obtain ⟨node, hnode, -, hlink⟩ := hholds.front
          have hhead : queue.head = some entry.1 := hholds.head
          rw [hentries] at hsize
          cases rest with
          | nil =>
              simp [Queue.reads, hsize] at hread
              obtain ⟨rfl, rfl⟩ := hread
              exact ⟨node, by rw [hhead]; exact hnode⟩
          | cons second rest =>
              simp [Queue.reads, hsize] at hread
              rcases hread with ⟨rfl, rfl⟩ | ⟨rfl, rfl⟩
              · exact ⟨node, by rw [hhead]; exact hnode⟩
              · exact ⟨node, by rw [hhead]; exact hnode, (hlink (List.cons_ne_nil _ _)).1⟩

/-! ### What `malloc` left -/

section Garbage

variable (garbage : Nat → Option Nat)

theorem Node.data_withGarbage (node : Node α) (next : Option Nat) :
    (node.withGarbage next).data = node.data := by
  unfold withGarbage
  split <;> rfl

theorem nodesWithGarbage_update (nodes : Nat → Option (Node α)) (addr : Nat)
    (node : Option (Node α)) :
    nodesWithGarbage (update nodes addr node) garbage =
      update (nodesWithGarbage nodes garbage) addr (node.map (·.withGarbage (garbage addr))) := by
  funext a
  unfold nodesWithGarbage
  by_cases ha : a = addr
  · rw [ha, update_self, update_self]
  · rw [update_of_ne ha, update_of_ne ha]

/-- **A push goes the same way**, whatever the blocks hold. -/
theorem xvQueuePush_withGarbage (queue : Queue α) (addr : Nat) (next : Option Nat) (data : α) :
    xvQueuePush (queue.withGarbage garbage) addr (garbage addr) data =
      (xvQueuePush queue addr next data).map (·.withGarbage garbage) := by
  have hnew := nodesWithGarbage_update garbage queue.nodes addr
    (some { data := data, next := next, linked := false })
  unfold xvQueuePush Queue.withGarbage
  dsimp only [Option.map_some, Node.withGarbage] at hnew ⊢
  rw [if_neg Bool.false_ne_true] at hnew
  rw [← hnew]
  generalize update queue.nodes addr (some { data := data, next := next, linked := false }) = nodes
  cases queue.tail with
  | none => rfl
  | some tail =>
      have hlook : nodesWithGarbage nodes garbage tail =
          (nodes tail).map (·.withGarbage (garbage tail)) := rfl
      dsimp only
      rw [hlook, Option.map_map, Option.map_map]
      congr 1
      funext node
      -- The push writes what the block held.
      have hlast := nodesWithGarbage_update garbage nodes tail
        (some { data := node.data, next := some addr, linked := true })
      rw [Option.map_some, Node.withGarbage, if_pos rfl] at hlast
      dsimp only [Function.comp_apply]
      rw [hlast, Node.data_withGarbage]

/-- **So does a pop.** -/
theorem Queue.Owns.pop_withGarbage (h : queue.Owns) :
    xvQueuePop (queue.withGarbage garbage) =
      (xvQueuePop queue).map fun r => (r.1, r.2.withGarbage garbage) := by
  have hsize := h.holds.size
  cases hentries : queue.entries with
  | nil =>
      rw [hentries] at hsize
      simp [xvQueuePop, Queue.withGarbage, hsize]
  | cons entry rest =>
      have hholds : queue.Holds ((entry.1, entry.2) :: rest) := hentries ▸ h.holds
      obtain ⟨node, hnode, -, hlink⟩ := hholds.front
      have hhead : queue.head = some entry.1 := hholds.head
      have hfreed := nodesWithGarbage_update garbage queue.nodes entry.1 none
      have hlook : nodesWithGarbage queue.nodes garbage entry.1 =
          some (node.withGarbage (garbage entry.1)) := by
        unfold nodesWithGarbage
        rw [hnode, Option.map_some]
      rw [hentries] at hsize
      cases rest with
      | nil =>
          simp [xvQueuePop, Queue.withGarbage, hsize, hhead, hnode, hlook, hfreed,
            Node.data_withGarbage]
      | cons second rest =>
          have hlinked : node.withGarbage (garbage entry.1) = node :=
            if_pos (hlink (List.cons_ne_nil _ _)).1
          rw [hlinked] at hlook
          simp [xvQueuePop, Queue.withGarbage, hsize, hhead, hnode, hlook, hfreed]

end Garbage

/-- No call depends on what `malloc` left in the blocks. -/
structure Queue.IgnoresGarbage (queue : Queue α) : Prop where
  push : ∀ garbage addr next data,
    xvQueuePush (queue.withGarbage garbage) addr (garbage addr) data =
      (xvQueuePush queue addr next data).map (·.withGarbage garbage)
  pop : ∀ garbage, xvQueuePop (queue.withGarbage garbage) =
    (xvQueuePop queue).map fun r => (r.1, r.2.withGarbage garbage)

theorem Queue.Owns.ignoresGarbage (h : queue.Owns) : queue.IgnoresGarbage where
  push := fun garbage => xvQueuePush_withGarbage garbage queue
  pop := h.pop_withGarbage

/-! ### A queue of its elements -/

/-- The operation of the queue that a call is, and what it returned. -/
def Queue.entry (queue : Queue α) : QueueOp α → Fifo.Entry α
  | .push _ _ data => ⟨.append [data], []⟩
  | .pop => ⟨.take 1, ((xvQueuePop queue).bind Prod.fst).toList⟩

theorem Queue.step_push {addr : Nat} {next : Option Nat} {data : α}
    (hstep : queue.step (.push addr next data) = some queue') :
    queue.nodes addr = none ∧ xvQueuePush queue addr next data = some queue' := by
  simp only [Queue.step, Option.ite_none_right_eq_some, Option.isNone_iff_eq_none] at hstep
  exact hstep

theorem Queue.step_pop (hstep : queue.step .pop = some queue') :
    ∃ data, xvQueuePop queue = some (data, queue') := by
  simp only [Queue.step, Option.map_eq_some_iff] at hstep
  obtain ⟨⟨data, _⟩, hpop, rfl⟩ := hstep
  exact ⟨data, hpop⟩

theorem Queue.Owns.pushed (h : queue.Owns) {addr : Nat} {next : Option Nat} {data : α}
    (hstep : queue.step (.push addr next data) = some queue') :
    queue'.Owns ∧ queue'.entries = queue.entries ++ [(addr, data)] := by
  obtain ⟨hfree, hpush⟩ := Queue.step_push hstep
  obtain ⟨queue₁, hpush₁, howns, hentries⟩ := h.push next data hfree
  obtain rfl : queue₁ = queue' := Option.some.inj (hpush₁.symm.trans hpush)
  exact ⟨howns, hentries⟩

theorem Queue.Owns.popped (h : queue.Owns) {data : Option α}
    (hpop : xvQueuePop queue = some (data, queue')) :
    queue'.Owns ∧ data = queue.entries.head?.map Prod.snd ∧
      queue'.entries = queue.entries.tail := by
  cases hentries : queue.entries with
  | nil =>
      obtain ⟨rfl, rfl⟩ : none = data ∧ queue = queue' := by
        simpa using (h.pop_nil hentries).symm.trans hpop
      exact ⟨h, rfl, hentries⟩
  | cons entry rest =>
      obtain ⟨queue₁, hpop₁, howns, hrest, -⟩ := h.pop_cons hentries
      obtain ⟨rfl, rfl⟩ : some entry.2 = data ∧ queue₁ = queue' := by
        simpa using hpop₁.symm.trans hpop
      exact ⟨howns, rfl, hrest⟩

theorem Queue.Owns.step (h : queue.Owns) {op : QueueOp α} (hstep : queue.step op = some queue') :
    queue'.Owns := by
  cases op with
  | push addr next data => exact (h.pushed hstep).1
  | pop =>
      obtain ⟨data, hpop⟩ := Queue.step_pop hstep
      exact (h.popped hpop).1

/-- **One call goes the way of the queue.** -/
theorem Queue.Owns.step_queue (h : queue.Owns) {op : QueueOp α}
    (hstep : queue.step op = some queue') :
    ((queue.entry op).out, queue'.content) = (queue.entry op).op.run queue.content := by
  cases op with
  | push addr next data =>
      refine congrArg (Prod.mk []) ?_
      unfold Queue.content
      rw [(h.pushed hstep).2, List.map_append]
      rfl
  | pop =>
      obtain ⟨data, hpop⟩ := Queue.step_pop hstep
      obtain ⟨-, hdata, hentries⟩ := h.popped hpop
      have hout : (queue.entry .pop).out = queue.content.take 1 := by
        show ((xvQueuePop queue).bind Prod.fst).toList = _
        rw [hpop, Option.bind_some, hdata, List.take_one, Queue.content, List.head?_map]
      have hleft : queue'.content = queue.content.drop 1 := by
        unfold Queue.content
        rw [hentries, List.drop_one, List.map_tail]
      exact congrArg₂ Prod.mk hout hleft

theorem Queue.owns_of_reachable (h : Reachable Queue.step (· = xvQueueInit) queue) : queue.Owns :=
  h.invariant (I := Queue.Owns) (fun _ hstart => hstart ▸ xvQueueInit_owns)
    fun _ _ _ howns _ hstep => howns.step hstep

theorem Queue.entry_conserves (queue : Queue α) (op : QueueOp α) :
    (queue.entry op).op.Conserves := by
  cases op <;> trivial

/--
**The linked queue is first in, first out**, whatever blocks `malloc` returns: the content is
what was pushed and has not been popped, in order, and the size is its number; a pop takes the
oldest and frees its node and no other, and does nothing to an empty queue.  The nodes that are
live are those of the content, a push onto a free block is always possible, and no call reads a
field that was not written, nor depends on what `malloc` left there.
-/
theorem queue_is_fifo {x : Traced (Queue α) (Fifo.Entry α)}
    (h : Reachable (traced Queue.step fun queue op => some (queue.entry op))
      (Traced.Start (· = xvQueueInit)) x) :
    Fifo.Run x.trace x.state.content ∧
      Fifo.entered x.trace = Fifo.returned x.trace ++ x.state.content ∧
      xvQueueSize x.state = x.state.content.length ∧
      (x.state.content = [] → xvQueuePop x.state = some (none, x.state)) ∧
      (∀ addr data rest, x.state.entries = (addr, data) :: rest →
        ∃ queue', xvQueuePop x.state = some (some data, queue') ∧ queue'.entries = rest ∧
          queue'.nodes = update x.state.nodes addr none) ∧
      (∀ addr, x.state.nodes addr ≠ none ↔ addr ∈ x.state.entries.map Prod.fst) ∧
      (∀ addr next data, x.state.nodes addr = none →
        (xvQueuePush x.state addr next data).isSome) ∧
      (∀ op addr field, (addr, field) ∈ x.state.reads op → x.state.Written addr field) ∧
      x.state.IgnoresGarbage := by
  have howns := Queue.owns_of_reachable h.untraced
  have hrun : Fifo.Run x.trace x.state.content :=
    Fifo.refines (fun _ hstart => hstart ▸ rfl)
      (fun s op s' hreach hstep => (Queue.owns_of_reachable hreach).step_queue hstep) h
  have hconserves : ∀ e ∈ x.trace, e.op.Conserves := by
    refine h.trace_forall fun queue op e he => ?_
    exact Option.some.inj he ▸ queue.entry_conserves op
  refine ⟨hrun, hrun.conserved hconserves, ?_, fun hnil => ?_, ?_, howns.live_iff, ?_, ?_,
    howns.ignoresGarbage⟩
  · exact howns.holds.size.trans (List.length_map ..).symm
  · exact howns.pop_nil (List.map_eq_nil_iff.mp hnil)
  · intro addr data rest hcons
    obtain ⟨queue', hpop, -, hentries, hnodes⟩ := howns.pop_cons hcons
    exact ⟨queue', hpop, hentries, hnodes⟩
  · intro addr next data hfree
    obtain ⟨queue', hpush, -⟩ := howns.push next data hfree
    exact hpush ▸ rfl
  · exact fun op addr field hread => howns.reads_written op hread

/-- Where a block is handed out again, with the address of another node in it. -/
theorem queue_is_fifo_reused :
    ∃ x : Traced (Queue Char) (Fifo.Entry Char),
      play (traced Queue.step fun queue op => some (queue.entry op))
        { state := xvQueueInit, trace := [] }
        [.push 8 (some 3) 'a', .push 3 none 'b', .pop, .push 8 (some 3) 'c'] = some x ∧
      Fifo.Run x.trace ['b', 'c'] ∧ Fifo.entered x.trace = Fifo.returned x.trace ++ ['b', 'c'] := by
  obtain ⟨x, hplay, hcontent⟩ :
      ∃ x : Traced (Queue Char) (Fifo.Entry Char),
        play (traced Queue.step fun queue op => some (queue.entry op))
          { state := xvQueueInit, trace := [] }
          [.push 8 (some 3) 'a', .push 3 none 'b', .pop, .push 8 (some 3) 'c'] = some x ∧
        x.state.content = ['b', 'c'] := ⟨_, rfl, rfl⟩
  obtain ⟨hrun, hconserved, -⟩ := queue_is_fifo (Reachable.play _ (.start ⟨rfl, rfl⟩) hplay)
  exact ⟨x, hplay, hcontent ▸ hrun, hcontent ▸ hconserved⟩

end Libxv
