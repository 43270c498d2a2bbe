/-
What `xv_queue_destroy` does to a queue that is not empty.

The loop goes from node to node until it reads a NULL `next`.  The nodes before the last are
linked; the last node's `next` is as `malloc` left it, and the loop ends there if that is NULL
and runs on otherwise, to a block that is no node of the queue or has just been freed.
-/
import Libxv.Proofs.QueueUse

namespace Libxv

open Function Transition

variable {α : Type} {queue queue' : Queue α} {entries : List (Nat × α)}

/-- Every element was called back with once, in order, and every node was freed once. -/
structure Queue.Destroyed (queue : Queue α) (destroy : Bool) (done : QueueDestroyed α) : Prop where
  called : done.called = if destroy then queue.content else []
  freed : done.freed = queue.entries.map Prod.fst
  once : done.freed.Nodup
  nodes : ∀ addr, done.nodes addr = none

/-- The node pushed last, if there is one, holds NULL in its `next`. -/
def Queue.EndsNull (queue : Queue α) : Prop :=
  ∀ addr node, queue.tail = some addr → queue.nodes addr = some node → node.next = none

/-! ### One round of the loop -/

/-- The queue without its oldest node. -/
def Queue.tailOf (queue : Queue α) (addr : Nat) (rest : List (Nat × α)) : Queue α :=
  { nodes := update queue.nodes addr none
    head := rest.head?.map Prod.fst
    tail := rest.getLast?.map Prod.fst
    size := rest.length }

theorem xvQueueDestroyLoop_some (destroy : Bool) {nodes : Nat → Option (Node α)} {addr : Nat}
    {node : Node α} (hnode : nodes addr = some node) (fuel : Nat) :
    xvQueueDestroyLoop destroy (fuel + 1) nodes (some addr) =
      (xvQueueDestroyLoop destroy fuel (update nodes addr none) node.next).map fun rest =>
        { nodes := rest.nodes
          called := if destroy then node.data :: rest.called else rest.called
          freed := addr :: rest.freed } := by
  simp only [xvQueueDestroyLoop, hnode, Option.bind_eq_bind, Option.bind_some, Option.pure_def]
  cases xvQueueDestroyLoop destroy fuel (update nodes addr none) node.next <;> rfl

/-- A pointer to no node ends it. -/
theorem xvQueueDestroyLoop_dead (destroy : Bool) {nodes : Nat → Option (Node α)} {addr : Nat}
    (hdead : nodes addr = none) (fuel : Nat) :
    xvQueueDestroyLoop destroy fuel nodes (some addr) = none := by
  cases fuel with
  | zero => rfl
  | succ fuel =>
      simp only [xvQueueDestroyLoop, hdead]
      rfl

theorem Queue.tailOf_live {addr a : Nat} (hlive : (queue.tailOf addr entries).nodes a ≠ none) :
    a ≠ addr ∧ queue.nodes a ≠ none := by
  have hne : a ≠ addr := fun heq => hlive (heq ▸ update_self ..)
  exact ⟨hne, fun hnone => hlive ((update_of_ne hne ..).trans hnone)⟩

theorem Queue.Holds.tailOf {addr : Nat} {data : α} (h : queue.Holds ((addr, data) :: entries)) :
    (queue.tailOf addr entries).Holds entries :=
  h.rest rfl rfl rfl rfl

/-- The last node stays the last, as it is. -/
theorem Queue.Holds.tailOf_endsNull {addr : Nat} {data : α}
    (h : queue.Holds ((addr, data) :: entries)) (hne : entries ≠ []) :
    (queue.tailOf addr entries).EndsNull ↔ queue.EndsNull := by
  obtain ⟨last, hlast⟩ := Option.ne_none_iff_exists'.mp (mt List.getLast?_eq_none_iff.mp hne)
  have htail : queue.tail = some last.1 := by
    rw [h.tail, List.getLast?_cons, hlast]
    rfl
  have htail' : (queue.tailOf addr entries).tail = some last.1 := by
    show entries.getLast?.map Prod.fst = _
    rw [hlast]
    rfl
  have hother : last.1 ≠ addr := by
    have hnodup := h.distinct
    rw [List.map_cons, List.nodup_cons] at hnodup
    have hmem : last.1 ∈ entries.map Prod.fst :=
      List.mem_map_of_mem (List.mem_of_getLast? hlast)
    exact fun heq => hnodup.1 (heq ▸ hmem)
  have hsame : (queue.tailOf addr entries).nodes last.1 = queue.nodes last.1 :=
    update_of_ne hother ..
  unfold Queue.EndsNull
  simp only [htail, htail', Option.some.injEq]
  exact ⟨fun hnull a node ha hnode => hnull a node ha (ha ▸ hsame.trans (ha.symm ▸ hnode)),
    fun hnull a node ha hnode => hnull a node ha (ha ▸ hsame.symm.trans (ha.symm ▸ hnode))⟩

/-- Where the loop goes after a node: to the next one, or to what the last one holds. -/
theorem Queue.Holds.front_next {addr : Nat} {data : α}
    (h : queue.Holds ((addr, data) :: entries)) (hnull : queue.EndsNull) :
    ∃ node, queue.nodes addr = some node ∧ node.data = data ∧
      node.next = (queue.tailOf addr entries).head := by
  obtain ⟨node, hnode, hdata, hlink⟩ := h.front
  refine ⟨node, hnode, hdata, ?_⟩
  cases entries with
  | nil => exact hnull addr node h.tail hnode
  | cons second rest => exact (hlink (List.cons_ne_nil _ _)).2

/-! ### The loop -/

/-- **It ends where the last node holds NULL**, having gone over the nodes. -/
theorem Queue.Holds.destroyed (destroy : Bool) :
    ∀ {entries : List (Nat × α)} {queue : Queue α}, queue.Holds entries → queue.EndsNull →
      ∃ done, xvQueueDestroyLoop destroy (entries.length + 1) queue.nodes queue.head = some done ∧
        done.called = (if destroy then entries.map Prod.snd else []) ∧
        done.freed = entries.map Prod.fst ∧
        ∀ addr, done.nodes addr ≠ none →
          queue.nodes addr ≠ none ∧ addr ∉ entries.map Prod.fst := by
  intro entries
  induction entries with
  | nil =>
      intro queue h _
      have hhead : queue.head = none := h.head
      refine ⟨_, by rw [hhead]; rfl, by simp, rfl, fun addr hlive => ⟨hlive, List.not_mem_nil⟩⟩
  | cons entry rest ih =>
      intro queue h hnull
      obtain ⟨addr, data⟩ := entry
      have hhead : queue.head = some addr := h.head
      obtain ⟨node, hnode, hdata, hnext⟩ := h.front_next hnull
      have hnull' : (queue.tailOf addr rest).EndsNull := by
        cases rest with
        | nil => exact fun a node htail _ => absurd htail nofun
        | cons second rest => exact (h.tailOf_endsNull (List.cons_ne_nil _ _)).mpr hnull
      obtain ⟨done, hdone, hcalled, hfreed, hnodes⟩ := ih h.tailOf hnull'
      rw [← hnext] at hdone
      dsimp only [Queue.tailOf] at hdone
      have hloop := xvQueueDestroyLoop_some destroy hnode (rest.length + 1)
      rw [hdone, Option.map_some, ← hhead] at hloop
      refine ⟨_, hloop, ?_, ?_, fun a hlive => ?_⟩
      · dsimp only
        rw [hcalled, hdata]
        cases destroy <;> rfl
      · exact congrArg (addr :: ·) hfreed
      · obtain ⟨hbefore, hout⟩ := hnodes a hlive
        obtain ⟨hne, hbefore⟩ := Queue.tailOf_live hbefore
        exact ⟨hbefore, by simp [hne, hout]⟩

/-- **It does not end where the last node holds anything else**, as that is no node then. -/
theorem Queue.Holds.not_destroyed (destroy : Bool) :
    ∀ {entries : List (Nat × α)} {queue : Queue α}, queue.Holds entries →
      (∀ addr, queue.nodes addr ≠ none → addr ∈ entries.map Prod.fst) → ¬ queue.EndsNull →
      ∀ fuel, xvQueueDestroyLoop destroy fuel queue.nodes queue.head = none := by
  intro entries
  induction entries with
  | nil =>
      intro queue h _ hnull
      have htail : queue.tail = none := h.tail
      exact (hnull fun a node ha _ => absurd (htail.symm.trans ha) (by simp)).elim
  | cons entry rest ih =>
      intro queue h hlive hnull fuel
      obtain ⟨addr, data⟩ := entry
      have hhead : queue.head = some addr := h.head
      obtain ⟨node, hnode, hdata, hlink⟩ := h.front
      have hlive' : ∀ a, (queue.tailOf addr rest).nodes a ≠ none → a ∈ rest.map Prod.fst := by
        intro a ha
        obtain ⟨hne, hbefore⟩ := Queue.tailOf_live ha
        have hmem := hlive a hbefore
        rw [List.map_cons, List.mem_cons] at hmem
        exact hmem.resolve_left hne
      cases fuel with
      | zero => rfl
      | succ fuel =>
          rw [hhead, xvQueueDestroyLoop_some destroy hnode, Option.map_eq_none_iff]
          cases rest with
          | nil =>
              obtain ⟨wild, hwild⟩ : ∃ wild, node.next = some wild := by
                refine Option.ne_none_iff_exists'.mp fun hnext => hnull ?_
                intro a other htail hother
                obtain rfl : addr = a := Option.some.inj (h.tail.symm.trans htail)
                exact Option.some.inj (hnode.symm.trans hother) ▸ hnext
              rw [hwild]
              refine xvQueueDestroyLoop_dead destroy ?_ fuel
              exact Decidable.not_not.mp fun hne => List.not_mem_nil (hlive' wild hne)
          | cons second rest =>
              rw [(hlink (List.cons_ne_nil _ _)).2]
              refine ih h.tailOf hlive' ?_ fuel
              exact mt (h.tailOf_endsNull (List.cons_ne_nil _ _)).mp hnull

/-- However many tests it is given, it does the same. -/
theorem xvQueueDestroyLoop_unique (destroy : Bool) {done done' : QueueDestroyed α} {fuel : Nat} :
    ∀ {fuel' : Nat} {nodes : Nat → Option (Node α)} {addr : Option Nat},
      xvQueueDestroyLoop destroy fuel nodes addr = some done →
      xvQueueDestroyLoop destroy fuel' nodes addr = some done' → done = done' := by
  induction fuel generalizing done done' with
  | zero => intro fuel' nodes addr h; cases h
  | succ fuel ih =>
      intro fuel' nodes addr h h'
      cases fuel' with
      | zero => cases h'
      | succ fuel' =>
          cases addr with
          | none => exact Option.some.inj (h.symm.trans h')
          | some addr =>
              cases hnode : nodes addr with
              | none =>
                  rw [xvQueueDestroyLoop_dead destroy hnode] at h
                  cases h
              | some node =>
                  rw [xvQueueDestroyLoop_some destroy hnode, Option.map_eq_some_iff] at h h'
                  obtain ⟨rest, hrest, rfl⟩ := h
                  obtain ⟨rest', hrest', rfl⟩ := h'
                  rw [ih hrest hrest']

theorem Queue.Owns.destroyed_iff (h : queue.Owns) (destroy : Bool) :
    (∃ fuel done, xvQueueDestroy queue destroy fuel = some done ∧ queue.Destroyed destroy done) ↔
      queue.EndsNull := by
  constructor
  · rintro ⟨fuel, done, hdone, -⟩
    by_contra hnull
    have hstuck := h.holds.not_destroyed destroy h.live hnull fuel
    exact absurd (hstuck.symm.trans hdone) (by simp)
  · intro hnull
    obtain ⟨done, hdone, hcalled, hfreed, hnodes⟩ := h.holds.destroyed destroy hnull
    refine ⟨_, done, hdone, hcalled, hfreed, hfreed ▸ h.holds.distinct, fun addr => ?_⟩
    by_contra hlive
    obtain ⟨hbefore, hout⟩ := hnodes addr hlive
    exact hout (h.live addr hbefore)

/-- A call that comes to its end has done its work. -/
theorem Queue.Owns.destroyed (h : queue.Owns) {destroy : Bool} {fuel : Nat}
    {done : QueueDestroyed α} (hdone : xvQueueDestroy queue destroy fuel = some done) :
    queue.EndsNull ∧ queue.Destroyed destroy done := by
  have hnull : queue.EndsNull := by
    by_contra hnull
    have hstuck := h.holds.not_destroyed destroy h.live hnull fuel
    exact absurd (hstuck.symm.trans hdone) (by simp)
  obtain ⟨fuel', done', hdone', hdestroyed⟩ := (h.destroyed_iff destroy).mpr hnull
  rw [xvQueueDestroyLoop_unique destroy hdone hdone']
  exact ⟨hnull, hdestroyed⟩

/-! ### What `malloc` left -/

/-- The node pushed last has not been linked. -/
def Queue.EndsUnlinked (queue : Queue α) : Prop :=
  ∀ addr node, queue.tail = some addr → queue.nodes addr = some node → node.linked = false

/-- Nodes that have not been linked hold NULL. -/
def Queue.Zeroed (queue : Queue α) : Prop :=
  ∀ addr node, queue.nodes addr = some node → node.linked = false → node.next = none

/-- `malloc` returns a block that is zero where `next` is. -/
def QueueOp.Zeroed : QueueOp α → Prop
  | .push _ next _ => next = none
  | .pop => True

/-- A push leaves the block it was given at the end, and links the node before it. -/
theorem Queue.Owns.push_nodes (h : queue.Owns) {addr : Nat} {next : Option Nat} {data : α}
    (hstep : queue.step (.push addr next data) = some queue') :
    queue'.tail = some addr ∧
      queue'.nodes addr = some { data := data, next := next, linked := false } ∧
      ∀ a node, a ≠ addr → queue'.nodes a = some node →
        node.linked = true ∨ queue.nodes a = some node := by
  obtain ⟨hfree, hpush⟩ := Queue.step_push hstep
  unfold xvQueuePush at hpush
  split at hpush
  · rename_i tail htail
    have hlast := h.holds.tail
    rw [htail] at hlast
    obtain ⟨entry, hentry, rfl⟩ := Option.map_eq_some_iff.mp hlast.symm
    have hne : entry.1 ≠ addr := h.holds.fresh hfree (List.mem_of_getLast? hentry)
    simp only [Option.map_eq_some_iff] at hpush
    obtain ⟨node, -, rfl⟩ := hpush
    refine ⟨rfl, (update_of_ne hne.symm ..).trans (update_self ..), fun a other ha hother => ?_⟩
    dsimp only at hother
    by_cases hlast : a = entry.1
    · rw [hlast, update_self] at hother
      exact .inl (Option.some.inj hother ▸ rfl)
    · rw [update_of_ne hlast, update_of_ne ha] at hother
      exact .inr hother
  · obtain rfl := Option.some.inj hpush
    exact ⟨rfl, update_self .., fun a other ha hother =>
      .inr ((update_of_ne ha ..).symm.trans hother)⟩

/-- A pop writes no node, and does not change which is the last. -/
theorem xvQueuePop_nodes {data : Option α} (hpop : xvQueuePop queue = some (data, queue')) :
    (∀ a node, queue'.nodes a = some node → queue.nodes a = some node) ∧
      (queue'.tail = none ∨ queue'.tail = queue.tail) := by
  have hkept : ∀ (addr a : Nat) (node : Node α),
      update queue.nodes addr none a = some node → queue.nodes a = some node := by
    intro addr a node hnode
    have hne : a ≠ addr := by
      rintro rfl
      exact absurd ((update_self ..).symm.trans hnode) (by simp)
    exact (update_of_ne hne ..).symm.trans hnode
  unfold xvQueuePop at hpop
  split at hpop
  · simp only [Option.bind_eq_bind, Option.bind_eq_some_iff, Option.pure_def, Option.some.injEq,
      Prod.mk.injEq] at hpop
    obtain ⟨addr, -, node, -, -, rfl⟩ := hpop
    exact ⟨hkept addr, .inl rfl⟩
  · split at hpop
    · simp only [Option.bind_eq_bind, Option.bind_eq_some_iff, Option.pure_def,
        Option.some.injEq, Prod.mk.injEq] at hpop
      obtain ⟨addr, -, node, -, -, rfl⟩ := hpop
      exact ⟨hkept addr, .inr rfl⟩
    · simp only [Option.pure_def, Option.some.injEq, Prod.mk.injEq] at hpop
      obtain ⟨-, rfl⟩ := hpop
      exact ⟨fun _ _ hnode => hnode, .inr rfl⟩

theorem Queue.EndsUnlinked.step (h : queue.EndsUnlinked) (howns : queue.Owns) {op : QueueOp α}
    (hstep : queue.step op = some queue') : queue'.EndsUnlinked := by
  intro a node htail hnode
  cases op with
  | push addr next data =>
      obtain ⟨htail', hnew, -⟩ := howns.push_nodes hstep
      obtain rfl : addr = a := Option.some.inj (htail'.symm.trans htail)
      exact Option.some.inj (hnew.symm.trans hnode) ▸ rfl
  | pop =>
      obtain ⟨data, hpop⟩ := Queue.step_pop hstep
      obtain ⟨hnodes, hnone | hsame⟩ := xvQueuePop_nodes hpop
      · exact absurd (hnone.symm.trans htail) (by simp)
      · exact h a node (hsame.symm.trans htail) (hnodes a node hnode)

theorem Queue.Zeroed.step (h : queue.Zeroed) (howns : queue.Owns) {op : QueueOp α}
    (hop : op.Zeroed) (hstep : queue.step op = some queue') : queue'.Zeroed := by
  intro a node hnode hlinked
  cases op with
  | push addr next data =>
      obtain ⟨-, hnew, hothers⟩ := howns.push_nodes hstep
      by_cases ha : a = addr
      · subst ha
        exact Option.some.inj (hnew.symm.trans hnode) ▸ hop
      · rcases hothers a node ha hnode with htrue | hbefore
        · exact absurd (hlinked.symm.trans htrue) (by simp)
        · exact h a node hbefore hlinked
  | pop =>
      obtain ⟨data, hpop⟩ := Queue.step_pop hstep
      exact h a node ((xvQueuePop_nodes hpop).1 a node hnode) hlinked

theorem Queue.endsUnlinked_of_reachable (h : Reachable Queue.step (· = xvQueueInit) queue) :
    queue.EndsUnlinked := by
  refine h.invariant_along (I := Queue.EndsUnlinked) ?_ ?_
  · rintro queue rfl
    exact fun a node htail _ => absurd htail nofun
  · exact fun queue op queue' hreach hunlinked _ hstep =>
      hunlinked.step (Queue.owns_of_reachable hreach) hstep

/-- On zeroed blocks every queue ends with NULL. -/
theorem Queue.endsNull_of_zeroed
    (h : Reach Queue.step (fun _ op => op.Zeroed) (· = xvQueueInit) queue) : queue.EndsNull := by
  have hzeroed : queue.Zeroed := by
    refine h.invariant_along (I := Queue.Zeroed) ?_ ?_
    · rintro queue rfl
      exact fun a node hnode _ => absurd hnode nofun
    · exact fun queue op queue' hreach hzeroed hop hstep =>
        hzeroed.step (Queue.owns_of_reachable hreach.reachable) hop hstep
  exact fun a node htail hnode =>
    hzeroed a node hnode (Queue.endsUnlinked_of_reachable h.reachable a node htail hnode)

/--
**When `xv_queue_destroy` does its work**: of a queue that was reached by any pushes and pops,
it goes over the elements in order and frees each node once if and only if the last node, when
there is one, holds NULL in its `next`.  No push has written that, so it is what `malloc` left
there, and in a run in which `malloc` leaves NULL there it is always NULL.
-/
theorem queue_destroy_iff (h : Reachable Queue.step (· = xvQueueInit) queue) (destroy : Bool) :
    ((∃ fuel done,
        xvQueueDestroy queue destroy fuel = some done ∧ queue.Destroyed destroy done) ↔
      queue.EndsNull) ∧
    queue.EndsUnlinked ∧
    (Reach Queue.step (fun _ op => op.Zeroed) (· = xvQueueInit) queue →
      ∃ fuel done, xvQueueDestroy queue destroy fuel = some done ∧ queue.Destroyed destroy done) :=
  have howns := Queue.owns_of_reachable h
  ⟨howns.destroyed_iff destroy, Queue.endsUnlinked_of_reachable h, fun hzeroed =>
    (howns.destroyed_iff destroy).mpr (Queue.endsNull_of_zeroed hzeroed)⟩

/-- Two elements, on blocks that were zero. -/
theorem queue_destroy_iff_zeroed :
    ∃ queue : Queue Char,
      play Queue.step xvQueueInit [.push 8 none 'a', .push 3 none 'b'] = some queue ∧
      ∃ fuel done, xvQueueDestroy queue true fuel = some done ∧ queue.Destroyed true done := by
  obtain ⟨queue, hplay⟩ : ∃ queue : Queue Char,
      play Queue.step xvQueueInit [.push 8 none 'a', .push 3 none 'b'] = some queue := ⟨_, rfl⟩
  have hzeroed : Reach Queue.step (fun _ op => op.Zeroed) (· = xvQueueInit) queue :=
    Reach.play _ (.start rfl) (by exact ⟨rfl, rfl, trivial⟩) hplay
  exact ⟨queue, hplay, (queue_destroy_iff hzeroed.reachable true).2.2 hzeroed⟩

/-- One element, on a block whose second field is not zero. -/
theorem queue_destroy_wild :
    ∃ queue : Queue Char, Reachable Queue.step (· = xvQueueInit) queue ∧ queue.content = ['a'] ∧
      (∀ fuel, xvQueueDestroy queue true fuel = none) ∧
      ¬ ∃ fuel done,
        xvQueueDestroy queue true fuel = some done ∧ queue.Destroyed true done := by
  obtain ⟨queue, hplay, hcontent, hstuck⟩ :
      ∃ queue : Queue Char, play Queue.step xvQueueInit [.push 8 (some 3) 'a'] = some queue ∧
        queue.content = ['a'] ∧ ∀ fuel, xvQueueDestroy queue true fuel = none := by
    refine ⟨_, rfl, rfl, fun fuel => ?_⟩
    cases fuel with
    | zero => rfl
    | succ fuel => cases fuel <;> rfl
  refine ⟨queue, Reachable.play _ (.start rfl) hplay, hcontent, hstuck, ?_⟩
  rintro ⟨fuel, done, hdone, -⟩
  exact absurd ((hstuck fuel).symm.trans hdone) (by simp)

end Libxv
