/-
A linked queue holds a list.

`Queue.Holds` is the representation: the live nodes of the list are at distinct addresses,
each but the last is linked to the one after it, and the count is their number.  Nothing is
said of the last node's `next`, and the count is what keeps `xv_queue_pop` from reading it.
-/
import Libxv.Queue
import Mathlib.Data.List.Chain
import Mathlib.Data.List.Nodup

namespace Libxv

open Function

variable {α : Type} {queue : Queue α} {entries : List (Nat × α)}

/-- The next node, once a push has written it. -/
def Node.link (node : Node α) : Option Nat := if node.linked then node.next else none

/-- There is a node at the entry's address, and it holds the entry's data. -/
def Queue.Stores (queue : Queue α) (entry : Nat × α) : Prop :=
  ∃ node, queue.nodes entry.1 = some node ∧ node.data = entry.2

/-- The node of one entry is linked to the node of the other. -/
def Queue.Links (queue : Queue α) (entry entry' : Nat × α) : Prop :=
  (queue.nodes entry.1).bind Node.link = some entry'.1

/-- The queue's nodes are these, by address and data, oldest first. -/
structure Queue.Holds (queue : Queue α) (entries : List (Nat × α)) : Prop where
  distinct : (entries.map Prod.fst).Nodup
  size : queue.size = entries.length
  head : queue.head = entries.head?.map Prod.fst
  tail : queue.tail = entries.getLast?.map Prod.fst
  stores : ∀ entry ∈ entries, queue.Stores entry
  links : entries.IsChain queue.Links

theorem xvQueueInit_holds : (xvQueueInit : Queue α).Holds [] where
  distinct := List.nodup_nil
  size := rfl
  head := rfl
  tail := rfl
  stores := by simp
  links := .nil

/-- What is read of a node stays, if the node does. -/
theorem Queue.Stores.congr {queue' : Queue α} {entry : Nat × α} (h : queue.Stores entry)
    (hnode : queue'.nodes entry.1 = queue.nodes entry.1) : queue'.Stores entry := by
  obtain ⟨node, hsome, hdata⟩ := h
  exact ⟨node, hnode.trans hsome, hdata⟩

theorem Queue.Links.congr {queue' : Queue α} {entry entry' : Nat × α}
    (h : queue.Links entry entry') (hnode : queue'.nodes entry.1 = queue.nodes entry.1) :
    queue'.Links entry entry' := by
  unfold Links
  rw [hnode]
  exact h

/-! ### Push -/

/-- A fresh node is not one of the queue's. -/
theorem Queue.Holds.fresh (h : queue.Holds entries) {addr : Nat} (hfree : queue.nodes addr = none)
    {entry : Nat × α} (hentry : entry ∈ entries) : entry.1 ≠ addr := by
  rintro rfl
  obtain ⟨node, hsome, -⟩ := h.stores entry hentry
  exact absurd (hfree.symm.trans hsome) (by simp)

theorem Queue.Holds.push_distinct (h : queue.Holds entries) {addr : Nat}
    (hfree : queue.nodes addr = none) (data : α) :
    ((entries ++ [(addr, data)]).map Prod.fst).Nodup := by
  rw [List.map_append]
  refine List.nodup_append.mpr ⟨h.distinct, List.nodup_singleton _, ?_⟩
  intro a ha b hb
  obtain ⟨entry, hentry, rfl⟩ := List.mem_map.mp ha
  rw [List.mem_singleton.mp hb]
  exact h.fresh hfree hentry

/-- A push onto an empty queue. -/
theorem Queue.Holds.push_nil (h : queue.Holds []) (addr : Nat) (next : Option Nat) (data : α) :
    ∃ queue', xvQueuePush queue addr next data = some queue' ∧ queue'.Holds [(addr, data)] := by
  have htail : queue.tail = none := h.tail
  have hsize : queue.size = 0 := h.size
  have hpush : xvQueuePush queue addr next data = some
      { nodes := update queue.nodes addr (some { data := data, next := next, linked := false })
        head := some addr
        tail := some addr
        size := queue.size + 1 } := by
    simp only [xvQueuePush, htail]
  refine ⟨_, hpush, List.nodup_singleton _, ?_, rfl, rfl, ?_, .singleton _⟩
  · exact congrArg (· + 1) hsize
  · intro entry hentry
    rw [List.mem_singleton.mp hentry]
    exact ⟨_, update_self .., rfl⟩

/-- A push links the last node to the new one. -/
theorem Queue.Holds.push_concat {front : List (Nat × α)} {last : Nat × α}
    (h : queue.Holds (front ++ [last])) {addr : Nat} (next : Option Nat) (data : α)
    (hfree : queue.nodes addr = none) :
    ∃ queue', xvQueuePush queue addr next data = some queue' ∧
      queue'.Holds (front ++ [last] ++ [(addr, data)]) := by
  have htail : queue.tail = some last.1 := by simpa using h.tail
  obtain ⟨node, hlast, hdata⟩ := h.stores last (by simp)
  have hne : last.1 ≠ addr := h.fresh hfree (by simp)
  -- Only the new node and the old last one are written.
  have hother : ∀ {entry : Nat × α}, entry ∈ front → entry.1 ≠ addr ∧ entry.1 ≠ last.1 := by
    intro entry hentry
    refine ⟨h.fresh hfree (by simp [hentry]), ?_⟩
    have hnodup := h.distinct
    rw [List.map_append] at hnodup
    exact (List.nodup_append.mp hnodup).2.2 _ (List.mem_map_of_mem hentry) _ (by simp)
  have hpush : xvQueuePush queue addr next data = some
      { nodes := update
          (update queue.nodes addr (some { data := data, next := next, linked := false }))
          last.1 (some { node with next := some addr, linked := true })
        head := queue.head
        tail := some addr
        size := queue.size + 1 } := by
    simp only [xvQueuePush, htail, update_of_ne hne, hlast, Option.map_some]
  refine ⟨_, hpush, h.push_distinct hfree data, ?_, ?_, ?_, ?_, ?_⟩
  · simp [h.size]
  · have hhead := h.head
    cases front <;> simpa using hhead
  · simp
  · intro entry hentry
    simp only [List.append_assoc, List.mem_append, List.mem_cons, List.not_mem_nil,
      or_false] at hentry
    rcases hentry with hfront | rfl | rfl
    · refine (h.stores entry (by simp [hfront])).congr ?_
      dsimp only
      rw [update_of_ne (hother hfront).2, update_of_ne (hother hfront).1]
    · exact ⟨_, update_self .., hdata⟩
    · refine ⟨{ data := data, next := next, linked := false }, ?_, rfl⟩
      dsimp only
      rw [update_of_ne hne.symm, update_self]
  · have hlinks := h.links
    rw [List.append_assoc, List.isChain_append]
    rw [List.isChain_append] at hlinks
    refine ⟨?_, List.isChain_pair.mpr ?_, ?_⟩
    · refine hlinks.1.imp_of_mem_imp fun entry entry' hentry _ hlink => hlink.congr ?_
      dsimp only
      rw [update_of_ne (hother hentry).2, update_of_ne (hother hentry).1]
    · simp [Queue.Links, Node.link]
    · intro entry hentry entry' hentry'
      have hmem : entry ∈ front := List.mem_of_getLast? hentry
      refine (hlinks.2.2 entry hentry entry' hentry').congr ?_
      dsimp only
      rw [update_of_ne (hother hmem).2, update_of_ne (hother hmem).1]

/-- **A push appends.** -/
theorem Queue.Holds.push (h : queue.Holds entries) {addr : Nat} (next : Option Nat) (data : α)
    (hfree : queue.nodes addr = none) :
    ∃ queue', xvQueuePush queue addr next data = some queue' ∧
      queue'.Holds (entries ++ [(addr, data)]) := by
  rcases List.eq_nil_or_concat' entries with rfl | ⟨front, last, rfl⟩
  · exact h.push_nil addr next data
  · exact h.push_concat next data hfree

/-! ### Pop -/

theorem Queue.Holds.pop_nil (h : queue.Holds []) : xvQueuePop queue = some (none, queue) := by
  have hsize : queue.size = 0 := h.size
  simp [xvQueuePop, hsize]

/-- The oldest entry's node is linked to the next one, if there is one. -/
theorem Queue.Holds.front {addr : Nat} {data : α} (h : queue.Holds ((addr, data) :: entries)) :
    ∃ node, queue.nodes addr = some node ∧ node.data = data ∧
      (entries ≠ [] → node.linked = true ∧ node.next = entries.head?.map Prod.fst) := by
  obtain ⟨node, hnode, hdata⟩ := h.stores (addr, data) List.mem_cons_self
  refine ⟨node, hnode, hdata, fun hne => ?_⟩
  obtain ⟨second, rest, rfl⟩ := List.exists_cons_of_ne_nil hne
  have hchain := (List.isChain_cons_cons.mp h.links).1
  simp only [Queue.Links, hnode, Option.bind_some, Node.link] at hchain
  split at hchain
  · exact ⟨‹_›, hchain⟩
  · simp at hchain

/-- Without the oldest entry's node, the nodes are those of the others. -/
theorem Queue.Holds.rest {queue' : Queue α} {addr : Nat} {data : α}
    (h : queue.Holds ((addr, data) :: entries))
    (hnodes : queue'.nodes = update queue.nodes addr none) (hsize : queue'.size = entries.length)
    (hhead : queue'.head = entries.head?.map Prod.fst)
    (htail : queue'.tail = entries.getLast?.map Prod.fst) : queue'.Holds entries := by
  have hnodup := h.distinct
  rw [List.map_cons, List.nodup_cons] at hnodup
  have hother : ∀ entry ∈ entries, queue'.nodes entry.1 = queue.nodes entry.1 := by
    intro entry hentry
    have hmem : entry.1 ∈ entries.map Prod.fst := List.mem_map_of_mem hentry
    have hne : entry.1 ≠ addr := fun heq => hnodup.1 (heq ▸ hmem)
    rw [hnodes, update_of_ne hne]
  refine ⟨hnodup.2, hsize, hhead, htail, fun entry hentry => ?_, ?_⟩
  · exact (h.stores entry (List.mem_cons_of_mem _ hentry)).congr (hother entry hentry)
  · exact h.links.of_cons.imp_of_mem_imp fun entry _ hentry _ hlinks =>
      hlinks.congr (hother entry hentry)

/-- **A pop takes the oldest entry**, and frees its node. -/
theorem Queue.Holds.pop_cons {addr : Nat} {data : α} (h : queue.Holds ((addr, data) :: entries)) :
    ∃ queue', xvQueuePop queue = some (some data, queue') ∧ queue'.Holds entries ∧
      queue'.nodes = update queue.nodes addr none := by
  have hhead : queue.head = some addr := h.head
  obtain ⟨node, hnode, hdata, hlink⟩ := h.front
  cases entries with
  | nil =>
      have hsize : queue.size = 1 := h.size
      refine ⟨_, by simp [xvQueuePop, hsize, hhead, hnode, hdata]; rfl, ?_, rfl⟩
      exact h.rest rfl rfl rfl rfl
  | cons second rest =>
      -- The count says there is a second node, so this one has been linked to it.
      have hsize : queue.size = rest.length + 2 := h.size
      refine ⟨_, by simp [xvQueuePop, hsize, hhead, hnode, hdata]; rfl, ?_, rfl⟩
      exact h.rest rfl rfl (hlink (List.cons_ne_nil _ _)).2 h.tail

end Libxv
