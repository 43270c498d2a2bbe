/-
The queues of `xv_queue.c`: a singly linked list with a head, a tail and a count.

Nodes live in a heap and are known by their addresses.  `xv_queue_push` does not set the
`next` pointer of the node it makes, so a node holds there what `malloc` found until the next
push links it; `linked` says whether it has been written.  Following a pointer that is NULL
or names no live node has no meaning: such a step is `none`.

The operations of `xv_concurrent_queue_t` are these under a mutex, so to other threads each
is one step.
-/
import Mathlib.Logic.Function.Basic

namespace Libxv

open Function

variable {α : Type}

/-- `xv_node_t`. -/
structure Node (α : Type) where
  data : α
  next : Option Nat
  linked : Bool

/-- `xv_queue_t`, and the nodes that are live. -/
structure Queue (α : Type) where
  nodes : Nat → Option (Node α)
  head : Option Nat
  tail : Option Nat
  size : Nat

def xvQueueInit : Queue α := { nodes := fun _ => none, head := none, tail := none, size := 0 }

/-- What a call of `xv_queue_destroy` has called back with and freed, and the nodes it leaves. -/
structure QueueDestroyed (α : Type) where
  nodes : Nat → Option (Node α)
  called : List α
  freed : List Nat

/-- The loop of `xv_queue_destroy`, `node` being the next to go, for at most `fuel` tests. -/
def xvQueueDestroyLoop (destroy : Bool) :
    Nat → (Nat → Option (Node α)) → Option Nat → Option (QueueDestroyed α)
  | 0, _, _ => none
  | _ + 1, nodes, none => some { nodes := nodes, called := [], freed := [] }
  | fuel + 1, nodes, some addr => do
      let node ← nodes addr
      let rest ← xvQueueDestroyLoop destroy fuel (update nodes addr none) node.next
      pure
        { nodes := rest.nodes
          called := if destroy then node.data :: rest.called else rest.called
          freed := addr :: rest.freed }

/-- `xv_queue_destroy`, where `destroy` says whether there is a callback.  The queue's own
block is freed after the loop. -/
def xvQueueDestroy (queue : Queue α) (destroy : Bool) (fuel : Nat) : Option (QueueDestroyed α) :=
  xvQueueDestroyLoop destroy fuel queue.nodes queue.head

/-- `xv_queue_push`, where `malloc` returns the block at `addr`, with `next` in its second
field. -/
def xvQueuePush (queue : Queue α) (addr : Nat) (next : Option Nat) (data : α) :
    Option (Queue α) :=
  let nodes := update queue.nodes addr (some { data := data, next := next, linked := false })
  match queue.tail with
  | some tail =>
      (nodes tail).map fun node =>
        { nodes := update nodes tail (some { node with next := some addr, linked := true })
          head := queue.head
          tail := some addr
          size := queue.size + 1 }
  | none =>
      some { nodes := nodes, head := some addr, tail := some addr, size := queue.size + 1 }

/-- `xv_queue_pop`: the data, or NULL, and the queue afterwards. -/
def xvQueuePop (queue : Queue α) : Option (Option α × Queue α) :=
  if queue.size = 1 then do
    let head ← queue.head
    let node ← queue.nodes head
    pure (some node.data,
      { nodes := update queue.nodes head none
        head := none
        tail := none
        size := queue.size - 1 })
  else if queue.size > 1 then do
    let head ← queue.head
    let node ← queue.nodes head
    pure (some node.data,
      { nodes := update queue.nodes head none
        head := node.next
        tail := queue.tail
        size := queue.size - 1 })
  else pure (none, queue)

def xvQueueSize (queue : Queue α) : Nat := queue.size

end Libxv
