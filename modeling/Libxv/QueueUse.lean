/-
The calls a user makes on a queue, and what they read of its nodes.
-/
import Libxv.Queue

namespace Libxv

variable {α : Type}

inductive QueueOp (α : Type)
  /-- `malloc` returns the block at `addr`, with `next` in its second field. -/
  | push (addr : Nat) (next : Option Nat) (data : α)
  | pop

/-- One call.  A block that `malloc` returns is not in use. -/
def Queue.step (queue : Queue α) : QueueOp α → Option (Queue α)
  | .push addr next data =>
      if (queue.nodes addr).isNone then xvQueuePush queue addr next data else none
  | .pop => (xvQueuePop queue).map Prod.snd

/-- The fields of a node. -/
inductive NodeField
  | data
  | next

/-- The fields a call reads, and of what node.  A push only writes. -/
def Queue.reads (queue : Queue α) : QueueOp α → List (Option Nat × NodeField)
  | .push .. => []
  | .pop =>
      if queue.size = 1 then [(queue.head, .data)]
      else if queue.size > 1 then [(queue.head, .data), (queue.head, .next)]
      else []

/-- There is such a node, and the field has been written since `malloc` returned it. -/
def Queue.Written (queue : Queue α) (addr : Option Nat) : NodeField → Prop
  | .data => ∃ node, addr.bind queue.nodes = some node
  | .next => ∃ node, addr.bind queue.nodes = some node ∧ node.linked = true

/-- The node if `malloc` had left this in its `next`. -/
def Node.withGarbage (node : Node α) (garbage : Option Nat) : Node α :=
  if node.linked then node else { node with next := garbage }

/-- The nodes if `malloc` had left this in the blocks, by address. -/
def nodesWithGarbage (nodes : Nat → Option (Node α)) (garbage : Nat → Option Nat) :
    Nat → Option (Node α) :=
  fun addr => (nodes addr).map (·.withGarbage (garbage addr))

def Queue.withGarbage (queue : Queue α) (garbage : Nat → Option Nat) : Queue α :=
  { queue with nodes := nodesWithGarbage queue.nodes garbage }

/-- As many nodes, from a node on, by address and data. -/
def Queue.walk (queue : Queue α) : Nat → Option Nat → List (Nat × α)
  | 0, _ => []
  | _ + 1, none => []
  | n + 1, some addr =>
      match queue.nodes addr with
      | some node => (addr, node.data) :: queue.walk n node.next
      | none => []

/-- What is queued, oldest first. -/
def Queue.entries (queue : Queue α) : List (Nat × α) := queue.walk queue.size queue.head

def Queue.content (queue : Queue α) : List α := queue.entries.map Prod.snd

end Libxv
