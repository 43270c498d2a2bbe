/-
The `xv_concurrent_queue_t` of `xv_queue.c`, statement by statement.

Each operation locks the mutex, calls its `xv_queue_*` and unlocks.  A place is a statement of
that function, with the locals it has set so far, so between two statements any other thread
may go on.  The node that `malloc` returned holds the data from its first statement on.
-/
import Libxv.Queue
import Libxv.Lib.Monitor

namespace Libxv

open Function

variable {α : Type}

inductive ConcurrentQueueOp (α : Type)
  | push (data : α)
  | pop
  | size
  deriving DecidableEq

inductive ConcurrentQueueResult (α : Type)
  | pushed
  /-- The data, or NULL. -/
  | popped (data : Option α)
  | size (n : Nat)
  deriving DecidableEq

/-- The block `malloc` returns, and what it finds in its `next`. -/
structure MallocBlock where
  addr : Nat
  next : Option Nat

inductive ConcurrentQueuePlace (α : Type)
  /-- `node = xv_malloc(..); node->data = data` -/
  | pushNode (data : α)
  /-- `if (queue->tail)` -/
  | pushTest (node : Nat)
  /-- `queue->tail->next = node` -/
  | pushLink (node : Nat)
  /-- `queue->tail = node` -/
  | pushTail (node : Nat)
  /-- `queue->head = queue->tail = node`, the tail first -/
  | pushFirstTail (node : Nat)
  | pushFirstHead (node : Nat)
  /-- `queue->size++` -/
  | pushCount
  /-- `if (queue->size == 1)` -/
  | popTestOne
  /-- `data = queue->head->data` -/
  | popOneData
  /-- `xv_free(queue->head)` -/
  | popOneFree (data : α)
  /-- `queue->head = queue->tail = NULL`, the tail first -/
  | popOneTail (data : α)
  | popOneHead (data : α)
  /-- `else if (queue->size > 1)` -/
  | popTestMore
  /-- `data = queue->head->data` -/
  | popData
  /-- `tmp = queue->head` -/
  | popTmp (data : α)
  /-- `queue->head = queue->head->next` -/
  | popHead (data : α) (tmp : Option Nat)
  /-- `xv_free(tmp)` -/
  | popFree (data : α) (tmp : Option Nat)
  /-- `queue->size--` -/
  | popCount (data : α)
  | readSize

def ConcurrentQueueOp.enter : ConcurrentQueueOp α → ConcurrentQueuePlace α
  | .push data => .pushNode data
  | .pop => .popTestOne
  | .size => .readSize

/-- What a statement does: the queue afterwards, and the next statement or the result. -/
abbrev ConcurrentQueueStep (α : Type) :=
  Queue α × (ConcurrentQueuePlace α ⊕ ConcurrentQueueResult α)

/-- The node a pointer points to. -/
def Queue.deref (queue : Queue α) (ptr : Option Nat) : Option (Node α) := ptr.bind queue.nodes

/-- `xv_free`, which must be given a live node. -/
def Queue.free (queue : Queue α) (ptr : Option Nat) : Option (Queue α) := do
  let addr ← ptr
  let _ ← queue.nodes addr
  pure { queue with nodes := update queue.nodes addr none }

/-- One statement.  Following a pointer to no live node is `none`. -/
def ConcurrentQueuePlace.run (queue : Queue α) (block : MallocBlock) :
    ConcurrentQueuePlace α → Option (ConcurrentQueueStep α)
  | .pushNode data =>
      let node := { data := data, next := block.next, linked := false }
      some ({ queue with nodes := update queue.nodes block.addr (some node) },
        .inl (.pushTest block.addr))
  | .pushTest node =>
      match queue.tail with
      | some _ => some (queue, .inl (.pushLink node))
      | none => some (queue, .inl (.pushFirstTail node))
  | .pushLink node => do
      let tail ← queue.tail
      let last ← queue.nodes tail
      let last := { last with next := some node, linked := true }
      pure ({ queue with nodes := update queue.nodes tail (some last) }, .inl (.pushTail node))
  | .pushTail node => some ({ queue with tail := some node }, .inl .pushCount)
  | .pushFirstTail node => some ({ queue with tail := some node }, .inl (.pushFirstHead node))
  | .pushFirstHead node => some ({ queue with head := some node }, .inl .pushCount)
  | .pushCount => some ({ queue with size := queue.size + 1 }, .inr .pushed)
  | .popTestOne =>
      if queue.size = 1 then some (queue, .inl .popOneData) else some (queue, .inl .popTestMore)
  | .popOneData => (queue.deref queue.head).map fun node => (queue, .inl (.popOneFree node.data))
  | .popOneFree data => (queue.free queue.head).map fun queue => (queue, .inl (.popOneTail data))
  | .popOneTail data => some ({ queue with tail := none }, .inl (.popOneHead data))
  | .popOneHead data => some ({ queue with head := none }, .inl (.popCount data))
  | .popTestMore =>
      if queue.size > 1 then some (queue, .inl .popData) else some (queue, .inr (.popped none))
  | .popData => (queue.deref queue.head).map fun node => (queue, .inl (.popTmp node.data))
  | .popTmp data => some (queue, .inl (.popHead data queue.head))
  | .popHead data tmp =>
      (queue.deref queue.head).map fun node =>
        ({ queue with head := node.next }, .inl (.popFree data tmp))
  | .popFree data tmp => (queue.free tmp).map fun queue => (queue, .inl (.popCount data))
  | .popCount data => some ({ queue with size := queue.size - 1 }, .inr (.popped (some data)))
  | .readSize => some (queue, .inr (.size queue.size))

/-- `xv_concurrent_queue_push`, `xv_concurrent_queue_pop` and `xv_concurrent_queue_size`. -/
def xvConcurrentQueue : Monitor.Code (Queue α) (ConcurrentQueueOp α) (ConcurrentQueuePlace α)
    MallocBlock (ConcurrentQueueResult α) where
  enter := ConcurrentQueueOp.enter
  run queue place block := place.run queue block

/-- A block that `malloc` returns is not in use. -/
def ConcurrentQueuePlace.Fits (queue : Queue α) (place : ConcurrentQueuePlace α)
    (block : MallocBlock) : Prop :=
  match place with
  | .pushNode _ => queue.nodes block.addr = none
  | _ => True

/-- The queue threads share, as `xv_concurrent_queue_init` makes it. -/
abbrev ConcurrentQueue (Thread α : Type) :=
  Monitor.Sys Thread (Queue α) (ConcurrentQueueOp α) (ConcurrentQueuePlace α)
    (ConcurrentQueueResult α)

/-- What the operations are for: a list, oldest first. -/
def ConcurrentQueueOp.onList : ConcurrentQueueOp α → List α →
    List α × ConcurrentQueueResult α
  | .push data, queue => (queue ++ [data], .pushed)
  | .pop, queue => (queue.tail, .popped queue.head?)
  | .size, queue => (queue, .size queue.length)

end Libxv
