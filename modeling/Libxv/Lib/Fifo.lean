/-
A queue, and what it means for a system to be one.

The queue is a list, first in at the front.  An operation says what it returns and what it
leaves, and a record of operations with what each returned determines what is in.  A system
is a queue for its users when its content, read off each state, goes the way of the list
under every step, and the step returns what the list would (`refines`).
-/
import Libxv.Lib.Trace

namespace Fifo

open Transition

variable {α : Type}

/-- What can be asked of a queue. -/
inductive Op (α : Type)
  | append (xs : List α)
  /-- Take the first `n`, or all there are. -/
  | take (n : Nat)
  /-- The same, without having them returned. -/
  | drop (n : Nat)
  | clear
  | keep

/-- What an operation returns, and the queue it leaves. -/
def Op.run : Op α → List α → List α × List α
  | .append xs, queue => ([], queue ++ xs)
  | .take n, queue => (queue.take n, queue.drop n)
  | .drop n, queue => ([], queue.drop n)
  | .clear, _ => ([], [])
  | .keep, queue => ([], queue)

/-- An operation, and what it returned. -/
structure Entry (α : Type) where
  op : Op α
  out : List α

/-- A queue that was empty has gone through these operations, with these results. -/
inductive Run : List (Entry α) → List α → Prop
  | start : Run [] []
  | next {trace : List (Entry α)} {queue : List α} (h : Run trace queue) (op : Op α) :
      Run (trace ++ [⟨op, (op.run queue).1⟩]) (op.run queue).2

/-- An operation that loses nothing. -/
def Op.Conserves : Op α → Prop
  | .append _ | .take _ | .keep => True
  | .drop _ | .clear => False

/-- What an operation puts in. -/
def Op.entering : Op α → List α
  | .append xs => xs
  | .take _ | .drop _ | .clear | .keep => []

/-- All that has been put in. -/
def entered (trace : List (Entry α)) : List α := trace.flatMap fun e => e.op.entering

/-- All that has been returned. -/
def returned (trace : List (Entry α)) : List α := trace.flatMap Entry.out

variable {trace : List (Entry α)} {queue : List α}

theorem Op.run_conserves {op : Op α} (h : op.Conserves) (queue : List α) :
    queue ++ op.entering = (op.run queue).1 ++ (op.run queue).2 := by
  cases op with
  | append xs => rfl
  | take n => exact (List.append_nil queue).trans (List.take_append_drop n queue).symm
  | keep => exact List.append_nil queue
  | drop n | clear => exact h.elim

/-- **What has entered is what was returned, and after it what is in.** -/
theorem Run.conserved (h : Run trace queue) (hops : ∀ e ∈ trace, e.op.Conserves) :
    entered trace = returned trace ++ queue := by
  induction h with
  | start => rfl
  | @next trace queue _ op ih =>
      have hop : op.Conserves := hops _ (List.mem_append_right _ (List.mem_singleton_self _))
      have hbefore := ih fun e he => hops e (List.mem_append_left _ he)
      calc entered (trace ++ [⟨op, (op.run queue).1⟩])
          = entered trace ++ op.entering := by simp [entered]
        _ = returned trace ++ (queue ++ op.entering) := by rw [hbefore, List.append_assoc]
        _ = returned trace ++ ((op.run queue).1 ++ (op.run queue).2) := by
            rw [op.run_conserves hop]
        _ = returned (trace ++ [⟨op, (op.run queue).1⟩]) ++ (op.run queue).2 := by
            simp [returned]

/-! ### Systems that are queues -/

variable {σ ι : Type} {step : σ → ι → Option σ} {emits : σ → ι → Entry α}
  {ok : Traced σ (Entry α) → ι → Prop} {start : σ → Prop}

/-- **A system whose content goes the way of a queue is one**, over whole runs. -/
theorem refines {content : σ → List α} (hstart : ∀ s, start s → content s = [])
    (hstep : ∀ s i s', Reachable step start s → step s i = some s' →
      ((emits s i).out, content s') = (emits s i).op.run (content s))
    {x : Traced σ (Entry α)}
    (h : Reach (traced step fun s i => some (emits s i)) ok (Traced.Start start) x) :
    Run x.trace (content x.state) := by
  refine h.invariant_along (I := fun x => Run x.trace (content x.state)) ?_ ?_
  · intro x hx
    rw [hx.trace, hstart x.state hx.state]
    exact .start
  · intro x i x' hreach hrun _ hmove
    obtain ⟨hmove, htrace⟩ := traced_some hmove
    have hop := hstep x.state i x'.state hreach.untraced hmove
    have hnext := hrun.next (emits x.state i).op
    rw [← hop] at hnext
    rw [htrace]
    exact hnext

end Fifo
