/-
A queue that is drained on a counted signal.

Producers put an item in the queue and then raise a counter; the consumer sleeps
until the counter is positive, sets it back to zero, and only then takes items until
it finds the queue empty.  Any number of signals may merge into one.  The order on
both sides (item before signal, reset before drain) is what keeps an item from being
left behind with everyone asleep.

`View` is what of a system matters for this, `Move` the steps that respect the order,
and `Move.notLost` the invariant.  A system uses the module by giving the `View` it
stands for and showing that its steps are moves.
-/
import Mathlib.Data.Set.Basic

namespace Wakeup

/-- What of a system with producers of type `ρ` matters for its wake-ups. -/
structure View (ρ : Type) where
  /-- Items in the queue. -/
  queued : Nat
  /-- The signal counter. -/
  counter : Nat
  /-- Producers that have put an item in the queue and not yet signalled it. -/
  unsent : Set ρ
  /-- The consumer has reset the counter and not yet found the queue empty. -/
  draining : Prop
  /-- The consumer waits for the counter to be positive. -/
  asleep : Prop
  apart : asleep → ¬ draining

variable {ρ : Type} {v v' : View ρ}

/-- An item in the queue is signalled, about to be signalled, or about to be taken. -/
def NotLost (v : View ρ) : Prop :=
  0 < v.queued → 0 < v.counter ∨ v.unsent.Nonempty ∨ v.draining

/-- The steps that keep the order item before signal, reset before drain. -/
inductive Move (v v' : View ρ) : Prop
  /-- A producer puts an item in the queue; it still has to signal. -/
  | push (r : ρ) (h : r ∈ v'.unsent)
  /-- A producer raises the counter. -/
  | signal (h : 0 < v'.counter)
  /-- The consumer resets the counter and enters its loop, or is inside it. -/
  | drain (h : v'.draining)
  /-- The consumer leaves its loop because the queue is empty. -/
  | rest (h : v'.queued = 0)
  /-- A step that concerns something else. -/
  | other (hqueue : v'.queued ≤ v.queued) (hcount : v.counter ≤ v'.counter)
      (hsent : v.unsent ⊆ v'.unsent) (hdrain : v.draining → v'.draining)

/-- **No wake-up is lost**: every move keeps the invariant. -/
theorem Move.notLost (hmove : Move v v') (h : NotLost v) : NotLost v' := by
  intro hpos
  cases hmove with
  | push r hr => exact Or.inr (Or.inl ⟨r, hr⟩)
  | signal hc => exact Or.inl hc
  | drain hd => exact Or.inr (Or.inr hd)
  | rest hq => omega
  | other hqueue hcount hsent hdrain =>
      rcases h (Nat.lt_of_lt_of_le hpos hqueue) with hc | hs | hd
      · exact Or.inl (Nat.lt_of_lt_of_le hc hcount)
      · exact Or.inr (Or.inl (hs.mono hsent))
      · exact Or.inr (Or.inr (hdrain hd))

/-- What the consumer of a queue can rely on. -/
structure Served (v : View ρ) : Prop where
  notLost : NotLost v
  /-- The consumer does not sleep on an item with no signal there or on the way. -/
  awake : v.asleep → 0 < v.queued → v.unsent = ∅ → 0 < v.counter

theorem NotLost.served (h : NotLost v) : Served v := by
  refine ⟨h, fun hasleep hqueue hsent => ?_⟩
  rcases h hqueue with hc | hs | hd
  · exact hc
  · rw [hsent] at hs
    exact absurd hs Set.not_nonempty_empty
  · exact absurd hd (v.apart hasleep)

end Wakeup
