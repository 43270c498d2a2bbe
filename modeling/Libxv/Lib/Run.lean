/-
Runs of a system given by a partial step function.

A system is a function `step : σ → ι → Option σ`: the label `ι` says who moves and
what the outside world answers, and `none` says the move is not possible.  `Reach`
collects the states reached by moves that each meet a condition, so that "in every
run whose steps all meet the condition" is a statement about `Reach`, and the
unrestricted runs are those of the condition that always holds.

The one induction over runs is `Reach.invariant`; nothing else in the development
inducts over a run.
-/
import Mathlib.Logic.Basic

namespace Transition

variable {σ ι : Type}

/-- Reached from a start state by steps that each meet `ok`. -/
inductive Reach (step : σ → ι → Option σ) (ok : σ → ι → Prop) (start : σ → Prop) : σ → Prop
  | start {s : σ} (h : start s) : Reach step ok start s
  | next {s s' : σ} {i : ι} (h : Reach step ok start s) (hok : ok s i)
      (hstep : step s i = some s') : Reach step ok start s'

/-- Reached by any steps at all. -/
abbrev Reachable (step : σ → ι → Option σ) (start : σ → Prop) : σ → Prop :=
  Reach step (fun _ _ => True) start

variable {step : σ → ι → Option σ} {ok : σ → ι → Prop} {start : σ → Prop}

/-- What holds at the start and is kept by every step holds in every state reached. -/
theorem Reach.invariant {I : σ → Prop} (h0 : ∀ s, start s → I s)
    (hkeep : ∀ s i s', I s → ok s i → step s i = some s' → I s') {s : σ}
    (h : Reach step ok start s) : I s := by
  induction h with
  | start h => exact h0 _ h
  | next _ hok hstep ih => exact hkeep _ _ _ ih hok hstep

/-- The same, where what is known of reached states may be used along the way. -/
theorem Reach.invariant_along {I : σ → Prop} (h0 : ∀ s, start s → I s)
    (hkeep : ∀ s i s', Reach step ok start s → I s → ok s i → step s i = some s' → I s') {s : σ}
    (h : Reach step ok start s) : I s := by
  have hboth : Reach step ok start s ∧ I s := by
    refine h.invariant (I := fun s => Reach step ok start s ∧ I s)
      (fun s hs => ⟨.start hs, h0 s hs⟩) ?_
    rintro s i s' ⟨hreach, hs⟩ hok hstep
    exact ⟨.next hreach hok hstep, hkeep s i s' hreach hs hok hstep⟩
  exact hboth.2

/-- A run can be continued by any run from where it led. -/
theorem Reach.trans {s t : σ} (h : Reach step ok start s) (h' : Reach step ok (· = s) t) :
    Reach step ok start t := by
  induction h' with
  | start heq => exact heq ▸ h
  | next _ hok hstep ih => exact .next ih hok hstep

/-- A loop that counts up to `n` comes to its end when each of its rounds does. -/
theorem Reach.count {C : Nat → σ → Prop} {n : Nat}
    (hround : ∀ i s, i < n → Reach step ok start s → C i s →
      ∃ s', Reach step ok start s' ∧ C (i + 1) s') {i : Nat} {s : σ} (hi : i ≤ n)
    (h : Reach step ok start s) (hs : C i s) : ∃ s', Reach step ok start s' ∧ C n s' := by
  obtain ⟨k, hk⟩ := Nat.exists_eq_add_of_le hi
  induction k generalizing i s with
  | zero => exact ⟨s, h, hk ▸ hs⟩
  | succ k ih =>
      obtain ⟨s', h', hs'⟩ := hround i s (by omega) h hs
      exact ih (by omega) h' hs' (by omega)

/-- Fewer conditions on the steps, more runs. -/
theorem Reach.mono {ok' : σ → ι → Prop} (himp : ∀ s i, ok s i → ok' s i) {s : σ}
    (h : Reach step ok start s) : Reach step ok' start s := by
  induction h with
  | start h => exact .start h
  | next _ hok hstep ih => exact .next ih (himp _ _ hok) hstep

/-- A run under a condition is a run. -/
theorem Reach.reachable {s : σ} (h : Reach step ok start s) : Reachable step start s :=
  h.mono fun _ _ _ => trivial

/-- Play a list of moves. -/
def play (step : σ → ι → Option σ) (s : σ) : List ι → Option σ
  | [] => some s
  | i :: rest => (step s i).bind fun s' => play step s' rest

/-- The moves of `play` all meet `ok`, tested along the way. -/
def playOk (step : σ → ι → Option σ) (ok : σ → ι → Prop) (s : σ) : List ι → Prop
  | [] => True
  | i :: rest => ok s i ∧
      match step s i with
      | some s' => playOk step ok s' rest
      | none => True

instance playOk.decidable [∀ s i, Decidable (ok s i)] (s : σ) :
    ∀ moves : List ι, Decidable (playOk step ok s moves)
  | [] => inferInstanceAs (Decidable True)
  | i :: rest =>
      match h : step s i with
      | some s' =>
          haveI := playOk.decidable s' rest
          decidable_of_iff (ok s i ∧ playOk step ok s' rest) (by simp [playOk, h])
      | none => decidable_of_iff (ok s i) (by simp [playOk, h])

/-- Where a list of moves leads is reached. -/
theorem Reach.play :
    ∀ (moves : List ι) {s : σ} {s' : σ}, Reach step ok start s → playOk step ok s moves →
      Transition.play step s moves = some s' → Reach step ok start s' := by
  intro moves
  induction moves with
  | nil =>
      intro s s' h _ hplay
      simp only [Transition.play, Option.some.injEq] at hplay
      exact hplay ▸ h
  | cons i rest ih =>
      intro s s' h hok hplay
      simp only [Transition.play, Option.bind_eq_some_iff] at hplay
      obtain ⟨mid, hmid, hrest⟩ := hplay
      simp only [playOk, hmid] at hok
      exact ih (.next h hok.1 hmid) hok.2 hrest

/-- Any moves that can be played lead to a reachable state. -/
theorem Reachable.play (moves : List ι) {s s' : σ} (h : Reachable step start s)
    (hplay : Transition.play step s moves = some s') : Reachable step start s' := by
  refine Reach.play moves h ?_ hplay
  clear hplay h
  induction moves generalizing s with
  | nil => trivial
  | cons i rest ih =>
      refine ⟨trivial, ?_⟩
      split
      · exact ih
      · trivial

end Transition
