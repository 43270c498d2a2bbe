/-
Runs that keep a record of what they call.

A move of a system may make one call to the outside; `traced` runs the system and writes the
calls down in order.  What is said of a record is that every call in it is justified by the
calls before it, which a run keeps if each move does, so it is shown by one induction
together with the invariants of the run.
-/
import Libxv.Lib.Run

namespace Transition

variable {σ ι ε : Type}

/-- A state, and what has been recorded up to it. -/
structure Traced (σ ε : Type) where
  state : σ
  trace : List ε

/-- The system that also records what each of its moves calls. -/
def traced (step : σ → ι → Option σ) (emits : σ → ι → Option ε) (x : Traced σ ε) (i : ι) :
    Option (Traced σ ε) :=
  (step x.state i).map fun s => { state := s, trace := x.trace ++ (emits x.state i).toList }

/-- A start with nothing recorded. -/
structure Traced.Start (start : σ → Prop) (x : Traced σ ε) : Prop where
  state : start x.state
  trace : x.trace = []

/-- A state with nothing recorded. -/
def Traced.new (s : σ) : Traced σ ε := { state := s, trace := [] }

theorem Traced.new_start {start : σ → Prop} {s : σ} (h : start s) :
    Traced.Start start (Traced.new s : Traced σ ε) := ⟨h, rfl⟩

variable {step : σ → ι → Option σ} {emits : σ → ι → Option ε} {ok : Traced σ ε → ι → Prop}
  {start : σ → Prop}

theorem traced_some {x x' : Traced σ ε} {i : ι} (h : traced step emits x i = some x') :
    step x.state i = some x'.state ∧ x'.trace = x.trace ++ (emits x.state i).toList := by
  simp only [traced, Option.map_eq_some_iff] at h
  obtain ⟨s, hs, rfl⟩ := h
  exact ⟨hs, rfl⟩

/-- Without its record a run is a run of the system. -/
theorem Reach.untraced {x : Traced σ ε}
    (h : Reach (traced step emits) ok (Traced.Start start) x) : Reachable step start x.state :=
  h.invariant (I := fun x => Reachable step start x.state) (fun _ hx => .start hx.state)
    fun _ _ _ hx _ hstep => .next hx trivial (traced_some hstep).1

/-- The same for a run under a condition on its states. -/
theorem Reach.untraced_ok {cond : σ → ι → Prop} {x : Traced σ ε}
    (h : Reach (traced step emits) (fun x => cond x.state) (Traced.Start start) x) :
    Reach step cond start x.state :=
  h.invariant (I := fun x => Reach step cond start x.state) (fun _ hx => .start hx.state)
    fun _ _ _ hx hok hstep => .next hx hok (traced_some hstep).1

/-- What holds of all that is ever recorded holds of every entry. -/
theorem Reach.trace_forall {P : ε → Prop} (hemits : ∀ s i e, emits s i = some e → P e)
    {x : Traced σ ε} (h : Reach (traced step emits) ok (Traced.Start start) x) :
    ∀ e ∈ x.trace, P e := by
  refine h.invariant (I := fun x => ∀ e ∈ x.trace, P e) (fun x hx e he => ?_) ?_
  · rw [hx.trace] at he
    exact absurd he List.not_mem_nil
  · intro x i x' hall _ hmove e he
    rw [(traced_some hmove).2, List.mem_append, Option.mem_toList] at he
    exact he.elim (hall e) (hemits x.state i e)

/-! ### Records -/

/-- Every entry is justified by the entries before it. -/
def Justified (J : List ε → ε → Prop) (trace : List ε) : Prop :=
  ∀ before e after, trace = before ++ e :: after → J before e

variable {J : List ε → ε → Prop} {trace : List ε}

theorem Justified.nil : Justified J ([] : List ε) := by
  intro before e after h
  exact absurd h.symm (by simp)

theorem Justified.snoc (h : Justified J trace) {e : ε} (he : J trace e) :
    Justified J (trace ++ [e]) := by
  intro before f after heq
  rcases List.eq_nil_or_concat after with rfl | ⟨rest, last, rfl⟩
  · obtain ⟨rfl, hef⟩ := List.append_inj' heq rfl
    rw [List.cons.injEq] at hef
    exact hef.1 ▸ he
  · rw [List.concat_eq_append, ← List.cons_append, ← List.append_assoc] at heq
    exact h before f rest (List.append_inj' heq rfl).1

/-- What a move records must be justified by what was recorded before it. -/
theorem Justified.append (h : Justified J trace) {e : Option ε} (he : ∀ x, e = some x → J trace x) :
    Justified J (trace ++ e.toList) := by
  cases e with
  | none =>
      rw [Option.toList_none, List.append_nil]
      exact h
  | some x => exact h.snoc (he x rfl)

/-- What justifies a call may be said differently for the calls that are there. -/
theorem Justified.mono {J' : List ε → ε → Prop} (h : Justified J trace)
    (himp : ∀ before e, e ∈ trace → J before e → J' before e) : Justified J' trace := by
  intro before e after heq
  refine himp before e ?_ (h before e after heq)
  rw [heq]
  exact List.mem_append_right _ List.mem_cons_self

end Transition
