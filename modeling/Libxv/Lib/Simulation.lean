/-
Simulation of one recorded system by another.

Two systems record the same kind of events.  If every step of the first can be answered by a
step of the second with the same record, or by none when it records nothing, then whatever
the first system shows, the second can show too.
-/
import Libxv.Lib.Trace

namespace Transition

variable {σ ι τ κ ε : Type} {step : σ → ι → Option σ} {emits : σ → ι → Option ε}
  {step' : τ → κ → Option τ} {emits' : τ → κ → Option ε}

/-- From `t` the second system answers a step that leads to `s'` and records `event`. -/
inductive Answers (step' : τ → κ → Option τ) (emits' : τ → κ → Option ε) (R : σ → τ → Prop)
    (t : τ) (s' : σ) (event : Option ε) : Prop
  | stay (hnone : event = none) (hrel : R s' t)
  | move (k : κ) (t' : τ) (hstep : step' t k = some t') (hevent : emits' t k = event)
      (hrel : R s' t')

/-- **What the first system records, the second can record**, and the states they come to are
related. -/
theorem Reach.simulated {R : σ → τ → Prop} {start : σ → Prop} {start' : τ → Prop}
    {ok : Traced σ ε → ι → Prop} (hstart : ∀ s, start s → ∃ t, start' t ∧ R s t)
    (hstep : ∀ x t i s', R x.state t → ok x i → step x.state i = some s' →
      Answers step' emits' R t s' (emits x.state i)) {x : Traced σ ε}
    (h : Reach (traced step emits) ok (Traced.Start start) x) :
    ∃ y : Traced τ ε, Reachable (traced step' emits') (Traced.Start start') y ∧
      y.trace = x.trace ∧ R x.state y.state := by
  induction h with
  | @start x h =>
      obtain ⟨t, ht, hrel⟩ := hstart x.state h.state
      exact ⟨.new t, .start (Traced.new_start ht), h.trace.symm, hrel⟩
  | @next x x' i _ hok hmove ih =>
      obtain ⟨y, hreach, htrace, hrel⟩ := ih
      obtain ⟨hmove, htrace'⟩ := traced_some hmove
      cases hstep x y.state i x'.state hrel hok hmove with
      | stay hnone hrel' =>
          refine ⟨y, hreach, ?_, hrel'⟩
          rw [htrace', hnone, Option.toList_none, List.append_nil]
          exact htrace
      | move k t' hanswer hevent hrel' =>
          refine ⟨{ state := t', trace := y.trace ++ (emits' y.state k).toList },
            .next (i := k) hreach trivial ?_, ?_, hrel'⟩
          · simp [traced, hanswer]
          · rw [htrace', htrace, hevent]

end Transition
