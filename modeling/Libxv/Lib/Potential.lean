/-
Counting the steps of a run by the work that is left.

Every state has some work left.  A step spends some of it, and may bring some in; in a whole
run what is spent is no more than what was there and what was brought in.  With one unit spent
by each step of a kind, and a bounded amount brought in by each other step, a run has few steps
of the first kind for the steps of the second, whatever their order.

Where the work of a system is a sum over its parties, a step that changes one of them changes
one summand.
-/
import Libxv.Lib.Run
import Mathlib.Algebra.BigOperators.Group.Finset.Basic
import Mathlib.Algebra.Order.BigOperators.Group.Finset
import Mathlib.Algebra.BigOperators.Group.List.Basic
import Mathlib.Algebra.GroupWithZero.Nat

namespace Potential

open Function Transition

/-! ### Sums over parties -/

section Sums

variable {κ α : Type} [DecidableEq κ] (F : Finset κ) (f : α → Nat) (g : κ → α)

/-- One party changes: one summand is another. -/
theorem sum_update {i : κ} (hi : i ∈ F) (x : α) :
    (∑ j ∈ F, f (update g i x j)) + f (g i) = (∑ j ∈ F, f (g j)) + f x := by
  rw [← Finset.add_sum_erase F _ hi, ← Finset.add_sum_erase F (fun j => f (g j)) hi]
  have hother : ∑ j ∈ F.erase i, f (update g i x j) = ∑ j ∈ F.erase i, f (g j) := by
    apply Finset.sum_congr rfl
    intro j hj
    rw [update_of_ne (Finset.ne_of_mem_erase hj)]
  rw [hother, update_self]
  omega

/-- A party that may not be among them changes: the sum grows by no more than it does. -/
theorem sum_update_le {i : κ} {x : α} {n : Nat} (h : f x ≤ f (g i) + n) :
    ∑ j ∈ F, f (update g i x j) ≤ (∑ j ∈ F, f (g j)) + n := by
  by_cases hi : i ∈ F
  · have hsum := sum_update F f g hi x
    omega
  · have hsame : ∑ j ∈ F, f (update g i x j) = ∑ j ∈ F, f (g j) := by
      apply Finset.sum_congr rfl
      intro j hj
      rw [update_of_ne fun heq => hi (by rw [← heq]; exact hj)]
    omega

/-- One of them spends something: so does the sum. -/
theorem sum_update_add_le {i : κ} (hi : i ∈ F) {x : α} {n : Nat} (h : f x + n ≤ f (g i)) :
    (∑ j ∈ F, f (update g i x j)) + n ≤ ∑ j ∈ F, f (g j) := by
  have hsum := sum_update F f g hi x
  omega

/-- The same for parties in a list, of which one rises. -/
theorem sum_set_lt {α : Type} (f : α → Nat) {l : List α} {k : Nat} {a b : α}
    (hk : l[k]? = some a) (h : f a < f b) : (l.map f).sum < ((l.set k b).map f).sum := by
  induction l generalizing k with
  | nil => cases hk
  | cons c l ih =>
      cases k with
      | zero =>
          obtain rfl := Option.some.inj hk
          simp only [List.set_cons_zero, List.map_cons, List.sum_cons]
          omega
      | succ k =>
          have hlater := ih hk
          simp only [List.set_cons_succ, List.map_cons, List.sum_cons]
          omega

end Sums

/-! ### Runs -/

section Runs

variable {σ ι : Type} {step : σ → ι → Option σ} {work : σ → Nat} {spent gained : ι → Nat}

/-- **What a run spends was there or was brought in.**  The steps are those that meet `ok`, and
the states those that meet `Inv`. -/
theorem bound {Inv : σ → Prop} {ok : ι → Prop}
    (hkeep : ∀ s i s', Inv s → step s i = some s' → Inv s')
    (hwork : ∀ s i s', Inv s → ok i → step s i = some s' → work s' + spent i ≤ work s + gained i)
    {moves : List ι} (hmoves : ∀ i ∈ moves, ok i) {s s' : σ} (hs : Inv s)
    (hplay : Transition.play step s moves = some s') :
    work s' + (moves.map spent).sum ≤ work s + (moves.map gained).sum := by
  induction moves generalizing s with
  | nil =>
      obtain rfl := Option.some.inj hplay
      exact Nat.le_refl _
  | cons i rest ih =>
      simp only [Transition.play, Option.bind_eq_some_iff] at hplay
      obtain ⟨mid, hmid, hrest⟩ := hplay
      have hfirst := hwork s i mid hs (hmoves i List.mem_cons_self) hmid
      have hlater := ih (fun j hj => hmoves j (List.mem_cons_of_mem i hj)) (hkeep s i mid hs hmid)
        hrest
      simp only [List.map_cons, List.sum_cons]
      omega

/-- A fixed amount for each step of a kind. -/
theorem sum_of_kind (kind : ι → Bool) (n : Nat) (moves : List ι) :
    (moves.map fun i => if kind i then n else 0).sum = n * moves.countP kind := by
  induction moves with
  | nil => rfl
  | cons i rest ih =>
      rw [List.map_cons, List.sum_cons, ih, List.countP_cons]
      cases kind i <;> simp [Nat.mul_add, Nat.add_comm]

/-- The same, where a step either spends one unit or brings in at most `cost`. -/
theorem count_bound (step : σ → ι → Option σ) (work : σ → Nat) {Inv : σ → Prop} {ok : ι → Prop}
    {outside : ι → Bool} {cost : Nat}
    (hkeep : ∀ s i s', Inv s → step s i = some s' → Inv s')
    (hown : ∀ s i s', Inv s → ok i → outside i = false → step s i = some s' → work s' < work s)
    (houtside : ∀ s i s', Inv s → ok i → outside i = true → step s i = some s' →
      work s' ≤ work s + cost)
    {moves : List ι} (hmoves : ∀ i ∈ moves, ok i) {s s' : σ} (hs : Inv s)
    (hplay : Transition.play step s moves = some s') :
    work s' + moves.countP (!outside ·) ≤ work s + cost * moves.countP outside := by
  have hbound : work s' + (moves.map fun i => if !outside i then 1 else 0).sum ≤
      work s + (moves.map fun i => if outside i then cost else 0).sum := by
    refine bound hkeep ?_ hmoves hs hplay
    intro s i s' hs hi hstep
    cases hside : outside i with
    | true => simpa using houtside s i s' hs hi hside hstep
    | false => simpa [Nat.succ_le_iff] using hown s i s' hs hi hside hstep
  rwa [sum_of_kind, sum_of_kind, Nat.one_mul] at hbound

/-- What every step of a kind raises, and no step lowers, counts the steps of that kind. -/
theorem count_le (step : σ → ι → Option σ) (done : σ → Nat) {Inv : σ → Prop} {own : ι → Bool}
    (hkeep : ∀ s i s', Inv s → step s i = some s' → Inv s')
    (hown : ∀ s i s', Inv s → own i = true → step s i = some s' → done s < done s')
    (hother : ∀ s i s', Inv s → step s i = some s' → done s ≤ done s') {moves : List ι} {s s' : σ}
    (hs : Inv s) (hplay : Transition.play step s moves = some s') :
    done s + moves.countP own ≤ done s' := by
  induction moves generalizing s with
  | nil =>
      obtain rfl := Option.some.inj hplay
      exact Nat.le_refl _
  | cons i rest ih =>
      simp only [Transition.play, Option.bind_eq_some_iff] at hplay
      obtain ⟨mid, hmid, hrest⟩ := hplay
      have hlater := ih (hkeep s i mid hs hmid) hrest
      rw [List.countP_cons]
      cases hi : own i with
      | true =>
          have hfirst := hown s i mid hs hi hmid
          simp only [if_true]
          omega
      | false =>
          have hfirst := hother s i mid hs hmid
          simp only [Bool.false_eq_true, if_false]
          omega

end Runs

end Potential
