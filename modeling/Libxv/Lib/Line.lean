/-
A line: items enter at one end, wait inside in order, and leave rendered at the other.

Whatever stages a system has between its input and its output, if an item can only enter
behind all others and only the first can leave, then what has left followed by what is
still to be rendered is what has entered, rendered.  `Line` is what of a system matters
for this, `Move` the steps that respect the order.
-/
import Mathlib.Data.List.Basic

namespace Line

/-- What has entered, what is inside, first to leave first, and what has left. -/
structure View (α β : Type) where
  entered : List α
  inside : List α
  out : List β

variable {α β : Type} (render : α → List β)

/-- Nothing is lost, made up or overtaken: what has entered is what has left and after it
what is inside. -/
def Ordered (v : View α β) : Prop :=
  ∃ gone, v.entered = gone ++ v.inside ∧ v.out = gone.flatMap render

/-- The steps that keep the order. -/
inductive Move (v v' : View α β) : Prop
  | enter (a : α) (hentered : v'.entered = v.entered ++ [a]) (hinside : v'.inside = v.inside ++ [a])
      (hout : v'.out = v.out)
  | leave (a : α) (hentered : v'.entered = v.entered) (hinside : v.inside = a :: v'.inside)
      (hout : v'.out = v.out ++ render a)
  /-- A step inside, or one that concerns something else. -/
  | pass (hentered : v'.entered = v.entered) (hinside : v'.inside = v.inside)
      (hout : v'.out = v.out)

variable {render} {v v' : View α β}

/-- **A line keeps its order**: every move keeps the invariant. -/
theorem Move.ordered (hmove : Move render v v') (h : Ordered render v) : Ordered render v' := by
  obtain ⟨gone, hboth, hgone⟩ := h
  cases hmove with
  | enter a hentered hinside hout =>
      refine ⟨gone, ?_, hout.trans hgone⟩
      rw [hentered, hinside, hboth, List.append_assoc]
  | leave a hentered hinside hout =>
      refine ⟨gone ++ [a], ?_, ?_⟩
      · rw [hentered, hboth, hinside, List.append_assoc, List.singleton_append]
      · rw [hout, hgone, List.flatMap_append, List.flatMap_singleton]
  | pass hentered hinside hout =>
      refine ⟨gone, ?_, hout.trans hgone⟩
      rw [hentered, hinside]
      exact hboth

theorem Ordered.empty (hentered : v.entered = []) (hinside : v.inside = []) (hout : v.out = []) :
    Ordered render v :=
  ⟨[], by rw [hentered, hinside, List.append_nil], hout⟩

theorem Ordered.out_eq (h : Ordered render v) (hinside : v.inside = []) :
    v.out = v.entered.flatMap render := by
  obtain ⟨gone, hboth, hout⟩ := h
  rw [hboth, hinside, List.append_nil, hout]

/-! ### One source -/

/-- What one source has put into a line without repetitions can be picked out again. -/
theorem filter_mem_sublist [DecidableEq α] {mine all : List α} (hsub : mine.Sublist all)
    (hnodup : all.Nodup) : (all.filter fun a => a ∈ mine) = mine := by
  induction hsub with
  | slnil => rfl
  | @cons mine all a hsub ih =>
      obtain ⟨hnot, hrest⟩ := List.nodup_cons.mp hnodup
      have ha : a ∉ mine := fun hmem => hnot (hsub.subset hmem)
      rw [List.filter_cons_of_neg (by simpa using ha)]
      exact ih hrest
  | @cons_cons mine all a hsub ih =>
      obtain ⟨hnot, hrest⟩ := List.nodup_cons.mp hnodup
      rw [List.filter_cons_of_pos (by simp)]
      congr 1
      refine Eq.trans (List.filter_congr fun b hb => ?_) (ih hrest)
      have hne : b ≠ a := fun heq => hnot (heq ▸ hb)
      simp [hne]

/-- **No source is overtaken by itself**: of what has left, the part of one source is a prefix
of what the source has put in. -/
theorem source_prefix [DecidableEq α] {mine entered gone inside : List α}
    (hboth : entered = gone ++ inside) (hsub : mine.Sublist entered) (hnodup : entered.Nodup) :
    (gone.filter fun a => a ∈ mine) <+: mine := by
  have hmine := filter_mem_sublist hsub hnodup
  rw [hboth, List.filter_append] at hmine
  exact ⟨_, hmine⟩

end Line
