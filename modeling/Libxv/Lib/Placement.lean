/-
Tokens that are always in exactly one place.

A system that hands objects from party to party keeps a simple promise: every live object
is somewhere, in one place only and there only once.  A place holds a list, since it may be
a queue; a pair of hands is a queue of at most one.  `Placed` states the promise for any
set of live tokens and any contents of the places, and `create`, `destroy` and `move` are
the rules for the steps: a token comes to the end of a list, and leaves from its head.
-/
import Mathlib.Data.List.Nodup
import Mathlib.Logic.ExistsUnique

namespace Placement

variable {Token Place : Type}

/-- Every live token is in exactly one place, once, and only live tokens are anywhere. -/
structure Placed (Live : Token → Prop) (contents : Place → List Token) : Prop where
  live : ∀ {p m}, m ∈ contents p → Live m
  nodup : ∀ p, (contents p).Nodup
  apart : ∀ {p q m}, m ∈ contents p → m ∈ contents q → p = q
  placed : ∀ {m}, Live m → ∃ p, m ∈ contents p

variable {Live Live' : Token → Prop} {contents contents' : Place → List Token}

/-- **A live token is in exactly one place.** -/
theorem Placed.existsUnique (h : Placed Live contents) {m : Token} (hm : Live m) :
    ∃! p, m ∈ contents p := by
  obtain ⟨p, hp⟩ := h.placed hm
  exact ⟨p, hp, fun q hq => h.apart hq hp⟩

/-- Nothing is created, moved or destroyed. -/
theorem Placed.congr (h : Placed Live contents) (hlive : ∀ m, Live' m ↔ Live m)
    (hcontents : ∀ p, contents' p = contents p) : Placed Live' contents' := by
  obtain rfl : contents' = contents := funext hcontents
  obtain rfl : Live' = Live := funext fun m => propext (hlive m)
  exact h

/-- A new token is put at the end of a place. -/
theorem Placed.create (h : Placed Live contents) {m : Token} {p : Place} (hnew : ¬ Live m)
    (hlive : ∀ x, Live' x ↔ Live x ∨ x = m) (hp : contents' p = contents p ++ [m])
    (hother : ∀ q, q ≠ p → contents' q = contents q) : Placed Live' contents' := by
  have hnowhere : ∀ q, m ∉ contents q := fun q hq => hnew (h.live hq)
  have hmem : ∀ q x, x ∈ contents' q → x ∈ contents q ∨ (q = p ∧ x = m) := by
    intro q x hx
    by_cases hq : q = p
    · subst hq
      rw [hp] at hx
      rcases List.mem_append.mp hx with hold | hnew
      · exact Or.inl hold
      · exact Or.inr ⟨rfl, List.mem_singleton.mp hnew⟩
    · rw [hother q hq] at hx
      exact Or.inl hx
  refine ⟨?_, ?_, ?_, ?_⟩
  · intro q x hx
    rcases hmem q x hx with hold | ⟨-, rfl⟩
    · exact (hlive x).mpr (Or.inl (h.live hold))
    · exact (hlive x).mpr (Or.inr rfl)
  · intro q
    by_cases hq : q = p
    · subst hq
      rw [hp]
      exact List.Nodup.append (h.nodup q) (List.nodup_singleton m)
        (List.disjoint_singleton.mpr (hnowhere q))
    · rw [hother q hq]
      exact h.nodup q
  · intro q r x hq hr
    rcases hmem q x hq with hqold | ⟨rfl, rfl⟩ <;> rcases hmem r x hr with hrold | ⟨rfl, hx⟩
    · exact h.apart hqold hrold
    · subst hx
      exact absurd hqold (hnowhere q)
    · exact absurd hrold (hnowhere r)
    · rfl
  · intro x hx
    rcases (hlive x).mp hx with hold | rfl
    · obtain ⟨q, hq⟩ := h.placed hold
      by_cases hqp : q = p
      · subst hqp
        exact ⟨q, by rw [hp]; exact List.mem_append_left _ hq⟩
      · exact ⟨q, by rw [hother q hqp]; exact hq⟩
    · exact ⟨p, by rw [hp]; exact List.mem_append_right _ (List.mem_singleton_self x)⟩

/-- The token at the head of a place is destroyed. -/
theorem Placed.destroy (h : Placed Live contents) {m : Token} {l : List Token} {p : Place}
    (hhead : contents p = m :: l) (hlive : ∀ x, Live' x ↔ Live x ∧ x ≠ m)
    (hp : contents' p = l) (hother : ∀ q, q ≠ p → contents' q = contents q) :
    Placed Live' contents' := by
  have hm : m ∈ contents p := by rw [hhead]; exact List.mem_cons_self
  have hnodup := h.nodup p
  rw [hhead, List.nodup_cons] at hnodup
  have hsub : ∀ q x, x ∈ contents' q → x ∈ contents q := by
    intro q x hx
    by_cases hq : q = p
    · subst hq
      rw [hp] at hx
      rw [hhead]
      exact List.mem_cons_of_mem m hx
    · rw [hother q hq] at hx
      exact hx
  refine ⟨?_, ?_, ?_, ?_⟩
  · intro q x hx
    refine (hlive x).mpr ⟨h.live (hsub q x hx), ?_⟩
    rintro rfl
    obtain rfl := h.apart (hsub q x hx) hm
    rw [hp] at hx
    exact hnodup.1 hx
  · intro q
    by_cases hq : q = p
    · subst hq
      rw [hp]
      exact hnodup.2
    · rw [hother q hq]
      exact h.nodup q
  · exact fun hq hr => h.apart (hsub _ _ hq) (hsub _ _ hr)
  · intro x hx
    obtain ⟨hold, hne⟩ := (hlive x).mp hx
    obtain ⟨q, hq⟩ := h.placed hold
    by_cases hqp : q = p
    · subst hqp
      rw [hhead] at hq
      exact ⟨q, by rw [hp]; exact (List.mem_cons.mp hq).resolve_left hne⟩
    · exact ⟨q, by rw [hother q hqp]; exact hq⟩

/-- All the tokens in a place are destroyed. -/
theorem Placed.clear (h : Placed Live contents) {p : Place}
    (hlive : ∀ x, Live' x ↔ Live x ∧ x ∉ contents p) (hp : contents' p = [])
    (hother : ∀ q, q ≠ p → contents' q = contents q) : Placed Live' contents' := by
  have hsub : ∀ q x, x ∈ contents' q → x ∈ contents q ∧ q ≠ p := by
    intro q x hx
    by_cases hq : q = p
    · subst hq
      rw [hp] at hx
      exact absurd hx List.not_mem_nil
    · rw [hother q hq] at hx
      exact ⟨hx, hq⟩
  refine ⟨?_, ?_, ?_, ?_⟩
  · intro q x hx
    obtain ⟨hmem, hne⟩ := hsub q x hx
    exact (hlive x).mpr ⟨h.live hmem, fun hgone => hne (h.apart hmem hgone)⟩
  · intro q
    by_cases hq : q = p
    · subst hq
      rw [hp]
      exact List.nodup_nil
    · rw [hother q hq]
      exact h.nodup q
  · exact fun hq hr => h.apart (hsub _ _ hq).1 (hsub _ _ hr).1
  · intro x hx
    obtain ⟨hold, hnot⟩ := (hlive x).mp hx
    obtain ⟨q, hq⟩ := h.placed hold
    have hne : q ≠ p := by
      rintro rfl
      exact hnot hq
    exact ⟨q, by rw [hother q hne]; exact hq⟩

/-- The token at the head of one place goes to the end of another. -/
theorem Placed.move [DecidableEq Place] (h : Placed Live contents) {m : Token}
    {l : List Token} {p q : Place} (hpq : p ≠ q) (hhead : contents p = m :: l)
    (hlive : ∀ x, Live' x ↔ Live x) (hp : contents' p = l)
    (hq : contents' q = contents q ++ [m])
    (hother : ∀ r, r ≠ p → r ≠ q → contents' r = contents r) : Placed Live' contents' := by
  have hm : Live m := h.live (p := p) (by rw [hhead]; exact List.mem_cons_self)
  have hgone : Placed (fun x => Live x ∧ x ≠ m) (Function.update contents p l) :=
    h.destroy hhead (fun _ => Iff.rfl) (Function.update_self ..)
      fun r hr => Function.update_of_ne hr ..
  refine hgone.create (m := m) (p := q) (fun hx => hx.2 rfl) ?_ ?_ ?_
  · intro x
    rw [hlive]
    constructor
    · intro hx
      by_cases hxm : x = m
      · exact Or.inr hxm
      · exact Or.inl ⟨hx, hxm⟩
    · rintro (⟨hx, -⟩ | rfl)
      · exact hx
      · exact hm
  · rw [Function.update_of_ne hpq.symm]
    exact hq
  · intro r hr
    by_cases hrp : r = p
    · subst hrp
      rw [Function.update_self]
      exact hp
    · rw [Function.update_of_ne hrp]
      exact hother r hrp hr

end Placement
