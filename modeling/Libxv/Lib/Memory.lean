/-
A block of memory, read and written a range at a time.

A block is a function from offsets to cells, so cells nobody has written hold
whatever they hold and reallocation needs no case of its own.  `load` reads a range
as a list, `store` writes a list at an offset and `move` copies a range inside the
block.  Every lemma says what a `load` sees, which is all a user of the block asks.
-/
import Mathlib.Data.List.Basic

namespace Memory

variable {α : Type}

/-- The `n` cells from offset `off` on. -/
def load (mem : Nat → α) (off n : Nat) : List α :=
  (List.range n).map fun i => mem (off + i)

/-- Write `src` at offset `off`. -/
def store (mem : Nat → α) (off : Nat) (src : List α) : Nat → α := fun i =>
  if off ≤ i then (src[i - off]?).getD (mem i) else mem i

/-- Copy the `n` cells from offset `src` on to the front of the block. -/
def move (mem : Nat → α) (src n : Nat) : Nat → α := fun i =>
  if i < n then mem (src + i) else mem i

@[simp] theorem length_load (mem : Nat → α) (off n : Nat) : (load mem off n).length = n := by
  simp [load]

theorem getElem_load {mem : Nat → α} {off n i : Nat} (h : i < (load mem off n).length) :
    (load mem off n)[i] = mem (off + i) := by
  simp [load]

/-- A range is its front followed by its back. -/
theorem load_add (mem : Nat → α) (off m n : Nat) :
    load mem off (m + n) = load mem off m ++ load mem (off + m) n := by
  simp [load, List.range_add, Function.comp_def, Nat.add_assoc]

theorem take_load (mem : Nat → α) (off m n : Nat) :
    (load mem off n).take m = load mem off (min m n) := by
  refine List.ext_getElem (by simp) ?_
  intro i h1 h2
  rw [List.getElem_take, getElem_load, getElem_load]

theorem drop_load (mem : Nat → α) (off m n : Nat) :
    (load mem off n).drop m = load mem (off + m) (n - m) := by
  refine List.ext_getElem (by simp) ?_
  intro i h1 h2
  rw [List.getElem_drop, getElem_load, getElem_load, Nat.add_assoc]

/-- Two blocks that agree on a range read the same there. -/
theorem load_congr {mem mem' : Nat → α} {off off' n : Nat}
    (h : ∀ i, i < n → mem' (off' + i) = mem (off + i)) :
    load mem' off' n = load mem off n := by
  refine List.ext_getElem (by simp) ?_
  intro i h1 h2
  rw [getElem_load, getElem_load]
  exact h i (by simpa using h2)

/-- What was stored is what is read back. -/
theorem load_store_self (mem : Nat → α) (off : Nat) (src : List α) :
    load (store mem off src) off src.length = src := by
  refine List.ext_getElem (by simp) ?_
  intro i h1 h2
  rw [getElem_load]
  simp [store, h2]

/-- A store leaves the cells below it alone. -/
theorem load_store_below (mem : Nat → α) {off at_ n : Nat} (src : List α) (h : off + n ≤ at_) :
    load (store mem at_ src) off n = load mem off n := by
  refine load_congr fun i hi => ?_
  simp only [store]
  rw [if_neg (by omega)]

/-- A move puts the range it copies at the front. -/
theorem load_move (mem : Nat → α) (src n : Nat) : load (move mem src n) 0 n = load mem src n := by
  refine load_congr fun i hi => ?_
  simp only [move, Nat.zero_add]
  rw [if_pos hi]

end Memory
