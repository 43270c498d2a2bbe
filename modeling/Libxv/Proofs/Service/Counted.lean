/-
`conn_count` counts the connection table.

The leader adds to `conn_count` when it fills a slot, and the io thread of a connection takes
from it when it clears the slot, on another thread.  A slot is only ever filled when it is
empty and cleared when it is not, so the count is the number of slots in use between the calls.
-/
import Libxv.Proofs.Service.Slots
import Mathlib.Data.Set.Card

namespace Libxv

open Function Transition

variable {P : Type} {cfg : Config} {ctl : EpollCtl} {s : State P}

/-! ### Slots in use -/

/-- The slots that hold something. -/
def occupied (slots : Nat → Option Nat) : Set Nat := {fd | slots fd ≠ none}

theorem occupied_put (slots : Nat → Option Nat) (fd c : Nat) :
    occupied (update slots fd (some c)) = insert fd (occupied slots) := by
  ext i
  by_cases hi : i = fd
  · subst hi
    simp [occupied]
  · simp [occupied, hi]

theorem occupied_clear (slots : Nat → Option Nat) (fd : Nat) :
    occupied (update slots fd none) = occupied slots \ {fd} := by
  ext i
  by_cases hi : i = fd
  · subst hi
    simp [occupied]
  · simp [occupied, hi]

/-- The count of a table is the number of its slots in use. -/
structure ConnTable.Counted (table : ConnTable) : Prop where
  finite : (occupied table.slots).Finite
  count : table.count = (occupied table.slots).ncard

theorem ConnTable.Counted.put {table : ConnTable} (h : table.Counted) {fd : Nat} (c : Nat)
    (hempty : table.slots fd = none) :
    ConnTable.Counted
      { table with slots := update table.slots fd (some c), count := table.count + 1 } where
  finite := by
    rw [occupied_put]
    exact h.finite.insert fd
  count := by
    have hnot : fd ∉ occupied table.slots := by simpa [occupied] using hempty
    rw [occupied_put, Set.ncard_insert_of_notMem hnot h.finite, h.count]
    rfl

theorem ConnTable.Counted.clear {table : ConnTable} (h : table.Counted) {fd c : Nat}
    (hfull : table.slots fd = some c) :
    ConnTable.Counted
      { table with slots := update table.slots fd none, count := table.count - 1 } where
  finite := by
    rw [occupied_clear]
    exact h.finite.sdiff
  count := by
    have hmem : fd ∈ occupied table.slots := by simp [occupied, hfull]
    have hone := Set.ncard_sdiff_singleton_add_one hmem h.finite
    dsimp only
    rw [occupied_clear, h.count]
    omega

/-! ### Every run -/

theorem State.Exact.counted (h : s.Exact) (hsound : s.Sound) (hlisted : s.Listed)
    (hcounted : s.table.Counted) {a : Agent} {act : Act P} {next : State P} {pc' : Pc P}
    (hsafe : s.safe a = true) (hinstr : Instr cfg ctl s a (s.pc a) act next pc') :
    next.table.Counted := by
  rcases hinstr.table_cases with hsame | ⟨c, garbage, hpc, hadd⟩ | ⟨c, resume, hpc, hdel⟩
  · rw [hsame]
    exact hcounted
  · have hlt := (hsound.adopted.lt_of_adopts (a := a) (c := c) (by rw [hpc]; rfl)).1
    rw [xvServiceAddConnection_below (h.below c hlt), Option.some.injEq] at hadd
    rw [← hadd]
    exact hcounted.put c (h.adding hsound hlisted hpc)
  · have halive := State.safe_alive hsafe (c := c) (by rw [hpc]; rfl)
    obtain ⟨-, hbelow, hslot⟩ := hlisted.deleting hsound hpc halive
    rw [hdel, xvServiceDelConnection_below hbelow]
    exact hcounted.clear hslot

theorem State.counted (h : Reach (State.step cfg ctl) AcceptsBelow (· = State.init) s) :
    s.table.Counted := by
  refine h.invariant_along (I := fun s => s.table.Counted) ?_ ?_
  · intro s hs
    subst hs
    have hempty : occupied (State.init : State P).table.slots = ∅ := by
      simp [occupied, State.init]
    exact ⟨hempty ▸ Set.finite_empty, by rw [hempty, Set.ncard_empty]; rfl⟩
  · intro s label s' hreach hcounted hok hstep
    rcases State.step_split hstep with ⟨a, act, next, pc, rfl, hsafe, hinstr, rfl⟩ | hsame
    · have hnext : next.table.Counted := (State.exact hreach).counted (State.sound hreach)
        (State.listed hreach) hcounted hsafe hinstr
      exact hnext
    · rw [hsame.table]
      exact hcounted

/-- The connections that have been put in the table and not been taken out. -/
def State.inTable (s : State P) : Set Nat :=
  {c | c < s.nextConn ∧ (s.conns c).deleted = 0 ∧ ∀ a, s.pc a ≠ .addConnection c}

/-- **`conn_count` is exact.**  In every reachable state of a service whose fds stay below the
table's size, it is the number of slots in use and the number of connections that have been
added to the table and not deleted, each of which has a slot of its own: the one of its fd.  An
addition is one step, and so is a deletion: between the store of one and its `xv_atomic_incr` or
`xv_atomic_decr`, which are two accesses in the source, the count is off by it. -/
theorem conn_count_exact (h : Reach (State.step cfg ctl) AcceptsBelow (· = State.init) s) :
    s.table.count = (occupied s.table.slots).ncard ∧ s.table.count = s.inTable.ncard ∧
      Set.BijOn (fun c => (s.conns c).conn.fd) s.inTable (occupied s.table.slots) := by
  have hcounted := State.counted h
  have hlisted := State.listed h
  have hexact := State.exact h
  have hbij : Set.BijOn (fun c => (s.conns c).conn.fd) s.inTable (occupied s.table.slots) := by
    refine ⟨?_, ?_, ?_⟩
    · rintro c ⟨hc, hdeleted, hadding⟩
      have hslot := (hlisted.slot c hc hdeleted).resolve_left fun ⟨a, ha⟩ => hadding a ha
      simp [occupied, hslot]
    · rintro c ⟨hc, hdeleted, -⟩ c' ⟨hc', hdeleted', -⟩ hfd
      exact hlisted.apart c c' hc hc' (hlisted.ordered c hc hdeleted)
        (hlisted.ordered c' hc' hdeleted') hfd
    · intro fd hfd
      obtain ⟨c, hslot⟩ := Option.ne_none_iff_exists'.mp hfd
      obtain ⟨hc, hcfd, hdeleted, hadding⟩ := hexact.slot fd c hslot
      exact ⟨c, ⟨hc, hdeleted, hadding⟩, hcfd⟩
  refine ⟨hcounted.count, ?_, hbij⟩
  rw [hcounted.count, ← hbij.image_eq, hbij.injOn.ncard_image]

/-- Two connections are accepted, and the first is closed by its peer. -/
theorem conn_count_exact_two : ∃ s : State Unit, s.nextConn = 2 ∧
    s.table.count = 1 ∧ s.table.count = s.inTable.ncard := by
  have hrun : ∃ s : State Unit,
      Reach (State.step inlineConfig acceptAll) AcceptsBelow (· = State.init) s ∧
      s.nextConn = 2 ∧ s.table.count = 1 :=
    ⟨_, Reach.play (acceptOne ++ [.act (.io 0) (.accept 6 fullHandle fun _ => 0),
      .act (.io 0) (.table fun _ => none)] ++ goes (.io 0) 1 ++ readEof ++ goes (.io 0) 3)
      (.start rfl) (by decide) rfl, rfl, rfl⟩
  obtain ⟨s, hreach, hnext, hcount⟩ := hrun
  exact ⟨s, hnext, hcount, (conn_count_exact hreach).2.1⟩

end Libxv
