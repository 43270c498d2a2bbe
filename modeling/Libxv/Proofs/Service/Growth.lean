/-
The connection table when it grows.

`xv_service_add_connection` grows the table once, to twice the size, and only for an fd past
the size: an fd that is the size, and one from twice the size on, is written past the end.  The
slots it adds are as `realloc` leaves them, where `xv_service_init` zeroes those of a new table.
What the loops of `xv_service_stop` and `xv_service_destroy` find in a slot is a connection as
long as neither happens.
-/
import Libxv.Proofs.Service.Table
import Libxv.Lib.Trace

namespace Libxv

open Function Transition

inductive TableCall
  | add (fd c : Nat) (garbage : Nat → Option Nat)
  | del (fd : Nat)

def ConnTable.step (table : ConnTable) : TableCall → Option ConnTable
  | .add fd c garbage => xvServiceAddConnection table fd c garbage
  | .del fd => some (xvServiceDelConnection table fd).2

/-- The table of a new service. -/
def ConnTable.init : ConnTable :=
  { slots := fun _ => none, setsize := xvDefaultLoopSize, count := 0 }

/-- Where a call puts a connection. -/
def TableCall.puts : TableCall → Option (Nat × Nat)
  | .add fd c _ => some (fd, c)
  | .del _ => none

/-- The connection is in its slot, and the table holds nothing else that it did not hold. -/
structure ConnTable.Added (table : ConnTable) (fd c : Nat) (table' : ConnTable) : Prop where
  below : fd < table'.setsize
  slot : table'.slots fd = some c
  kept : ∀ i, i < table.setsize → i ≠ fd → table'.slots i = table.slots i
  fresh : ∀ i, table.setsize ≤ i → i < table'.setsize → i ≠ fd → table'.slots i = none

/-- The slots that a growth adds happen to be NULL, but for that of the fd. -/
def ConnTable.GrowsNull (table : ConnTable) (fd : Nat) (garbage : Nat → Option Nat) : Prop :=
  ∀ i, table.setsize ≤ i → i < table.setsize * 2 → i ≠ fd → garbage i = none

/-- There is room for the fd, or there will be. -/
def ConnTable.Fits (table : ConnTable) (fd : Nat) (garbage : Nat → Option Nat) : Prop :=
  fd < table.setsize ∨
    table.setsize < fd ∧ fd < table.setsize * 2 ∧
      sizeofPointer * (table.setsize * 2) ≤ intMax ∧ table.GrowsNull fd garbage

def TableCall.Fits (table : ConnTable) : TableCall → Prop
  | .add fd _ garbage => table.Fits fd garbage
  | .del _ => True

variable {table table' : ConnTable} {fd c : Nat} {garbage : Nat → Option Nat}

/-! ### One call -/

/-- The table once it has grown for a connection. -/
def ConnTable.grown (table : ConnTable) (fd c : Nat) (garbage : Nat → Option Nat) : ConnTable :=
  { slots := update (fun i => if i < table.setsize then table.slots i else garbage i) fd (some c)
    setsize := table.setsize * 2
    count := table.count + 1 }

theorem ConnTable.grown_slot : (table.grown fd c garbage).slots fd = some c := by
  simp [grown]

theorem ConnTable.grown_kept {i : Nat} (hi : i < table.setsize) (hne : i ≠ fd) :
    (table.grown fd c garbage).slots i = table.slots i := by
  simp [grown, hne, hi]

theorem ConnTable.grown_fresh {i : Nat} (hi : table.setsize ≤ i) (hne : i ≠ fd) :
    (table.grown fd c garbage).slots i = garbage i := by
  simp [grown, hne, Nat.not_lt.mpr hi]

theorem xvServiceAddConnection_grows (hfd : table.setsize < fd) :
    xvServiceAddConnection table fd c garbage =
      if sizeofPointer * (table.setsize * 2) ≤ intMax ∧ fd < table.setsize * 2 then
        some (table.grown fd c garbage)
      else none := by
  by_cases hbytes : sizeofPointer * (table.setsize * 2) ≤ intMax
  · by_cases hroom : fd < table.setsize * 2 <;>
      simp [xvServiceAddConnection, ConnTable.grown, hfd, hbytes, hroom]
  · simp [xvServiceAddConnection, hfd, hbytes]

/-- The fd that is the size is written past the end. -/
theorem xvServiceAddConnection_at (hfd : fd = table.setsize) :
    xvServiceAddConnection table fd c garbage = none := by
  simp [xvServiceAddConnection, hfd]

theorem ConnTable.Fits.added (h : table.Fits fd garbage) :
    ∃ table', xvServiceAddConnection table fd c garbage = some table' ∧
      table.Added fd c table' := by
  rcases h with hbelow | ⟨hpast, hroom, hbytes, hnull⟩
  · refine ⟨_, xvServiceAddConnection_below hbelow, hbelow, update_self .., ?_, ?_⟩
    · exact fun i _ hne => update_of_ne hne ..
    · exact fun i hge hlt _ => absurd hlt (Nat.not_lt.mpr hge)
  · refine ⟨_, (xvServiceAddConnection_grows hpast).trans (if_pos ⟨hbytes, hroom⟩), hroom,
      ConnTable.grown_slot, fun i hi hne => ConnTable.grown_kept hi hne, fun i hge hlt hne => ?_⟩
    exact (ConnTable.grown_fresh hge hne).trans (hnull i hge hlt hne)

theorem ConnTable.Added.fits (h : table.Added fd c table')
    (hadd : xvServiceAddConnection table fd c garbage = some table') : table.Fits fd garbage := by
  rcases Nat.lt_trichotomy fd table.setsize with hbelow | hat | hpast
  · exact .inl hbelow
  · rw [xvServiceAddConnection_at hat] at hadd
    simp at hadd
  · rw [xvServiceAddConnection_grows hpast, Option.ite_none_right_eq_some] at hadd
    obtain ⟨⟨hbytes, hroom⟩, heq⟩ := hadd
    obtain rfl := Option.some.inj heq
    refine .inr ⟨hpast, hroom, hbytes, fun i hge hlt hne => ?_⟩
    exact (ConnTable.grown_fresh hge hne).symm.trans (h.fresh i hge hlt hne)

/-! ### Runs -/

/-- Every slot that the loops of `xv_service_stop` and `xv_service_destroy` look at is NULL or
holds a connection that was put there. -/
def ConnTable.Clean (table : ConnTable) (put : List (Nat × Nat)) : Prop :=
  ∀ i, i < table.setsize → ∀ c, table.slots i = some c → (i, c) ∈ put

theorem ConnTable.Clean.step {put : List (Nat × Nat)} (h : table.Clean put) {call : TableCall}
    (hfits : call.Fits table) (hstep : table.step call = some table') :
    table'.Clean (put ++ call.puts.toList) := by
  intro i hi c hslot
  rw [List.mem_append]
  cases call with
  | add fd c' garbage =>
      obtain ⟨table₁, hadd, hadded⟩ := ConnTable.Fits.added (c := c') hfits
      obtain rfl : table₁ = table' := Option.some.inj (hadd.symm.trans hstep)
      by_cases hfd : i = fd
      · subst hfd
        obtain rfl : c' = c := Option.some.inj (hadded.slot.symm.trans hslot)
        exact .inr (List.mem_singleton_self _)
      · rcases Nat.lt_or_ge i table.setsize with hlt | hge
        · exact .inl (h i hlt c ((hadded.kept i hlt hfd).symm.trans hslot))
        · exact absurd ((hadded.fresh i hge hi hfd).symm.trans hslot) (by simp)
  | del fd =>
      obtain rfl := Option.some.inj hstep
      left
      unfold xvServiceDelConnection at hi hslot
      split at hslot
      · rename_i hpast
        rw [if_pos hpast] at hi
        exact h i hi c hslot
      · rename_i hbelow
        rw [if_neg hbelow] at hi
        have hfd : i ≠ fd := by
          rintro rfl
          exact absurd ((update_self ..).symm.trans hslot) (by simp)
        exact h i hi c ((update_of_ne hfd ..).symm.trans hslot)

/--
**When the connection table grows as it should**: adding a connection puts it in its slot, keeps
the others and adds only empty ones if and only if its fd is below the size, or is past the
size, below twice the size and the slots that `realloc` adds happen to be NULL.  In a run in
which every connection added meets this, each slot is NULL or holds a connection that was put
there.
-/
theorem table_growth_iff (table : ConnTable) (fd c : Nat) (garbage : Nat → Option Nat)
    {x : Traced ConnTable (Nat × Nat)}
    (h : Reach (traced ConnTable.step fun _ call => call.puts) (fun x call => call.Fits x.state)
      (Traced.Start (· = ConnTable.init)) x) :
    ((∃ table', xvServiceAddConnection table fd c garbage = some table' ∧
        table.Added fd c table') ↔ table.Fits fd garbage) ∧
      x.state.Clean x.trace := by
  refine ⟨⟨?_, ConnTable.Fits.added⟩, ?_⟩
  · rintro ⟨table', hadd, hadded⟩
    exact hadded.fits hadd
  · refine h.invariant (I := fun x => x.state.Clean x.trace) (fun x hx i _ c hslot => ?_) ?_
    · rw [hx.state] at hslot
      cases hslot
    · intro x call x' hclean hfits hmove
      obtain ⟨hmove, htrace⟩ := traced_some hmove
      rw [htrace]
      exact hclean.step hfits hmove

/-- A connection on fd 1030, in a table of 1024 slots whose new ones happen to be NULL. -/
theorem table_growth_iff_past :
    ∃ table, xvServiceAddConnection ConnTable.init 1030 7 (fun _ => none) = some table ∧
      table.setsize = 2048 ∧ ConnTable.init.Added 1030 7 table ∧
      table.Clean [(1030, 7)] := by
  have hfits : ConnTable.init.Fits 1030 fun _ => none :=
    .inr ⟨by decide, by decide, by decide, fun _ _ _ _ => rfl⟩
  have hstart : Traced.Start (· = ConnTable.init)
      ({ state := ConnTable.init, trace := [] } : Traced ConnTable (Nat × Nat)) := ⟨rfl, rfl⟩
  obtain ⟨table, hadd, hadded⟩ :=
    (table_growth_iff ConnTable.init 1030 7 (fun _ => none) (.start hstart)).1.mpr hfits
  have hsize : table.setsize = 2048 :=
    congrArg ConnTable.setsize (Option.some.inj (hadd.symm.trans rfl))
  have hrun : traced ConnTable.step (fun _ call => call.puts)
      { state := ConnTable.init, trace := [] } (.add 1030 7 fun _ => none) =
        some { state := table, trace := [(1030, 7)] } := by
    simp only [traced, ConnTable.step, hadd, Option.map_some]
    rfl
  have hclean := (table_growth_iff (x := ⟨table, [(1030, 7)]⟩) table 0 0 (fun _ => none)
    (.next (i := .add 1030 7 fun _ => none) (.start hstart) hfits hrun)).2
  exact ⟨table, hadd, hsize, hadded, hclean⟩

/-- An fd that is the size, one of twice the size, and one between the two where a slot that
`realloc` added is not NULL. -/
theorem table_growth_out :
    Reachable ConnTable.step (· = ConnTable.init) ConnTable.init ∧
      xvServiceAddConnection ConnTable.init 1024 7 (fun _ => none) = none ∧
      xvServiceAddConnection ConnTable.init 2048 7 (fun _ => none) = none ∧
      ∃ table, xvServiceAddConnection ConnTable.init 1030 7 (fun _ => some 3) = some table ∧
        table.slots 1029 = some 3 ∧ ¬ ConnTable.init.Added 1030 7 table := by
  refine ⟨.start rfl, rfl, rfl, _, rfl, rfl, fun hadded => ?_⟩
  exact absurd (hadded.fresh 1029 (by decide) (by decide) (by decide)) (by decide)

end Libxv
