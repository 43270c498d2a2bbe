/-
When `xv_service_destroy` releases everything once.

What a whole call keeps says what it has freed and destroyed in the end: the connections of the
table and of the hand-off queues, and every message after all of them.  So everything is released
once exactly when there is nothing left to do: the table lists the allocated connections and
nothing else, no connection is in a hand-off queue, and no message is anywhere.
-/
import Libxv.Proofs.Service.Return
import Mathlib.Data.List.Perm.Subperm

namespace Libxv

open Function Transition

variable {P : Type} {cfg : Config} {ctl : EpollCtl} {s : State P} {x : Destroying P}

/-! ### When everything is released once -/

/-- Everything is released exactly once. -/
structure Destroying.ReleasesOnce (x : Destroying P) : Prop where
  connections : ∀ c, x.freed.count c = if x.entered.alive c then 1 else 0
  /-- Every pending message is destroyed once, with the `packet_cleanup` of its own connection's
  handle and while that connection is allocated. -/
  messages : ∀ m, x.entered.live m = true →
    (x.destroyed.filter fun d => d.message = m) = [⟨m, true, true⟩]
  pushes : ∀ push ∈ x.pushes, push.gone = false

/-- Nothing is left to do. -/
structure State.Drained (cfg : Config) (s : State P) : Prop where
  /-- The table lists nothing but allocated connections, each in the slot of its fd. -/
  listed : ∀ i c, i < s.table.setsize → s.table.slots i = some c →
    s.alive c = true ∧ (s.conns c).conn.fd = i
  adopted : ∀ t, t < cfg.ioThreadCount → (s.io t).connQueue = []
  /-- No message is in a queue, nor in the hands of a worker or a user thread. -/
  answered : ∀ m, s.live m = false

theorem State.count_tableFrom (s : State P) (c : Nat) : (s.tableFrom 0).count c =
    (List.range' 0 s.table.setsize).countP fun i => s.table.slots i == some c :=
  List.count_filterMap

theorem State.mem_tableFrom {c : Nat} :
    c ∈ s.tableFrom 0 ↔ ∃ i, i < s.table.setsize ∧ s.table.slots i = some c := by
  unfold State.tableFrom
  simp [List.mem_filterMap, List.mem_range'_1]

theorem State.mem_queuesFrom {c : Nat} :
    c ∈ s.queuesFrom cfg 0 ↔ ∃ t, t < cfg.ioThreadCount ∧ c ∈ (s.io t).connQueue := by
  unfold State.queuesFrom
  simp [List.mem_flatMap, List.mem_range'_1]

/-- A connection in two slots is listed twice. -/
theorem State.two_le_count {i j c : Nat} (hi : i < s.table.setsize) (hj : j < s.table.setsize)
    (hne : i ≠ j) (hslot : s.table.slots i = some c) (hslot' : s.table.slots j = some c) :
    2 ≤ (s.tableFrom 0).count c := by
  have hsub : [i, j].Subperm (List.range' 0 s.table.setsize) := by
    refine List.subperm_of_subset (by simp [hne]) fun k hk => ?_
    rw [List.mem_range'_1]
    rcases List.mem_pair.mp hk with rfl | rfl <;> omega
  rw [State.count_tableFrom]
  calc 2 = [i, j].countP fun i => s.table.slots i == some c := by simp [hslot, hslot']
    _ ≤ _ := hsub.countP_le _

theorem State.count_eq_one {k c : Nat} (hk : k < s.table.setsize)
    (hslot : s.table.slots k = some c)
    (hone : ∀ i, i < s.table.setsize → s.table.slots i = some c → i = k) :
    (s.tableFrom 0).count c = 1 := by
  have hmem : k ∈ List.range' 0 s.table.setsize := by
    rw [List.mem_range'_1]
    omega
  rw [State.count_tableFrom]
  calc (List.range' 0 s.table.setsize).countP (fun i => s.table.slots i == some c)
      = (List.range' 0 s.table.setsize).count k := by
        refine List.countP_congr fun i hi => ?_
        rw [List.mem_range'_1] at hi
        simp only [beq_iff_eq]
        exact ⟨fun h => hone i (by omega) h, fun h => h ▸ hslot⟩
    _ = 1 := List.count_eq_one_of_mem List.nodup_range' hmem

/-- The leftovers are the allocated connections, once each, when no queue and no wrong slot adds
to them. -/
theorem State.InTable.leftovers_once (h : s.InTable) (cfg : Config) :
    (∀ c, (s.leftovers cfg).count c = if s.alive c then 1 else 0) ↔
      (∀ i c, i < s.table.setsize → s.table.slots i = some c →
        s.alive c = true ∧ (s.conns c).conn.fd = i) ∧
        ∀ t, t < cfg.ioThreadCount → (s.io t).connQueue = [] := by
  have hsplit : ∀ c, (s.leftovers cfg).count c =
      (s.tableFrom 0).count c + (s.queuesFrom cfg 0).count c := fun c => List.count_append
  constructor
  · intro hcount
    have halive : ∀ {c : Nat}, 0 < (s.leftovers cfg).count c → s.alive c = true := by
      intro c hpos
      rw [hcount c] at hpos
      by_contra hdead
      simp [hdead] at hpos
    refine ⟨fun i c hi hslot => ?_, fun t ht => ?_⟩
    · have hpos := List.count_pos_iff.mpr (State.mem_tableFrom.mpr ⟨i, hi, hslot⟩)
      have hc := halive (c := c) (by rw [hsplit]; omega)
      obtain ⟨hfd, hown⟩ := h c hc
      refine ⟨hc, ?_⟩
      by_contra hne
      have htwo := State.two_le_count hfd hi hne hown hslot
      have hone := hcount c
      rw [hsplit, hc, if_pos rfl] at hone
      omega
    · rw [List.eq_nil_iff_forall_not_mem]
      intro c hmem
      have hpos := List.count_pos_iff.mpr (State.mem_queuesFrom.mpr ⟨t, ht, hmem⟩)
      have hc := halive (c := c) (by rw [hsplit]; omega)
      obtain ⟨hfd, hown⟩ := h c hc
      have htable := List.count_pos_iff.mpr (State.mem_tableFrom.mpr ⟨_, hfd, hown⟩)
      have hone := hcount c
      rw [hsplit, hc, if_pos rfl] at hone
      omega
  · rintro ⟨hlisted, hqueues⟩ c
    have hempty : s.queuesFrom cfg 0 = [] := by
      rw [List.eq_nil_iff_forall_not_mem]
      intro c' hmem
      obtain ⟨t, ht, hmem⟩ := State.mem_queuesFrom.mp hmem
      rw [hqueues t ht] at hmem
      exact absurd hmem List.not_mem_nil
    rw [hsplit, hempty, List.count_nil, Nat.add_zero]
    cases halive : s.alive c with
    | true =>
        obtain ⟨hfd, hown⟩ := h c halive
        exact State.count_eq_one hfd hown fun i hi hslot => (hlisted i c hi hslot).2.symm
    | false =>
        refine List.count_eq_zero.mpr fun hmem => ?_
        obtain ⟨i, hi, hslot⟩ := State.mem_tableFrom.mp hmem
        exact absurd (hlisted i c hi hslot).1 (by simp [halive])

/-! ### Exactly when -/

/--
**`xv_service_destroy` releases everything exactly once when nothing is left to do**: on any
service that is stopped and whose io threads are joined, and however its workers go on, a call
that returns has freed every connection once, destroyed every pending message once with its own
cleanup while its connection was allocated, and seen no push to a destroyed queue, exactly when
the table listed the allocated connections and nothing else, every hand-off queue was empty and
there was no message anywhere.  Then at no time before has a connection been freed twice or
anything pushed.
-/
theorem releases_once_iff (h : Reachable (Destroying.step cfg) (Destroying.Start cfg ctl) x) :
    (x.pc = .returned → (x.ReleasesOnce ↔ x.entered.Drained cfg)) ∧
      (x.entered.Drained cfg → (∀ c, x.freed.count c ≤ if x.entered.alive c then 1 else 0) ∧
        x.destroyed = [] ∧ x.pushes = []) := by
  have htracks := Destroying.tracks h
  have honce := htracks.inTable.leftovers_once cfg
  refine ⟨fun hreturned => ?_, fun hdrained => ⟨fun c => ?_, (htracks.quiet hdrained.answered).2⟩⟩
  case refine_2 =>
    rw [← honce.mpr ⟨hdrained.listed, hdrained.adopted⟩ c, ← htracks.released, List.count_append]
    exact Nat.le_add_right ..
  have hfreed : x.freed = x.entered.leftovers cfg := by
    rw [← htracks.released, Destroying.pending_pooling (by rw [hreturned]; rfl), List.append_nil]
  constructor
  · intro hreleases
    obtain ⟨hlisted, hqueues⟩ := honce.mp (hfreed ▸ hreleases.connections)
    refine ⟨hlisted, hqueues, fun m => ?_⟩
    -- A message is destroyed after its connection, if at all.
    by_contra hlive
    have hfilter := hreleases.messages m (by simpa using hlive)
    have hmem : (⟨m, true, true⟩ : Destruction) ∈ x.destroyed.filter fun d => d.message = m := by
      rw [hfilter]
      exact List.mem_singleton_self _
    exact absurd (htracks.late _ (List.mem_filter.mp hmem).1) (by simp)
  · intro hdrained
    refine ⟨?_, fun m hlive => ?_, fun push hpush => ?_⟩
    · rw [hfreed]
      exact honce.mpr ⟨hdrained.listed, hdrained.adopted⟩
    · exact absurd (hdrained.answered m) (by simp [hlive])
    · rw [(htracks.quiet hdrained.answered).2.2] at hpush
      exact absurd hpush List.not_mem_nil

/-- A service with one connection, on fd 5, and nothing else. -/
theorem State.allAdopted_one (hslots : s.table.slots = update (fun _ => none) 5 (some 0))
    (halive : s.alive 0 = true) (howner : s.owner 0 = some 0) : s.AllAdopted := by
  intro i c _ hslot
  rw [hslots] at hslot
  by_cases hi : i = 5
  · rw [hi, update_self] at hslot
    obtain rfl := Option.some.inj hslot
    exact ⟨halive, by simp [howner]⟩
  · rw [update_of_ne hi] at hslot
    simp at hslot

theorem releases_once_iff_one :
    ∃ x : Destroying Unit, x.pc = .returned ∧ x.entered.alive 0 = true ∧
      (x.pc = .returned → (x.ReleasesOnce ↔ x.entered.Drained inlineConfig)) ∧
      (x.entered.Drained inlineConfig →
        (∀ c, x.freed.count c ≤ if x.entered.alive c then 1 else 0) ∧
          x.destroyed = [] ∧ x.pushes = []) := by
  have hrun : ∃ y : Stopping Unit,
      Transition.play (Stopping.step inlineConfig acceptAll) .init (acceptOne.map .run) = some y ∧
      y.pc = .running ∧ y.exited = (fun _ => false) ∧ y.state.pc (.io 0) = .poll ∧
      y.state.table.slots = update (fun _ => none) 5 (some 0) ∧ y.state.alive 0 = true ∧
      y.state.owner 0 = some 0 := ⟨_, rfl, rfl, rfl, rfl, rfl, rfl, rfl⟩
  obtain ⟨y, hplay, hpc, hexited, hpoll, hslots, halive, howner⟩ := hrun
  obtain ⟨z, hz, hjoined, hstilled⟩ := Stopping.joins (Reachable.play _ (.start rfl) hplay) hpc
    (fun t => by rw [hexited]) (fun t ht => by rw [Nat.lt_one_iff.mp ht]; exact hpoll)
    (State.allAdopted_one hslots halive howner)
  obtain ⟨x, hx, hreturned, hentered⟩ :=
    Destroying.returns hz hjoined fun i hi => absurd hi (Nat.not_lt_zero i)
  exact ⟨x, hreturned, by rw [hentered, hstilled.alive]; exact halive, releases_once_iff hx⟩

/-- A message is in `message_queue` when the io thread exits. -/
theorem message_left_behind :
    ∃ x : Destroying Unit,
      Reachable (Destroying.step inlineConfig) (Destroying.Start inlineConfig acceptAll) x ∧
        x.pc = .returned ∧ x.entered.live 0 = true ∧ (x.entered.io 0).messageQueue = [0] ∧
        ¬ x.ReleasesOnce := by
  have hrun : ∃ y : Stopping Unit,
      Transition.play (Stopping.step inlineConfig acceptAll) .init
        ((acceptOne ++ sendOne).map .run) = some y ∧
      y.pc = .running ∧ y.exited = (fun _ => false) ∧ y.state.pc (.io 0) = .poll ∧
      y.state.table.slots = update (fun _ => none) 5 (some 0) ∧ y.state.alive 0 = true ∧
      y.state.owner 0 = some 0 ∧ y.state.live 0 = true ∧ (y.state.io 0).messageQueue = [0] :=
    ⟨_, rfl, rfl, rfl, rfl, rfl, rfl, rfl, rfl, rfl⟩
  obtain ⟨y, hplay, hpc, hexited, hpoll, hslots, halive, howner, hlive, hqueue⟩ := hrun
  obtain ⟨z, hz, hjoined, hstilled⟩ := Stopping.joins (Reachable.play _ (.start rfl) hplay) hpc
    (fun t => by rw [hexited]) (fun t ht => by rw [Nat.lt_one_iff.mp ht]; exact hpoll)
    (State.allAdopted_one hslots halive howner)
  obtain ⟨x, hx, hreturned, hentered⟩ :=
    Destroying.returns hz hjoined fun i hi => absurd hi (Nat.not_lt_zero i)
  have hpending : x.entered.live 0 = true := by rw [hentered, hstilled.live]; exact hlive
  refine ⟨x, hx, hreturned, hpending, ?_, fun hreleases => ?_⟩
  · rw [hentered]
    exact (hstilled.queues 0).2.trans hqueue
  · -- The message is destroyed when its connection is gone.
    have hmem : (⟨0, true, true⟩ : Destruction) ∈ x.destroyed.filter fun d => d.message = 0 := by
      rw [hreleases.messages 0 hpending]
      exact List.mem_singleton_self _
    exact absurd ((Destroying.tracks hx).late _ (List.mem_filter.mp hmem).1) (by simp)

end Libxv
