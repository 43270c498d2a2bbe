/-
Starting a pool.

`xv_thread_pool_start` ignores what the start of a worker returns and never sets the pool's
flag, so it returns `XV_OK` whatever happened, also on a pool that is started already.  It does
what it should on a pool that nobody has tried to start before, if all goes well: every worker
then runs from the moment the loop has come to it.  In a pool that was stopped the asyncs are
still started, so no worker gets a thread again, and one that had a thread may lose it before
the loop comes to it.
-/
import Libxv.Proofs.Service.WorkerStart

namespace Libxv

open Function Transition WorkerThread

/-- How the fallible calls of a start go: the `xv_async_start` of each worker, the
`pthread_create` of each worker, and the `pthread_create` of each io thread. -/
structure StartOutcomes where
  watched : Nat → Bool
  worker : Nat → Bool
  io : Nat → Bool

namespace PoolLife

variable {ω : StartOutcomes} {x y y' : PoolLife} {label : PoolLabel}

/-- What may happen while `xv_thread_pool_start` runs. -/
def During (ω : StartOutcomes) (x : PoolLife) : PoolLabel → Prop
  | .start | .stop => False
  | .go watched created =>
      ∀ i, x.pc = .starting i → watched = ω.watched i ∧ created = ω.worker i
  | .worker _ _ => True

/-- The call has begun at `x`. -/
abbrev Starts (ω : StartOutcomes) (x : PoolLife) : PoolLife → Prop :=
  Reach step (During ω) (· = x.startCall)

/-- What is asked of a call that has returned: `XV_OK` means that the pool was not started and
every worker runs, `XV_ERR` on a stopped pool that the flags are as before and no worker has a
thread that had none. -/
structure AllOrNothing (x y : PoolLife) : Prop where
  ok : y.ret = xvOk →
    x.started = false ∧ ∀ i, i < x.pool.threadCount → (y.pool.threads i).Running
  err : y.ret = xvErr → x.started = false → y.pool.start = x.pool.start ∧
    ∀ i, i < x.pool.threadCount → (y.pool.threads i).start = (x.pool.threads i).start ∧
      ((y.pool.threads i).alive = true → (x.pool.threads i).alive = true)

/-- A started pool is left alone, and on any pool every run of the call to its return is as it
should be. -/
structure StartsWhole (ω : StartOutcomes) (x : PoolLife) : Prop where
  started : x.started = true → x.startCall = { x with ret := xvErr }
  returns : ∀ y, Starts ω x y → y.pc = .idle → x.AllOrNothing y

/-! ### Pools in use -/

/-- The flags a call of `xv_thread_pool_stop` has cleared. -/
def Cleared (x : PoolLife) (i : Nat) : Prop :=
  match x.pc with
  | .idle => x.started = false ∧ i < x.pool.threadCount
  | .starting _ => False
  | .stopping k => i < k

/-- The pool's flag is never set, a worker whose async is not started is new, and the flags of a
stopped pool are clear. -/
structure Kept (x : PoolLife) : Prop where
  start : x.pool.start = false
  fresh : ∀ i, (x.pool.threads i).asyncStart = false → (x.pool.threads i).Fresh
  cleared : ∀ i, x.Cleared i → (x.pool.threads i).start = false

theorem Kept.init (n : Nat) : (init n).Kept :=
  ⟨rfl, fun _ _ => ⟨rfl, rfl, rfl⟩, fun _ _ => rfl⟩

/-- One worker is written. -/
theorem setThread_threads (x : PoolLife) (i : Nat) (thread : WorkerThread PoolTask) (j : Nat) :
    (x.setThread i thread).pool.threads j = if j = i then thread else x.pool.threads j :=
  update_apply ..

theorem setThread_start {i j : Nat} {thread : WorkerThread PoolTask}
    (hi : j = i → thread.start = false) (hj : j ≠ i → (x.pool.threads j).start = false) :
    ((x.setThread i thread).pool.threads j).start = false := by
  rw [setThread_threads]
  split <;> rename_i hji
  · exact hi hji
  · exact hj hji

theorem Kept.setThread_fresh (h : x.Kept) {i : Nat} {thread : WorkerThread PoolTask}
    (hi : thread.asyncStart = false → thread.Fresh) (j : Nat) :
    ((x.setThread i thread).pool.threads j).asyncStart = false →
      ((x.setThread i thread).pool.threads j).Fresh := by
  rw [setThread_threads]
  split
  · exact hi
  · exact h.fresh j

theorem Kept.go (h : x.Kept) {watched created : Bool} (hgo : x.go watched created = some y) :
    y.Kept := by
  cases hpc : x.pc with
  | idle => exact absurd hgo (by simp [PoolLife.go, hpc])
  | starting i =>
      simp only [PoolLife.go, hpc] at hgo
      split at hgo
      · obtain rfl := Option.some.inj hgo
        refine ⟨h.start, h.setThread_fresh fun hasync => ?_, fun j hj => absurd hj id⟩
        have hsame := startWith_asyncStart hasync
        rw [hsame] at hasync ⊢
        exact h.fresh i hasync
      · obtain rfl := Option.some.inj hgo
        refine ⟨h.start, h.fresh, fun j hj => ?_⟩
        cases hj.1
  | stopping k =>
      have hcleared : ∀ i, i < k → (x.pool.threads i).start = false := by
        intro i hi
        refine h.cleared i ?_
        unfold Cleared
        rw [hpc]
        exact hi
      simp only [PoolLife.go, hpc] at hgo
      split at hgo
      · obtain rfl := Option.some.inj hgo
        refine ⟨h.start, h.setThread_fresh fun hasync => ?_, fun j hj => ?_⟩
        · have hfresh := h.fresh k hasync
          exact ⟨rfl, hfresh.asyncStart, hfresh.pc⟩
        · have hle : j < k + 1 := hj
          exact setThread_start (fun _ => rfl) fun hjk => hcleared j (by omega)
      next hn =>
        obtain rfl := Option.some.inj hgo
        refine ⟨h.start, h.fresh, fun j hj => hcleared j ?_⟩
        have hlt : j < x.pool.threadCount := hj.2
        omega

theorem Kept.worker (h : x.Kept) {i : Nat} {thread : WorkerThread PoolTask} {m : WorkerMove}
    (hmove : (x.pool.threads i).move m = some thread) : (x.setThread i thread).Kept := by
  obtain ⟨hstart, hasync⟩ := move_flags hmove
  refine ⟨h.start, h.setThread_fresh fun hnew => ?_, fun j hj => ?_⟩
  · exact (h.fresh i (hasync.symm.trans hnew)).move hmove
  · have hcleared := h.cleared j hj
    exact setThread_start (fun hji => hstart.trans (hji ▸ hcleared)) fun _ => hcleared

theorem Kept.startCall (h : x.Kept) : x.startCall = { x with pc := .starting 0 } := by
  unfold PoolLife.startCall
  rw [h.start]
  rfl

theorem Kept.step (h : x.Kept) (hstep : x.step label = some y) : y.Kept := by
  cases label with
  | start =>
      simp only [PoolLife.step, Option.ite_none_right_eq_some] at hstep
      obtain rfl := Option.some.inj hstep.2
      rw [h.startCall]
      exact ⟨h.start, h.fresh, fun _ hi => absurd hi id⟩
  | stop =>
      simp only [PoolLife.step, Option.ite_none_right_eq_some] at hstep
      obtain rfl := Option.some.inj hstep.2
      exact ⟨h.start, h.fresh, fun i hi => absurd hi (Nat.not_lt_zero i)⟩
  | go watched created => exact h.go hstep
  | worker i m =>
      obtain ⟨thread, hmove, rfl⟩ := Option.map_eq_some_iff.mp hstep
      exact h.worker hmove

theorem Kept.of_reachable {n : Nat} (h : Reachable PoolLife.step (· = PoolLife.init n) x) :
    x.Kept := by
  refine h.invariant (I := Kept) ?_ fun _ _ _ hx _ hstep => hx.step hstep
  rintro _ rfl
  exact .init n

/-! ### A call that is left alone -/

/-- The rounds of the call, one after the other. -/
theorem starts_alone {z : PoolLife} (h : Starts ω x z) (hpc : z.pc = .starting 0) :
    ∃ y, Starts ω x y ∧ y.pc = .idle ∧ y.ret = xvOk ∧
      y.pool.threads = startAll ω.watched ω.worker z.pool.threadCount z.pool.threads := by
  have hgoes : ∀ i (s s' : PoolLife), Starts ω x s → s.pc = .starting i →
      s.go (ω.watched i) (ω.worker i) = some s' → Starts ω x s' := by
    intro i s s' hs hspc hgo
    refine .next (i := .go (ω.watched i) (ω.worker i)) hs (fun j hj => ?_) hgo
    obtain rfl : i = j := PoolPc.starting.inj (hspc.symm.trans hj)
    exact ⟨rfl, rfl⟩
  have hround : ∀ i (s : PoolLife), i < z.pool.threadCount → Starts ω x s →
      s.pc = .starting i ∧
        s.pool = { z.pool with threads := startAll ω.watched ω.worker i z.pool.threads } →
      ∃ s', Starts ω x s' ∧ s'.pc = .starting (i + 1) ∧
        s'.pool =
          { z.pool with threads := startAll ω.watched ω.worker (i + 1) z.pool.threads } := by
    intro i s hi hs hnow
    obtain ⟨hspc, hpool⟩ := hnow
    have hlt : i < s.pool.threadCount := by
      rw [hpool]
      exact hi
    have hgo : s.go (ω.watched i) (ω.worker i) = some
        { s.setThread i ((s.pool.threads i).startWith (ω.watched i) (ω.worker i)).2 with
          pc := .starting (i + 1) } := by
      simp [PoolLife.go, hspc, hlt]
    refine ⟨_, hgoes i s _ hs hspc hgo, rfl, ?_⟩
    show s.pool.setThread i _ = _
    rw [startAll_succ, hpool]
    rfl
  obtain ⟨s, hs, hspc, hpool⟩ := Reach.count hround (Nat.zero_le _) h
    ⟨hpc, by rw [startAll_zero]⟩
  have hgo : s.go (ω.watched z.pool.threadCount) (ω.worker z.pool.threadCount) =
      some { s with pc := .idle, ret := xvOk, started := true } := by
    have hge : ¬ z.pool.threadCount < s.pool.threadCount := by
      rw [hpool]
      exact Nat.lt_irrefl _
    simp [PoolLife.go, hspc, hge]
  refine ⟨_, hgoes _ s _ hs hspc hgo, rfl, rfl, ?_⟩
  show s.pool.threads = _
  rw [hpool]

/-- A worker moves on its own while the call rests. -/
theorem Starts.worker (h : Starts ω x y) {i : Nat} {last : WorkerThread PoolTask}
    (hmoves : Reachable WorkerThread.move (· = y.pool.threads i) last) :
    Starts ω x (y.setThread i last) := by
  refine hmoves.invariant (I := fun thread => Starts ω x (y.setThread i thread)) ?_ ?_
  · rintro _ rfl
    have hself : y.setThread i (y.pool.threads i) = y := by
      simp [setThread, ThreadPool.setThread]
    rw [hself]
    exact h
  · intro thread m next hthread _ hmove
    have hstep : (y.setThread i thread).step (.worker i m) = some (y.setThread i next) := by
      simp [step, setThread, ThreadPool.setThread, hmove]
    exact .next (i := .worker i m) hthread trivial hstep

/-! ### A call on a new pool -/

/-- The workers the loop has come past run, the others are new. -/
def Halfway (n : Nat) (y : PoolLife) : Prop :=
  y.pool.threadCount = n ∧
    match y.pc with
    | .starting k => StartedTo n k y.pool.threads
    | .idle => y.ret = xvOk ∧ StartedTo n n y.pool.threads
    | .stopping _ => False

variable {n : Nat}

theorem Halfway.go (h : y.Halfway n) (hall : ∀ i, i < n → ω.watched i = true ∧ ω.worker i = true)
    {watched created : Bool} (hduring : During ω y (.go watched created))
    (hgo : y.go watched created = some y') : y'.Halfway n := by
  obtain ⟨hn, hnow⟩ := h
  cases hpc : y.pc with
  | idle => exact absurd hgo (by simp [PoolLife.go, hpc])
  | stopping k => exact absurd hnow (by simp [hpc])
  | starting k =>
      simp only [hpc] at hnow
      simp only [PoolLife.go, hpc, hn] at hgo
      split at hgo
      next hk =>
        obtain rfl := Option.some.inj hgo
        obtain ⟨hwatched, hcreated⟩ := hduring k hpc
        obtain ⟨hwatches, hcreates⟩ := hall k hk
        exact ⟨hn, hnow.next hk (hwatched.trans hwatches) (hcreated.trans hcreates)⟩
      next hk =>
        obtain rfl := Option.some.inj hgo
        refine ⟨hn, rfl, fun i hi => ?_⟩
        rw [if_pos hi]
        exact hnow.all (Nat.not_lt.mp hk) hi

theorem Halfway.worker (h : y.Halfway n) {i : Nat} {thread : WorkerThread PoolTask}
    {m : WorkerMove} (hmove : (y.pool.threads i).move m = some thread) :
    (y.setThread i thread).Halfway n := by
  obtain ⟨hn, hnow⟩ := h
  refine ⟨hn, ?_⟩
  show match y.pc with
    | .starting k => _
    | .idle => _
    | .stopping _ => _
  cases hpc : y.pc with
  | idle =>
      simp only [hpc] at hnow
      exact ⟨hnow.1, hnow.2.move hmove⟩
  | stopping k => exact absurd hnow (by simp [hpc])
  | starting k =>
      simp only [hpc] at hnow
      exact hnow.move hmove

theorem Kept.halfway (h : x.Kept)
    (hall : ∀ i, i < x.pool.threadCount →
      (x.pool.threads i).Startable (ω.watched i) (ω.worker i)) (hy : Starts ω x y) :
    y.Halfway x.pool.threadCount := by
  refine hy.invariant (I := Halfway x.pool.threadCount) ?_ ?_
  · rintro _ rfl
    rw [h.startCall]
    refine ⟨rfl, fun i hi => ?_⟩
    rw [if_neg (Nat.not_lt_zero i)]
    exact h.fresh i (hall i hi).asyncStart
  · intro z label z' hz hduring hstep
    cases label with
    | start | stop => exact absurd hduring id
    | go watched created =>
        exact hz.go (fun i hi => ⟨(hall i hi).watched, (hall i hi).created⟩) hduring hstep
    | worker i m =>
        obtain ⟨thread, hmove, rfl⟩ := Option.map_eq_some_iff.mp hstep
        exact hz.worker hmove

/-! ### All or nothing -/

/-- The call can lose a worker that it does not give a thread. -/
theorem Kept.loses (h : x.Kept) {i : Nat} (hi : i < x.pool.threadCount)
    (hstart : (x.pool.threads i).start = false)
    (hnot : ¬ (x.pool.threads i).Startable (ω.watched i) (ω.worker i)) :
    ∃ y, Starts ω x y ∧ y.pc = .idle ∧ y.ret = xvOk ∧ ¬ (y.pool.threads i).Running := by
  obtain ⟨last, hmoves, hdead, hlast, hasync⟩ := can_die hstart
  have hcalled : Starts ω x { x with pc := .starting 0 } := .start h.startCall.symm
  have hworked : Starts ω x (({ x with pc := .starting 0 } : PoolLife).setThread i last) :=
    hcalled.worker hmoves
  obtain ⟨y, hy, hidle, hret, hthreads⟩ := starts_alone hworked rfl
  refine ⟨y, hy, hidle, hret, ?_⟩
  have hlt : i < (({ x with pc := .starting 0 } : PoolLife).setThread i last).pool.threadCount :=
    hi
  rw [hthreads]
  unfold startAll
  rw [if_pos hlt, setThread_threads, if_pos rfl]
  refine startWith_dead hlast hdead fun hstartable => hnot ?_
  exact ⟨hasync.symm.trans hstartable.asyncStart, hstartable.watched, hstartable.created⟩

/-- **When a pool is started or left alone**: nobody has tried before, and every call succeeds. -/
theorem start_iff (h : Reachable PoolLife.step (· = PoolLife.init n) x) (hidle : x.pc = .idle)
    (ω : StartOutcomes) :
    StartsWhole ω x ↔ x.started = false ∧ ∀ i, i < x.pool.threadCount →
      (x.pool.threads i).Startable (ω.watched i) (ω.worker i) := by
  have hkept : x.Kept := .of_reachable h
  constructor
  · intro hwhole
    have hcalled : Starts ω x { x with pc := .starting 0 } := .start hkept.startCall.symm
    obtain ⟨y, hy, hypc, hret, -⟩ := starts_alone hcalled rfl
    have hstopped := ((hwhole.returns y hy hypc).ok hret).1
    refine ⟨hstopped, fun i hi => ?_⟩
    have hclear : (x.pool.threads i).start = false := by
      refine hkept.cleared i ?_
      unfold Cleared
      rw [hidle]
      exact ⟨hstopped, hi⟩
    by_contra hnot
    obtain ⟨z, hz, hzpc, hzret, hlost⟩ := hkept.loses hi hclear hnot
    exact hlost (((hwhole.returns z hz hzpc).ok hzret).2 i hi)
  · rintro ⟨hstopped, hall⟩
    refine ⟨fun h => absurd (hstopped.symm.trans h) (by simp), fun y hy hypc => ?_⟩
    obtain ⟨-, hdone⟩ := hkept.halfway hall hy
    simp only [hypc] at hdone
    refine ⟨fun _ => ⟨hstopped, fun i hi => hdone.2.all (Nat.le_refl _) hi⟩, fun herr => ?_⟩
    cases hdone.1.symm.trans herr

end PoolLife

end Libxv
