/-
Starting one worker.

`xv_worker_thread_start` sets the flag first and then does what may fail, and nothing takes the
flag back.  So a start that fails leaves a worker that says it is started, and one whose async
was started before can never be started again.  A worker at work keeps at it as long as its
flag is set, and one that is told to stop can be gone before anybody looks at it again.
-/
import Libxv.Service.PoolLife
import Libxv.Lib.Run
import Libxv.Proofs.Worker
import Libxv.Proofs.Service.Misuse

namespace Libxv

open Function Transition

namespace WorkerThread

variable {A : Type} {thread thread' : WorkerThread A} {watched created : Bool}

/-- The thread has been created and has not exited. -/
def alive (thread : WorkerThread A) : Bool := thread.pc.created && !thread.pc.hasExited

/-- The thread is there, and goes on until it is told to stop. -/
structure Running (thread : WorkerThread A) : Prop where
  start : thread.start = true
  alive : thread.alive = true

/-- Nobody has tried to start the worker yet. -/
structure Fresh (thread : WorkerThread A) : Prop where
  start : thread.start = false
  asyncStart : thread.asyncStart = false
  pc : thread.pc = .absent

/-- The async can be started and both calls succeed. -/
structure Startable (thread : WorkerThread A) (watched created : Bool) : Prop where
  asyncStart : thread.asyncStart = false
  watched : watched = true
  created : created = true

/-- What `xv_worker_thread_start` does. -/
theorem startWith_cases (thread : WorkerThread A) (watched created : Bool) :
    thread.start = true ∧ thread.startWith watched created = (xvErr, thread) ∨
    thread.start = false ∧ thread.Startable watched created ∧
      thread.startWith watched created =
        (xvOk, { thread with start := true, asyncStart := true, pc := .entryTest }) ∨
    thread.start = false ∧ ¬ thread.Startable watched created ∧
      thread.startWith watched created =
        (xvErr, { thread with start := true, asyncStart := true }) := by
  unfold startWith
  cases hstart : thread.start with
  | true => exact .inl ⟨rfl, rfl⟩
  | false =>
      refine .inr ?_
      cases hasync : thread.asyncStart with
      | true =>
          refine .inr ⟨rfl, fun h => absurd (hasync.symm.trans h.asyncStart) (by simp), ?_⟩
          simp
      | false =>
          cases watched with
          | false => exact .inr ⟨rfl, fun h => absurd h.watched (by simp), rfl⟩
          | true =>
              cases created with
              | false => exact .inr ⟨rfl, fun h => absurd h.created (by simp), rfl⟩
              | true => exact .inl ⟨rfl, ⟨hasync, rfl, rfl⟩, rfl⟩

/-- What is asked of `xv_worker_thread_start`: `XV_OK` means that the worker was stopped and now
runs, `XV_ERR` on a stopped worker that its flag is as before and no thread was created, and a
started worker is left alone. -/
structure StartsWhole (thread : WorkerThread A) (out : Int × WorkerThread A) : Prop where
  ok : out.1 = xvOk → thread.start = false ∧ out.2.Running
  err : out.1 = xvErr → thread.start = false →
    out.2.start = thread.start ∧ out.2.pc = thread.pc
  started : thread.start = true → out = (xvErr, thread)

/-- **When a worker is started or left alone.** -/
theorem startWith_iff (thread : WorkerThread A) (watched created : Bool) :
    thread.StartsWhole (thread.startWith watched created) ↔
      thread.start = true ∨ thread.Startable watched created := by
  rcases thread.startWith_cases watched created with
    ⟨hstart, hout⟩ | ⟨hstart, hstartable, hout⟩ | ⟨hstart, hnot, hout⟩
  · rw [hout]
    refine iff_of_true ⟨nofun, fun _ h => absurd (hstart.symm.trans h) (by simp), fun _ => rfl⟩ ?_
    exact .inl hstart
  · rw [hout]
    refine iff_of_true ⟨fun _ => ⟨hstart, rfl, rfl⟩, nofun, fun h => ?_⟩ (.inr hstartable)
    exact absurd (hstart.symm.trans h) (by simp)
  · rw [hout]
    refine iff_of_false (fun h => ?_) (fun h => ?_)
    · have hflag := (h.err rfl hstart).1
      exact absurd (hstart.symm.trans hflag.symm) (by simp)
    · exact h.elim (fun h => absurd (hstart.symm.trans h) (by simp)) hnot

theorem Startable.running (h : thread.Startable watched created) (hstart : thread.start = false) :
    (thread.startWith watched created).2.Running := by
  rcases thread.startWith_cases watched created with
    ⟨hstarted, -⟩ | ⟨-, -, hout⟩ | ⟨-, hnot, -⟩
  · exact absurd (hstart.symm.trans hstarted) (by simp)
  · rw [hout]
    exact ⟨rfl, rfl⟩
  · exact absurd h hnot

/-- A start that fails brings no dead worker back. -/
theorem startWith_dead (hstart : thread.start = false) (hdead : thread.alive = false)
    (hnot : ¬ thread.Startable watched created) :
    ¬ (thread.startWith watched created).2.Running := by
  intro hrunning
  rcases thread.startWith_cases watched created with
    ⟨hstarted, -⟩ | ⟨-, hstartable, -⟩ | ⟨-, -, hout⟩
  · exact absurd (hstart.symm.trans hstarted) (by simp)
  · exact hnot hstartable
  · rw [hout] at hrunning
    exact absurd (hdead.symm.trans hrunning.alive) (by simp)

/-- A start leaves no async as it was, but that of a worker it left alone. -/
theorem startWith_asyncStart (h : (thread.startWith watched created).2.asyncStart = false) :
    (thread.startWith watched created).2 = thread := by
  rcases thread.startWith_cases watched created with ⟨-, hout⟩ | ⟨-, -, hout⟩ | ⟨-, -, hout⟩
  · rw [hout]
  · rw [hout] at h
    simp at h
  · rw [hout] at h
    simp at h

theorem Fresh.dead (h : thread.Fresh) : thread.alive = false := by
  unfold alive
  rw [h.pc]
  rfl

/-! ### What a worker does by itself -/

section moves

variable {thread thread' : WorkerThread PoolTask} {m : WorkerMove}

/-- No move of a worker touches its flag, or whether its async is started. -/
theorem move_flags (h : thread.move m = some thread') :
    thread'.start = thread.start ∧ thread'.asyncStart = thread.asyncStart := by
  cases m with
  | step =>
      cases step_moves h <;> exact ⟨rfl, rfl⟩
  | interrupt =>
      obtain ⟨-, rfl⟩ := interrupt_some h
      exact ⟨rfl, rfl⟩
  | taskReturns =>
      obtain ⟨task, -, rfl⟩ := taskReturns_some h
      exact ⟨rfl, rfl⟩
  | push task => exact Option.some.inj h ▸ ⟨rfl, rfl⟩
  | send => exact Option.some.inj h ▸ ⟨rfl, rfl⟩

/-- Only a worker that has been told to stop exits. -/
theorem Running.move (h : thread.Running) (hmove : thread.move m = some thread') :
    thread'.Running := by
  refine ⟨(move_flags hmove).1.trans h.start, ?_⟩
  cases m with
  | step =>
      cases step_moves hmove with
      | exit _ hstart => exact absurd (hstart.symm.trans h.start) (by simp)
      | _ => rfl
  | interrupt =>
      obtain ⟨-, rfl⟩ := interrupt_some hmove
      rfl
  | taskReturns =>
      obtain ⟨task, -, rfl⟩ := taskReturns_some hmove
      rfl
  | push task => exact Option.some.inj hmove ▸ h.alive
  | send => exact Option.some.inj hmove ▸ h.alive

/-- A worker without a thread has nothing done to it but pushes. -/
theorem Fresh.move (h : thread.Fresh) (hmove : thread.move m = some thread') :
    thread'.Fresh := by
  obtain ⟨hstart, hasync⟩ := move_flags hmove
  refine ⟨hstart.trans h.start, hasync.trans h.asyncStart, ?_⟩
  have hpc := h.pc
  cases m with
  | step =>
      have hnone : thread.step = none := by simp [step, hpc]
      cases hmove.symm.trans hnone
  | interrupt =>
      have hnone : thread.interrupt = none := by simp [interrupt, hpc]
      cases hmove.symm.trans hnone
  | taskReturns =>
      have hnone : thread.taskReturns = none := by simp [taskReturns, hpc]
      cases hmove.symm.trans hnone
  | push task => exact Option.some.inj hmove ▸ hpc
  | send => exact Option.some.inj hmove ▸ hpc

/-- **A worker that has been told to stop can be gone**, with what it was told unchanged. -/
theorem can_die (hstart : thread.start = false) :
    ∃ last, Reachable move (· = thread) last ∧ last.alive = false ∧ last.start = false ∧
      last.asyncStart = thread.asyncStart := by
  have hflags : ∀ last, Reachable move (· = thread) last →
      last.start = false ∧ last.asyncStart = thread.asyncStart := by
    intro last hlast
    refine hlast.invariant
      (I := fun last => last.start = false ∧ last.asyncStart = thread.asyncStart) ?_ ?_
    · rintro _ rfl
      exact ⟨hstart, rfl⟩
    · intro mid m next hmid _ hmove
      obtain ⟨hsame, hasync⟩ := move_flags hmove
      exact ⟨hsame.trans hmid.1, hasync.trans hmid.2⟩
  cases hcreated : thread.pc.created with
  | false =>
      refine ⟨thread, .start rfl, ?_, hstart, rfl⟩
      unfold alive
      rw [hcreated]
      rfl
  | true =>
      have hsent : Reachable move (· = thread) thread.send :=
        .next (i := .send) (.start rfl) trivial rfl
      obtain ⟨last, hlast, hexited⟩ : thread.send.Exits :=
        exits hstart (xvAsyncSend_pos _) hcreated
      have hreached := hsent.trans hlast
      refine ⟨last, hreached, ?_, hflags last hreached⟩
      unfold alive
      rw [hexited]
      simp

end moves

/-! ### Starting one after the other -/

/-- The workers after the first `n` of them have been started. -/
def startAll (watched created : Nat → Bool) (n : Nat) (threads : Nat → WorkerThread A) :
    Nat → WorkerThread A := fun i =>
  if i < n then ((threads i).startWith (watched i) (created i)).2 else threads i

theorem startAll_zero (watched created : Nat → Bool) (threads : Nat → WorkerThread A) :
    startAll watched created 0 threads = threads := rfl

theorem startAll_succ (watched created : Nat → Bool) (n : Nat)
    (threads : Nat → WorkerThread A) :
    startAll watched created (n + 1) threads =
      update (startAll watched created n threads) n
        ((startAll watched created n threads n).startWith (watched n) (created n)).2 := by
  funext i
  by_cases hin : i = n
  · subst hin
    rw [update_self]
    simp [startAll]
  · rw [update_of_ne hin]
    unfold startAll
    by_cases hlt : i < n
    · rw [if_pos hlt, if_pos (by omega)]
    · rw [if_neg hlt, if_neg (by omega)]

/-! ### Workers in the order they are started -/

section inOrder

variable {n k : Nat} {threads : Nat → WorkerThread PoolTask}

/-- Of the first `n` workers those before `k` run, and the others are new. -/
def StartedTo (n k : Nat) (threads : Nat → WorkerThread PoolTask) : Prop :=
  ∀ i, i < n → if i < k then (threads i).Running else (threads i).Fresh

theorem StartedTo.all (h : StartedTo n k threads) (hk : n ≤ k) {i : Nat} (hi : i < n) :
    (threads i).Running := by
  have hnow := h i hi
  rwa [if_pos (by omega)] at hnow

/-- A start that succeeds takes the next worker over. -/
theorem StartedTo.next (h : StartedTo n k threads) (hk : k < n) {watched created : Bool}
    (hwatched : watched = true) (hcreated : created = true) :
    StartedTo n (k + 1) (update threads k ((threads k).startWith watched created).2) := by
  intro i hi
  have hnow := h i hi
  rcases Nat.lt_trichotomy i k with hlt | rfl | hgt
  · rw [if_pos (by omega), update_of_ne (by omega)]
    rwa [if_pos hlt] at hnow
  · rw [if_neg (Nat.lt_irrefl i)] at hnow
    rw [if_pos (Nat.lt_succ_self i), update_self]
    exact Startable.running ⟨hnow.asyncStart, hwatched, hcreated⟩ hnow.start
  · rw [if_neg (by omega), update_of_ne (by omega)]
    rwa [if_neg (by omega)] at hnow

/-- What the workers do by themselves changes nothing of it. -/
theorem StartedTo.move (h : StartedTo n k threads) {j : Nat} {thread : WorkerThread PoolTask}
    {m : WorkerMove} (hmove : (threads j).move m = some thread) :
    StartedTo n k (update threads j thread) := by
  intro i hi
  have hnow := h i hi
  by_cases hij : i = j
  · subst hij
    rw [update_self]
    split
    next hlt => exact Running.move (by rwa [if_pos hlt] at hnow) hmove
    next hge => exact Fresh.move (by rwa [if_neg hge] at hnow) hmove
  · rwa [update_of_ne hij]

end inOrder

end WorkerThread

end Libxv
