/-
Where a pool's tasks go.

A push whose index is not negative appends its task to one queue and touches no other, so
after any pushes the queue of a worker is the tasks routed to it, in the order of the
pushes.  The index is negative for a negative hashcode that is no multiple of the pool's
size.  The hash the service makes from a task's address is a comparison, so it takes two
values and reaches two workers at most.
-/
import Libxv.ThreadPool
import Libxv.Service.Program

namespace Libxv

open Function

variable {A : Type} {pool : ThreadPool A} {n : Nat}

/-! ### The index -/

theorem poolIndex_lt (hashcode : Int) (hn : 0 < n) : poolIndex hashcode n < n :=
  Int.tmod_lt_of_pos hashcode (by omega)

/-- The remainder takes the sign of the hashcode unless it is zero. -/
theorem poolIndex_nonneg_iff (hashcode : Int) (n : Nat) :
    0 ≤ poolIndex hashcode n ↔ 0 ≤ hashcode ∨ (n : Int) ∣ hashcode := by
  unfold poolIndex
  constructor
  · intro hindex
    by_cases hneg : 0 ≤ hashcode
    · exact .inl hneg
    · have hflip : 0 ≤ (-hashcode).tmod n := Int.tmod_nonneg _ (by omega)
      rw [Int.neg_tmod] at hflip
      exact .inr (Int.dvd_of_tmod_eq_zero (by omega))
  · rintro (hpos | hdvd)
    · exact Int.tmod_nonneg _ hpos
    · rw [Int.tmod_eq_zero_of_dvd hdvd]

/-! ### One push -/

/-- The tasks waiting at worker `i`. -/
def ThreadPool.queue (pool : ThreadPool A) (i : Nat) : List (Task A) := (pool.threads i).taskQueue

/-- The task is at the end of one worker's queue, and nothing else has happened to the queues. -/
def Routed (pool : ThreadPool A) (task : Task A) (out : Option (Int × ThreadPool A)) : Prop :=
  ∃ pool' i, out = some (xvOk, pool') ∧ i < pool.threadCount ∧
    pool'.queue i = pool.queue i ++ [task] ∧ (∀ j, j ≠ i → pool'.queue j = pool.queue j) ∧
    xvThreadPoolTaskCount pool' = xvThreadPoolTaskCount pool + 1 ∧
    pool'.threadCount = pool.threadCount

/-- The task at the end of the queue of worker `i`. -/
def ThreadPool.pushTo (pool : ThreadPool A) (i : Nat) (task : Task A) : ThreadPool A :=
  pool.setThread i ((pool.threads i).push task).send

/-- What a push does: nothing that has a meaning, or an append at the worker of the index. -/
theorem xvThreadPoolPushTask_eq (hn : 0 < pool.threadCount) (task : Task A) (hashcode : Int) :
    xvThreadPoolPushTask pool task hashcode =
      if 0 ≤ poolIndex hashcode pool.threadCount then
        some (xvOk, pool.pushTo (poolIndex hashcode pool.threadCount).toNat task)
      else none := by
  have hlt := poolIndex_lt hashcode hn
  unfold xvThreadPoolPushTask
  simp only [hlt, and_true]
  rfl

theorem ThreadPool.pushTo_queue (pool : ThreadPool A) (i j : Nat) (task : Task A) :
    (pool.pushTo i task).queue j = if j = i then pool.queue i ++ [task] else pool.queue j := by
  show (update pool.threads i ((pool.threads i).push task).send j).taskQueue = _
  rw [update_apply]
  split <;> rfl

theorem ThreadPool.pushTo_taskCount (pool : ThreadPool A) {i : Nat} (hi : i < pool.threadCount)
    (task : Task A) :
    xvThreadPoolTaskCount (pool.pushTo i task) = xvThreadPoolTaskCount pool + 1 := by
  have hmem : i ∈ Finset.range pool.threadCount := Finset.mem_range.mpr hi
  have hrest : ∀ j ∈ (Finset.range pool.threadCount).erase i,
      ((pool.pushTo i task).queue j).length = (pool.queue j).length := by
    intro j hj
    rw [pool.pushTo_queue, if_neg (Finset.mem_erase.mp hj).1]
  show ∑ j ∈ Finset.range pool.threadCount, ((pool.pushTo i task).queue j).length =
    ∑ j ∈ Finset.range pool.threadCount, (pool.queue j).length + 1
  rw [← Finset.add_sum_erase _ _ hmem, ← Finset.add_sum_erase _ _ hmem,
    Finset.sum_congr rfl hrest, pool.pushTo_queue, if_pos rfl, List.length_append,
    List.length_singleton]
  omega

/-- **A push is routed exactly when its index is not negative.** -/
theorem xvThreadPoolPushTask_iff (hn : 0 < pool.threadCount) (task : Task A) (hashcode : Int) :
    Routed pool task (xvThreadPoolPushTask pool task hashcode) ↔
      0 ≤ hashcode ∨ (pool.threadCount : Int) ∣ hashcode := by
  rw [← poolIndex_nonneg_iff, xvThreadPoolPushTask_eq hn]
  constructor
  · rintro ⟨pool', i, hsome, -⟩
    by_cases hindex : 0 ≤ poolIndex hashcode pool.threadCount
    · exact hindex
    · rw [if_neg hindex] at hsome
      simp at hsome
  · intro hindex
    have hlt := poolIndex_lt hashcode hn
    have hi : (poolIndex hashcode pool.threadCount).toNat < pool.threadCount := by omega
    rw [if_pos hindex]
    refine ⟨_, _, rfl, hi, ?_, fun j hj => ?_, pool.pushTo_taskCount hi task, rfl⟩
    · rw [pool.pushTo_queue, if_pos rfl]
    · rw [pool.pushTo_queue, if_neg hj]

/-! ### Many pushes -/

theorem ThreadPool.pushAll_cons (pool : ThreadPool A) (hn : 0 < pool.threadCount) (task : Task A)
    (hashcode : Int) (rest : List (Task A × Int)) :
    pool.pushAll ((task, hashcode) :: rest) =
      if 0 ≤ poolIndex hashcode pool.threadCount then
        (pool.pushTo (poolIndex hashcode pool.threadCount).toNat task).pushAll rest
      else none := by
  show (xvThreadPoolPushTask pool task hashcode).bind _ = _
  rw [xvThreadPoolPushTask_eq hn]
  split
  · rfl
  · rfl

/-- Pushes have a meaning exactly when each of them is routed. -/
theorem ThreadPool.pushAll_isSome_iff (pool : ThreadPool A) (hn : 0 < pool.threadCount)
    (calls : List (Task A × Int)) :
    (pool.pushAll calls).isSome ↔
      ∀ call ∈ calls, 0 ≤ call.2 ∨ (pool.threadCount : Int) ∣ call.2 := by
  induction calls generalizing pool with
  | nil => simp [ThreadPool.pushAll]
  | cons call rest ih =>
      obtain ⟨task, hashcode⟩ := call
      rw [pool.pushAll_cons hn, List.forall_mem_cons, ← poolIndex_nonneg_iff]
      by_cases hindex : 0 ≤ poolIndex hashcode pool.threadCount
      · have hn' : 0 < (pool.pushTo (poolIndex hashcode pool.threadCount).toNat task).threadCount :=
          hn
        rw [if_pos hindex, ih _ hn']
        exact (and_iff_right hindex).symm
      · rw [if_neg hindex]
        simp [hindex]

/-- The tasks that pushes send to worker `i`, in order. -/
def routedTo (n i : Nat) (calls : List (Task A × Int)) : List (Task A) :=
  (calls.filter fun call => poolIndex call.2 n = i).map Prod.fst

theorem routedTo_cons (n i : Nat) (task : Task A) (hashcode : Int)
    (rest : List (Task A × Int)) :
    routedTo n i ((task, hashcode) :: rest) =
      if poolIndex hashcode n = i then task :: routedTo n i rest else routedTo n i rest := by
  unfold routedTo
  rw [List.filter_cons]
  by_cases hi : poolIndex hashcode n = i
  · simp [hi]
  · simp [hi]

/-- After any pushes each queue has got the tasks routed to it, in the order of the pushes. -/
theorem ThreadPool.pushAll_queue (pool : ThreadPool A) {pool' : ThreadPool A}
    (hn : 0 < pool.threadCount) (calls : List (Task A × Int))
    (h : pool.pushAll calls = some pool') :
    xvThreadPoolTaskCount pool' = xvThreadPoolTaskCount pool + calls.length ∧
      ∀ i, pool'.queue i = pool.queue i ++ routedTo pool.threadCount i calls := by
  induction calls generalizing pool with
  | nil =>
      obtain rfl := Option.some.inj h
      exact ⟨rfl, fun i => (List.append_nil _).symm⟩
  | cons call rest ih =>
      obtain ⟨task, hashcode⟩ := call
      rw [pool.pushAll_cons hn] at h
      obtain ⟨hindex, hrest⟩ := Option.ite_none_right_eq_some.mp h
      have hlt := poolIndex_lt hashcode hn
      have hn' : 0 < (pool.pushTo (poolIndex hashcode pool.threadCount).toNat task).threadCount :=
        hn
      obtain ⟨hcount, hqueue⟩ := ih _ hn' hrest
      refine ⟨?_, fun i => ?_⟩
      · rw [hcount, pool.pushTo_taskCount (by omega), List.length_cons]
        omega
      · rw [hqueue i, pool.pushTo_queue, routedTo_cons]
        by_cases hi : poolIndex hashcode pool.threadCount = i
        · rw [if_pos (by omega), if_pos hi, List.append_assoc, hi]
          rfl
        · rw [if_neg (by omega), if_neg hi]
          rfl

/-! ### The hash of the service -/

/-- The comparison takes two values, and only small addresses give the first. -/
theorem taskHashcode_cases (addr : Nat) :
    taskHashcode addr = 0 ∧ addr ≤ 16 ∨ taskHashcode addr = 1 ∧ 16 < addr := by
  unfold taskHashcode
  split
  next hbig => exact .inr ⟨rfl, hbig⟩
  next hsmall => exact .inl ⟨rfl, Nat.not_lt.mp hsmall⟩

/-- **Which workers the service reaches**: the first two, and only one of them from addresses
past 16. -/
theorem taskHashcode_reaches_iff {i : Nat} (hi : i < n) :
    ((∃ addr, addr < 2 ^ 64 ∧ poolIndex (taskHashcode addr) n = i) ↔ i ≤ 1) ∧
      ((∃ addr, 16 < addr ∧ addr < 2 ^ 64 ∧ poolIndex (taskHashcode addr) n = i) ↔ i = 1 % n) := by
  have hmod : ∀ k : Nat, poolIndex k n = ((k % n : Nat) : Int) := by
    intro k
    exact (Int.ofNat_tmod k n).symm
  refine ⟨⟨?_, ?_⟩, ⟨?_, ?_⟩⟩
  · rintro ⟨addr, -, hroute⟩
    have hle := Nat.mod_le (taskHashcode addr) n
    rw [hmod] at hroute
    rcases taskHashcode_cases addr with ⟨hcode, -⟩ | ⟨hcode, -⟩
    · omega
    · omega
  · intro hone
    rcases Nat.le_one_iff_eq_zero_or_eq_one.mp hone with rfl | rfl
    · refine ⟨0, by decide, ?_⟩
      rw [hmod]
      show ((0 % n : Nat) : Int) = 0
      rw [Nat.zero_mod]
      rfl
    · refine ⟨17, by decide, ?_⟩
      rw [hmod]
      show ((1 % n : Nat) : Int) = 1
      rw [Nat.mod_eq_of_lt hi]
      rfl
  · rintro ⟨addr, hbig, -, hroute⟩
    rcases taskHashcode_cases addr with ⟨-, hsmall⟩ | ⟨hcode, -⟩
    · omega
    · rw [hcode, hmod] at hroute
      omega
  · intro hroute
    refine ⟨17, by decide, by decide, ?_⟩
    rw [hmod, hroute]
    rfl

/-! ### Routing -/

/-- **Where tasks are routed**: one push on any pool, any pushes on a new one, and the hash of the
service. -/
theorem task_routing_iff (hn : 0 < n) :
    (∀ pool : ThreadPool A, pool.threadCount = n → ∀ task hashcode,
      (Routed pool task (xvThreadPoolPushTask pool task hashcode) ↔
        0 ≤ hashcode ∨ (n : Int) ∣ hashcode)) ∧
    (∀ calls : List (Task A × Int),
      (((xvThreadPoolInit n).pushAll calls).isSome ↔
        ∀ call ∈ calls, 0 ≤ call.2 ∨ (n : Int) ∣ call.2) ∧
      ∀ pool, (xvThreadPoolInit n).pushAll calls = some pool →
        xvThreadPoolTaskCount pool = calls.length ∧ ∀ i, pool.queue i = routedTo n i calls) ∧
    ∀ i, i < n →
      ((∃ addr, addr < 2 ^ 64 ∧ poolIndex (taskHashcode addr) n = i) ↔ i ≤ 1) ∧
      ((∃ addr, 16 < addr ∧ addr < 2 ^ 64 ∧ poolIndex (taskHashcode addr) n = i) ↔
        i = 1 % n) := by
  refine ⟨?_, fun calls => ⟨?_, ?_⟩, fun i hi => taskHashcode_reaches_iff hi⟩
  · rintro pool rfl task hashcode
    exact xvThreadPoolPushTask_iff hn task hashcode
  · exact (xvThreadPoolInit n).pushAll_isSome_iff hn calls
  · intro pool hpool
    obtain ⟨hcount, hqueue⟩ := (xvThreadPoolInit n).pushAll_queue hn calls hpool
    have hnew : xvThreadPoolTaskCount (xvThreadPoolInit n : ThreadPool A) = 0 :=
      Finset.sum_eq_zero fun _ _ => rfl
    refine ⟨?_, hqueue⟩
    rw [hcount, hnew, Nat.zero_add]

/-- The hashcodes 1, 0, 3 and 2 on four workers. -/
theorem task_routing_iff_four :
    ∃ pool : ThreadPool Unit, (xvThreadPoolInit 4).pushAll
        [(⟨0, true, ()⟩, 1), (⟨1, true, ()⟩, 0), (⟨2, true, ()⟩, 3), (⟨3, true, ()⟩, 2)] =
      some pool ∧ xvThreadPoolTaskCount pool = 4 ∧ pool.queue 3 = [⟨2, true, ()⟩] := by
  obtain ⟨pool, hpool⟩ : ∃ pool : ThreadPool Unit, (xvThreadPoolInit 4).pushAll
      [(⟨0, true, ()⟩, 1), (⟨1, true, ()⟩, 0), (⟨2, true, ()⟩, 3), (⟨3, true, ()⟩, 2)] =
        some pool :=
    ⟨_, rfl⟩
  obtain ⟨hcount, hqueue⟩ := ((task_routing_iff (by decide)).2.1 _).2 pool hpool
  exact ⟨pool, hpool, hcount, hqueue 3⟩

/-- On four workers, hashcode -1 has no worker, and no address leads to worker 2. -/
theorem task_routing_misses :
    ¬ Routed (xvThreadPoolInit 4 : ThreadPool Unit) ⟨0, true, ()⟩
        (xvThreadPoolPushTask (xvThreadPoolInit 4) ⟨0, true, ()⟩ (-1)) ∧
    ¬ ∃ addr, addr < 2 ^ 64 ∧ poolIndex (taskHashcode addr) 4 = (2 : Nat) := by
  refine ⟨fun hrouted => ?_, fun hreached => ?_⟩
  · have hindex := (xvThreadPoolPushTask_iff (by decide) _ (-1)).mp hrouted
    exact absurd hindex (by decide)
  · have htwo := (taskHashcode_reaches_iff (by decide)).1.mp hreached
    exact absurd htwo (by decide)

end Libxv
