/-
Blocking transfers are exact, however they are cut up.

The counter and the pointer of the loop advance together by what each call moved, so the
pointer is always at the counter, and that one fact makes the two copies exact: what has
been sent is the buffer up to the counter, and what has been stored up to the counter,
followed by what the stream still holds, is the stream.  Neither copy looks at how its
calls were cut, so the two ends of a link can be taken one at a time.
-/
import Libxv.BlockIo

namespace Libxv

open Memory Transition

/-! ### The loop -/

namespace BlockLoop

variable {x : BlockLoop} {result : SysResult} {count : Nat}

/-- Counter and pointer go together, and a count that is returned is the counter. -/
structure Kept (count : Nat) (x : BlockLoop) : Prop where
  count_eq : x.count = count
  le : x.counter ≤ count
  buf : x.buf = x.counter
  missing : x.ret = none → x.counter < count
  counted : ∀ n : Nat, x.ret = some (n : Int) → n = x.counter

/-- The test of the `while` ends the loop exactly when nothing is missing. -/
theorem Kept.test (hcount : x.count = count) (hle : x.counter ≤ count) (hbuf : x.buf = x.counter)
    (hret : x.ret = none) : x.test.Kept count := by
  unfold BlockLoop.test
  split
  next hmissing =>
    refine ⟨hcount, hle, hbuf, fun _ => ?_, fun n hn => ?_⟩
    · omega
    · rw [hret] at hn
      simp at hn
  next _ =>
    refine ⟨hcount, hle, hbuf, fun h => absurd h (by simp), fun n hn => ?_⟩
    simp only [Option.some.injEq] at hn
    show n = x.counter
    omega

theorem Kept.enter (count : Nat) : (enter count).Kept count :=
  .test rfl (Nat.zero_le _) rfl rfl

theorem body_zero (x : BlockLoop) : x.body (.moved 0) = { x with ret := some x.counter } := rfl

theorem body_moved (x : BlockLoop) {n : Nat} (h : n ≠ 0) :
    x.body (.moved n) = test { x with counter := x.counter + n, buf := x.buf + n } :=
  if_neg h

@[simp] theorem test_counter (x : BlockLoop) : x.test.counter = x.counter := by
  unfold test
  split <;> rfl

@[simp] theorem enter_counter (count : Nat) : (enter count).counter = 0 :=
  test_counter _

/-- The counter advances by what the call moved, whatever else happens. -/
@[simp] theorem body_counter (x : BlockLoop) (result : SysResult) :
    (x.body result).counter = x.counter + result.bytes := by
  cases result with
  | eintr => exact test_counter x
  | error => rfl
  | moved n =>
      by_cases hzero : n = 0
      · subst hzero
        rfl
      · rw [body_moved x hzero]
        exact test_counter _

theorem Kept.body (h : x.Kept count) (hadmits : x.Admits result) : (x.body result).Kept count := by
  obtain ⟨hnone, hasked⟩ := hadmits
  have hmissing := h.missing hnone
  cases result with
  | eintr => exact .test h.count_eq h.le h.buf hnone
  | error =>
      refine ⟨h.count_eq, h.le, h.buf, fun hret => absurd hret (by simp [BlockLoop.body]), ?_⟩
      intro n hn
      simp only [BlockLoop.body, Option.some.injEq] at hn
      omega
  | moved n =>
      by_cases hzero : n = 0
      · subst hzero
        rw [body_zero]
        refine ⟨h.count_eq, h.le, h.buf, fun hret => absurd hret (by simp), ?_⟩
        intro m hm
        simp only [Option.some.injEq] at hm
        show m = x.counter
        omega
      · have hcount := h.count_eq
        have hbuf := h.buf
        have hbytes : n ≤ x.count - x.counter := hasked
        rw [body_moved x hzero]
        refine .test h.count_eq ?_ ?_ hnone
        · show x.counter + n ≤ count
          omega
        · show x.buf + n = x.counter + n
          omega

/-- What the results so far say of what the loop returned. -/
structure Exact (count : Nat) (trace : List SysResult) (x : BlockLoop) : Prop where
  /-- It returns -1 or a count. -/
  range : ∀ r, x.ret = some r → r = -1 ∨ ∃ n : Nat, n ≤ count ∧ r = n
  /-- It returns less than it was asked for only after a 0. -/
  short : ∀ n : Nat, x.ret = some (n : Int) → n < count → trace.getLast? = some (.moved 0)
  /-- It returns -1 only after an error other than `EINTR`. -/
  error : x.ret = some (-1) → trace.getLast? = some .error
  /-- It returns: each result but `EINTR` brings it nearer to `count`. -/
  returns : x.ret = none → trace.countP (· ≠ .eintr) < count

/-- The results that were not `EINTR` are at most as many as the bytes they moved. -/
structure Counted (trace : List SysResult) (x : BlockLoop) : Prop where
  progress : x.ret = none → trace.countP (· ≠ .eintr) ≤ x.counter
  ended : ∀ r, x.ret = some r → r = x.counter ∧ x.counter = x.count ∨
    r = x.counter ∧ trace.getLast? = some (.moved 0) ∨ r = -1 ∧ trace.getLast? = some .error

theorem Counted.test {trace : List SysResult} (hret : x.ret = none)
    (hprogress : trace.countP (· ≠ .eintr) ≤ x.counter) : x.test.Counted trace := by
  unfold BlockLoop.test
  split
  next _ => exact ⟨fun _ => hprogress, fun r hr => absurd (hret.symm.trans hr) (by simp)⟩
  next hcount =>
    refine ⟨fun hnone => absurd hnone (by simp), fun r hr => .inl ?_⟩
    simp only [Option.some.injEq] at hr
    exact ⟨hr.symm, not_not.mp hcount⟩

theorem Counted.body {trace : List SysResult} (h : x.Counted trace) (hnone : x.ret = none) :
    (x.body result).Counted (trace ++ [result]) := by
  have hprogress := h.progress hnone
  cases result with
  | eintr => exact .test hnone (by simpa using hprogress)
  | error =>
      refine ⟨fun hret => absurd hret (by simp [BlockLoop.body]), fun r hr => .inr (.inr ?_)⟩
      simp only [BlockLoop.body, Option.some.injEq] at hr
      exact ⟨hr.symm, by simp⟩
  | moved n =>
      by_cases hzero : n = 0
      · subst hzero
        rw [body_zero]
        refine ⟨fun hret => absurd hret (by simp), fun r hr => .inr (.inl ?_)⟩
        simp only [Option.some.injEq] at hr
        exact ⟨hr.symm, by simp⟩
      · rw [body_moved x hzero]
        refine .test hnone ?_
        rw [List.countP_append]
        show _ + 1 ≤ x.counter + n
        omega

theorem Counted.exact {trace : List SysResult} (h : x.Counted trace) (hkept : x.Kept count) :
    x.Exact count trace := by
  have hcount := hkept.count_eq
  refine ⟨fun r hr => ?_, fun n hn hlt => ?_, fun hret => ?_, fun hnone => ?_⟩
  · rcases h.ended r hr with ⟨hr', -⟩ | ⟨hr', -⟩ | ⟨hr', -⟩
    · exact .inr ⟨x.counter, hkept.le, hr'⟩
    · exact .inr ⟨x.counter, hkept.le, hr'⟩
    · exact .inl hr'
  · rcases h.ended n hn with ⟨hn', hall⟩ | ⟨-, hlast⟩ | ⟨hn', -⟩
    · omega
    · exact hlast
    · omega
  · rcases h.ended (-1) hret with ⟨hneg, -⟩ | ⟨hneg, -⟩ | ⟨-, hlast⟩
    · omega
    · omega
    · exact hlast
  · exact Nat.lt_of_le_of_lt (h.progress hnone) (hkept.missing hnone)

theorem Counted.enter (count : Nat) : (enter count).Counted [] :=
  .test rfl (Nat.le_refl _)

end BlockLoop

variable {src dst : Nat → UInt8} {count : Nat} {result : SysResult}

/-! ### The writing end -/

/-- What has been sent is the buffer up to the counter. -/
structure BlockWrite.Kept (src : Nat → UInt8) (count : Nat) (x : BlockWrite) : Prop where
  loop : x.loop.Kept count
  src_eq : x.src = src
  sent : x.sent = load src 0 x.loop.counter

theorem BlockWrite.Kept.start (src : Nat → UInt8) (count : Nat) :
    (xvBlockWrite src count).Kept src count := by
  refine ⟨.enter count, rfl, ?_⟩
  show [] = load src 0 (BlockLoop.enter count).counter
  rw [BlockLoop.enter_counter]
  rfl

theorem BlockWrite.step_some {x x' : BlockWrite} (h : x.step result = some x') :
    x.loop.Admits result ∧
      x' = { x with loop := x.loop.body result, sent := x.sent ++ x.taken result } := by
  unfold BlockWrite.step at h
  split at h
  next hadmits => exact ⟨hadmits, (Option.some.inj h).symm⟩
  next _ => simp at h

theorem BlockWrite.Kept.step {x x' : BlockWrite} (h : x.Kept src count)
    (hstep : x.step result = some x') : x'.Kept src count := by
  obtain ⟨hadmits, rfl⟩ := BlockWrite.step_some hstep
  refine ⟨h.loop.body hadmits, h.src_eq, ?_⟩
  show x.sent ++ load x.src x.loop.buf result.bytes = load src 0 (x.loop.body result).counter
  rw [BlockLoop.body_counter, load_add, Nat.zero_add, h.sent, h.src_eq, h.loop.buf]

/-- What a call of `xv_block_write` that returned has done. -/
structure BlockWrite.Exact (src : Nat → UInt8) (count : Nat) (x : Traced BlockWrite SysResult) :
    Prop where
  loop : x.state.loop.Exact count x.trace
  sent : ∀ n : Nat, x.state.loop.ret = some (n : Int) → x.state.sent = load src 0 n

theorem xvBlockWrite_exact {x : Traced BlockWrite SysResult}
    (h : Reachable (recorded BlockWrite.step) (Traced.Start (· = xvBlockWrite src count)) x) :
    BlockWrite.Exact src count x := by
  have hkept : x.state.Kept src count ∧ x.state.loop.Counted x.trace := by
    refine h.invariant (I := fun x => x.state.Kept src count ∧ x.state.loop.Counted x.trace)
      ?_ ?_
    · intro x hx
      rw [hx.state, hx.trace]
      exact ⟨.start src count, .enter count⟩
    · intro x result x' hx _ hmove
      obtain ⟨hstep, htrace⟩ := traced_some hmove
      refine ⟨hx.1.step hstep, ?_⟩
      obtain ⟨hadmits, hx'⟩ := BlockWrite.step_some hstep
      rw [htrace, hx']
      exact hx.2.body hadmits.1
  refine ⟨hkept.2.exact hkept.1.loop, fun n hn => ?_⟩
  rw [hkept.1.loop.counted n hn]
  exact hkept.1.sent

/-! ### The reading end -/

/-- The buffer up to the counter, then what is still to be read, is all the stream; the buffer
from the counter on is as it was. -/
structure BlockRead.Kept (dst : Nat → UInt8) (count : Nat) (all : List UInt8) (x : BlockRead) :
    Prop where
  loop : x.loop.Kept count
  stored : load x.dst 0 x.loop.counter ++ x.stream = all
  beyond : ∀ i, x.loop.counter ≤ i → x.dst i = dst i

variable {all : List UInt8}

theorem BlockRead.step_some {x x' : BlockRead} (h : x.step result = some x') :
    (x.loop.Admits result ∧ result.bytes ≤ x.stream.length) ∧
      x' = { loop := x.loop.body result
             dst := store x.dst x.loop.buf (x.stream.take result.bytes)
             stream := x.stream.drop result.bytes } := by
  unfold BlockRead.step at h
  split at h
  next hadmits => exact ⟨hadmits, (Option.some.inj h).symm⟩
  next _ => simp at h

theorem BlockRead.Kept.start (dst : Nat → UInt8) (count : Nat) (stream : List UInt8) :
    (xvBlockRead dst count stream).Kept dst count stream := by
  refine ⟨.enter count, ?_, fun _ _ => rfl⟩
  show load dst 0 (BlockLoop.enter count).counter ++ stream = stream
  rw [BlockLoop.enter_counter]
  rfl

theorem BlockRead.Kept.step {x x' : BlockRead} (h : x.Kept dst count all)
    (hstep : x.step result = some x') : x'.Kept dst count all := by
  obtain ⟨⟨hadmits, hlen⟩, rfl⟩ := BlockRead.step_some hstep
  have htake : (x.stream.take result.bytes).length = result.bytes := by
    rw [List.length_take]
    omega
  refine ⟨h.loop.body hadmits, ?_, fun i hi => ?_⟩
  · show load (store x.dst x.loop.buf _) 0 (x.loop.body result).counter ++ _ = all
    rw [BlockLoop.body_counter, load_add, Nat.zero_add, ← h.loop.buf,
      load_store_below _ _ (by omega), h.loop.buf]
    have hself := load_store_self x.dst x.loop.counter (x.stream.take result.bytes)
    rw [htake] at hself
    rw [hself, List.append_assoc, List.take_append_drop, h.stored]
  · have hi' : x.loop.counter + result.bytes ≤ i := by
      rw [← BlockLoop.body_counter]
      exact hi
    have hbuf := h.loop.buf
    show store x.dst x.loop.buf (x.stream.take result.bytes) i = dst i
    rw [← h.beyond i (by omega)]
    unfold store
    rw [if_pos (by omega), List.getElem?_eq_none (by omega), Option.getD_none]

/-- What a call of `xv_block_read` that returned has done. -/
structure BlockRead.Exact (dst : Nat → UInt8) (count : Nat) (stream : List UInt8)
    (x : Traced BlockRead SysResult) : Prop where
  loop : x.state.loop.Exact count x.trace
  stored : ∀ n : Nat, x.state.loop.ret = some (n : Int) →
    n ≤ stream.length ∧ load x.state.dst 0 n = stream.take n
  beyond : ∀ n : Nat, x.state.loop.ret = some (n : Int) → ∀ i, n ≤ i → x.state.dst i = dst i

theorem xvBlockRead_exact {stream : List UInt8} {x : Traced BlockRead SysResult}
    (h : Reachable (recorded BlockRead.step)
      (Traced.Start (· = xvBlockRead dst count stream)) x) :
    BlockRead.Exact dst count stream x := by
  have hkept : x.state.Kept dst count stream ∧ x.state.loop.Counted x.trace := by
    refine h.invariant
      (I := fun x => x.state.Kept dst count stream ∧ x.state.loop.Counted x.trace) ?_ ?_
    · intro x hx
      rw [hx.state, hx.trace]
      exact ⟨.start dst count stream, .enter count⟩
    · intro x result x' hx _ hmove
      obtain ⟨hstep, htrace⟩ := traced_some hmove
      refine ⟨hx.1.step hstep, ?_⟩
      obtain ⟨⟨hadmits, -⟩, hx'⟩ := BlockRead.step_some hstep
      rw [htrace, hx']
      exact hx.2.body hadmits.1
  refine ⟨hkept.2.exact hkept.1.loop, fun n hn => ?_, fun n hn => ?_⟩
  · have hlen := length_load x.state.dst 0 x.state.loop.counter
    rw [hkept.1.loop.counted n hn, ← hkept.1.stored]
    refine ⟨?_, ?_⟩
    · rw [List.length_append]
      omega
    · rw [List.take_append_of_le_length (by omega), List.take_of_length_le (by omega)]
  · rw [hkept.1.loop.counted n hn]
    exact hkept.1.beyond

/-! ### The two ends of a stream -/

theorem BlockRead.Kept.arrive {x : BlockRead} (h : x.Kept dst count all) (bytes : List UInt8) :
    (x.arrive bytes).Kept dst count (all ++ bytes) := by
  refine ⟨h.loop, ?_, h.beyond⟩
  show load x.dst 0 x.loop.counter ++ (x.stream ++ bytes) = all ++ bytes
  rw [← List.append_assoc, h.stored]

/-- Each end is as it would be on its own, the reader on what has been sent. -/
structure Link.Kept (src dst : Nat → UInt8) (count : Nat) (x : Link) : Prop where
  writer : x.writer.Kept src count
  reader : x.reader.Kept dst count x.writer.sent

theorem Link.Kept.step {x x' : Link} {label : Link.Label} (h : x.Kept src dst count)
    (hstep : x.step label = some x') : x'.Kept src dst count := by
  cases label with
  | write result =>
      obtain ⟨writer, hwrite, rfl⟩ := Option.map_eq_some_iff.mp hstep
      refine ⟨h.writer.step hwrite, ?_⟩
      obtain ⟨-, rfl⟩ := BlockWrite.step_some hwrite
      exact h.reader.arrive (x.writer.taken result)
  | read result =>
      obtain ⟨reader, hread, rfl⟩ := Option.map_eq_some_iff.mp hstep
      exact ⟨h.writer, h.reader.step hread⟩

/-- **What comes out of a link is what went in.** -/
theorem Link.received {x : Link} (h : Reachable Link.step (· = Link.start src dst count) x)
    (hwriter : x.writer.loop.ret = some (count : Int))
    (hreader : x.reader.loop.ret = some (count : Int)) :
    load x.reader.dst 0 count = load src 0 count ∧ x.reader.stream = [] := by
  have hkept : x.Kept src dst count := by
    refine h.invariant (I := Link.Kept src dst count) ?_ fun _ _ _ hx _ hstep => hx.step hstep
    rintro x rfl
    exact ⟨.start src count, .start dst count []⟩
  have hsent := hkept.writer.sent
  rw [← hkept.writer.loop.counted count hwriter] at hsent
  have hstored := hkept.reader.stored
  rw [← hkept.reader.loop.counted count hreader, hsent] at hstored
  obtain ⟨hsame, hrest⟩ := List.append_inj (hstored.trans (List.append_nil _).symm) (by simp)
  exact ⟨hsame, hrest⟩

/-- **Blocking transfers are exact**: each end on its own, and the two ends of a stream. -/
theorem block_transfers_exact (count : Nat) (src dst : Nat → UInt8) :
    (∀ x, Reachable (recorded BlockWrite.step) (Traced.Start (· = xvBlockWrite src count)) x →
      BlockWrite.Exact src count x) ∧
    (∀ stream x, Reachable (recorded BlockRead.step)
      (Traced.Start (· = xvBlockRead dst count stream)) x →
      BlockRead.Exact dst count stream x) ∧
    (∀ x, Reachable Link.step (· = Link.start src dst count) x →
      x.writer.loop.ret = some (count : Int) → x.reader.loop.ret = some (count : Int) →
      load x.reader.dst 0 count = load src 0 count) :=
  ⟨fun _ h => xvBlockWrite_exact h, fun _ _ h => xvBlockRead_exact h,
    fun _ h hwriter hreader => (Link.received h hwriter hreader).1⟩

/-- Two bytes written one by one, the second after an `EINTR`, and read at once. -/
theorem block_transfers_exact_cut :
    ∃ x : Link, Reachable Link.step (· = Link.start (fun i => .ofNat (i + 7)) (fun _ => 0) 2) x ∧
      load x.reader.dst 0 2 = [7, 8] := by
  obtain ⟨x, hrun, hwriter, hreader⟩ : ∃ x : Link, Reachable Link.step
      (· = Link.start (fun i => .ofNat (i + 7)) (fun _ => 0) 2) x ∧
      x.writer.loop.ret = some (2 : Nat) ∧ x.reader.loop.ret = some (2 : Nat) :=
    ⟨_, .play [.write (.moved 1), .write .eintr, .read .eintr, .write (.moved 1),
      .read (.moved 2)] (.start rfl) rfl, rfl, rfl⟩
  have hsame := (block_transfers_exact 2 _ _).2.2 x hrun hwriter hreader
  exact ⟨x, hrun, hsame.trans (by decide)⟩

end Libxv
