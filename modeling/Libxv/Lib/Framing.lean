/-
A stream cut into frames by its sender and into chunks by its transport.

A framing is told by one function: where the first frame of some bytes ends, if it is
there completely.  A receiver that takes out at most one frame for each chunk it receives
falls behind when chunks complete several frames at once, and catches up on chunks that
complete none.  `feedAll_eq_iff` says exactly when it has taken out everything by the end
of the stream: when no tail of the chunks completes more frames than it has chunks.
-/
import Mathlib.Data.List.Basic

namespace Chunked

variable {α : Type}

/-- Where the first frame of a stream ends, once it is completely there. -/
structure Framing (α : Type) where
  first : List α → Option Nat
  pos : ∀ {bytes n}, first bytes = some n → 0 < n
  le : ∀ {bytes n}, first bytes = some n → n ≤ bytes.length
  mono : ∀ {bytes n} (more), first bytes = some n → first (bytes ++ more) = some n

variable (F : Framing α)

/-- A frame is its own first frame. -/
def Framing.IsFrame (frame : List α) : Prop := F.first frame = some frame.length

/-- Receive one chunk: what stays buffered, and the frame taken out, if one was complete. -/
def feed (buffered chunk : List α) : List α × List (List α) :=
  match F.first (buffered ++ chunk) with
  | none => (buffered ++ chunk, [])
  | some n => ((buffered ++ chunk).drop n, [(buffered ++ chunk).take n])

/-- Receive chunk after chunk. -/
def feedAll : List α → List (List α) → List α × List (List α)
  | buffered, [] => (buffered, [])
  | buffered, chunk :: rest =>
      let (buffered, frame) := feed F buffered chunk
      let (buffered, frames) := feedAll buffered rest
      (buffered, frame ++ frames)

/-- How many frames are completely inside the first `k` elements of their concatenation. -/
def completed : List (List α) → Nat → Nat
  | [], _ => 0
  | frame :: rest, k => if frame.length ≤ k then 1 + completed rest (k - frame.length) else 0

/-- No tail of the chunks completes more frames than it has chunks. -/
def KeepsUp (frames chunks : List (List α)) : Prop :=
  ∀ i, i ≤ chunks.length →
    frames.length ≤ completed frames (chunks.take i).flatten.length + (chunks.length - i)

variable {F}

theorem Framing.first_nil : F.first [] = none := by
  cases h : F.first [] with
  | none => rfl
  | some n =>
      have hpos := F.pos h
      have hle := F.le h
      simp only [List.length_nil] at hle
      omega

theorem Framing.IsFrame.length_pos {frame : List α} (h : F.IsFrame frame) : 0 < frame.length :=
  F.pos h

/-- With a frame in front, the first frame is that one, or is not complete yet. -/
theorem Framing.first_of_prefix {frame rest bytes : List α} (h : F.IsFrame frame)
    (hpre : bytes <+: frame ++ rest) :
    F.first bytes = if frame.length ≤ bytes.length then some frame.length else none := by
  by_cases hlen : frame.length ≤ bytes.length
  · rw [if_pos hlen]
    obtain ⟨more, hmore⟩ := List.prefix_of_prefix_length_le (List.prefix_append frame rest)
      hpre hlen
    rw [← hmore]
    exact F.mono more h
  · rw [if_neg hlen]
    cases hfirst : F.first bytes with
    | none => rfl
    | some n =>
        -- a frame found earlier would still be found in the whole frame
        obtain ⟨more, hmore⟩ := List.prefix_of_prefix_length_le hpre
          (List.prefix_append frame rest) (by omega)
        have hsame : F.first frame = some n := by
          rw [← hmore]
          exact F.mono more hfirst
        have hn : frame.length = n := Option.some.inj (h.symm.trans hsame)
        have hle := F.le hfirst
        omega

/-! ### What a receiver has taken out -/

/-- The buffered elements, then the stream still to come, are the frames not taken out. -/
def Pending (F : Framing α) (pending : List (List α)) (buffered : List α)
    (chunks : List (List α)) : Prop :=
  (∀ frame ∈ pending, F.IsFrame frame) ∧ buffered ++ chunks.flatten = pending.flatten

theorem Pending.feed_none {buffered chunk : List α} {rest : List (List α)}
    (h : Pending F [] buffered (chunk :: rest)) :
    feed F buffered chunk = ([], []) ∧ Pending F [] [] rest := by
  obtain ⟨-, hstream⟩ := h
  simp only [List.flatten_cons, List.flatten_nil, List.append_eq_nil_iff] at hstream
  obtain ⟨rfl, rfl, hrest⟩ := hstream
  refine ⟨by simp [feed, Framing.first_nil], by simp, ?_⟩
  simpa using hrest

/-- One chunk: the next frame if it is now complete, and nothing otherwise. -/
theorem Pending.feed_cons {frame buffered chunk : List α} {pending rest : List (List α)}
    (h : Pending F (frame :: pending) buffered (chunk :: rest)) :
    (frame.length ≤ buffered.length + chunk.length →
      feed F buffered chunk = ((buffered ++ chunk).drop frame.length, [frame]) ∧
        Pending F pending ((buffered ++ chunk).drop frame.length) rest) ∧
    (¬ frame.length ≤ buffered.length + chunk.length →
      feed F buffered chunk = (buffered ++ chunk, []) ∧
        Pending F (frame :: pending) (buffered ++ chunk) rest) := by
  obtain ⟨hframes, hstream⟩ := h
  have hframe : F.IsFrame frame := hframes frame (by simp)
  simp only [List.flatten_cons, ← List.append_assoc] at hstream
  have hpre : buffered ++ chunk <+: frame ++ pending.flatten := ⟨_, hstream⟩
  have hfirst := Framing.first_of_prefix hframe hpre
  rw [List.length_append] at hfirst
  refine ⟨fun hlen => ?_, fun hlen => ?_⟩
  · rw [if_pos hlen] at hfirst
    have hhead : frame <+: buffered ++ chunk :=
      List.prefix_of_prefix_length_le (List.prefix_append _ _) hpre (by simpa using hlen)
    have htake : (buffered ++ chunk).take frame.length = frame :=
      (List.prefix_iff_eq_take.mp hhead).symm
    refine ⟨by simp [feed, hfirst, htake], fun g hg => hframes g (by simp [hg]), ?_⟩
    have hsplit : frame ++ ((buffered ++ chunk).drop frame.length ++ rest.flatten)
        = frame ++ pending.flatten := by
      calc frame ++ ((buffered ++ chunk).drop frame.length ++ rest.flatten)
          = (buffered ++ chunk).take frame.length ++ (buffered ++ chunk).drop frame.length
              ++ rest.flatten := by rw [htake, List.append_assoc]
        _ = buffered ++ chunk ++ rest.flatten := by rw [List.take_append_drop]
        _ = frame ++ pending.flatten := hstream
    exact List.append_cancel_left hsplit
  · rw [if_neg hlen] at hfirst
    refine ⟨by simp [feed, hfirst], hframes, ?_⟩
    simpa using hstream

/-! ### When everything has been taken out -/

/-- `KeepsUp` for a receiver in the middle of its stream, with `k` elements buffered. -/
def Catches (pending : List (List α)) (k : Nat) (chunks : List (List α)) : Prop :=
  pending.length ≤ chunks.length ∧
    ∀ i, i < chunks.length →
      pending.length ≤ completed pending (k + (chunks.take (i + 1)).flatten.length)
        + (chunks.length - (i + 1))

/-- With the head frame complete, one frame and one chunk go. -/
theorem catches_take {frame : List α} {pending rest : List (List α)} {chunk : List α} {k : Nat}
    (hlen : frame.length ≤ k + chunk.length) :
    Catches (frame :: pending) k (chunk :: rest) ↔
      Catches pending (k + chunk.length - frame.length) rest := by
  have hcount : ∀ n, completed (frame :: pending) (k + (chunk.length + n))
      = 1 + completed pending (k + chunk.length - frame.length + n) := by
    intro n
    have hle : frame.length ≤ k + (chunk.length + n) := by omega
    have harg : k + (chunk.length + n) - frame.length = k + chunk.length - frame.length + n := by
      omega
    simp [completed, hle, harg]
  constructor
  · rintro ⟨htotal, hall⟩
    refine ⟨by simpa using htotal, fun i hi => ?_⟩
    have := hall (i + 1) (by simpa using hi)
    simp only [List.take_succ_cons, List.flatten_cons, List.length_append, List.length_cons,
      hcount] at this
    omega
  · rintro ⟨htotal, hall⟩
    refine ⟨by simpa using htotal, fun i hi => ?_⟩
    simp only [List.take_succ_cons, List.flatten_cons, List.length_append, List.length_cons,
      hcount]
    cases i with
    | zero => omega
    | succ i =>
        have := hall i (by simpa using hi)
        omega

/-- With the head frame still incomplete, a chunk goes and no frame does. -/
theorem catches_wait {frame : List α} {pending rest : List (List α)} {chunk : List α} {k : Nat}
    (hlen : ¬ frame.length ≤ k + chunk.length) :
    Catches (frame :: pending) k (chunk :: rest) ↔
      Catches (frame :: pending) (k + chunk.length) rest := by
  have hcount : completed (frame :: pending) (k + chunk.length) = 0 := by
    simp only [completed, if_neg hlen]
  constructor
  · rintro ⟨-, hall⟩
    refine ⟨?_, fun i hi => ?_⟩
    · have := hall 0 (by simp)
      simp only [List.take_succ_cons, List.take_zero, List.flatten_cons, List.flatten_nil,
        List.append_nil, hcount, List.length_cons] at this ⊢
      omega
    · have := hall (i + 1) (by simpa using hi)
      simp only [List.take_succ_cons, List.flatten_cons, List.length_append, List.length_cons,
        ← Nat.add_assoc] at this ⊢
      omega
  · rintro ⟨htotal, hall⟩
    refine ⟨?_, fun i hi => ?_⟩
    · simp only [List.length_cons] at htotal ⊢
      omega
    · simp only [List.take_succ_cons, List.flatten_cons, List.length_append, List.length_cons,
        ← Nat.add_assoc]
      cases i with
      | zero =>
          simp only [List.take_zero, List.flatten_nil, List.length_nil, Nat.add_zero, hcount]
          simp only [List.length_cons] at htotal
          omega
      | succ i =>
          have := hall i (by simpa using hi)
          simp only [List.length_cons] at this
          omega

/-- Taken out is always a front part of what was pending, and all of it iff `Catches`. -/
theorem feedAll_pending :
    ∀ (chunks : List (List α)) {pending : List (List α)} {buffered : List α},
      Pending F pending buffered chunks →
      (feedAll F buffered chunks).2 <+: pending ∧
        ((feedAll F buffered chunks).2 = pending ↔ Catches pending buffered.length chunks) := by
  intro chunks
  induction chunks with
  | nil =>
      intro pending buffered _
      refine ⟨List.nil_prefix, ?_⟩
      simp only [feedAll, Catches, List.length_nil, Nat.le_zero, List.length_eq_zero_iff,
        Nat.not_lt_zero, false_imp_iff, implies_true, and_true]
      exact eq_comm
  | cons chunk rest ih =>
      intro pending buffered h
      cases pending with
      | nil =>
          obtain ⟨hfeed, hnext⟩ := h.feed_none
          obtain ⟨hpre, -⟩ := ih hnext
          have hnil : (feedAll F [] rest).2 = [] := List.prefix_nil.mp hpre
          simp only [feedAll, hfeed, hnil, List.append_nil]
          refine ⟨List.nil_prefix, ?_⟩
          simp [Catches]
      | cons frame pending =>
          obtain ⟨htake, hwait⟩ := h.feed_cons
          by_cases hlen : frame.length ≤ buffered.length + chunk.length
          · obtain ⟨hfeed, hnext⟩ := htake hlen
            obtain ⟨hpre, hiff⟩ := ih hnext
            simp only [feedAll, hfeed, List.singleton_append]
            refine ⟨List.prefix_cons_inj frame |>.mpr hpre, ?_⟩
            rw [catches_take hlen, List.cons_inj_right, hiff]
            simp
          · obtain ⟨hfeed, hnext⟩ := hwait hlen
            obtain ⟨hpre, hiff⟩ := ih hnext
            simp only [feedAll, hfeed, List.nil_append]
            refine ⟨hpre, ?_⟩
            rw [catches_wait hlen, hiff, List.length_append]

theorem completed_zero {frames : List (List α)} (h : ∀ frame ∈ frames, F.IsFrame frame) :
    completed frames 0 = 0 := by
  cases frames with
  | nil => rfl
  | cons frame rest =>
      have hpos := (h frame (by simp)).length_pos
      simp only [completed]
      rw [if_neg (by omega)]

theorem keepsUp_iff_catches {frames chunks : List (List α)}
    (h : ∀ frame ∈ frames, F.IsFrame frame) : KeepsUp frames chunks ↔ Catches frames 0 chunks := by
  have hzero := completed_zero h
  constructor
  · intro hall
    refine ⟨by simpa [hzero] using hall 0 (Nat.zero_le _), fun i hi => ?_⟩
    simpa using hall (i + 1) hi
  · rintro ⟨htotal, hall⟩ i hi
    cases i with
    | zero => simpa [hzero] using htotal
    | succ i => simpa using hall i hi

/--
**When one frame a chunk is enough.**  Fed a stream of frames, a receiver that takes out
at most one frame for each chunk has taken out exactly the frames of the stream if and
only if no tail of the chunks completes more frames than it has chunks.
-/
theorem feedAll_eq_iff {frames chunks : List (List α)} (h : ∀ frame ∈ frames, F.IsFrame frame)
    (hstream : chunks.flatten = frames.flatten) :
    (feedAll F [] chunks).2 = frames ↔ KeepsUp frames chunks := by
  have hpending : Pending F frames [] chunks := ⟨h, by simpa using hstream⟩
  rw [(feedAll_pending chunks hpending).2, keepsUp_iff_catches h]
  rfl

/-- What is taken out, one frame a chunk, is a front part of the frames of the stream. -/
theorem feedAll_prefix {frames chunks : List (List α)} (h : ∀ frame ∈ frames, F.IsFrame frame)
    (hstream : chunks.flatten = frames.flatten) : (feedAll F [] chunks).2 <+: frames :=
  (feedAll_pending chunks ⟨h, by simpa using hstream⟩).1

theorem feed_rest (F : Framing α) (buffered chunk : List α) :
    (feed F buffered chunk).2.flatten ++ (feed F buffered chunk).1 = buffered ++ chunk := by
  unfold feed
  split
  · simp
  · simp

/-- What is taken out, then what stays buffered, is what came in. -/
theorem feedAll_rest (F : Framing α) : ∀ (buffered : List α) (chunks : List (List α)),
    (feedAll F buffered chunks).2.flatten ++ (feedAll F buffered chunks).1
      = buffered ++ chunks.flatten := by
  intro buffered chunks
  induction chunks generalizing buffered with
  | nil => simp [feedAll]
  | cons chunk rest ih =>
      simp only [feedAll, List.flatten_append, List.append_assoc, ih]
      rw [← List.append_assoc, feed_rest, List.flatten_cons, List.append_assoc]

/-- One more chunk. -/
theorem feedAll_concat (F : Framing α) (chunk : List α) :
    ∀ (chunks : List (List α)) (buffered : List α),
      feedAll F buffered (chunks ++ [chunk])
        = ((feed F (feedAll F buffered chunks).1 chunk).1,
            (feedAll F buffered chunks).2 ++ (feed F (feedAll F buffered chunks).1 chunk).2) := by
  intro chunks
  induction chunks with
  | nil => intro buffered; simp [feedAll]
  | cons c rest ih =>
      intro buffered
      simp only [List.cons_append, feedAll, ih, List.append_assoc]

end Chunked
