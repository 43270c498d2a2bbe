/-
When the log sink is usable.

`xv_close_log_file` closes the sink and leaves the pointer.  A file name that opens puts a new
`FILE` there at once, so nobody sees the closed one; one that does not open leaves it to the next
`xv_log`.  The same happens at exit from the second handler on, since each of them closes what
the pointer holds by then.  Everything else keeps the sink open, so these two are the only ways
to lose it.
-/
import Libxv.Log

namespace Libxv

open Transition

variable {log log' : Log} {call : Log.Call}

/-- Where `xv_log` writes. -/
def Log.sink (log : Log) : Nat := log.xvLoggerFp.getD stderrFile

/-- Nothing is done to a `FILE` after it was closed: no write, and no second close. -/
def Usable (ops : List FileOp) : Prop :=
  Justified (fun before op => FileOp.close op.file ∉ before) ops

/-! ### The functions -/

/-- Neither `NULL` nor `stderr` is closed. -/
theorem xvCloseLogFile_eq (log : Log) :
    xvCloseLogFile log =
      if log.sink = stderrFile then log else log.record (.close log.sink) := by
  unfold xvCloseLogFile Log.sink
  cases log.xvLoggerFp with
  | none => simp
  | some file =>
      by_cases hstderr : file = stderrFile
      · simp [hstderr]
      · simp [hstderr]

theorem xvCloseLogFile_stderr (h : log.sink = stderrFile) : xvCloseLogFile log = log := by
  rw [xvCloseLogFile_eq, if_pos h]

theorem xvCloseLogFile_other (h : log.sink ≠ stderrFile) :
    xvCloseLogFile log = log.record (.close log.sink) := by
  rw [xvCloseLogFile_eq, if_neg h]

theorem runHandlers_stderr (h : log.sink = stderrFile) (n : Nat) : runHandlers n log = log := by
  induction n with
  | zero => rfl
  | succ n ih =>
      show runHandlers n (xvCloseLogFile log) = log
      rw [xvCloseLogFile_stderr h]
      exact ih

/-- Each handler closes the sink again. -/
theorem runHandlers_other (h : log.sink ≠ stderrFile) (n : Nat) :
    runHandlers n log = { log with ops := log.ops ++ List.replicate n (.close log.sink) } := by
  induction n generalizing log with
  | zero => simp [runHandlers]
  | succ n ih =>
      have hsink : (log.record (.close log.sink)).sink = log.sink := rfl
      show runHandlers n (xvCloseLogFile log) = _
      rw [xvCloseLogFile_other h, ih (hsink ▸ h), hsink, List.replicate_succ]
      simp [Log.record]

/-! ### What every call keeps -/

/-- The record so far is in order, and `stderr` is never closed. -/
structure Log.Sane (log : Log) : Prop where
  usable : Usable log.ops
  stderr : log.IsOpen stderrFile
  /-- A `FILE` nobody has opened has not been touched. -/
  known : ∀ op ∈ log.ops, op.file < log.opened

theorem Log.Sane.record (h : log.Sane) {op : FileOp} (hopen : log.IsOpen op.file)
    (hstderr : op ≠ .close stderrFile) : (log.record op).Sane := by
  refine ⟨h.usable.snoc hopen.2, ⟨h.stderr.1, ?_⟩, ?_⟩
  · show FileOp.close stderrFile ∉ log.ops ++ [op]
    rw [List.mem_append, List.mem_singleton]
    exact not_or.mpr ⟨h.stderr.2, Ne.symm hstderr⟩
  · intro e he
    rcases List.mem_append.mp he with he | he
    · exact h.known e he
    · exact List.mem_singleton.mp he ▸ hopen.1

/-- Closing an open sink is in order. -/
theorem Log.Sane.close (h : log.Sane) (hsink : log.IsOpen log.sink) :
    (xvCloseLogFile log).Sane := by
  by_cases hstderr : log.sink = stderrFile
  · rw [xvCloseLogFile_stderr hstderr]
    exact h
  · rw [xvCloseLogFile_other hstderr]
    exact h.record hsink (by simpa using hstderr)

theorem Log.Sane.opened_notMem (h : log.Sane) : FileOp.close log.opened ∉ log.ops := by
  intro hmem
  exact Nat.lt_irrefl _ (h.known _ hmem)

/-- The sink is open for as long as somebody may log. -/
structure Log.Kept (log : Log) : Prop extends log.Sane where
  sink : log.exited = false → log.IsOpen log.sink

/-- When a call leaves the sink in order: a file name that does not open must find `stderr` in
use, and so must an exit with more than one handler. -/
def Log.Fits (log : Log) : Log.Call → Prop
  | .setLogFilename false => log.sink = stderrFile
  | .exit => log.sink = stderrFile ∨ log.handlers ≤ 1
  | _ => True

instance Log.Fits.decidable (log : Log) : ∀ call, Decidable (log.Fits call)
  | .setLogFilename false => inferInstanceAs (Decidable (log.sink = stderrFile))
  | .exit => inferInstanceAs (Decidable (_ ∨ _))
  | .setLogFilename true => inferInstanceAs (Decidable True)
  | .setLogFile _ => inferInstanceAs (Decidable True)
  | .setLogLevel _ => inferInstanceAs (Decidable True)
  | .log _ => inferInstanceAs (Decidable True)
  | .fopen => inferInstanceAs (Decidable True)

theorem Log.Kept.setLogFile (h : log.Kept) {pf : Option Nat}
    (hopen : ∀ file ∈ pf, log.IsOpen file) : (xvSetLogFile log pf).Kept := by
  cases pf with
  | none => exact h
  | some file => exact ⟨⟨h.usable, h.stderr, h.known⟩, fun _ => hopen file rfl⟩

theorem Log.Kept.fopen (h : log.Kept) : { log with opened := log.opened + 1 : Log }.Kept := by
  have hstderr := h.stderr
  refine ⟨⟨h.usable, ⟨Nat.lt_succ_of_lt hstderr.1, hstderr.2⟩, fun op hop => ?_⟩, fun hexit => ?_⟩
  · exact Nat.lt_succ_of_lt (h.known op hop)
  · exact ⟨Nat.lt_succ_of_lt (h.sink hexit).1, (h.sink hexit).2⟩

/-- A file name that opens puts a new `FILE` in place of the one it closed. -/
theorem Log.Kept.setLogFilename (h : log.Kept) (hexit : log.exited = false) :
    (xvSetLogFilename log true).2.Kept := by
  have hsane : (xvCloseLogFile log).Sane := h.toSane.close (h.sink hexit)
  refine ⟨⟨hsane.usable, ⟨Nat.lt_succ_of_lt hsane.stderr.1, hsane.stderr.2⟩, ?_⟩, fun _ => ?_⟩
  · intro op hop
    exact Nat.lt_succ_of_lt (hsane.known op hop)
  · exact ⟨Nat.lt_succ_self _, hsane.opened_notMem⟩

theorem Log.Kept.xvLog (h : log.Kept) (hexit : log.exited = false) (level : LogLevel) :
    (Libxv.xvLog log level).Kept := by
  unfold Libxv.xvLog
  split
  · exact h
  · have hsink := h.sink hexit
    have hsane : { log with xvLoggerFp := some log.sink : Log }.Sane :=
      ⟨h.usable, h.stderr, h.known⟩
    refine ⟨hsane.record hsink (by simp), fun _ => ⟨hsink.1, ?_⟩⟩
    show FileOp.close log.sink ∉ log.ops ++ [.write log.sink]
    simpa using hsink.2

/-- At most one handler closes what is open. -/
theorem Log.Kept.exit (h : log.Kept) (hexit : log.exited = false) (hfits : log.Fits .exit) :
    (runHandlers log.handlers log).Sane := by
  by_cases hstderr : log.sink = stderrFile
  · rw [runHandlers_stderr hstderr]
    exact h.toSane
  · have hone : log.handlers ≤ 1 := hfits.resolve_left hstderr
    rcases Nat.le_one_iff_eq_zero_or_eq_one.mp hone with hzero | hsucc
    · rw [hzero]
      exact h.toSane
    · rw [hsucc]
      exact h.toSane.close (h.sink hexit)

/-- Every call that fits leaves the sink in order. -/
theorem Log.Kept.after (h : log.Kept) (hallowed : log.Allowed call) (hfits : log.Fits call) :
    (log.after call).Kept := by
  obtain ⟨hexit, hgiven⟩ := hallowed
  cases call with
  | setLogFile pf => exact h.setLogFile hgiven
  | setLogFilename opens =>
      cases opens with
      | true => exact h.setLogFilename hexit
      | false =>
          show (xvCloseLogFile log).Kept
          rw [xvCloseLogFile_stderr hfits]
          exact h
  | setLogLevel level => exact ⟨⟨h.usable, h.stderr, h.known⟩, h.sink⟩
  | log level => exact h.xvLog hexit level
  | fopen => exact h.fopen
  | exit =>
      have hsane := h.exit hexit hfits
      exact ⟨⟨hsane.usable, hsane.stderr, hsane.known⟩, fun h => absurd h (by simp [Log.after])⟩

/-! ### Runs -/

/-- What is asked of a call: what it does to `FILE`s is in order, and if it is an
`xv_set_log_filename` that fails, the sink is the one before and still open. -/
structure Log.Safe (log : Log) (call : Log.Call) (log' : Log) : Prop where
  usable : Usable log'.ops
  failed : ∀ opens, call = .setLogFilename opens → (xvSetLogFilename log opens).1 = xvErr →
    log'.sink = log.sink ∧ log'.IsOpen log.sink

theorem Log.Kept.safe (h : log.Kept) (hallowed : log.Allowed call) (hfits : log.Fits call) :
    log.Safe call (log.after call) := by
  refine ⟨(h.after hallowed hfits).usable, ?_⟩
  rintro opens rfl herr
  cases opens with
  | true => exact absurd herr (by simp [xvSetLogFilename, xvOk, xvErr])
  | false =>
      show (xvCloseLogFile log).sink = log.sink ∧ (xvCloseLogFile log).IsOpen log.sink
      rw [xvCloseLogFile_stderr hfits]
      exact ⟨rfl, h.sink hallowed.1⟩

/-- A file name that does not open has closed the sink. -/
theorem Log.Safe.setLogFilename (h : log.Safe (.setLogFilename false) (xvCloseLogFile log)) :
    log.sink = stderrFile := by
  by_cases hstderr : log.sink = stderrFile
  · exact hstderr
  exfalso
  have hopen := (h.failed false rfl rfl).2
  rw [xvCloseLogFile_other hstderr] at hopen
  exact hopen.2 (List.mem_append_right _ List.mem_cons_self)

/-- The second handler closes what the first has closed. -/
theorem Usable.exit (h : Usable (runHandlers log.handlers log).ops) :
    log.sink = stderrFile ∨ log.handlers ≤ 1 := by
  by_cases hstderr : log.sink = stderrFile
  · exact .inl hstderr
  by_cases hone : log.handlers ≤ 1
  · exact .inr hone
  exfalso
  obtain ⟨n, hn⟩ : ∃ n, log.handlers = n + 2 := ⟨log.handlers - 2, by omega⟩
  rw [runHandlers_other hstderr, hn, List.replicate_succ, List.replicate_succ] at h
  refine h (log.ops ++ [.close log.sink]) (.close log.sink)
    (List.replicate n (.close log.sink)) ?_ (List.mem_append_right _ List.mem_cons_self)
  simp

theorem Log.Safe.fits (h : log.Safe call (log.after call)) : log.Fits call := by
  cases call with
  | setLogFilename opens =>
      cases opens with
      | true => trivial
      | false => exact Log.Safe.setLogFilename h
  | exit => exact Usable.exit h.usable
  | setLogFile pf => trivial
  | setLogLevel level => trivial
  | log level => trivial
  | fopen => trivial

theorem Log.Start.kept (h : log.Start) : log.Kept := by
  obtain ⟨others, rfl⟩ := h
  have hstderr : (Log.init others).IsOpen stderrFile := ⟨Nat.succ_pos _, List.not_mem_nil⟩
  exact ⟨⟨.nil, hstderr, fun op hop => absurd hop List.not_mem_nil⟩, fun _ => hstderr⟩

/-- **When the log sink stays usable**: in a run whose calls all fit, nothing has been done to a
closed `FILE`, and the next call is safe if and only if it fits too. -/
theorem log_sink_iff {log : Log} (h : Reach Log.step Log.Fits Log.Start log) :
    Usable log.ops ∧ ∀ call log', log.step call = some log' →
      (log.Safe call log' ↔ log.Fits call) := by
  have hkept : log.Kept := by
    refine h.invariant (I := Log.Kept) (fun _ => Log.Start.kept) ?_
    intro log call log' hlog hfits hstep
    obtain ⟨hallowed, hafter⟩ := Option.ite_none_right_eq_some.mp hstep
    exact Option.some.inj hafter ▸ hlog.after hallowed hfits
  refine ⟨hkept.usable, fun call log' hstep => ?_⟩
  obtain ⟨hallowed, hafter⟩ := Option.ite_none_right_eq_some.mp hstep
  rw [← Option.some.inj hafter]
  exact ⟨Log.Safe.fits, hkept.safe hallowed⟩

/-- A file of the program's own, replaced by a named one that is closed at exit. -/
theorem log_sink_iff_named :
    ∃ log, Reach Log.step Log.Fits Log.Start log ∧
      log.ops = [.write 1, .close 1, .write 2, .close 2] ∧ Usable log.ops := by
  obtain ⟨log, hrun, hops⟩ : ∃ log, Reach Log.step Log.Fits Log.Start log ∧
      log.ops = [.write 1, .close 1, .write 2, .close 2] :=
    ⟨_, .play [.setLogFile (some 1), .log .info, .setLogFilename true, .log .error, .exit]
      (.start ⟨1, rfl⟩) (by decide) rfl, rfl⟩
  exact ⟨log, hrun, hops, (log_sink_iff hrun).1⟩

/-- A file name that does not open after one that did, then a line; and two file names, then
exit. -/
theorem log_sink_lost :
    (∃ log, play Log.step (.init 0) [.setLogFilename true, .setLogFilename false, .log .error] =
      some log ∧ ¬ Usable log.ops) ∧
    ∃ log, play Log.step (.init 0) [.setLogFilename true, .setLogFilename true, .exit] =
      some log ∧ ¬ Usable log.ops := by
  refine ⟨⟨_, rfl, fun h => ?_⟩, ⟨_, rfl, fun h => ?_⟩⟩
  · exact h [.close 1] (.write 1) [] rfl (by decide)
  · exact h [.close 1, .close 2] (.close 2) [] rfl (by decide)

end Libxv
