/-
The log sink of `xv_log.c`.

The sink is one global `FILE` pointer, which is set, closed and replaced in separate steps,
and `atexit` gets one more handler with each file name.  A `FILE` is the number of the
`fopen` that made it, so one that has been closed never comes back, and what is done to
`FILE`s is recorded in order.  What a line says has no part in any of this and is left out.
-/
import Libxv.Define
import Libxv.Lib.Trace

namespace Libxv

open Transition

/-- `xv_log_level_t`. -/
inductive LogLevel
  | debug
  | info
  | warning
  | error
  deriving DecidableEq, Repr

def LogLevel.value : LogLevel → Nat
  | .debug => 0
  | .info => 1
  | .warning => 2
  | .error => 3

/-- What is done to a `FILE`. -/
inductive FileOp
  | write (file : Nat)
  | close (file : Nat)
  deriving DecidableEq, Repr

def FileOp.file : FileOp → Nat
  | .write file => file
  | .close file => file

/-- The globals of `xv_log.c`, and of the C library what they depend on: how many `FILE`s have
been opened, the `atexit` handlers registered here, and whether `exit` has run them. -/
structure Log where
  xvLoggerFp : Option Nat
  xvCurrLogLevel : LogLevel
  opened : Nat
  handlers : Nat
  exited : Bool
  ops : List FileOp
  deriving DecidableEq, Repr

/-- `stderr` is the first `FILE` there is. -/
def stderrFile : Nat := 0

/-- When the program starts, `stderr` is open, and `others` more are. -/
def Log.init (others : Nat) : Log :=
  { xvLoggerFp := none, xvCurrLogLevel := .info, opened := others + 1, handlers := 0
    exited := false, ops := [] }

/-- Opened, and not closed since. -/
def Log.IsOpen (log : Log) (file : Nat) : Prop :=
  file < log.opened ∧ FileOp.close file ∉ log.ops

instance (log : Log) (file : Nat) : Decidable (log.IsOpen file) :=
  inferInstanceAs (Decidable (_ ∧ _))

def Log.record (log : Log) (op : FileOp) : Log := { log with ops := log.ops ++ [op] }

/-! ### The functions -/

def xvSetLogFile (log : Log) (pf : Option Nat) : Log :=
  match pf with
  | some file => { log with xvLoggerFp := some file }
  | none => log

def xvCloseLogFile (log : Log) : Log :=
  match log.xvLoggerFp with
  | some file => if file ≠ stderrFile then log.record (.close file) else log
  | none => log

/-- `fopen` succeeds or not, as `opens` says. -/
def xvSetLogFilename (log : Log) (opens : Bool) : Int × Log :=
  let log := xvCloseLogFile log
  if opens then
    (xvOk,
      { log with
        xvLoggerFp := some log.opened
        opened := log.opened + 1
        handlers := log.handlers + 1 })
  else (xvErr, log)

def xvSetLogLevel (log : Log) (level : LogLevel) : Log := { log with xvCurrLogLevel := level }

def xvLog (log : Log) (level : LogLevel) : Log :=
  if level.value < log.xvCurrLogLevel.value then log
  else
    let file := log.xvLoggerFp.getD stderrFile
    { log with xvLoggerFp := some file }.record (.write file)

/-- `exit` calls `xv_close_log_file` once for each time it was registered. -/
def runHandlers : Nat → Log → Log
  | 0, log => log
  | n + 1, log => runHandlers n (xvCloseLogFile log)

/-! ### Histories of calls -/

/-- One call, with what `fopen` answers; `fopen` is a `FILE` the program opens for itself. -/
inductive Log.Call
  | setLogFile (pf : Option Nat)
  | setLogFilename (opens : Bool)
  | setLogLevel (level : LogLevel)
  | log (level : LogLevel)
  | fopen
  | exit
  deriving DecidableEq, Repr

/-- The `FILE` a call is given. -/
def Log.Call.given : Log.Call → Option Nat
  | .setLogFile pf => pf
  | _ => none

/-- A `FILE` that is given is open, and nothing is called after `exit`. -/
def Log.Allowed (log : Log) (call : Log.Call) : Prop :=
  log.exited = false ∧ ∀ file ∈ call.given, log.IsOpen file

instance (log : Log) (call : Log.Call) : Decidable (log.Allowed call) :=
  inferInstanceAs (Decidable (_ ∧ _))

def Log.after (log : Log) : Log.Call → Log
  | .setLogFile pf => xvSetLogFile log pf
  | .setLogFilename opens => (xvSetLogFilename log opens).2
  | .setLogLevel level => xvSetLogLevel log level
  | .log level => xvLog log level
  | .fopen => { log with opened := log.opened + 1 }
  | .exit => { runHandlers log.handlers log with exited := true }

def Log.step (log : Log) (call : Log.Call) : Option Log :=
  if log.Allowed call then some (log.after call) else none

/-- The start of a program, whatever files it has open. -/
def Log.Start (log : Log) : Prop := ∃ others, log = .init others

end Libxv
