import Playground.Outcome

/-!
# How runs end

A tick loop ends in a `LoopExit`, a session in a `SessionExit`, which adds the program that never started. `LoopExit.ofFault`
sorts the outcome that faulted a run: a panic has been reported by the guest, a cancellation was asked for, all else is an
alarm.
-/

namespace Playground

/-- Why a tick loop ended. -/
inductive LoopExit where
  /-- The program ran to completion. -/
  | finished
  /-- The program panicked and said so itself. -/
  | faulted (outcome : Outcome)
  /-- Something failed of which only the host can tell. -/
  | alarm (outcome : Outcome)
  /-- Somebody stopped the program, or started another one in its place. -/
  | cancelled
  deriving DecidableEq, Repr

namespace LoopExit

/-- The exit is an alarm. -/
def isAlarm : LoopExit → Bool
  | alarm _ => true
  | _ => false

/-- The exit of a loop whose program was ended by an outcome other than success. -/
def ofFault : Outcome → LoopExit
  | .runtimeFault => faulted .runtimeFault
  | .cancelled => cancelled
  | outcome => alarm outcome

end LoopExit

/-- Why a session's run ended. -/
inductive SessionExit where
  /-- The program never started. -/
  | rejected (outcome : Outcome)
  /-- The program ran to completion. -/
  | finished
  /-- The program panicked and said so itself. -/
  | faulted (outcome : Outcome)
  /-- Something failed of which only the host can tell. -/
  | alarm (outcome : Outcome)
  /-- Somebody stopped the program. -/
  | cancelled
  deriving DecidableEq, Repr

namespace SessionExit

/-- The session's view of a loop's end. -/
def ofLoop : LoopExit → SessionExit
  | .finished => finished
  | .faulted outcome => faulted outcome
  | .alarm outcome => alarm outcome
  | .cancelled => cancelled

/-- The process's exit code. -/
def exitCode : SessionExit → UInt8
  | finished => 0
  | faulted _ => 1
  | rejected _ => 2
  | alarm _ => 3
  | cancelled => 130

end SessionExit

end Playground
