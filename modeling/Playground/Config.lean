import Playground.Files
import Playground.Guest.Role
import Playground.LogLevel
import Playground.Path

/-!
# Configuration

What a user can set, with the values that hold where nothing is said: the guest module and its names, the tick loop, the
console and the log. `validate` refuses what the tick loop and the log cannot work with; of several such settings it names
the first, in the order of budget, interval and level.
-/

namespace Playground

/-- The tick loop. -/
structure SchedulerConfig where
  /-- Units of guest work for one tick. -/
  stepBudget : UInt32 := 1000
  /-- Milliseconds between two ticks. -/
  tickIntervalMs : UInt64 := 16
  deriving DecidableEq, Repr

/-- The console. -/
structure ConsoleConfig where
  /-- A start clears the console. -/
  clearOnStart : Bool := true
  /-- The session opens with a greeting. -/
  greeting : Bool := true
  deriving DecidableEq, Repr

/-- The log. The level is kept as it was written. -/
structure LogConfig where
  level : String := "warn"
  deriving DecidableEq, Repr

/-- Everything that can be set. -/
structure Config where
  guest : ModuleConfig := {}
  scheduler : SchedulerConfig := {}
  console : ConsoleConfig := {}
  log : LogConfig := {}
  deriving DecidableEq, Repr

/-- A setting that the playground cannot work with. -/
inductive Problem where
  | zeroStepBudget
  | zeroTickInterval
  | unknownLogLevel (text : String)
  deriving DecidableEq, Repr

/-- The words for a problem. -/
def Problem.message : Problem → String
  | zeroStepBudget => "scheduler.step_budget must be at least 1"
  | zeroTickInterval => "scheduler.tick_interval_ms must be at least 1"
  | unknownLogLevel text => LogLevel.unknownMessage text

/-- Why there is no configuration, or none that can be used or written. -/
inductive ConfigError where
  | unreadable (path : String) (error : FileError)
  | malformed
  | unwritable
  | invalid (problem : Problem)
  deriving DecidableEq, Repr

/-- The words for an error. -/
def ConfigError.message : ConfigError → String
  | unreadable path error => "cannot read config " ++ path ++ ": " ++ error.message
  | malformed => "config parse error"
  | unwritable => "config serialize error"
  | invalid problem => "invalid config: " ++ problem.message

namespace Config

/-- The first problem of a configuration. -/
def problem? (c : Config) : Option Problem :=
  if c.scheduler.stepBudget = 0 then some .zeroStepBudget
  else if c.scheduler.tickIntervalMs = 0 then some .zeroTickInterval
  else if (LogLevel.parse? c.log.level).isNone then some (.unknownLogLevel c.log.level)
  else none

/-- Refuses a configuration with a problem. -/
def validate (c : Config) : Except ConfigError Unit :=
  match c.problem? with
  | some problem => .error (.invalid problem)
  | none => .ok ()

/-- Two configurations say the same: they agree in every setting, with the module's path perhaps spelt in two ways. -/
def sameAs (a b : Config) : Bool :=
  Path.same a.guest.path b.guest.path && { a with guest := { a.guest with path := b.guest.path } } == b

/-- The level of the log; the usual one where the text names none, which `validate` rules out. -/
def logLevel (c : Config) : LogLevel := (LogLevel.parse? c.log.level).getD .warn

/-- What is accepted has no problem. -/
theorem validate_eq_ok_iff {c : Config} : c.validate = .ok () ↔ c.problem? = none := by
  unfold validate
  cases c.problem? <;> simp

/-- In a configuration without a problem the text of the log's level names one. -/
theorem parse?_of_problem?_eq_none {c : Config} (h : c.problem? = none) : LogLevel.parse? c.log.level = some c.logLevel := by
  have hs : (LogLevel.parse? c.log.level).isSome := by
    by_cases hb : c.scheduler.stepBudget = 0
    · simp [problem?, hb] at h
    by_cases ht : c.scheduler.tickIntervalMs = 0
    · simp [problem?, hb, ht] at h
    · simpa [problem?, hb, ht, Option.isSome_iff_ne_none] using h
  obtain ⟨level, hl⟩ := Option.isSome_iff_exists.mp hs
  simp [logLevel, hl]

end Config

end Playground
