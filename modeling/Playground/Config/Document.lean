import Playground.Config
import Playground.Toml.Codec

/-!
# Configuration documents

A configuration is read from a document with one table for each of its sections, and written as one. In a document everything
may be left out, a whole section too, and then holds its default; names that are not known are passed over. A section may
also be an array, whose elements are its settings in the order in which they are declared. `ofToml` accepts only what
`validate` accepts. How the text of a document is read and written is left to a codec.
-/

namespace Playground

/-- The settings of one section as a document gives them. -/
inductive Settings where
  | named (entries : Toml.Entries)
  | listed (values : List Toml.Value)

namespace Settings

variable {α : Type}

/-- The settings that a value holds. A date or time holds none; a text, a number and a truth value cannot hold a section's
settings. -/
def ofValue? : Toml.Value → Option Settings
  | .table entries => some (.named entries)
  | .array values => some (.listed values)
  | .moment => some (.named [])
  | _ => none

/-- The value given for a setting, which has a place and a name. -/
def find? (s : Settings) (place : Nat) (name : String) : Option Toml.Value :=
  match s with
  | .named entries => entries.lookup name
  | .listed values => values[place]?

/-- A setting: its default, if it is not given; `none`, if what is given cannot be read. -/
def get (s : Settings) (place : Nat) (name : String) (read : Toml.Value → Option α) (dflt : α) : Option α :=
  match s.find? place name with
  | none => some dflt
  | some value => read value

/-- A section inside another one. -/
def inner (read : Settings → Option α) (value : Toml.Value) : Option α := (ofValue? value).bind read

end Settings

namespace Setting

/-- A text. -/
def text : Toml.Value → Option String
  | .string t => some t
  | _ => none

/-- A yes or no. -/
def flag : Toml.Value → Option Bool
  | .boolean b => some b
  | _ => none

/-- A whole number of at most 32 bits. -/
def word : Toml.Value → Option UInt32
  | .integer n => if 0 ≤ n ∧ n.toNat < UInt32.size then some (UInt32.ofNat n.toNat) else none
  | _ => none

/-- A whole number of at most 64 bits. -/
def long : Toml.Value → Option UInt64
  | .integer n => if 0 ≤ n ∧ n.toNat < UInt64.size then some (UInt64.ofNat n.toNat) else none
  | _ => none

end Setting

/-! ## Reading -/

/-- The names of exports. -/
def ExportNames.ofSettings? (s : Settings) : Option ExportNames := do
  let d : ExportNames := {}
  let setUp ← s.get 0 "initialize" Setting.text d.setUp
  let allocate ← s.get 1 "allocate" Setting.text d.allocate
  let release ← s.get 2 "release" Setting.text d.release
  let validate ← s.get 3 "validate" Setting.text d.validate
  let initRun ← s.get 4 "init_run" Setting.text d.initRun
  let deinitRun ← s.get 5 "deinit_run" Setting.text d.deinitRun
  let isFinished ← s.get 6 "is_finished" Setting.text d.isFinished
  let step ← s.get 7 "step" Setting.text d.step
  let memory ← s.get 8 "memory" Setting.text d.memory
  return { setUp, allocate, release, validate, initRun, deinitRun, isFinished, step, memory }

/-- The names of imports. -/
def ImportNames.ofSettings? (s : Settings) : Option ImportNames := do
  let d : ImportNames := {}
  let read ← s.get 0 "read" Setting.text d.read
  let write ← s.get 1 "write" Setting.text d.write
  let clock ← s.get 2 "clock" Setting.text d.clock
  return { read, write, clock }

/-- The section `module`. -/
def ModuleConfig.ofSettings? (s : Settings) : Option ModuleConfig := do
  let d : ModuleConfig := {}
  let path ← s.get 0 "path" Setting.text d.path
  let importModule ← s.get 1 "import_module" Setting.text d.importModule
  let exports ← s.get 2 "exports" (Settings.inner ExportNames.ofSettings?) d.exports
  let imports ← s.get 3 "imports" (Settings.inner ImportNames.ofSettings?) d.imports
  return { path, importModule, exports, imports }

/-- The section `scheduler`. -/
def SchedulerConfig.ofSettings? (s : Settings) : Option SchedulerConfig := do
  let d : SchedulerConfig := {}
  let stepBudget ← s.get 0 "step_budget" Setting.word d.stepBudget
  let tickIntervalMs ← s.get 1 "tick_interval_ms" Setting.long d.tickIntervalMs
  return { stepBudget, tickIntervalMs }

/-- The section `console`. A setting that is missing from it is on. -/
def ConsoleConfig.ofSettings? (s : Settings) : Option ConsoleConfig := do
  let clearOnStart ← s.get 0 "clear_on_start" Setting.flag true
  let greeting ← s.get 1 "greeting" Setting.flag true
  return { clearOnStart, greeting }

/-- The section `log`. -/
def LogConfig.ofSettings? (s : Settings) : Option LogConfig := do
  let d : LogConfig := {}
  let level ← s.get 0 "level" Setting.text d.level
  return { level }

namespace Config

/-- The sections of a configuration. -/
def ofSettings? (s : Settings) : Option Config := do
  let d : Config := {}
  let guest ← s.get 0 "module" (Settings.inner ModuleConfig.ofSettings?) d.guest
  let scheduler ← s.get 1 "scheduler" (Settings.inner SchedulerConfig.ofSettings?) d.scheduler
  let console ← s.get 2 "console" (Settings.inner ConsoleConfig.ofSettings?) d.console
  let log ← s.get 3 "log" (Settings.inner LogConfig.ofSettings?) d.log
  return { guest, scheduler, console, log }

/-- The configuration of a document's table, whether or not it can be used. -/
def ofEntries? (entries : Toml.Entries) : Option Config := ofSettings? (.named entries)

/-- The configuration that the text of a document holds. -/
def ofToml (codec : Toml.Codec) (text : String) : Except ConfigError Config :=
  match (codec.parse? text).bind ofEntries? with
  | none => .error .malformed
  | some c =>
    match c.validate with
    | .ok () => .ok c
    | .error error => .error error

end Config

/-! ## Writing -/

/-- The names of exports as a section of a document; every setting is given, as in all of them. -/
def ExportNames.entries (names : ExportNames) : Toml.Entries :=
  [("initialize", .string names.setUp),
    ("allocate", .string names.allocate),
    ("release", .string names.release),
    ("validate", .string names.validate),
    ("init_run", .string names.initRun),
    ("deinit_run", .string names.deinitRun),
    ("is_finished", .string names.isFinished),
    ("step", .string names.step),
    ("memory", .string names.memory)]

/-- The names of imports. -/
def ImportNames.entries (names : ImportNames) : Toml.Entries :=
  [("read", .string names.read), ("write", .string names.write), ("clock", .string names.clock)]

/-- The section `module`, with sections of their own for the names. -/
def ModuleConfig.entries (m : ModuleConfig) : Toml.Entries :=
  [("path", .string m.path), ("import_module", .string m.importModule), ("exports", .table m.exports.entries),
    ("imports", .table m.imports.entries)]

/-- The section `scheduler`. -/
def SchedulerConfig.entries (s : SchedulerConfig) : Toml.Entries :=
  [("step_budget", .integer s.stepBudget.toNat), ("tick_interval_ms", .integer s.tickIntervalMs.toNat)]

/-- The section `console`. -/
def ConsoleConfig.entries (c : ConsoleConfig) : Toml.Entries :=
  [("clear_on_start", .boolean c.clearOnStart), ("greeting", .boolean c.greeting)]

/-- The section `log`. -/
def LogConfig.entries (l : LogConfig) : Toml.Entries := [("level", .string l.level)]

namespace Config

/-- The document of a configuration. -/
def document (c : Config) : Toml.Entries :=
  [("module", .table c.guest.entries), ("scheduler", .table c.scheduler.entries), ("console", .table c.console.entries),
    ("log", .table c.log.entries)]

/-- The text of a configuration's document. There is none if the codec has none, for a number that does not fit, say. -/
def toToml (codec : Toml.Codec) (c : Config) : Except ConfigError String :=
  match codec.print? c.document with
  | some text => .ok text
  | none => .error .unwritable

end Config

end Playground
