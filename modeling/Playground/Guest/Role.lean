import Playground.Guest

/-!
# Roles of exported functions

The host calls eight functions of a guest module, each in a role, and knows them by the names that the module gives them.
`ExportNames` is a choice of names; its defaults are those of the interpreter's own build.
-/

namespace Playground

/-- What an exported function is for. -/
inductive Role where
  | setUp
  | allocate
  | release
  | validate
  | initRun
  | deinitRun
  | isFinished
  | step
  deriving DecidableEq, Repr

namespace Role

/-- Every role, in the order in which a module's functions are looked up. -/
def all : List Role := [setUp, allocate, release, validate, initRun, deinitRun, isFinished, step]

/-- The name of the function in the interpreter's own build. -/
def usualName : Role → String
  | setUp => "initialize"
  | allocate => "malloc"
  | release => "free"
  | validate => "validate"
  | initRun => "initInterpreter"
  | deinitRun => "deinitInterpreter"
  | isFinished => "isInterpreterDone"
  | step => "stepInterpreter"

end Role

/-- The role in which a call is made. -/
def Export.role : Export → Role
  | .setUp => .setUp
  | .allocate _ => .allocate
  | .release _ _ => .release
  | .validate _ _ => .validate
  | .initRun _ _ => .initRun
  | .deinitRun => .deinitRun
  | .isFinished => .isFinished
  | .step _ => .step

/-- The names of a module's exports. -/
structure ExportNames where
  setUp : String := Role.setUp.usualName
  allocate : String := Role.allocate.usualName
  release : String := Role.release.usualName
  validate : String := Role.validate.usualName
  initRun : String := Role.initRun.usualName
  deinitRun : String := Role.deinitRun.usualName
  isFinished : String := Role.isFinished.usualName
  step : String := Role.step.usualName
  memory : String := "memory"
  deriving DecidableEq, Repr

/-- The name of the function in a role. -/
def ExportNames.ofRole (names : ExportNames) : Role → String
  | .setUp => names.setUp
  | .allocate => names.allocate
  | .release => names.release
  | .validate => names.validate
  | .initRun => names.initRun
  | .deinitRun => names.deinitRun
  | .isFinished => names.isFinished
  | .step => names.step

/-- The names under which a module imports its console functions. -/
structure ImportNames where
  read : String := "readString"
  write : String := "writeString"
  clock : String := "millis"
  deriving DecidableEq, Repr

/-- Where a guest module is and what its parts are called. -/
structure ModuleConfig where
  path : String := "lola.wasm"
  /-- The namespace in which the module looks for its imports. -/
  importModule : String := "env"
  exports : ExportNames := {}
  imports : ImportNames := {}
  deriving DecidableEq, Repr

end Playground
