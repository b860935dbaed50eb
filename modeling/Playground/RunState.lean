/-!
# Phases of a program

The controller keeps one program at a time; `RunState` is the phase it is in. `compiling` is passed through inside a start
and is never seen between two operations.
-/

namespace Playground

/-- How far a program has come. -/
inductive RunState where
  | idle
  | compiling
  | running
  | stopped
  | faulted
  deriving DecidableEq, Repr

/-- The phase's name in messages. -/
def RunState.name : RunState → String
  | idle => "idle"
  | compiling => "compiling"
  | running => "running"
  | stopped => "stopped"
  | faulted => "faulted"

end Playground
