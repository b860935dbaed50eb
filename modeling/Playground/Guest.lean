import Playground.Console.Bridge
import Playground.Error

/-!
# The guest

The interpreter runs inside a machine of its own. The host sees its linear memory, the console bridge behind its imports, and
eight exported functions. `Guest` says what a call does to the machine: nothing is assumed of it, a call may return anything,
fail at any point, and leave memory, console and its own state in any condition. `Machine.readConsole`, `writeConsole` and
`millis` are the imports a guest may use during a call.
-/

namespace Playground

/-- A call of an exported function. -/
inductive Export where
  /-- One-time setup of the interpreter. -/
  | setUp
  /-- Set `size` bytes of memory apart, or more. -/
  | allocate (size : UInt32)
  /-- Take memory back that was set apart; `size` is what was asked for. -/
  | release (ptr size : UInt32)
  /-- Compile the text at `ptr`, of `len` bytes, and forget it. -/
  | validate (ptr len : UInt32)
  /-- Compile the text at `ptr`, of `len` bytes, and get ready to run it. -/
  | initRun (ptr len : UInt32)
  /-- End the run, whether or not it is complete. -/
  | deinitRun
  /-- Is the run complete? -/
  | isFinished
  /-- Work on the run, for `budget` units or less. -/
  | step (budget : UInt32)
  deriving DecidableEq, Repr

/-- What a call returns when it returns: a pointer, a status, a yes or no, or nothing. -/
@[reducible] def Export.Reply : Export → Type
  | setUp | release _ _ | deinitRun => Unit
  | allocate _ => UInt32
  | validate _ _ | initRun _ _ | step _ => Int32
  | isFinished => Bool

/-- A guest machine: its linear memory, the host's side of its console, and the state of the interpreter itself. -/
structure Machine (γ : Type) where
  memory : Memory
  bridge : Bridge
  inner : γ

/-- Interpreters whose state is a `γ`. A call that fails still leaves a machine behind. -/
class Guest (γ : Type) where
  call : (e : Export) → Machine γ → Except GuestError e.Reply × Machine γ

/-- A failed import. -/
inductive ImportError where
  | bounds (error : BoundsError)
  | console (error : ConsoleError)
  deriving DecidableEq, Repr

namespace Machine

variable {γ : Type}

/-- The read import: pending input goes to `ptr`, at most `room` bytes of it, and the result is how many there were. The
whole range has to be in bounds; bytes of it that no input reaches stay as they are. -/
def readConsole (m : Machine γ) (ptr room : UInt32) : Except ImportError UInt32 × Machine γ :=
  if m.memory.InBounds ptr room.toNat then
    let (taken, bridge) := m.bridge.consoleRead room.toNat
    (.ok (UInt32.ofNat taken.length), { m with memory := m.memory.poke ptr.toNat taken, bridge })
  else (.error (.bounds (m.memory.outOfBounds ptr room.toNat)), m)

/-- The write import: the bytes of a range go to the console. -/
def writeConsole (m : Machine γ) (ptr len : UInt32) : Except ImportError Unit × Machine γ :=
  match m.memory.copyOut ptr len with
  | .error e => (.error (.bounds e), m)
  | .ok bytes =>
    match m.bridge.consoleWrite bytes with
    | (.ok (), bridge) => (.ok (), { m with bridge })
    | (.error e, bridge) => (.error (.console e), { m with bridge })

/-- The clock import. -/
def millis (m : Machine γ) : UInt32 := m.bridge.elapsedMillis

end Machine

end Playground
