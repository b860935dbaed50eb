import Playground.Controller
import Playground.Exit

/-!
# The tick loop

A tick makes at most one step: if the program has finished the loop ends, else one step is made with
the loop's budget, and a status other than success ends the loop. A loop is bound to the program it was armed for: once
another start got past the end of the old run, its next tick ends it as cancelled, without a guest call.
-/

namespace Playground

/-- The result of one tick. -/
inductive Tick where
  /-- Another tick is wanted. -/
  | again
  /-- There is no loop to tick. -/
  | idle
  /-- The loop is over. -/
  | exit (exit : LoopExit)
  deriving DecidableEq, Repr

/-- A tick loop. Its counters have 64 bits where the program runs; no loop is long enough to fill them, and they are natural numbers
here. -/
structure Scheduler where
  /-- Units of guest work for one step. -/
  budget : UInt32 := 1000
  armed : Bool := false
  /-- Ticks of the current loop, the one that ended it included; a counter of 64 bits, here without a bound. -/
  ticks : Nat := 0
  /-- Steps that the guest returned from in the current loop; a counter of 64 bits, here without a bound. -/
  steps : Nat := 0
  lastExit : Option LoopExit := none
  /-- The start this loop was armed for. -/
  generation : Nat := 0
  deriving DecidableEq, Repr

namespace Scheduler

variable {γ σ : Type}

/-- Binds the loop to the latest start and counts from zero. -/
def arm (s : Scheduler) (c : Controller γ) : Scheduler :=
  { s with generation := c.generation, armed := true, ticks := 0, steps := 0, lastExit := none }

/-- Ends the loop. An alarm is noted. -/
def leave (s : Scheduler) (exit : LoopExit) (c : Controller γ) : Except HostError Tick × Scheduler × Controller γ :=
  let c := match exit with
    | .alarm outcome => c.note [.emulatorFailed outcome s.steps]
    | _ => c
  (.ok (.exit exit), { s with armed := false, lastExit := some exit }, c)

/-- Ends the loop on an error. -/
def fail (s : Scheduler) (error : HostError) (c : Controller γ) : Except HostError Tick × Scheduler × Controller γ :=
  (.error error, { s with armed := false }, c)

/-- The step of a tick whose program is still running. -/
def advance [Guest γ] (s : Scheduler) (c : Controller γ) : Except HostError Tick × Scheduler × Controller γ :=
  match c.step s.budget with
  | (.error e, c) => s.fail e c
  | (.ok .success, c) => (.ok .again, { s with steps := s.steps + 1 }, c)
  | (.ok outcome, c) => { s with steps := s.steps + 1 }.leave (.ofFault outcome) c

/-- Runs one tick. -/
def tick [Guest γ] (s : Scheduler) (c : Controller γ) : Except HostError Tick × Scheduler × Controller γ :=
  if s.armed then
    let s := { s with ticks := s.ticks + 1 }
    if c.generation = s.generation then
      match c.state with
      | .running =>
        match c.checkFinished with
        | (.error e, c) => s.fail e c
        | (.ok true, c) => s.leave .finished c
        | (.ok false, c) => s.advance c
      | .faulted => s.leave (.ofFault (c.fault.getD .invalidState)) c
      | .idle | .compiling | .stopped => s.leave .cancelled c
    else s.leave .cancelled c
  else (.ok .idle, s, c)

/-- Ticks until the loop ends, at most `fuel` times; `between` acts after every tick that wants another one. `none` when the
fuel ran out first. -/
def run [Guest γ] (between : Controller γ → σ → Controller γ × σ) :
    Nat → Scheduler → Controller γ → σ → Option (Except HostError LoopExit) × Scheduler × Controller γ × σ
  | 0, s, c, w => (none, s, c, w)
  | fuel + 1, s, c, w =>
    match s.tick c with
    | (.error e, s, c) => (some (.error e), s, c, w)
    | (.ok .again, s, c) =>
      let (c, w) := between c w
      run between fuel s c w
    | (.ok .idle, s, c) => (some (.ok (s.lastExit.getD .cancelled)), s, c, w)
    | (.ok (.exit exit), s, c) => (some (.ok exit), s, c, w)

end Scheduler

end Playground
