import Playground.HandOff

/-!
# The controller

Drives one guest through compile, run, step and stop. A run is *active* from a hand-off that succeeded, with an `initRun` that
returned success and a region that was taken back, to the next `deinitRun`, which is called exactly once for it; a start ends an
active run before it shows the guest anything of the new program. Every operation takes a controller and returns its answer with
the controller it leaves, so what a failed operation did stays visible.

- A start leads from any phase to `running`, or, when anything in it fails, to `faulted`.
- From `running`, a finished program or a stop leads to `stopped`, and a failing call or status to `faulted`.
- A stopped program can still fault, when the guest is asked about it and fails; nothing but a start leads out of `faulted`.
-/

namespace Playground

/-- A guest, and the phase of its current program. Its two counters have 64 bits where the program runs; no
history is long enough to fill them, and they are natural numbers here. -/
structure Controller (γ : Type) where
  machine : Machine γ
  state : RunState := .idle
  /-- A program handed over with success has not been followed by a `deinitRun` yet. -/
  runActive : Bool := false
  /-- The outcome that faulted the program, where it was an outcome and not a failed call. -/
  fault : Option Outcome := none
  /-- Programs started successfully; a counter of 64 bits, here without a bound. -/
  runs : Nat := 0
  /-- Starts that got past the end of the old run, failed ones included; a counter of 64 bits, here without a bound. -/
  generation : Nat := 0
  /-- Clear the console once a program has compiled. -/
  clearOnStart : Bool := true
  /-- What the host noted, oldest first. -/
  journal : List LogEvent := []

namespace Controller

variable {γ : Type}

/-- Notes events. -/
def note (c : Controller γ) (events : List LogEvent) : Controller γ := { c with journal := c.journal ++ events }

/-- Takes a guest over and sets it up. When that fails, the machine is returned with the error. -/
def create [Guest γ] (machine : Machine γ) (clearOnStart : Bool := true) :
    Except (HostError × Machine γ) (Controller γ) :=
  match Guest.call .setUp machine with
  | (.ok (), machine) => .ok { machine, clearOnStart }
  | (.error e, machine) => .error (.guest e, machine)

/-- Tears the active run down, if there is one. The run counts as torn down even if the guest fails; the controller is then
faulted. -/
def teardown [Guest γ] (c : Controller γ) : Except HostError Unit × Controller γ :=
  if c.runActive then
    match Guest.call .deinitRun c.machine with
    | (.ok (), machine) => (.ok (), { c with machine, runActive := false })
    | (.error e, machine) => (.error (.guest e), { c with machine, runActive := false, state := .faulted })
  else (.ok (), c)

/-- Hands a source to a guest call. A guest without room for it has given an outcome, not an error. -/
def callWithSource [Guest γ] (c : Controller γ) (source : Payload)
    (use : Slice → Machine γ → Except GuestError Int32 × Machine γ) : Except HostError Outcome × Controller γ :=
  let (result, machine, events) := c.machine.handOffPayload source use
  let c := { c with machine }.note events
  match result with
  | .ok status => (.ok (.ofStatus status), c)
  | .error e => if e.isOutOfMemory then (.ok .outOfMemory, c.note [.handOffRefused e]) else (.error (.marshal e), c)

/-- Lets the guest compile a text. Whatever comes of it, the phase of the current program stays. -/
def validate [Guest γ] (c : Controller γ) (source : String) : Except HostError Outcome × Controller γ :=
  match c.callWithSource (.ofText source) fun slice m => Guest.call (.validate slice.ptr slice.len) m with
  | (.error e, c) => (.error e, c)
  | (.ok .success, c) => (.ok .success, c)
  | (.ok outcome, c) => (.ok outcome, c.note [.validateFailed outcome])

/-- What a start does once the old run is gone: the attempt is counted, the old fault is forgotten, pending input is dropped
and guest time begins anew. -/
def beginStart (c : Controller γ) : Controller γ :=
  { c with
    generation := c.generation + 1
    state := .compiling
    fault := none
    machine := { c.machine with bridge := c.machine.bridge.clearInput.resetAnchor } }

/-- The program runs. -/
def launched (c : Controller γ) : Except HostError Outcome × Controller γ :=
  (.ok .success, { c with state := .running, runs := c.runs + 1 }.note [.programStarted (c.runs + 1)])

/-- A start that got as far as an active run and then lost its console: the run is torn down and the console's error is
returned, even if the teardown fails as well. -/
def abandon [Guest γ] (c : Controller γ) (error : ConsoleError) : Except HostError Outcome × Controller γ :=
  match { c with state := .faulted }.teardown with
  | (.ok (), c) => (.error (.console error), c)
  | (.error e, c) => (.error (.console error), c.note [.consoleTeardownFailed e])

/-- What a start does once the guest has prepared a run. -/
def launch [Guest γ] (c : Controller γ) : Except HostError Outcome × Controller γ :=
  let c := { c with runActive := true }
  if c.clearOnStart then
    match c.machine.bridge.clearConsole with
    | (.ok (), bridge) => launched { c with machine := { c.machine with bridge } }
    | (.error e, bridge) => abandon { c with machine := { c.machine with bridge } } e
  else launched c

/-- Starts a program whose text is made when the guest has a place for it. First the old run has to be gone, and if its end
fails that is all that happens. A program that the guest accepts is running afterwards; one that it refuses leaves its outcome
behind as the fault. -/
def startPayload [Guest γ] (c : Controller γ) (source : Payload) : Except HostError Outcome × Controller γ :=
  match c.teardown with
  | (.error e, c) => (.error e, c)
  | (.ok (), c) =>
    match c.beginStart.callWithSource source fun slice m => Guest.call (.initRun slice.ptr slice.len) m with
    | (.error e, c) => (.error e, { c with state := .faulted })
    | (.ok .success, c) => c.launch
    | (.ok outcome, c) =>
      (.ok outcome, { c with state := .faulted, fault := some outcome }.note [.compileFailed outcome])

/-- Starts a program. -/
def start [Guest γ] (c : Controller γ) (source : String) : Except HostError Outcome × Controller γ :=
  c.startPayload (.ofText source)

/-- Stops the program, however often it is called. A running program is torn down and the controller is stopped. A faulted
one is torn down and stays faulted, so that its fault can still be reported. Otherwise nothing happens. -/
def stop [Guest γ] (c : Controller γ) : Controller γ :=
  match c.state with
  | .running =>
    match { c with state := .stopped }.teardown with
    | (.ok (), c) => c.note [.programStopped]
    | (.error e, c) => c.note [.stopTeardownFailed e]
  | .faulted =>
    match c.teardown with
    | (.ok (), c) => c
    | (.error e, c) => c.note [.faultTeardownFailed e]
  | .idle | .compiling | .stopped => c

/-- Asks the guest whether the program is complete; where no run is active it is. A guest that fails here faults the run. -/
def isFinished [Guest γ] (c : Controller γ) : Except HostError Bool × Controller γ :=
  if c.runActive then
    match Guest.call .isFinished c.machine with
    | (.ok finished, machine) => (.ok finished, { c with machine })
    | (.error e, machine) => (.error (.guest e), { c with machine, state := .faulted })
  else (.ok true, c)

/-- `isFinished`, and a running program that is complete becomes stopped. -/
def checkFinished [Guest γ] (c : Controller γ) : Except HostError Bool × Controller γ :=
  match c.isFinished with
  | (.error e, c) => (.error e, c)
  | (.ok finished, c) =>
    if finished ∧ c.state = .running then
      (.ok finished, { c with state := .stopped }.note [.programFinished c.runs])
    else (.ok finished, c)

/-- Lets the program work for one budget. A stopped program answers with a cancellation, without a guest call; a status other
than success faults the run. -/
def step [Guest γ] (c : Controller γ) (budget : UInt32) : Except HostError Outcome × Controller γ :=
  match c.state with
  | .running =>
    match Guest.call (.step budget) c.machine with
    | (.error e, machine) => (.error (.guest e), { c with machine, state := .faulted })
    | (.ok status, machine) =>
      match Outcome.ofStatus status with
      | .success => (.ok .success, { c with machine })
      | outcome => (.ok outcome, { c with machine, state := .faulted, fault := some outcome })
  | .stopped => (.ok .cancelled, c)
  | state => (.error (.invalidTransition "step" state), c)

/-- Offers what was typed to the program, and tells whether it was taken: what arrives while nothing runs is dropped. -/
def pushInput (c : Controller γ) (bytes : List UInt8) : Bool × Controller γ :=
  if c.state = .running then
    (true, { c with machine := { c.machine with bridge := c.machine.bridge.pushInput bytes } })
  else (false, c)

end Controller

end Playground
