import Playground.Samples
import Playground.Scheduler

/-!
# Sessions

A session is a controller and its tick loop in touch with the outside: console input and a request to stop, which take effect
between two ticks and never during a guest call. What arrives between ticks is a list of signals in the order of their
arrival; where it comes from is left open (`arrivals` may look at the guest and at a state of its own), so the same loop
serves a live console and one that is known beforehand.
-/

namespace Playground

/-- Something from outside that reaches a session between two ticks. -/
inductive Signal where
  /-- The program is to be stopped. -/
  | cancel
  /-- Bytes were typed. -/
  | chunk (bytes : List UInt8)
  /-- Nothing more will be typed. -/
  | endOfInput
  /-- Reading the console failed. -/
  | inputFailed (reason : String)
  deriving DecidableEq, Repr

/-- What a run still listens to: input until it ends or fails, and one request to stop. -/
structure Listening where
  input : Bool := true
  cancel : Bool := true
  deriving DecidableEq, Repr

/-- A controller, its tick loop, and whether the user has been greeted. -/
structure Session (γ : Type) where
  controller : Controller γ
  scheduler : Scheduler := {}
  /-- Milliseconds between two ticks. -/
  interval : UInt64 := 16
  greeting : Bool := true
  greeted : Bool := false

namespace Session

variable {γ σ : Type}

/-- Compiles source text without running it. -/
def check [Guest γ] (s : Session γ) (source : String) : Except HostError Outcome × Session γ :=
  let (result, controller) := s.controller.validate source
  (result, { s with controller })

/-- Greets the user, once in the life of the session; a greeting that could not be printed is tried again by the next run. -/
def greet (s : Session γ) : Except HostError Unit × Session γ :=
  if s.greeting ∧ !s.greeted then
    let c := s.controller
    match c.machine.bridge.announce Playground.greeting with
    | (.ok (), bridge) =>
      (.ok (), { s with controller := { c with machine := { c.machine with bridge } }, greeted := true })
    | (.error e, bridge) =>
      (.error (.console e), { s with controller := { c with machine := { c.machine with bridge } } })
  else (.ok (), { s with greeted := true })

/-- Takes one signal in. -/
def receive [Guest γ] (s : Session γ) (l : Listening) : Signal → Session γ × Listening
  | .cancel =>
    if l.cancel then
      ({ s with controller := (s.controller.note [.stopRequested]).stop }, { l with cancel := false })
    else (s, l)
  | .chunk bytes =>
    if l.input then ({ s with controller := (s.controller.pushInput bytes).2 }, l) else (s, l)
  | .endOfInput => (s, { l with input := false })
  | .inputFailed reason =>
    if l.input then ({ s with controller := s.controller.note [.inputFailed reason] }, { l with input := false })
    else (s, l)

/-- Takes signals in, in order. -/
def receiveAll [Guest γ] (s : Session γ) (l : Listening) (signals : List Signal) : Session γ × Listening :=
  signals.foldl (fun (s, l) signal => s.receive l signal) (s, l)

/-- One tick of the session's loop: the end of the run, if the tick brought it. -/
def tick [Guest γ] (s : Session γ) : Option (Except HostError SessionExit) × Session γ :=
  match s.scheduler.tick s.controller with
  | (.error e, scheduler, controller) => (some (.error e), { s with scheduler, controller })
  | (.ok .again, scheduler, controller) => (none, { s with scheduler, controller })
  | (.ok _, scheduler, controller) =>
    (some (.ok (.ofLoop (scheduler.lastExit.getD .cancelled))), { s with scheduler, controller })

/-- Signals, a tick, signals, a tick, until a tick brings the end, at most `fuel` ticks; `none` when the fuel ran out first. -/
def loop [Guest γ] (arrivals : Machine γ → σ → List Signal × σ) :
    Nat → Session γ → Listening → σ → Option (Except HostError SessionExit) × Session γ × σ
  | 0, s, _, w => (none, s, w)
  | fuel + 1, s, l, w =>
    let (signals, w) := arrivals s.controller.machine w
    let (s, l) := s.receiveAll l signals
    match s.tick with
    | (some result, s) => (some result, s, w)
    | (none, s) => loop arrivals fuel s l w

/-- Greets, starts source text and arms the tick loop for it; the end of the run, if it ends before its first tick. -/
def begin [Guest γ] (s : Session γ) (source : String) : Option (Except HostError SessionExit) × Session γ :=
  match s.greet with
  | (.error e, s) => (some (.error e), s)
  | (.ok (), s) =>
    match s.controller.start source with
    | (.error e, controller) => (some (.error e), { s with controller })
    | (.ok .success, controller) => (none, { s with controller, scheduler := s.scheduler.arm controller })
    | (.ok outcome, controller) => (some (.ok (.rejected outcome)), { s with controller })

/-- Starts source text and ticks it until it ends. -/
def run [Guest γ] (arrivals : Machine γ → σ → List Signal × σ) (fuel : Nat) (s : Session γ) (source : String) (w : σ) :
    Option (Except HostError SessionExit) × Session γ × σ :=
  match s.begin source with
  | (some result, s) => (some result, s, w)
  | (none, s) => s.loop arrivals fuel {} w

end Session

end Playground
