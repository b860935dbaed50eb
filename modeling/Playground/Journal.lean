import Playground.Error
import Playground.LogLevel
import Playground.Outcome
import Playground.Text.Column

/-!
# What the host notes down

The host's own log: each event has a level, a message and fields. Errors that an operation returns are not noted a second
time; what is noted is what would otherwise be lost (an error that another one hides, a failure of an operation that returns
nothing) and what a user may want to follow. What only a developer follows, on the two levels below those, is not kept here.
-/

namespace Playground

/-- One event of the host's log. -/
inductive LogEvent where
  | handOffRefused (error : MarshalError)
  | releaseFailed (error : GuestError)
  | consoleTeardownFailed (error : HostError)
  | inputFailed (reason : String)
  | stopTeardownFailed (error : HostError)
  | faultTeardownFailed (error : HostError)
  | emulatorFailed (outcome : Outcome) (steps : Nat)
  | programStarted (run : Nat)
  | programFinished (run : Nat)
  | programStopped
  | compileFailed (outcome : Outcome)
  | validateFailed (outcome : Outcome)
  | stopRequested
  deriving DecidableEq, Repr

namespace LogEvent

/-- How much an event matters. -/
def level : LogEvent → LogLevel
  | handOffRefused _ | releaseFailed _ | consoleTeardownFailed _ | inputFailed _ => .warn
  | stopTeardownFailed _ | faultTeardownFailed _ | emulatorFailed _ _ => .error
  | programStarted _ | programFinished _ | programStopped | compileFailed _ | validateFailed _ | stopRequested => .info

/-- The message, then each field as ` name=value`. -/
def text : LogEvent → String
  | handOffRefused error => "could not hand source to the guest err=" ++ error.message
  | releaseFailed error => "releasing guest region failed after an earlier error release_err=" ++ error.message
  | consoleTeardownFailed error => "guest failed to tear down after console error teardown_err=" ++ error.message
  | inputFailed reason => "console input failed err=" ++ reason
  | stopTeardownFailed error => "guest failed to tear down the run err=" ++ error.message
  | faultTeardownFailed error => "guest failed to tear down the faulted run err=" ++ error.message
  | emulatorFailed outcome steps => "emulator failed outcome=" ++ outcome.display ++ " steps=" ++ toString steps
  | programStarted run => "program started run=" ++ toString run
  | programFinished run => "program finished run=" ++ toString run
  | programStopped => "program stopped"
  | compileFailed outcome => "failed to compile code outcome=" ++ outcome.display
  | validateFailed outcome => "failed to validate code outcome=" ++ outcome.display
  | stopRequested => "stop requested"

/-- The line of an event: its level, a blank, its text. -/
def line (e : LogEvent) : String := e.level.label ++ " " ++ e.text

/-- The line of an event in a log whose levels stand in a column. -/
def alignedLine (e : LogEvent) : String := Text.alignRight 5 e.level.label ++ " " ++ e.text

/-- The event is shown at a level: it matters at least as much. -/
def shownAt (e : LogEvent) (level : LogLevel) : Bool := level.rank ≤ e.level.rank

end LogEvent

end Playground
