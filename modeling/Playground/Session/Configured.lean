import Playground.Config
import Playground.Session

/-!
# Sessions by configuration

A configuration decides how a session clears the console, whether it greets, how much the guest may do in one tick, and how long
it is from one tick to the next.
-/

namespace Playground.Session

variable {γ : Type}

/-- A session over a machine, set up as a configuration says. Where the guest cannot be set up the machine is given back. -/
def ofConfig [Guest γ] (config : Config) (machine : Machine γ) : Except (HostError × Machine γ) (Session γ) :=
  match Controller.create machine config.console.clearOnStart with
  | .error failure => .error failure
  | .ok controller => .ok {
      controller
      scheduler := { budget := config.scheduler.stepBudget }
      interval := config.scheduler.tickIntervalMs
      greeting := config.console.greeting }

end Playground.Session
