import Playground.RunState
import Playground.Memory
import Playground.Console.Sink

/-!
# Failures of the plumbing

What can go wrong between the host and its guest, layer by layer: a guest call, the hand-off of a payload, an operation of
the host. A status that the guest reports is none of these; it is an `Outcome`. Each layer passes the messages of the one
below through.
-/

namespace Playground

/-- A failed guest call. The reason a guest gives for a trap or a failed load may be missing. -/
inductive GuestError where
  | load (reason : Option String)
  | missingExport (name : String)
  | trap (function : String) (reason : Option String)
  | bounds (error : BoundsError)
  deriving DecidableEq, Repr

/-- A message, with the reason after a colon if there is one. -/
def withReason (message : String) : Option String → String
  | none => message
  | some reason => message ++ ": " ++ reason

/-- The words for a failed guest call. -/
def GuestError.message : GuestError → String
  | load reason => withReason "failed to load guest module" reason
  | missingExport name => "guest module does not export `" ++ name ++ "`"
  | trap function reason => withReason ("guest trapped in `" ++ function ++ "`") reason
  | bounds error => error.message

/-- A failed hand-off of a payload to the guest. -/
inductive MarshalError where
  | outOfMemory (requested : UInt32)
  | payloadTooLarge (length : Nat)
  | guest (error : GuestError)
  deriving DecidableEq, Repr

namespace MarshalError

/-- The guest had no room; the controller reports this as an outcome and not as an error. -/
def isOutOfMemory : MarshalError → Bool
  | outOfMemory _ | payloadTooLarge _ => true
  | guest _ => false

/-- The words for a failed hand-off. -/
def message : MarshalError → String
  | outOfMemory requested => "guest allocator returned no region for " ++ toString requested.toNat ++ " bytes"
  | payloadTooLarge length => "payload of " ++ toString length ++ " bytes does not fit the guest address space"
  | guest error => error.message

end MarshalError

/-- A failed operation of the host. -/
inductive HostError where
  | guest (error : GuestError)
  | marshal (error : MarshalError)
  | invalidTransition (operation : String) (state : RunState)
  | console (error : ConsoleError)
  deriving DecidableEq, Repr

/-- The words for a failed operation. -/
def HostError.message : HostError → String
  | guest error => error.message
  | marshal error => error.message
  | invalidTransition operation state =>
    "`" ++ operation ++ "` is not valid while the controller is " ++ state.name
  | console error => "console I/O failed: " ++ error.message

end Playground
