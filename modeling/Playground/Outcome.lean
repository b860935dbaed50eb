/-!
# Outcomes of guest calls

The interpreter answers every lifecycle call with a 32-bit status. `Outcome.ofStatus` gives each status its meaning and
`Outcome.code?` gives the status back, so none is lost (`code?_ofStatus`). `Outcome.cancelled` has no status: only the host
decides that a run was cancelled.
-/

namespace Playground

/-- What a guest call meant to the host. -/
inductive Outcome where
  /-- All went well. After a step, this says that more steps are wanted. -/
  | success
  /-- There is no memory left, in the guest or for a payload to the guest. -/
  | outOfMemory
  /-- The source did not parse. -/
  | syntaxError
  /-- The source parsed and did not compile. -/
  | semanticError
  /-- The program failed while it ran, and the console shows why. -/
  | runtimeFault
  /-- An object was used after its end. -/
  | invalidObject
  /-- A call came at a time at which the guest refuses it. -/
  | invalidState
  /-- A status outside the known table. -/
  | unknown (status : Int32)
  /-- The run was stopped between two ticks; no status stands for this. -/
  | cancelled
  deriving DecidableEq, Repr

namespace Outcome

/-- The meaning of a status; total, so every 32-bit value has one. -/
def ofStatus (status : Int32) : Outcome :=
  if status = 0 then success
  else if status = 1 then outOfMemory
  else if status = 2 then syntaxError
  else if status = 3 then semanticError
  else if status = 4 then runtimeFault
  else if status = 5 then invalidObject
  else if status = 6 then invalidState
  else unknown status

/-- The status that stands for an outcome, if one does. -/
def code? : Outcome → Option Int32
  | success => some 0
  | outOfMemory => some 1
  | syntaxError => some 2
  | semanticError => some 3
  | runtimeFault => some 4
  | invalidObject => some 5
  | invalidState => some 6
  | unknown status => some status
  | cancelled => none

/-- The call succeeded. -/
def isSuccess : Outcome → Bool
  | success => true
  | _ => false

/-- The source text was refused. -/
def isCompileError : Outcome → Bool
  | syntaxError | semanticError => true
  | _ => false

/-- The user hears of this only from the host. A runtime fault is none, because the guest has already told the user, and
neither is a cancellation, which the host asked for itself. -/
def isAlarm : Outcome → Bool
  | success | runtimeFault | cancelled => false
  | _ => true

/-- The words shown to the user; all unknown statuses share one. -/
def describe : Outcome → String
  | success => "success"
  | outOfMemory => "out of memory"
  | syntaxError | semanticError => "compilation error"
  | runtimeFault => "panic"
  | invalidObject => "invalid object"
  | invalidState => "invalid interpreter state"
  | unknown _ => "unknown"
  | cancelled => "cancelled"

/-- The words of a log line: an unknown status is written out. -/
def display : Outcome → String
  | unknown status => "unknown (" ++ toString status.toInt ++ ")"
  | outcome => outcome.describe

/-- No other outcome is a success. -/
@[simp] theorem isSuccess_iff (o : Outcome) : o.isSuccess = true ↔ o = success := by
  cases o <;> simp [isSuccess]

/-- A status is read back from its meaning. -/
@[simp] theorem code?_ofStatus (status : Int32) : (ofStatus status).code? = some status := by
  unfold ofStatus
  -- There is one case for each entry of the table, and one for the other statuses.
  repeat' split
  all_goals simp_all [code?]

end Outcome

end Playground
