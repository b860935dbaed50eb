import Playground.Guest.Role
import Playground.Text.Digest

/-!
# A guest that follows a script

An interpreter whose every answer can be laid down beforehand. For each function the script lists what its successive calls
do: actions on memory, console and clock, then a failure or a value. Calls without an entry behave plainly: a bump allocator,
a status read off the first byte of the source, a program that is complete after a given number of steps. Every call and
every read of the console or the clock leaves a line in the guest's log.
-/

namespace Playground

/-- Something a scripted call does before it returns. -/
inductive Action where
  /-- Read the console into memory. -/
  | read (ptr room : UInt32)
  /-- Read the console into memory and print what was read. -/
  | echo (ptr room : UInt32)
  /-- Print a range of memory. -/
  | write (ptr len : UInt32)
  /-- Print bytes that are not in memory. -/
  | print (bytes : List UInt8)
  /-- Overwrite memory. -/
  | poke (ptr : UInt32) (bytes : List UInt8)
  /-- Ask the time. -/
  | millis
  /-- Let time pass. -/
  | advance (d : Duration)
  /-- Change the size of memory. -/
  | resize (size : Nat)
  deriving DecidableEq, Repr

/-- What one call does. Of several failures the first in this order counts. -/
structure Entry where
  actions : List Action := []
  trap : Option String := none
  missing : Option String := none
  load : Option String := none
  value : Option Int := none
  deriving DecidableEq, Repr

/-- For each role, the entries of its next calls; `none` stands for a plain call. -/
structure Script where
  setUp : List (Option Entry) := []
  allocate : List (Option Entry) := []
  release : List (Option Entry) := []
  validate : List (Option Entry) := []
  initRun : List (Option Entry) := []
  deinitRun : List (Option Entry) := []
  isFinished : List (Option Entry) := []
  step : List (Option Entry) := []
  deriving DecidableEq, Repr

namespace Script

/-- The entry of the next call in a role, and the script after it. -/
def next (s : Script) : Role → Option Entry × Script
  | .setUp => (s.setUp.head?.join, { s with setUp := s.setUp.tail })
  | .allocate => (s.allocate.head?.join, { s with allocate := s.allocate.tail })
  | .release => (s.release.head?.join, { s with release := s.release.tail })
  | .validate => (s.validate.head?.join, { s with validate := s.validate.tail })
  | .initRun => (s.initRun.head?.join, { s with initRun := s.initRun.tail })
  | .deinitRun => (s.deinitRun.head?.join, { s with deinitRun := s.deinitRun.tail })
  | .isFinished => (s.isFinished.head?.join, { s with isFinished := s.isFinished.tail })
  | .step => (s.step.head?.join, { s with step := s.step.tail })

end Script

/-- The state of a scripted interpreter. -/
structure Scripted where
  script : Script := {}
  /-- What a step without an entry does. -/
  eachStep : List Action := []
  /-- A program is complete after this many steps; never, when missing. -/
  finishAfter : Option Nat := none
  /-- The next address of the bump allocator. -/
  heap : Nat := 4096
  /-- A run is prepared. -/
  active : Bool := false
  /-- Steps of the current run. -/
  stepsDone : Nat := 0
  /-- Steps in all, those that failed included. -/
  stepCalls : Nat := 0
  /-- The lines of the log, newest first. -/
  log : List String := []
  deriving DecidableEq, Repr

namespace Scripted

/-- The log's word for a failure. -/
def mark : GuestError → String
  | .load _ => "!Load"
  | .missingExport _ => "!MissingExport"
  | .trap _ _ => "!Trap"
  | .bounds _ => "!Bounds"

/-- Adds a line to the log. -/
def say (m : Machine Scripted) (line : String) : Machine Scripted :=
  { m with inner := { m.inner with log := line :: m.inner.log } }

/-- A failed import, as the failure of the function that used it. -/
def importFailure (name : String) : ImportError → GuestError
  | .bounds e => .bounds e
  | .console e => .trap name (some e.message)

/-- A read of the console, with its line. -/
def readAction (name : String) (m : Machine Scripted) (ptr room : UInt32) : Except GuestError UInt32 × Machine Scripted :=
  match m.readConsole ptr room with
  | (.error e, m) => (.error (importFailure name e), m)
  | (.ok n, m) =>
    (.ok n, say m ("> read " ++ toString ptr.toNat ++ " " ++ toString room.toNat ++ " -> " ++ toString n.toNat))

/-- A print of a range of memory. -/
def writeAction (name : String) (m : Machine Scripted) (ptr len : UInt32) : Except GuestError Unit × Machine Scripted :=
  match m.writeConsole ptr len with
  | (.error e, m) => (.error (importFailure name e), m)
  | (.ok (), m) => (.ok (), m)

/-- Does one action, during a call of the function with this name. -/
def act (name : String) (m : Machine Scripted) : Action → Except GuestError Unit × Machine Scripted
  | .read ptr room =>
    match readAction name m ptr room with
    | (.error e, m) => (.error e, m)
    | (.ok _, m) => (.ok (), m)
  | .echo ptr room =>
    match readAction name m ptr room with
    | (.error e, m) => (.error e, m)
    | (.ok n, m) => if n = 0 then (.ok (), m) else writeAction name m ptr n
  | .write ptr len => writeAction name m ptr len
  | .print bytes =>
    match m.bridge.consoleWrite bytes with
    | (.ok (), bridge) => (.ok (), { m with bridge })
    | (.error e, bridge) => (.error (.trap name (some e.message)), { m with bridge })
  | .poke ptr bytes =>
    match m.memory.copyIn ptr bytes with
    | .ok memory => (.ok (), { m with memory })
    | .error e => (.error (.bounds e), m)
  | .millis => (.ok (), say m ("> millis -> " ++ toString m.millis.toNat))
  | .advance d => (.ok (), { m with bridge := m.bridge.advance d })
  | .resize size => (.ok (), { m with memory := m.memory.resize size })

/-- Does actions in order; the first that fails ends the call. -/
def actAll (name : String) (m : Machine Scripted) : List Action → Except GuestError Unit × Machine Scripted
  | [] => (.ok (), m)
  | a :: rest =>
    match act name m a with
    | (.error e, m) => (.error e, m)
    | (.ok (), m) => actAll name m rest

/-- The failure or value that an entry lays down. -/
def settle (name : String) (entry : Entry) : Except GuestError (Option Int) :=
  match entry.trap, entry.missing, entry.load with
  | some reason, _, _ => .error (.trap name (some reason))
  | none, some missing, _ => .error (.missingExport missing)
  | none, none, some reason => .error (.load (some reason))
  | none, none, none => .ok entry.value

/-- Uses up the next entry of a role: its actions, then its failure or its value, if it has one. -/
def enact (m : Machine Scripted) (role : Role) : Except GuestError (Option Int) × Machine Scripted :=
  let (entry, script) := m.inner.script.next role
  let m := { m with inner := { m.inner with script } }
  let plain : Entry := { actions := if role = .step then m.inner.eachStep else [] }
  let entry := entry.getD plain
  match actAll role.usualName m entry.actions with
  | (.error e, m) => (.error e, m)
  | (.ok (), m) => (settle role.usualName entry, m)

/-- The end of a call: the line that tells it, and the result. -/
def conclude {α : Type} (line : String) (tell : α → String) (result : Except GuestError α) (m : Machine Scripted) :
    Except GuestError α × Machine Scripted :=
  let answer := match result with
    | .ok value => tell value
    | .error e => mark e
  (result, say m (line ++ " -> " ++ answer))

/-- The status of a source by its first byte: `(` does not parse, `?` does not compile. -/
def statusOf (source : List UInt8) : Int32 :=
  match source.head? with
  | some 0x28 => 2
  | some 0x3F => 3
  | _ => 0

/-- A call that returns nothing; `after` is done to the machine when it succeeds. -/
def quietCall (m : Machine Scripted) (role : Role) (line : String) (after : Machine Scripted → Machine Scripted) :
    Except GuestError Unit × Machine Scripted :=
  match enact m role with
  | (.ok _, m) => conclude line (fun _ => "ok") (.ok ()) (after m)
  | (.error e, m) => conclude line (fun _ => "ok") (.error e) m

/-- A call that compiles source: the source is copied out of memory first, then its status is laid down or read off it. -/
def compileCall (m : Machine Scripted) (role : Role) (word : String) (ptr len : UInt32)
    (after : Int32 → Machine Scripted → Machine Scripted) : Except GuestError Int32 × Machine Scripted :=
  let line := word ++ " " ++ toString ptr.toNat ++ " " ++ toString len.toNat
  let tell := fun status : Int32 => toString status.toInt
  match m.memory.copyOut ptr len with
  | .error e => conclude line tell (.error (.bounds e)) m
  | .ok source =>
    let line := line ++ " " ++ Text.short source
    match enact m role with
    | (.error e, m) => conclude line tell (.error e) m
    | (.ok value, m) =>
      let status := (value.map Int32.ofInt).getD (statusOf source)
      conclude line tell (.ok status) (after status m)

/-- The plain allocator: a region from the heap's next address on, or none when memory ends before it does. -/
def bump (m : Machine Scripted) (size : UInt32) : UInt32 × Machine Scripted :=
  if m.inner.heap + size.toNat > m.memory.size then (0, m)
  else (UInt32.ofNat m.inner.heap, { m with inner := { m.inner with heap := m.inner.heap + size.toNat } })

/-- A call that allocates; a value that is laid down does not move the heap. -/
def allocateCall (m : Machine Scripted) (size : UInt32) : Except GuestError UInt32 × Machine Scripted :=
  let line := "allocate " ++ toString size.toNat
  let tell := fun ptr : UInt32 => toString ptr.toNat
  match enact m .allocate with
  | (.error e, m) => conclude line tell (.error e) m
  | (.ok (some value), m) => conclude line tell (.ok (UInt32.ofInt value)) m
  | (.ok none, m) =>
    let (ptr, m) := bump m size
    conclude line tell (.ok ptr) m

/-- The program is complete: nothing runs, or it has made its steps. -/
def isComplete (g : Scripted) : Bool := !g.active || g.finishAfter.any (· ≤ g.stepsDone)

/-- The query for completion. -/
def finishedCall (m : Machine Scripted) : Except GuestError Bool × Machine Scripted :=
  match enact m .isFinished with
  | (.error e, m) => conclude "is_finished" toString (.error e) m
  | (.ok value, m) => conclude "is_finished" toString (.ok ((value.map (· != 0)).getD m.inner.isComplete)) m

/-- A step. It is counted before anything else, so a step that fails counts too. -/
def stepCall (m : Machine Scripted) (budget : UInt32) : Except GuestError Int32 × Machine Scripted :=
  let g := m.inner
  let m := { m with inner := { g with stepsDone := g.stepsDone + 1, stepCalls := g.stepCalls + 1 } }
  let line := "step " ++ toString budget.toNat
  let tell := fun status : Int32 => toString status.toInt
  match enact m .step with
  | (.error e, m) => conclude line tell (.error e) m
  | (.ok value, m) => conclude line tell (.ok ((value.map Int32.ofInt).getD 0)) m

/-- A run begins when a source compiled. -/
def prepare (status : Int32) (m : Machine Scripted) : Machine Scripted :=
  if status = 0 then { m with inner := { m.inner with active := true, stepsDone := 0 } } else m

/-- One call of a scripted guest. -/
def call : (e : Export) → Machine Scripted → Except GuestError e.Reply × Machine Scripted
  | .setUp, m => quietCall m .setUp "initialize" id
  | .allocate size, m => allocateCall m size
  | .release ptr size, m =>
    quietCall m .release ("release " ++ toString ptr.toNat ++ " " ++ toString size.toNat) id
  | .validate ptr len, m => compileCall m .validate "validate" ptr len fun _ m => m
  | .initRun ptr len, m => compileCall m .initRun "init_run" ptr len prepare
  | .deinitRun, m =>
    quietCall m .deinitRun "deinit_run" fun m => { m with inner := { m.inner with active := false } }
  | .isFinished, m => finishedCall m
  | .step budget, m => stepCall m budget

instance : Guest Scripted := ⟨call⟩

end Scripted

end Playground
