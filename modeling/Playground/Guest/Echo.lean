import Playground.Guest.Role

/-!
# The echo interpreter

A small stand-in for the interpreter. Its programs take one step per byte of source. Each step prints what was typed since
the last one and then `step`; a `!` in the source panics in the step with the same index, and a source that begins with `(`
does not compile. Four words at the bottom of memory count allocations and releases and keep the time and the budget of the
last step.

`Defect` is what a deliberately broken build does differently. The functions of the interpreter are told apart from the roles
in which the host calls them, because a host may be told to look for a role under the name of another function.
-/

namespace Playground

namespace Echo

/-- The functions that the interpreter exports. -/
inductive Function where
  | setUp
  | malloc
  | free
  | validate
  | initInterpreter
  | deinitInterpreter
  | isInterpreterDone
  | stepInterpreter
  deriving DecidableEq, Repr

/-- What a broken build does differently. -/
inductive Defect where
  /-- The function traps; `malloc` only where it would have found room, and after counting the call. -/
  | traps (function : Function)
  /-- A step prints a range beyond the end of memory. -/
  | badWrite
  /-- A step reads into a range beyond the end of memory. -/
  | badRead
  /-- A step returns a status at once. -/
  | status (status : Int32)
  deriving DecidableEq, Repr

end Echo

/-- The state of an echo interpreter. -/
structure Echo where
  defect : Option Echo.Defect := none
  /-- What the host calls the functions by their roles. -/
  names : ExportNames := {}
  /-- The function behind each role. -/
  functions : Role → Echo.Function
  heap : UInt32 := 0
  active : Bool := false
  steps : UInt32 := 0
  limit : UInt32 := 0
  /-- The index of the byte that panics; the greatest value stands for none. -/
  panicAt : UInt32 := 0xFFFFFFFF

namespace Echo

/-- The function that each role has in the interpreter's own build. -/
def usualFunction : Role → Function
  | .setUp => .setUp
  | .allocate => .malloc
  | .release => .free
  | .validate => .validate
  | .initRun => .initInterpreter
  | .deinitRun => .deinitInterpreter
  | .isFinished => .isInterpreterDone
  | .step => .stepInterpreter

/-- The size of memory. -/
def memorySize : Nat := 65536

/-- Where a step's words lie, and the words. -/
def stepAddress : UInt32 := 16

/-- What a step prints. -/
def stepText : List UInt8 := Text.encode "step\n"

/-- Where a panic's words lie. -/
def panicAddress : UInt32 := 32

/-- What a panic prints. -/
def panicText : List UInt8 := Text.encode "panic: Boom\n"

/-- The address at which a step receives input, and the most of it. -/
def inputAddress : UInt32 := 64

/-- The first address of the heap. -/
def heapStart : UInt32 := 1024

/-- Memory as the interpreter finds it. -/
def initialMemory : Memory :=
  ((Memory.zeroed memorySize).poke stepAddress.toNat stepText).poke panicAddress.toNat panicText

/-- What a function of the interpreter leaves: its result, if it did not trap, and the machine. A function without a result
returns zero. -/
abbrev Return := Option UInt32 × Machine Echo

/-- The function is broken. -/
def isBroken (g : Echo) (f : Function) : Bool := g.defect == some (.traps f)

/-- Adds one to a word of memory. -/
def count (m : Machine Echo) (address : Nat) : Machine Echo :=
  { m with memory := m.memory.setWord address (m.memory.word address + 1) }

/-- Sets the heap up. -/
def setUp (m : Machine Echo) : Return := (some 0, { m with inner := { m.inner with heap := heapStart } })

/-- Takes a region from the heap, or returns zero when there is not enough room. Sums wrap around. -/
def malloc (m : Machine Echo) (size : UInt32) : Return :=
  let m := count m 0
  let ptr := m.inner.heap
  if ptr + size > UInt32.ofNat memorySize then (some 0, m)
  else if m.inner.isBroken .malloc then (none, m)
  else (some ptr, { m with inner := { m.inner with heap := ptr + size } })

/-- Counts the release; the heap never shrinks. -/
def free (m : Machine Echo) : Return := (some 0, count m 4)

/-- Compiles a source: 2 when it begins with `(`, else 0; a source outside memory traps. -/
def compile (m : Machine Echo) (ptr len : UInt32) : Option UInt32 :=
  if len = 0 then some 0
  else if ptr.toNat < m.memory.size then some (if m.memory.byte ptr.toNat = 0x28 then 2 else 0)
  else none

/-- The index of the first `!`; a source that leaves memory before one traps. -/
def findPanic (m : Machine Echo) (ptr len : UInt32) : Option UInt32 :=
  let source := m.memory.peek ptr.toNat len.toNat
  match source.findIdx? (· == 0x21) with
  | some i => some (UInt32.ofNat i)
  | none => if source.length = len.toNat then some 0xFFFFFFFF else none

/-- Compiles a source and prepares its run. -/
def initInterpreter (m : Machine Echo) (ptr len : UInt32) : Return :=
  match compile m ptr len with
  | none => (none, m)
  | some 0 =>
    let started := { m.inner with active := true, steps := 0, limit := len, panicAt := 0xFFFFFFFF }
    match findPanic m ptr len with
    | none => (none, { m with inner := started })
    | some panicAt => (some 0, { m with inner := { started with panicAt } })
  | some status => (some status, m)

/-- Ends the run. -/
def deinitInterpreter (m : Machine Echo) : Return := (some 0, { m with inner := { m.inner with active := false } })

/-- One when nothing runs or the program has made a step for each byte, else zero. -/
def isInterpreterDone (m : Machine Echo) : Return :=
  (some (if !m.inner.active || m.inner.limit ≤ m.inner.steps then 1 else 0), m)

/-- The print at the end of a step, and the status it returns. -/
def print (m : Machine Echo) (ptr len status : UInt32) : Return :=
  match m.writeConsole ptr len with
  | (.ok (), m) => (some status, m)
  | (.error _, m) => (none, m)

/-- The step that follows the console's echo: a panic, or an ordinary step. -/
def report (m : Machine Echo) : Return :=
  if m.inner.steps = m.inner.panicAt + 1 then print m panicAddress (UInt32.ofNat panicText.length) 4
  else print m stepAddress (UInt32.ofNat stepText.length) 0

/-- Prints what was typed since the last step. -/
def echo (m : Machine Echo) : Return :=
  match m.readConsole inputAddress 64 with
  | (.error _, m) => (none, m)
  | (.ok n, m) => if n = 0 then (some 0, m) else print m inputAddress n 0

/-- One step: it is counted, time and budget are kept, and what was typed is printed before anything else. -/
def stepOnce (m : Machine Echo) (budget : UInt32) : Return :=
  let m := { m with inner := { m.inner with steps := m.inner.steps + 1 } }
  let m := { m with memory := (m.memory.setWord 8 m.millis).setWord 12 budget }
  match echo m with
  | (none, m) => (none, m)
  | (some _, m) => report m

/-- A step, as the build makes it. -/
def stepInterpreter (m : Machine Echo) (budget : UInt32) : Return :=
  match m.inner.defect with
  | some (.status status) => (some status.toUInt32, m)
  | some .badWrite => print m 65530 7 0
  | some .badRead =>
    match m.readConsole 0xFFFFFFFF 1 with
    | (.ok _, m) => stepOnce m budget
    | (.error _, m) => (none, m)
  | _ => stepOnce m budget

/-- Runs a function on two arguments; functions of fewer ignore the rest. -/
def run (m : Machine Echo) (f : Function) (a b : UInt32) : Return :=
  if m.inner.isBroken f ∧ f ≠ .malloc then (none, m)
  else
    match f with
    | .setUp => setUp m
    | .malloc => malloc m a
    | .free => free m
    | .validate => (compile m a b, m)
    | .initInterpreter => initInterpreter m a b
    | .deinitInterpreter => deinitInterpreter m
    | .isInterpreterDone => isInterpreterDone m
    | .stepInterpreter => stepInterpreter m a

/-- The arguments of a call; missing ones are zero. -/
def arguments : Export → UInt32 × UInt32
  | .allocate size => (size, 0)
  | .release ptr size => (ptr, size)
  | .validate ptr len => (ptr, len)
  | .initRun ptr len => (ptr, len)
  | .step budget => (budget, 0)
  | .setUp | .deinitRun | .isFinished => (0, 0)

/-- A function's result, as the role that it was called in understands it. -/
def reply : (e : Export) → UInt32 → e.Reply
  | .setUp, _ => ()
  | .allocate _, ptr => ptr
  | .release _ _, _ => ()
  | .validate _ _, status => status.toInt32
  | .initRun _ _, status => status.toInt32
  | .deinitRun, _ => ()
  | .isFinished, answer => answer != 0
  | .step _, status => status.toInt32

/-- One call of an echo interpreter. -/
def call (e : Export) (m : Machine Echo) : Except GuestError e.Reply × Machine Echo :=
  let (a, b) := arguments e
  match run m (m.inner.functions e.role) a b with
  | (some result, m) => (.ok (reply e result), m)
  | (none, m) => (.error (.trap (m.inner.names.ofRole e.role) none), m)

instance : Guest Echo := ⟨call⟩

/-- A fresh machine over a bridge. -/
def machine (interpreter : Echo) (bridge : Bridge) : Machine Echo := ⟨initialMemory, bridge, interpreter⟩

end Echo

end Playground
