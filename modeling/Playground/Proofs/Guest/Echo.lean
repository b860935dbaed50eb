import Playground.Guest.Image
import Playground.Proofs.Console.Writing
import Playground.Proofs.Memory

/-!
# What the echo interpreter does

What each function of the echo interpreter's own build (`Built`) returns, and what it leaves in memory, on the console and in its
own state. The memory holds four numbers at the bottom, the words that a step prints (`Worded`), and above them the heap; writes to
the numbers and to the heap leave the words alone. An interpreter is `Intact` if, besides, its console takes everything and nothing
was typed.
-/

namespace Playground

namespace Echo

/-! ## Memory -/

/-- An echo interpreter of the usual build. -/
structure Built (m : Machine Echo) : Prop where
  size : m.memory.size = memorySize
  defect : m.inner.defect = none
  functions : m.inner.functions = usualFunction

/-- The words that are printed lie in memory where they are looked for. -/
structure Worded (memory : Memory) : Prop where
  step_text : memory.peek stepAddress.toNat stepText.length = stepText
  panic_text : memory.peek panicAddress.toNat panicText.length = panicText

/-- What an echo interpreter of the usual build needs to work: its memory with the words it prints, a console that takes them, and
no input. -/
structure Intact (m : Machine Echo) : Prop where
  size : m.memory.size = memorySize
  step_text : m.memory.peek stepAddress.toNat stepText.length = stepText
  panic_text : m.memory.peek panicAddress.toNat panicText.length = panicText
  defect : m.inner.defect = none
  functions : m.inner.functions = usualFunction
  input : m.bridge.input.toList = []
  sink : m.bridge.sink.Steady

variable {m : Machine Echo}

/-- An intact interpreter is one of the usual build. -/
theorem Intact.built (h : Intact m) : Built m := { h with }

/-- An intact interpreter has its words in place. -/
theorem Intact.worded (h : Intact m) : Worded m.memory := { h with }

/-- A build stays the same when its memory is written to. -/
theorem Built.poke (h : Built m) (start : Nat) (payload : List UInt8) :
    Built { m with memory := m.memory.poke start payload } :=
  { h with size := (Memory.size_poke _ _ _).trans h.size }

/-- A build stays the same when a number is written to its memory. -/
theorem Built.setWord (h : Built m) (address : Nat) (value : UInt32) :
    Built { m with memory := m.memory.setWord address value } :=
  h.poke address _

/-- A build stays the same when it counts. -/
theorem Built.count (h : Built m) (address : Nat) : Built (Echo.count m address) := h.setWord address _

/-- The words that are printed stay when something is written below or above them. -/
theorem Worded.poke {memory : Memory} (h : Worded memory) {start : Nat} {payload : List UInt8}
    (hin : start + payload.length ≤ memory.size) (hout : start + payload.length ≤ 16 ∨ 44 ≤ start) :
    Worded (memory.poke start payload) := by
  have hstep : stepAddress.toNat + stepText.length = 21 := rfl
  have hpanic : panicAddress.toNat + panicText.length = 44 := rfl
  have hstepStart : stepAddress.toNat = 16 := rfl
  have hpanicStart : panicAddress.toNat = 32 := rfl
  constructor
  · exact (Memory.peek_poke_of_outside hin (by omega)).trans h.step_text
  · exact (Memory.peek_poke_of_outside hin (by omega)).trans h.panic_text

/-- The words stay when one of the numbers below them is written. -/
theorem Worded.setWord {memory : Memory} (h : Worded memory) (hsize : memory.size = memorySize) {address : Nat}
    (hlow : address + 4 ≤ 16) (value : UInt32) : Worded (memory.setWord address value) := by
  refine h.poke ?_ (.inl hlow)
  rw [hsize]
  exact Nat.le_trans hlow (by decide)

/-- The interpreter stays intact when something is written below the words that it prints or above them. -/
theorem Intact.poke (h : Intact m) {start : Nat} {payload : List UInt8} (hin : start + payload.length ≤ memorySize)
    (hout : start + payload.length ≤ 16 ∨ 44 ≤ start) : Intact { m with memory := m.memory.poke start payload } :=
  have hworded := h.worded.poke (h.size ▸ hin) hout
  { h with
    size := (h.built.poke start payload).size
    step_text := hworded.step_text
    panic_text := hworded.panic_text }

/-- The interpreter stays intact when one of the numbers below its words is written. -/
theorem Intact.setWord (h : Intact m) {address : Nat} (hlow : address + 4 ≤ 16) (value : UInt32) :
    Intact { m with memory := m.memory.setWord address value } :=
  h.poke (Nat.le_trans hlow (by decide)) (.inl hlow)

/-! ## Counts -/

/-- Allocations so far. -/
def allocations (m : Machine Echo) : UInt32 := m.memory.word 0

/-- Releases so far. -/
def releases (m : Machine Echo) : UInt32 := m.memory.word 4

/-- The interpreter stays intact when it counts. -/
theorem Intact.count (h : Intact m) {address : Nat} (hlow : address + 4 ≤ 16) : Intact (count m address) :=
  h.setWord hlow _

/-- Counting an allocation counts no release. -/
theorem counts_count_allocation (h : Intact m) :
    allocations (count m 0) = allocations m + 1 ∧ releases (count m 0) = releases m := by
  have hsize : m.memory.size = 65536 := h.size
  exact ⟨Memory.word_setWord (by omega) _, Memory.word_setWord_of_outside (by omega) (by omega) _⟩

/-- Counting a release counts no allocation. -/
theorem counts_count_release (h : Intact m) :
    allocations (count m 4) = allocations m ∧ releases (count m 4) = releases m + 1 := by
  have hsize : m.memory.size = 65536 := h.size
  exact ⟨Memory.word_setWord_of_outside (by omega) (by omega) _, Memory.word_setWord (by omega) _⟩

/-- Writing to the heap counts nothing. -/
theorem counts_poke (h : Intact m) {start : Nat} {payload : List UInt8} (hin : start + payload.length ≤ memorySize)
    (hheap : 8 ≤ start) :
    allocations { m with memory := m.memory.poke start payload } = allocations m ∧
      releases { m with memory := m.memory.poke start payload } = releases m := by
  have hfits : start + payload.length ≤ m.memory.size := h.size ▸ hin
  exact ⟨Memory.word_poke_of_outside hfits (by omega), Memory.word_poke_of_outside hfits (by omega)⟩

/-! ## Calls -/

/-- Nothing is broken in the usual build. -/
theorem run_eq (h : Built m) (f : Function) (a b : UInt32) :
    run m f a b =
      match f with
      | .setUp => setUp m
      | .malloc => malloc m a
      | .free => free m
      | .validate => (compile m a b, m)
      | .initInterpreter => initInterpreter m a b
      | .deinitInterpreter => deinitInterpreter m
      | .isInterpreterDone => isInterpreterDone m
      | .stepInterpreter => stepOnce m a := by
  have hbroken : ¬(m.inner.isBroken f = true ∧ f ≠ .malloc) := by simp [isBroken, h.defect]
  unfold run
  rw [if_neg hbroken]
  cases f with
  | stepInterpreter => simp only [stepInterpreter, h.defect]
  | _ => rfl

/-- A call of the usual build runs the function of that role. -/
theorem call_of_run (h : Built m) {e : Export} {result : UInt32} {m' : Machine Echo}
    (hrun : run m (usualFunction e.role) (arguments e).1 (arguments e).2 = (some result, m')) :
    Guest.call e m = (.ok (reply e result), m') := by
  have hcall : Guest.call e m = call e m := rfl
  rw [hcall, call]
  simp only [h.functions, hrun]

/-- Setting up gives the heap its beginning. -/
theorem call_setUp (h : Built m) :
    Guest.call .setUp m = (.ok (), { m with inner := { m.inner with heap := heapStart } }) :=
  call_of_run h (run_eq h .setUp 0 0)

/-- An allocation is counted and, where the heap has room, takes the region from it. -/
theorem call_allocate_of_room (h : Built m) {size : UInt32} (hroom : m.inner.heap + size ≤ UInt32.ofNat memorySize) :
    Guest.call (.allocate size) m =
      (.ok m.inner.heap, { count m 0 with inner := { m.inner with heap := m.inner.heap + size } }) := by
  refine call_of_run h ((run_eq h .malloc size 0).trans ?_)
  have hbroken : m.inner.isBroken .malloc = false := by simp [isBroken, h.defect]
  have hnot : ¬m.inner.heap + size > UInt32.ofNat memorySize := UInt32.not_lt.mpr hroom
  simp only [malloc, count, hnot, hbroken, if_false, Bool.false_eq_true]

/-- An allocation without room is counted too, and returns no region. -/
theorem call_allocate_of_no_room (h : Built m) {size : UInt32} (hroom : UInt32.ofNat memorySize < m.inner.heap + size) :
    Guest.call (.allocate size) m = (.ok 0, count m 0) := by
  refine call_of_run h ((run_eq h .malloc size 0).trans ?_)
  have hover : m.inner.heap + size > UInt32.ofNat memorySize := hroom
  simp only [malloc, count, hover, if_true]

/-- A release is counted. -/
theorem call_release (h : Built m) (ptr size : UInt32) : Guest.call (.release ptr size) m = (.ok (), count m 4) :=
  call_of_run h (run_eq h .free ptr size)

/-- The end of a run is noted. -/
theorem call_deinitRun (h : Built m) :
    Guest.call .deinitRun m = (.ok (), { m with inner := { m.inner with active := false } }) :=
  call_of_run h (run_eq h .deinitInterpreter 0 0)

/-- The program is complete when it has made a step for each byte of its source. -/
theorem call_isFinished (h : Built m) :
    Guest.call .isFinished m = (.ok (!m.inner.active || m.inner.limit ≤ m.inner.steps), m) := by
  refine (call_of_run (e := .isFinished) h (run_eq h .isInterpreterDone 0 0)).trans ?_
  cases (!m.inner.active || m.inner.limit ≤ m.inner.steps) <;> simp [reply]

/-! ## A source -/

/-- The index of the byte that panics, as the interpreter keeps it. -/
def panicIndex (source : List UInt8) : UInt32 := ((source.findIdx? (· == 0x21)).map UInt32.ofNat).getD 0xFFFFFFFF

/-- The interpreter once a run is prepared. -/
def prepared (g : Echo) (source : List UInt8) : Echo :=
  { g with active := true, steps := 0, limit := UInt32.ofNat source.length, panicAt := panicIndex source }

section Source

variable {ptr len : UInt32} {source : List UInt8}

/-- A source compiles unless it begins with an opening parenthesis. -/
theorem compile_eq (hsource : m.memory.peek ptr.toNat len.toNat = source) (hlen : source.length = len.toNat)
    (hin : m.memory.InBounds ptr len.toNat) : compile m ptr len = some (if source.head? = some 0x28 then 2 else 0) := by
  unfold compile
  cases source with
  | nil =>
    have hzero : len = 0 := UInt32.toNat_inj.mp hlen.symm
    rw [if_pos hzero]
    rfl
  | cons b rest =>
    have hpos : 0 < len.toNat := hlen ▸ Nat.succ_pos _
    have hne : len ≠ 0 := fun hzero => absurd (congrArg UInt32.toNat hzero) (Nat.ne_of_gt hpos)
    have hfirst : ptr.toNat < m.memory.size := by
      rw [Memory.InBounds] at hin
      omega
    have hbyte : m.memory.byte ptr.toNat = b := by
      have hread := m.memory.byte_eq_peek ptr.toNat hpos
      rwa [hsource, Nat.add_zero] at hread
    simp only [if_neg hne, if_pos hfirst, hbyte, List.head?_cons, Option.some.injEq]

/-- The first exclamation mark is found, or that there is none. -/
theorem findPanic_eq (hsource : m.memory.peek ptr.toNat len.toNat = source) (hlen : source.length = len.toNat) :
    findPanic m ptr len = some (panicIndex source) := by
  unfold findPanic panicIndex
  rw [hsource]
  dsimp only
  cases source.findIdx? (· == 0x21) with
  | some i => rfl
  | none =>
    rw [if_pos hlen]
    rfl

/-- A check of a source answers whether it compiles, and that is all. -/
theorem call_validate (h : Built m) (hsource : m.memory.peek ptr.toNat len.toNat = source) (hlen : source.length = len.toNat)
    (hin : m.memory.InBounds ptr len.toNat) :
    Guest.call (.validate ptr len) m = (.ok (if source.head? = some 0x28 then 2 else 0), m) := by
  have hrun := run_eq h .validate ptr len
  simp only [compile_eq hsource hlen hin] at hrun
  refine (call_of_run (e := .validate ptr len) h hrun).trans ?_
  by_cases hopens : source.head? = some 0x28
  · simp only [if_pos hopens]
    rfl
  · simp only [if_neg hopens]
    rfl

/-- A source that does not compile is refused. -/
theorem call_initRun_of_refused (h : Built m) (hsource : m.memory.peek ptr.toNat len.toNat = source)
    (hlen : source.length = len.toNat) (hin : m.memory.InBounds ptr len.toNat) (hopens : source.head? = some 0x28) :
    Guest.call (.initRun ptr len) m = (.ok 2, m) := by
  refine call_of_run h ((run_eq h .initInterpreter ptr len).trans ?_)
  simp only [initInterpreter, compile_eq hsource hlen hin, if_pos hopens]
  rfl

/-- A source that compiles is prepared. -/
theorem call_initRun_of_accepted (h : Built m) (hsource : m.memory.peek ptr.toNat len.toNat = source)
    (hlen : source.length = len.toNat) (hin : m.memory.InBounds ptr len.toNat) (hopens : source.head? ≠ some 0x28) :
    Guest.call (.initRun ptr len) m = (.ok 0, { m with inner := prepared m.inner source }) := by
  have hlimit : UInt32.ofNat source.length = len := by rw [hlen, UInt32.ofNat_toNat]
  refine call_of_run h ((run_eq h .initInterpreter ptr len).trans ?_)
  simp only [initInterpreter, compile_eq hsource hlen hin, if_neg hopens, findPanic_eq hsource hlen, prepared, hlimit]
  rfl

end Source

/-! ## A step -/

/-- What a step does to the console first: what was typed is printed, if there is any. -/
def echoed (b : Bridge) : Except ConsoleError Unit × Bridge :=
  if (b.consoleRead 64).1 = [] then (.ok (), (b.consoleRead 64).2)
  else (b.consoleRead 64).2.consoleWrite (b.consoleRead 64).1

/-- What a step does to the console: what was typed is printed and then, unless that failed, the step's own words. -/
def spoken (b : Bridge) (words : List UInt8) : Except ConsoleError Unit × Bridge :=
  match echoed b with
  | (.ok (), b) => b.consoleWrite words
  | (.error e, b) => (.error e, b)

/-- What a function returns that has printed: its status, unless the print failed. -/
def returned (printed : Except ConsoleError Unit) (status : UInt32) : Option UInt32 :=
  match printed with
  | .ok () => some status
  | .error _ => none

/-- The next step panics. -/
def panics (g : Echo) : Bool := g.steps = g.panicAt

/-- The words of a step, read from where they are looked for. -/
def words (memory : Memory) (panics : Bool) : List UInt8 :=
  if panics then memory.peek panicAddress.toNat panicText.length else memory.peek stepAddress.toNat stepText.length

/-- Where the words are in place, those are what is read to be printed. -/
theorem Worded.words_eq {memory : Memory} (h : Worded memory) (panics : Bool) :
    words memory panics = if panics then panicText else stepText := by
  rw [words, h.step_text, h.panic_text]

/-- What a call of a step returns that has printed. -/
def stepReply (g : Echo) (printed : Except ConsoleError Unit) : Except GuestError Int32 :=
  match printed with
  | .ok () => .ok (if panics g then 4 else 0)
  | .error _ => .error (.trap (g.names.ofRole .step) none)

/-- Memory after a step. -/
def steppedMemory (m : Machine Echo) (budget : UInt32) : Memory :=
  ((m.memory.setWord 8 m.millis).setWord 12 budget).poke inputAddress.toNat (m.bridge.consoleRead 64).1

/-- A print of what lies in memory. -/
theorem print_eq {ptr len : UInt32} (hin : ptr.toNat + len.toNat ≤ m.memory.size) (status : UInt32) :
    print m ptr len status =
      (returned (m.bridge.consoleWrite (m.memory.peek ptr.toNat len.toNat)).1 status,
        { m with bridge := (m.bridge.consoleWrite (m.memory.peek ptr.toNat len.toNat)).2 }) := by
  have hbounds : m.memory.InBounds ptr len.toNat := hin
  simp only [print, Machine.writeConsole, Memory.copyOut, Memory.region, if_pos hbounds]
  rcases m.bridge.consoleWrite (m.memory.peek ptr.toNat len.toNat) with ⟨_ | _, bridge⟩ <;> rfl

/-- A step receives no more than there is room for. -/
theorem length_consoleRead_le (b : Bridge) (room : Nat) : (b.consoleRead room).1.length ≤ room := by
  simp [Bridge.consoleRead]

/-- The echo of what was typed: it is received above the words, and printed from there. -/
theorem echo_eq (h : Built m) :
    echo m = (returned (echoed m.bridge).1 0,
      { m with
        memory := m.memory.poke inputAddress.toNat (m.bridge.consoleRead 64).1
        bridge := (echoed m.bridge).2 }) := by
  have hsize : m.memory.size = 65536 := h.size
  have hbounds : m.memory.InBounds inputAddress (64 : UInt32).toNat := by
    rw [Memory.InBounds, hsize]
    decide
  have hroom := length_consoleRead_le m.bridge 64
  have hread : m.readConsole inputAddress 64 = (.ok (UInt32.ofNat (m.bridge.consoleRead 64).1.length),
      { m with
        memory := m.memory.poke inputAddress.toNat (m.bridge.consoleRead 64).1
        bridge := (m.bridge.consoleRead 64).2 }) := by
    rw [Machine.readConsole, if_pos hbounds]
    rfl
  have hlen : (UInt32.ofNat (m.bridge.consoleRead 64).1.length).toNat = (m.bridge.consoleRead 64).1.length :=
    UInt32.toNat_ofNat_of_lt' (Nat.lt_of_le_of_lt hroom (by decide))
  have hstart : inputAddress.toNat = 64 := rfl
  have hin : inputAddress.toNat + (m.bridge.consoleRead 64).1.length ≤ m.memory.size := by omega
  rw [Echo.echo, hread, echoed]
  dsimp only
  by_cases hnone : (m.bridge.consoleRead 64).1 = []
  · rw [if_pos hnone, hnone]
    rfl
  · have hsome : UInt32.ofNat (m.bridge.consoleRead 64).1.length ≠ 0 := by
      intro hzero
      rw [hzero] at hlen
      exact hnone (List.length_eq_zero_iff.mp hlen.symm)
    have hin' : inputAddress.toNat + (UInt32.ofNat (m.bridge.consoleRead 64).1.length).toNat ≤
        (m.memory.poke inputAddress.toNat (m.bridge.consoleRead 64).1).size := by
      rw [hlen, Memory.size_poke]
      exact hin
    rw [if_neg hsome, if_neg hnone, print_eq hin', hlen, Memory.peek_poke hin]

/-- A step that was counted reports with its words. -/
theorem report_eq (h : Built m) {panics : Bool} (hpanics : (m.inner.steps = m.inner.panicAt + 1) = panics) :
    report m = (returned (m.bridge.consoleWrite (words m.memory panics)).1 (if panics then 4 else 0),
      { m with bridge := (m.bridge.consoleWrite (words m.memory panics)).2 }) := by
  have hsize : m.memory.size = 65536 := h.size
  have hstep : (UInt32.ofNat stepText.length).toNat = stepText.length := rfl
  have hpanic : (UInt32.ofNat panicText.length).toNat = panicText.length := rfl
  have hstepIn : stepAddress.toNat + (UInt32.ofNat stepText.length).toNat ≤ m.memory.size := by
    rw [hsize]
    decide
  have hpanicIn : panicAddress.toNat + (UInt32.ofNat panicText.length).toNat ≤ m.memory.size := by
    rw [hsize]
    decide
  unfold Echo.report words
  cases panics with
  | true => rw [if_pos (of_eq_true (hpanics.trans (by simp))), print_eq hpanicIn, hpanic, if_pos rfl, if_pos rfl]
  | false => rw [if_neg (of_eq_false (hpanics.trans (by simp))), print_eq hstepIn, hstep, if_neg nofun, if_neg nofun]

section Step

variable (h : Built m) (budget : UInt32)

include h

/-- A step leaves memory as large as it was. -/
theorem size_steppedMemory : (steppedMemory m budget).size = memorySize := by
  rw [steppedMemory, Memory.size_poke, Memory.size_setWord, Memory.size_setWord, h.size]

/-- What is received lies in memory. -/
theorem received_le :
    inputAddress.toNat + (m.bridge.consoleRead 64).1.length ≤ ((m.memory.setWord 8 m.millis).setWord 12 budget).size := by
  have hstart : inputAddress.toNat = 64 := rfl
  have hsize : m.memory.size = 65536 := h.size
  have hroom := length_consoleRead_le m.bridge 64
  rw [Memory.size_setWord, Memory.size_setWord, hsize]
  omega

/-- A step leaves alone what lies between the words that it keeps and what it receives. -/
theorem peek_steppedMemory {address len : Nat} (hlow : 16 ≤ address) (hhigh : address + len ≤ 64) :
    (steppedMemory m budget).peek address len = m.memory.peek address len := by
  have hsize : m.memory.size = 65536 := h.size
  have hsize' : (m.memory.setWord 8 m.millis).size = 65536 := (Memory.size_setWord _ _ _).trans hsize
  rw [steppedMemory, Memory.peek_poke_of_outside (received_le h budget) (.inl hhigh),
    Memory.peek_setWord_of_outside (by omega) (by omega), Memory.peek_setWord_of_outside (by omega) (by omega)]

/-- A step keeps the time and its budget, and leaves the counts below them alone. -/
theorem word_steppedMemory :
    (steppedMemory m budget).word 8 = m.millis ∧ (steppedMemory m budget).word 12 = budget ∧
      ∀ address, address + 4 ≤ 8 → (steppedMemory m budget).word address = m.memory.word address := by
  have hsize : m.memory.size = 65536 := h.size
  have hsize' : (m.memory.setWord 8 m.millis).size = 65536 := (Memory.size_setWord _ _ _).trans hsize
  have hreceived : ∀ address, address + 4 ≤ 64 →
      (steppedMemory m budget).word address = ((m.memory.setWord 8 m.millis).setWord 12 budget).word address :=
    fun address hlow => Memory.word_poke_of_outside (received_le h budget) (.inl hlow)
  refine ⟨?_, ?_, ?_⟩
  · rw [hreceived 8 (by decide), Memory.word_setWord_of_outside (by omega) (by omega), Memory.word_setWord (by omega)]
  · rw [hreceived 12 (by decide), Memory.word_setWord (by omega)]
  · intro address hlow
    rw [hreceived address (by omega), Memory.word_setWord_of_outside (by omega) (by omega),
      Memory.word_setWord_of_outside (by omega) (by omega)]

/-- The words to print are the same after a step. -/
theorem words_steppedMemory (panics : Bool) : words (steppedMemory m budget) panics = words m.memory panics := by
  unfold words
  rw [peek_steppedMemory h budget (by decide) (by decide), peek_steppedMemory h budget (by decide) (by decide)]

/-- What a step does: it is counted, time and budget are kept, and the console is spoken to. -/
theorem stepOnce_eq :
    stepOnce m budget =
      (returned (spoken m.bridge (words m.memory (panics m.inner))).1 (if panics m.inner then 4 else 0),
        ⟨steppedMemory m budget, (spoken m.bridge (words m.memory (panics m.inner))).2,
          { m.inner with steps := m.inner.steps + 1 }⟩) := by
  -- The machine with which the echo begins.
  have hsize : ((m.memory.setWord 8 m.millis).setWord 12 budget).size = memorySize := by
    rw [Memory.size_setWord, Memory.size_setWord, h.size]
  have hbegun : Built ⟨(m.memory.setWord 8 m.millis).setWord 12 budget, m.bridge,
      { m.inner with steps := m.inner.steps + 1 }⟩ := by
    constructor <;> dsimp only
    · exact hsize
    · exact h.defect
    · exact h.functions
  have hechoed := echo_eq hbegun
  dsimp only at hechoed
  rw [← steppedMemory, Machine.millis] at hechoed
  unfold stepOnce spoken
  dsimp only [Machine.millis]
  rw [hechoed]
  rcases echoed m.bridge with ⟨e | _, bridge⟩
  · rfl
  · have hreceived : Built ⟨steppedMemory m budget, bridge, { m.inner with steps := m.inner.steps + 1 }⟩ :=
      { h with size := size_steppedMemory h budget }
    have hpanics : (m.inner.steps + 1 = m.inner.panicAt + 1) = (panics m.inner : Prop) := by
      simp [panics]
    have hreport := report_eq hreceived hpanics
    rw [words_steppedMemory h budget] at hreport
    exact hreport

/-- What a call of a step returns, and all that it leaves. -/
theorem call_step_eq :
    Guest.call (.step budget) m =
      (stepReply m.inner (spoken m.bridge (words m.memory (panics m.inner))).1,
        ⟨steppedMemory m budget, (spoken m.bridge (words m.memory (panics m.inner))).2,
          { m.inner with steps := m.inner.steps + 1 }⟩) := by
  have hrun : run m .stepInterpreter budget 0 = _ := (run_eq h .stepInterpreter budget 0).trans (stepOnce_eq h budget)
  have hrole : m.inner.functions (Export.step budget).role = .stepInterpreter := by
    rw [h.functions]
    rfl
  have hcall : Guest.call (.step budget) m = call (.step budget) m := rfl
  rw [hcall, call, hrole]
  dsimp only [arguments]
  rw [hrun]
  unfold stepReply
  rcases spoken m.bridge (words m.memory (panics m.inner)) with ⟨_ | _, bridge⟩
  · rfl
  · cases panics m.inner <;> rfl

end Step

/-- Where nothing was typed and the console takes everything, just the words are printed. -/
theorem spoken_of_quiet {b : Bridge} (hinput : b.input.toList = []) (hsink : b.sink.Steady) (words : List UInt8) :
    ∃ bridge, spoken b words = (.ok (), bridge) ∧ bridge.input.toList = [] ∧ bridge.sink.Steady ∧
      bridge.sink.contents = b.sink.contents ++ words := by
  have htyped : (b.consoleRead 64).1 = [] := by simp [Bridge.consoleRead, hinput]
  have hleft : (b.consoleRead 64).2.input.toList = [] := by simp [Bridge.consoleRead, hinput]
  obtain ⟨sink, hemit, hsteady, hcontents⟩ := hsink.emit words
  refine ⟨{ (b.consoleRead 64).2 with sink }, ?_, hleft, hsteady, hcontents⟩
  rw [spoken, echoed, if_pos htyped]
  have hprinted : (b.consoleRead 64).2.sink.emit words = (.ok (), sink) := hemit
  simp only [Bridge.consoleWrite, hprinted]

/-- A step is counted and prints its words; it reports a panic where the source has it panic. -/
theorem call_step (h : Intact m) (budget : UInt32) :
    ∃ m', Guest.call (.step budget) m = (.ok (if m.inner.steps = m.inner.panicAt then 4 else 0), m') ∧ Intact m' ∧
      m'.inner = { m.inner with steps := m.inner.steps + 1 } ∧
      m'.bridge.sink.contents =
        m.bridge.sink.contents ++ (if m.inner.steps = m.inner.panicAt then panicText else stepText) ∧
      allocations m' = allocations m ∧ releases m' = releases m := by
  obtain ⟨bridge, hspoken, hinput, hsteady, hcontents⟩ := spoken_of_quiet h.input h.sink (words m.memory (panics m.inner))
  obtain ⟨-, -, hcounts⟩ := word_steppedMemory h.built budget
  have hcall := call_step_eq h.built budget
  have hpanics : (panics m.inner = true) = (m.inner.steps = m.inner.panicAt) := by simp [panics]
  have hwords := h.worded.words_eq (panics m.inner)
  rw [hspoken] at hcall
  rw [hwords] at hcontents
  simp only [stepReply, hpanics] at hcall hcontents
  refine ⟨_, hcall, ?_, rfl, hcontents, hcounts 0 (by decide), hcounts 4 (by decide)⟩
  constructor <;> dsimp only
  · exact size_steppedMemory h.built budget
  · exact (peek_steppedMemory h.built budget (by decide) (by decide)).trans h.step_text
  · exact (peek_steppedMemory h.built budget (by decide) (by decide)).trans h.panic_text
  · exact h.defect
  · exact h.functions
  · exact hinput
  · exact hsteady

/-! ## The beginning -/

/-- Memory that nothing was written to, in the parts that the words to print do not take up. -/
theorem word_initialMemory {address : Nat} (h : address + 4 ≤ 16) : initialMemory.word address = 0 := by
  have hstep : stepAddress.toNat = 16 := rfl
  have hpanic : panicAddress.toNat = 32 := rfl
  have hstepLength : stepText.length = 5 := rfl
  have hpanicLength : panicText.length = 12 := rfl
  have hsize : (Memory.zeroed memorySize).size = 65536 := Memory.size_zeroed _
  have hsize' : ((Memory.zeroed memorySize).poke stepAddress.toNat stepText).size = 65536 :=
    (Memory.size_poke _ _ _).trans hsize
  rw [initialMemory, Memory.word_poke_of_outside (by omega) (by omega), Memory.word_poke_of_outside (by omega) (by omega)]
  simp only [Memory.word, Memory.byte_zeroed]
  rfl

/-- An interpreter begins with one page of memory. -/
theorem size_initialMemory : initialMemory.size = memorySize := by
  rw [initialMemory, Memory.size_poke, Memory.size_poke, Memory.size_zeroed]

/-- The words to print lie in memory from the beginning. -/
theorem worded_initialMemory : Worded initialMemory := by
  have hstep : stepAddress.toNat + stepText.length ≤ (Memory.zeroed memorySize).size := by
    rw [Memory.size_zeroed]
    decide
  have hpanic : panicAddress.toNat + panicText.length ≤
      ((Memory.zeroed memorySize).poke stepAddress.toNat stepText).size := by
    rw [Memory.size_poke, Memory.size_zeroed]
    decide
  constructor
  · exact (Memory.peek_poke_of_outside hpanic (.inl (by decide))).trans (Memory.peek_poke hstep)
  · exact Memory.peek_poke hpanic

/-- A fresh interpreter over a steady console has all it needs, and has counted nothing. -/
theorem Intact.initial {bridge : Bridge} (hinput : bridge.input.toList = []) (hsink : bridge.sink.Steady) :
    Intact (machine { functions := usualFunction } bridge) where
  size := size_initialMemory
  step_text := worded_initialMemory.step_text
  panic_text := worded_initialMemory.panic_text
  defect := rfl
  functions := rfl
  input := hinput
  sink := hsink

end Echo

end Playground
