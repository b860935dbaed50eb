import Playground.Proofs.Controller.Frame
import Playground.Proofs.Guest.Echo
import Playground.Proofs.HandOff

/-!
# The heap of the echo interpreter

The heap begins above all that the interpreter keeps for itself, and only grows. A payload for which there is `Room` is copied onto
it, used there, and its region is released (`handOff_of_room`). Without room it gets no region, or one that ends beyond 32 bits, in
which the host finds no place for it. The first leaves the interpreter `Whole`, the last does not: the heap then begins anew at the
bottom of memory. It does not come to that with payloads that are `Measured`.
-/

namespace Playground

namespace Echo

variable {m : Machine Echo} {payload : List UInt8}

/-- A build stays the same when something is done to its console. -/
theorem Built.with_bridge (h : Built m) (bridge : Bridge) : Built { m with bridge } := { h with }

/-! ## Regions -/

/-- There is room on the heap for a payload. -/
def Room (m : Machine Echo) (payload : List UInt8) : Prop := m.inner.heap.toNat + max payload.length 1 ≤ memorySize

/-- The machine that has a region for a payload. -/
def granted (m : Machine Echo) (payload : List UInt8) : Machine Echo :=
  { count m 0 with inner := { m.inner with heap := m.inner.heap + Machine.regionSize payload } }

/-- A build stays the same when it grants a region. -/
theorem Built.granted (h : Built m) (payload : List UInt8) : Built (Echo.granted m payload) :=
  ⟨(h.count 0).size, h.defect, h.functions⟩

/-- The machine with a payload in its region. -/
def filled (m : Machine Echo) (payload : List UInt8) : Machine Echo :=
  (granted m payload).withPayload m.inner.heap payload

/-- A build stays the same when a payload is copied into its region. -/
theorem Built.filled (h : Built m) (payload : List UInt8) : Built (Echo.filled m payload) :=
  (h.granted payload).poke _ _

/-- The length of a payload for which there is room fits into 32 bits. -/
theorem Room.length_lt (h : Room m payload) : payload.length < UInt32.size := by
  have hmemory : memorySize = 65536 := rfl
  have hsize : UInt32.size = 4294967296 := rfl
  rw [Room] at h
  omega

/-- The heap with a region on it ends where it should. -/
theorem Room.toNat_heap (h : Room m payload) :
    (Echo.granted m payload).inner.heap.toNat = m.inner.heap.toNat + max payload.length 1 := by
  have hmemory : memorySize = 65536 := rfl
  have hsize := Machine.toNat_regionSize h.length_lt
  rw [Room] at h
  have hheap : (Echo.granted m payload).inner.heap = m.inner.heap + Machine.regionSize payload := rfl
  rw [hheap, UInt32.toNat_add, hsize]
  omega

/-- A payload for which there is room gets the end of the heap for its region. -/
theorem Room.call_allocate (h : Room m payload) (hbuilt : Built m) :
    Guest.call (.allocate (Machine.regionSize payload)) m = (.ok m.inner.heap, Echo.granted m payload) := by
  refine call_allocate_of_room hbuilt ?_
  have hend := h.toNat_heap
  rw [Room] at h
  rw [UInt32.le_iff_toNat_le]
  exact hend.trans_le h

/-- The region is in bounds. -/
theorem Room.inBounds (h : Room m payload) (hbuilt : Built m) :
    (Echo.granted m payload).memory.InBounds m.inner.heap payload.length := by
  rw [Room] at h
  rw [Memory.InBounds, (hbuilt.granted payload).size]
  omega

/-- The payload lies in its region, where the interpreter is told to look for it. -/
theorem Room.holds (h : Room m payload) (hbuilt : Built m) :
    payload.length = (UInt32.ofNat payload.length).toNat ∧
      (Echo.filled m payload).memory.peek m.inner.heap.toNat (UInt32.ofNat payload.length).toNat = payload ∧
      (Echo.filled m payload).memory.InBounds m.inner.heap (UInt32.ofNat payload.length).toNat := by
  have hlen : (UInt32.ofNat payload.length).toNat = payload.length := UInt32.toNat_ofNat_of_lt' h.length_lt
  have hholds := Machine.holds_withPayload (h.inBounds hbuilt)
  rw [hlen]
  refine ⟨rfl, hholds.content, ?_⟩
  rw [Memory.InBounds, Echo.filled, hholds.size]
  exact h.inBounds hbuilt

/-- The words that are printed stay when a payload is copied to below or above them. -/
theorem Worded.filled (h : Worded m.memory) (hbuilt : Built m) (hroom : Room m payload)
    (hout : m.inner.heap.toNat + payload.length ≤ 16 ∨ 44 ≤ m.inner.heap.toNat) :
    Worded (Echo.filled m payload).memory := by
  have hcounted : Worded (Echo.granted m payload).memory := h.setWord hbuilt.size (by decide) _
  exact hcounted.poke (hroom.inBounds hbuilt) hout

/-! ## Handing a payload over -/

/-- The machine that has prepared a run of its payload. -/
def readied (m : Machine Echo) (payload : List UInt8) : Machine Echo :=
  { filled m payload with inner := prepared (filled m payload).inner payload }

section Room

variable {use : Slice → Machine Echo → Except GuestError Int32 × Machine Echo} (h : Room m payload) (hbuilt : Built m)
  (hheap : m.inner.heap ≠ 0)

include h hbuilt hheap

/-- A payload for which there is room is used in its region, and the region is released. -/
theorem Room.handOff {status : Int32} {used : Machine Echo}
    (hused : use ⟨m.inner.heap, UInt32.ofNat payload.length⟩ (filled m payload) = (.ok status, used)) (hleft : Built used) :
    m.handOff payload use = (.ok status, count used 4, []) := by
  have hplace : (granted m payload).place m.inner.heap payload use = (.ok status, used) := by
    rw [Machine.place_of_inBounds h.length_lt (h.inBounds hbuilt)]
    exact hused
  exact Machine.handOff_of_region h.length_lt (h.call_allocate hbuilt) hheap hplace (call_release hleft _ _)

/-- A text that is checked leaves nothing but its bytes on the heap, and the counts. -/
theorem Room.handOff_validate :
    m.handOff payload Controller.validateUse =
      (.ok (if payload.head? = some 0x28 then 2 else 0), count (filled m payload) 4, []) := by
  obtain ⟨hlen, hsource, hin⟩ := h.holds hbuilt
  exact h.handOff hbuilt hheap (call_validate (hbuilt.filled payload) hsource hlen hin) (hbuilt.filled payload)

/-- A source that does not compile leaves no more. -/
theorem Room.handOff_initRun_of_opening (hopens : payload.head? = some 0x28) :
    m.handOff payload Controller.initUse = (.ok 2, count (filled m payload) 4, []) := by
  obtain ⟨hlen, hsource, hin⟩ := h.holds hbuilt
  exact h.handOff hbuilt hheap (call_initRun_of_refused (hbuilt.filled payload) hsource hlen hin hopens) (hbuilt.filled payload)

/-- A source that compiles is prepared. -/
theorem Room.handOff_initRun (hopens : payload.head? ≠ some 0x28) :
    m.handOff payload Controller.initUse = (.ok 0, count (readied m payload) 4, []) := by
  obtain ⟨hlen, hsource, hin⟩ := h.holds hbuilt
  have hfilled := hbuilt.filled payload
  have hreadied : Built (readied m payload) := ⟨hfilled.size, hfilled.defect, hfilled.functions⟩
  exact h.handOff hbuilt hheap (call_initRun_of_accepted hfilled hsource hlen hin hopens) hreadied

end Room

section NoRoom

variable (use : Slice → Machine Echo → Except GuestError Int32 × Machine Echo) (hbuilt : Built m)

include hbuilt

/-- A payload whose region would end beyond memory gets none. -/
theorem handOff_of_no_region (hlen : payload.length < UInt32.size)
    (hover : UInt32.ofNat memorySize < m.inner.heap + Machine.regionSize payload) :
    m.handOff payload use = (.error (.outOfMemory (Machine.regionSize payload)), count m 0, []) :=
  Machine.handOff_of_null hlen (call_allocate_of_no_room hbuilt hover)

/-- A payload without room whose region ends beyond 32 bits gets one, but is not copied there. -/
theorem handOff_of_beyond (hlen : payload.length < UInt32.size) (hheap : m.inner.heap ≠ 0) (hroom : ¬Room m payload)
    (hwrapped : m.inner.heap + Machine.regionSize payload ≤ UInt32.ofNat memorySize) :
    ∃ e, m.handOff payload use = (.error (.guest e), count (granted m payload) 4, []) := by
  have hout : ¬(granted m payload).memory.InBounds m.inner.heap payload.length := by
    have hsize := Machine.toNat_regionSize hlen
    have hbig : UInt32.size = 4294967296 := rfl
    have hmemory : (UInt32.ofNat memorySize).toNat = 65536 := rfl
    have hmemory' : memorySize = 65536 := rfl
    rw [UInt32.le_iff_toNat_le, UInt32.toNat_add, hsize] at hwrapped
    rw [Room] at hroom
    rw [Memory.InBounds, (hbuilt.granted payload).size]
    have hlt := m.inner.heap.toNat_lt
    omega
  exact ⟨_, Machine.handOff_of_region hlen (call_allocate_of_room hbuilt hwrapped) hheap
    (Machine.place_of_outOfBounds hlen hout) (call_release (hbuilt.granted payload) _ _)⟩

/-- A payload without room is not handed over. -/
theorem exists_handOff_error (hroom : ¬Room m payload) : ∃ e, (m.handOff payload use).1 = .error e := by
  by_cases hlen : payload.length < UInt32.size
  · by_cases hover : UInt32.ofNat memorySize < m.inner.heap + Machine.regionSize payload
    · exact ⟨_, congrArg Prod.fst (handOff_of_no_region use hbuilt hlen hover)⟩
    · have hwrapped := UInt32.not_lt.mp hover
      by_cases hheap : m.inner.heap = 0
      · have hgranted := call_allocate_of_room hbuilt hwrapped
        rw [hheap] at hgranted
        exact ⟨_, congrArg Prod.fst (Machine.handOff_of_null hlen hgranted)⟩
      · obtain ⟨e, hoff⟩ := handOff_of_beyond use hbuilt hlen hheap hroom hwrapped
        exact ⟨_, congrArg Prod.fst hoff⟩
  · have hlong : ¬payload.length ≤ Memory.maxLength := fun hle => hlen (Nat.lt_of_le_pred (by decide) hle)
    rw [Machine.handOff_eq, if_neg hlong]
    exact ⟨_, rfl⟩

end NoRoom

/-! ## An interpreter that has not lost its memory -/

/-- What an interpreter knows about its run. -/
structure Progress where
  active : Bool
  steps : UInt32
  limit : UInt32
  panicAt : UInt32
  deriving DecidableEq, Repr

/-- What the interpreter knows about its run. -/
def progress (g : Echo) : Progress := ⟨g.active, g.steps, g.limit, g.panicAt⟩

/-- An interpreter of the usual build whose heap is above all that it keeps for itself. -/
structure Whole (m : Machine Echo) : Prop extends Built m where
  names : m.inner.names = {}
  worded : Worded m.memory
  above : heapStart.toNat ≤ m.inner.heap.toNat
  below : m.inner.heap.toNat ≤ memorySize

/-- A payload is short enough that the end of its region can be computed in 32 bits wherever the heap ends, or so long that its
length does not fit into them. -/
def Measured (payload : List UInt8) : Prop := payload.length < UInt32.size - memorySize ∨ UInt32.size ≤ payload.length

instance (payload : List UInt8) : Decidable (Measured payload) := inferInstanceAs (Decidable (_ ∨ _))

/-- A payload on the heap, and the counts, are neither about the run nor about the console. -/
theorem progress_filled (m : Machine Echo) (payload : List UInt8) :
    (count (filled m payload) 4).inner.progress = m.inner.progress := by
  unfold count filled granted Machine.withPayload
  rfl

/-- A payload on the heap is nothing to the console. -/
theorem bridge_filled (m : Machine Echo) (payload : List UInt8) : (count (filled m payload) 4).bridge = m.bridge := by
  unfold count filled granted Machine.withPayload count
  rfl

namespace Whole

/-- The heap of a whole interpreter never ends at the null pointer. -/
theorem heap_ne_zero (h : Whole m) : m.inner.heap ≠ 0 := by
  intro hzero
  have habove := h.above
  rw [hzero] at habove
  exact absurd habove (by decide)

/-- An interpreter stays whole when something is done to its console. -/
theorem with_bridge (h : Whole m) (bridge : Bridge) : Whole { m with bridge } := { h with }

/-- An interpreter stays whole when it counts. -/
theorem count (h : Whole m) {address : Nat} (hlow : address + 4 ≤ 16) : Whole (Echo.count m address) :=
  { h with
    size := (h.toBuilt.count address).size
    worded := h.worded.setWord h.size hlow _ }

/-- The interpreter's own state may change, but neither its build nor its heap. -/
theorem with_inner (h : Whole m) {g : Echo} (hdefect : g.defect = m.inner.defect)
    (hfunctions : g.functions = m.inner.functions) (hnames : g.names = m.inner.names) (hheap : g.heap = m.inner.heap) :
    Whole { m with inner := g } where
  size := h.size
  defect := hdefect.trans h.defect
  functions := hfunctions.trans h.functions
  names := hnames.trans h.names
  worded := h.worded
  above := by rw [hheap]; exact h.above
  below := by rw [hheap]; exact h.below

/-- A payload for which there is room does not get at what the interpreter keeps for itself. -/
theorem filled (h : Whole m) (hroom : Room m payload) : Whole (Echo.filled m payload) := by
  have hstart : heapStart.toNat = 1024 := rfl
  have habove := h.above
  have hend : (Echo.filled m payload).inner.heap.toNat = m.inner.heap.toNat + max payload.length 1 := hroom.toNat_heap
  constructor
  case toBuilt => exact h.toBuilt.filled payload
  case names => exact h.names
  case worded => exact h.worded.filled h.toBuilt hroom (.inr (by omega))
  case above => omega
  case below => exact hend.trans_le hroom

/-- What a step writes to memory leaves the words alone that it prints. -/
theorem with_steppedMemory (h : Whole m) (budget : UInt32) : Whole { m with memory := steppedMemory m budget } where
  size := size_steppedMemory h.toBuilt budget
  defect := h.defect
  functions := h.functions
  names := h.names
  worded :=
    { step_text := (peek_steppedMemory h.toBuilt budget (by decide) (by decide)).trans h.worded.step_text
      panic_text := (peek_steppedMemory h.toBuilt budget (by decide) (by decide)).trans h.worded.panic_text }
  above := h.above
  below := h.below

/-- Calls about the run leave the interpreter whole. -/
theorem call (h : Whole m) {e : Export} (he : e.AboutRun) : Whole (Guest.call e m).2 := by
  cases e with
  | deinitRun =>
    rw [call_deinitRun h.toBuilt]
    exact h.with_inner rfl rfl rfl rfl
  | isFinished =>
    rw [call_isFinished h.toBuilt]
    exact h
  | step budget =>
    rw [call_step_eq h.toBuilt budget]
    refine ((h.with_steppedMemory budget).with_bridge _).with_inner ?_ ?_ ?_ ?_ <;> dsimp only
  | _ => exact absurd he id

/-- Calls about the run leave the interpreter whole. -/
theorem works (h : Whole m) {m' : Machine Echo} (hworks : m.Works m') : Whole m' :=
  hworks.rel (Q := fun m m' => Whole m → Whole m') (fun _ h => h) (fun h h' hm => h' (h hm)) (fun he _ hm => hm.call he) h

/-- A measured payload without room gets no region. -/
theorem handOff_of_no_room (h : Whole m) (hmeasured : Measured payload) (hroom : ¬Room m payload)
    (use : Slice → Machine Echo → Except GuestError Int32 × Machine Echo) :
    (m.handOff payload use).2.1 = m ∨ (m.handOff payload use).2.1 = Echo.count m 0 := by
  have hbig : UInt32.size = 4294967296 := rfl
  have hmemory : memorySize = 65536 := rfl
  have hbelow := h.below
  obtain hshort | hlong := hmeasured
  · right
    have hlen : payload.length < UInt32.size := by omega
    have hsize := Machine.toNat_regionSize hlen
    have hend : (UInt32.ofNat memorySize).toNat = 65536 := rfl
    have hover : UInt32.ofNat memorySize < m.inner.heap + Machine.regionSize payload := by
      rw [Room] at hroom
      rw [UInt32.lt_iff_toNat_lt, UInt32.toNat_add, hsize, hend]
      omega
    rw [handOff_of_no_region use h.toBuilt hlen hover]
  · left
    have hlong' : ¬payload.length ≤ Memory.maxLength := by
      have hmax : Memory.maxLength = UInt32.size - 1 := rfl
      omega
    rw [Machine.handOff_eq, if_neg hlong']

/-- A measured text that is checked leaves the interpreter whole, and neither its run nor its console is touched. -/
theorem handOff_validate (h : Whole m) (hmeasured : Measured payload) :
    Whole (m.handOff payload Controller.validateUse).2.1 ∧
      (m.handOff payload Controller.validateUse).2.1.inner.progress = m.inner.progress ∧
      (m.handOff payload Controller.validateUse).2.1.bridge = m.bridge := by
  by_cases hroom : Room m payload
  · rw [hroom.handOff_validate h.toBuilt h.heap_ne_zero]
    exact ⟨(h.filled hroom).count (by decide), progress_filled m payload, bridge_filled m payload⟩
  · obtain hsame | hcounted := h.handOff_of_no_room hmeasured hroom Controller.validateUse
    · rw [hsame]
      exact ⟨h, rfl, rfl⟩
    · rw [hcounted]
      exact ⟨h.count (by decide), rfl, rfl⟩

/-- An interpreter stays whole when it takes a payload for which there is room as its source. -/
theorem readied (h : Whole m) (hroom : Room m payload) : Whole (Echo.readied m payload) :=
  (h.filled hroom).with_inner rfl rfl rfl rfl

/-- A measured source leaves the interpreter whole. -/
theorem handOff_initRun (h : Whole m) (hmeasured : Measured payload) :
    Whole (m.handOff payload Controller.initUse).2.1 := by
  by_cases hroom : Room m payload
  · by_cases hopens : payload.head? = some 0x28
    · rw [hroom.handOff_initRun_of_opening h.toBuilt h.heap_ne_zero hopens]
      exact (h.filled hroom).count (by decide)
    · rw [hroom.handOff_initRun h.toBuilt h.heap_ne_zero hopens]
      exact (h.readied hroom).count (by decide)
  · obtain hsame | hcounted := h.handOff_of_no_room hmeasured hroom Controller.initUse
    · rw [hsame]
      exact h
    · rw [hcounted]
      exact h.count (by decide)

end Whole

end Echo

/-! ## Histories -/

/-- The text that an operation hands over, if it does, is measured. -/
def Operation.Measured : Operation → Prop
  | .start text | .validate text => Echo.Measured (Text.encode text)
  | _ => True

namespace Echo

namespace Whole

variable {c : Controller Echo}

/-- A start leaves the interpreter whole. -/
theorem start (h : Whole c.machine) {source : String} (hmeasured : Measured (Text.encode source)) :
    Whole (c.start source).2.machine := by
  have htorn := h.works c.works_teardown.machine
  rcases hteardown : c.teardown with ⟨e | _, c₁⟩
  · rw [hteardown] at htorn
    rw [Controller.start_of_teardown_error source hteardown]
    exact htorn
  · rw [hteardown] at htorn
    have hgiven : Whole (c₁.beginStart.callWithSource (.ofText source) Controller.initUse).2.machine := by
      rw [Controller.machine_callWithSource]
      exact (htorn.with_bridge _).handOff_initRun hmeasured
    have hproceeds := Controller.start_proceeds hteardown source
    generalize (c₁.beginStart.callWithSource (.ofText source) Controller.initUse).1 = handed,
      (c.start source).1 = answer, (c.start source).2.machine = left at hproceeds ⊢
    cases hproceeds with
    | refused _ => exact hgiven
    | kept _ => exact hgiven
    | cleared _ _ => exact hgiven.with_bridge _
    | abandoned _ _ => exact (hgiven.with_bridge _).call trivial

/-- Measured operations leave the interpreter whole. -/
theorem perform (h : Whole c.machine) {op : Operation} (hop : op.Measured) : Whole (c.perform op).machine := by
  cases op with
  | start source => exact h.start hop
  | validate source =>
    have hchecked := (h.handOff_validate hop).1
    rw [← Controller.machine_validate] at hchecked
    exact hchecked
  | onBridge act => exact h.with_bridge _
  | pushInput bytes =>
    unfold Controller.perform Controller.pushInput
    dsimp only
    split
    · exact h.with_bridge _
    · exact h
  | stop => exact h.works c.works_stop.machine
  | isFinished => exact h.works c.works_isFinished.machine
  | checkFinished => exact h.works c.works_checkFinished.machine
  | step budget => exact h.works (c.works_step budget).machine
  | tick loop => exact h.works (loop.works_tick c).machine

/-- So does a history of them. -/
theorem after (h : Whole c.machine) {ops : List Operation} (hops : ∀ op ∈ ops, op.Measured) : Whole (c.after ops).machine := by
  induction ops generalizing c with
  | nil => exact h
  | cons op ops ih =>
    obtain ⟨hop, hops⟩ := List.forall_mem_cons.mp hops
    exact ih (h.perform hop) hops

end Whole

end Echo

end Playground
