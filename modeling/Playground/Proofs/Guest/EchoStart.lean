import Playground.Proofs.Controller.Record
import Playground.Proofs.Controller.Start
import Playground.Proofs.Guest.EchoHeap

/-!
# Sources for the echo interpreter

How a source is handed to an echo interpreter that was just set up. One that fits onto the heap gets the beginning of it, is
copied there and used, and its region is released (`handOff_of_fitting`). One that does not fit gets no region
(`handOff_of_no_room`). But the interpreter computes the end of a region in 32 bits, so that a source can be long enough for the
end to come out small again: such a source gets a region, is found not to fit into it by the host, and its region is released
(`handOff_of_wrapped`).
-/

namespace Playground

/-- A payload is copied in beside the record. -/
theorem Machine.withPayload_record {γ : Type} (m : Machine γ) (calls : List Call) (ptr : UInt32) (payload : List UInt8) :
    (m.record calls).withPayload ptr payload = (m.withPayload ptr payload).record calls := rfl

namespace Echo

/-! ## Where an interpreter stands -/

/-- An intact interpreter, what it has counted, and what it has printed. -/
structure Stands (m : Machine Echo) (allocated released : UInt32) (printed : List UInt8) : Prop where
  intact : Intact m
  allocations : allocations m = allocated
  releases : releases m = released
  contents : m.bridge.sink.contents = printed

variable {m : Machine Echo} {allocated released : UInt32} {printed payload : List UInt8}

namespace Stands

/-- Counting an allocation changes that one count. -/
theorem count_allocation (h : Stands m allocated released printed) :
    Stands (count m 0) (allocated + 1) released printed := by
  obtain ⟨hallocations, hreleases⟩ := counts_count_allocation h.intact
  exact ⟨h.intact.count (by decide), hallocations.trans (h.allocations ▸ rfl), hreleases.trans h.releases, h.contents⟩

/-- Counting a release changes that one count. -/
theorem count_release (h : Stands m allocated released printed) :
    Stands (count m 4) allocated (released + 1) printed := by
  obtain ⟨hallocations, hreleases⟩ := counts_count_release h.intact
  exact ⟨h.intact.count (by decide), hallocations.trans h.allocations, hreleases.trans (h.releases ▸ rfl), h.contents⟩

/-- The interpreter's own state may change, but not what its build is. -/
theorem with_inner (h : Stands m allocated released printed) {g : Echo} (hdefect : g.defect = m.inner.defect)
    (hfunctions : g.functions = m.inner.functions) : Stands { m with inner := g } allocated released printed where
  intact := { h.intact with defect := hdefect.trans h.intact.defect, functions := hfunctions.trans h.intact.functions }
  allocations := h.allocations
  releases := h.releases
  contents := h.contents

/-- A payload may be put on the heap. -/
theorem withPayload (h : Stands m allocated released printed) {ptr : UInt32} (hheap : 44 ≤ ptr.toNat)
    (hin : ptr.toNat + payload.length ≤ memorySize) :
    Stands (m.withPayload ptr payload) allocated released printed := by
  obtain ⟨hallocations, hreleases⟩ := counts_poke h.intact hin (Nat.le_trans (by decide) hheap)
  exact ⟨h.intact.poke hin (.inr hheap), hallocations.trans h.allocations, hreleases.trans h.releases, h.contents⟩

/-- The console can be cleared. -/
theorem clearConsole (h : Stands m allocated released printed) :
    ∃ bridge, m.bridge.clearConsole = (.ok (), bridge) ∧ Stands { m with bridge } allocated released [] := by
  obtain ⟨sink, hcleared, hsteady, hcontents⟩ := Bridge.exists_cleared h.intact.sink
  exact ⟨_, hcleared, { h.intact with sink := hsteady }, h.allocations, h.releases, hcontents⟩

end Stands

/-- An interpreter that was just set up. -/
structure Fresh (m : Machine Echo) : Prop where
  stands : Stands m 0 0 []
  heap : m.inner.heap = heapStart

/-! ## Handing a source over -/

/-- The end of the region for a payload, as the interpreter computes it. -/
theorem toNat_region_end (h : payload.length < UInt32.size) :
    (heapStart + Machine.regionSize payload).toNat = (1024 + max payload.length 1) % UInt32.size := by
  rw [UInt32.toNat_add, Machine.toNat_regionSize h]
  rfl

/-- A payload gets a region of an empty heap exactly if it fits, or if it is so long that the computed end of its region comes out
small again. -/
theorem region_end_le_iff (h : payload.length < UInt32.size) :
    heapStart + Machine.regionSize payload ≤ UInt32.ofNat memorySize ↔
      payload.length ≤ 64512 ∨ UInt32.size - 1024 ≤ payload.length := by
  have hsize : UInt32.size = 4294967296 := rfl
  have hmemory : (UInt32.ofNat memorySize).toNat = 65536 := rfl
  rw [UInt32.le_iff_toNat_le, toNat_region_end h, hmemory]
  rw [hsize] at h ⊢
  omega

section HandOff

variable (calls : List Call)

/-- A payload with a length of more than 32 bits is not shown to the guest at all. -/
theorem handOff_of_too_long (h : UInt32.size ≤ payload.length) :
    (m.record calls).handOff payload Controller.initUse = (.error (.payloadTooLarge payload.length), m.record calls, []) := by
  have hlong : ¬payload.length ≤ Memory.maxLength := by
    have hmax : Memory.maxLength = UInt32.size - 1 := rfl
    have hpos : 0 < UInt32.size := by decide
    omega
  rw [Machine.handOff_eq, if_neg hlong]

/-- A payload that gets no region is handed no further. -/
theorem handOff_of_no_room (h : Fresh m) (hlen : payload.length < UInt32.size)
    (hroom : ¬(payload.length ≤ 64512 ∨ UInt32.size - 1024 ≤ payload.length)) :
    (m.record calls).handOff payload Controller.initUse =
      (.error (.outOfMemory (Machine.regionSize payload)),
        (count m 0).record (calls ++ [⟨.allocate (Machine.regionSize payload), .ok 0⟩]), []) := by
  have hover : UInt32.ofNat memorySize < m.inner.heap + Machine.regionSize payload := by
    rw [h.heap]
    exact UInt32.not_le.mp ((region_end_le_iff hlen).not.mpr hroom)
  exact Machine.handOff_of_null hlen (Machine.call_record (call_allocate_of_no_room h.stands.intact.built hover) calls)

/-- A fresh interpreter that grants a region has counted one allocation. -/
theorem Fresh.granted (h : Fresh m) (payload : List UInt8) : Stands (granted m payload) 1 0 [] :=
  h.stands.count_allocation.with_inner rfl rfl

/-- A payload that gets a region gets the beginning of the heap. -/
theorem Fresh.call_allocate (h : Fresh m) (hlen : payload.length < UInt32.size)
    (hroom : payload.length ≤ 64512 ∨ UInt32.size - 1024 ≤ payload.length) :
    Guest.call (.allocate (Machine.regionSize payload)) m = (.ok heapStart, Echo.granted m payload) := by
  have hend : m.inner.heap + Machine.regionSize payload ≤ UInt32.ofNat memorySize := by
    rw [h.heap]
    exact (region_end_le_iff hlen).mpr hroom
  rw [call_allocate_of_room h.stands.intact.built hend, h.heap, Echo.granted, h.heap]

/-- There is room for a payload that fits onto the heap. -/
theorem Fresh.room (h : Fresh m) (hfits : payload.length ≤ 64512) : Room m payload := by
  have hstart : heapStart.toNat = 1024 := rfl
  have hmemory : memorySize = 65536 := rfl
  rw [Room, h.heap]
  omega

/-- A payload whose region ends beyond 32 bits is not copied, and its region is released. -/
theorem handOff_of_wrapped (h : Fresh m) (hlen : payload.length < UInt32.size)
    (hwrapped : UInt32.size - 1024 ≤ payload.length) :
    (m.record calls).handOff payload Controller.initUse =
      (.error (.guest (.bounds ⟨1024, UInt32.ofNat payload.length, 65536⟩)),
        (count (Echo.granted m payload) 4).record (calls ++ [⟨.allocate (Machine.regionSize payload), .ok 1024⟩,
          ⟨.release 1024 (Machine.regionSize payload), .ok ()⟩]), []) := by
  have hstands : Stands (Echo.granted m payload) 1 0 [] := h.granted payload
  have hgranted := Machine.call_record (h.call_allocate hlen (.inr hwrapped)) calls
  have hsize : (Echo.granted m payload).memory.size = 65536 := hstands.intact.size
  have hmin : min payload.length Memory.maxLength = payload.length := Nat.min_eq_left (Machine.length_le_maxLength hlen)
  have hout : ¬(Echo.granted m payload).memory.InBounds heapStart payload.length := by
    have hstart : heapStart.toNat = 1024 := rfl
    have hbig : UInt32.size = 4294967296 := rfl
    rw [Memory.InBounds, hsize]
    omega
  have hbounds : (Echo.granted m payload).memory.outOfBounds heapStart payload.length =
      ⟨1024, UInt32.ofNat payload.length, 65536⟩ := by
    rw [Memory.outOfBounds, hmin, hsize]
    rfl
  have hplace : ∀ before, ((Echo.granted m payload).record before).place heapStart payload Controller.initUse =
      (.error (.bounds ⟨1024, UInt32.ofNat payload.length, 65536⟩), (Echo.granted m payload).record before) := by
    intro before
    rw [← hbounds]
    exact Machine.place_of_outOfBounds hlen hout
  have hreleased := Machine.call_record (call_release hstands.intact.built heapStart (Machine.regionSize payload))
    (calls ++ [⟨.allocate (Machine.regionSize payload), .ok heapStart⟩])
  rw [Machine.handOff_of_region hlen hgranted (by decide) (hplace _) hreleased, List.append_assoc]
  rfl

/-- A payload that fits is copied, used and released. -/
theorem handOff_of_fitting (h : Fresh m) (hfits : payload.length ≤ 64512) {status : Int32} {used : Machine Echo}
    (hused : Guest.call (.initRun heapStart (UInt32.ofNat payload.length))
      ((Echo.granted m payload).withPayload heapStart payload) = (.ok status, used)) (hintact : Intact used) :
    ∃ calls', (m.record calls).handOff payload Controller.initUse = (.ok status, (count used 4).record calls', []) := by
  have hlen : payload.length < UInt32.size := Nat.lt_of_le_of_lt hfits (by decide)
  have hgranted := Machine.call_record (h.call_allocate hlen (.inl hfits)) calls
  have hplace : ∀ before, ((Echo.granted m payload).record before).place heapStart payload Controller.initUse =
      (.ok status, used.record (before ++ [⟨.initRun heapStart (UInt32.ofNat payload.length), .ok status⟩])) := by
    intro before
    have hin := (h.room hfits).inBounds h.stands.intact.built
    rw [h.heap] at hin
    have hin' : ((Echo.granted m payload).record before).memory.InBounds heapStart payload.length := hin
    rw [Machine.place_of_inBounds hlen hin', Machine.withPayload_record]
    exact Machine.call_record hused before
  have hreleased := Machine.call_record (call_release hintact.built heapStart (Machine.regionSize payload))
    (calls ++ [⟨.allocate (Machine.regionSize payload), .ok heapStart⟩] ++
      [⟨.initRun heapStart (UInt32.ofNat payload.length), .ok status⟩])
  exact ⟨_, Machine.handOff_of_region hlen hgranted (by decide) (hplace _) hreleased⟩

end HandOff

/-- Once a payload that fits is copied in, the interpreter stands as before, and finds it where it is told to look. -/
theorem Fresh.holds (h : Fresh m) (hfits : payload.length ≤ 64512) :
    Stands ((Echo.granted m payload).withPayload heapStart payload) 1 0 [] ∧
      payload.length = (UInt32.ofNat payload.length).toNat ∧
      ((Echo.granted m payload).withPayload heapStart payload).memory.peek heapStart.toNat
        (UInt32.ofNat payload.length).toNat = payload ∧
      ((Echo.granted m payload).withPayload heapStart payload).memory.InBounds heapStart
        (UInt32.ofNat payload.length).toNat := by
  have hstart : heapStart.toNat = 1024 := rfl
  have hmemory : memorySize = 65536 := rfl
  have hholds := (h.room hfits).holds h.stands.intact.built
  rw [Echo.filled, h.heap] at hholds
  exact ⟨(h.granted payload).withPayload (by omega) (by omega), hholds⟩

/-! ## A fresh controller -/

/-- A controller over an interpreter that was just set up. -/
structure Ready (c : Controller (Recorded Echo)) (m : Machine Echo) (calls : List Call) : Prop where
  machine : c.machine = m.record calls
  fresh : Fresh m
  inactive : c.runActive = false
  clears : c.clearOnStart = true

/-- The interpreter's own build is found under the usual names. -/
theorem instantiate_echo (bridge : Bridge) :
    Image.echo.instantiate {} bridge = .ok (machine { functions := usualFunction } bridge) := by
  have hlinkable : Image.echo.linkable {} = true := by decide
  have hmemory : Image.echo.findMemory ({} : ModuleConfig).exports = .ok () := rfl
  have hresolve : Image.echo.resolve ({} : ModuleConfig).exports =
      .ok (Role.all.map fun role => (role, usualFunction role)) := rfl
  have hfunctions :
      (fun role => ((Role.all.map fun role => (role, usualFunction role)).lookup role).getD (usualFunction role)) =
        usualFunction := by
    funext role
    cases role <;> rfl
  unfold Image.instantiate
  rw [hlinkable, hmemory, hresolve]
  exact congrArg (fun functions => Except.ok (machine { functions } bridge)) hfunctions

/-- A controller can be created over the interpreter's own build and a console that takes everything. -/
theorem exists_ready {bridge : Bridge} (hinput : bridge.input.toList = []) (hsink : bridge.sink.Steady)
    (hcontents : bridge.sink.contents = []) :
    ∃ c m, Controller.create (machine { functions := usualFunction } bridge).record = .ok c ∧
      Ready c m [⟨.setUp, .ok ()⟩] := by
  have hintact : Intact (machine { functions := usualFunction } bridge) := .initial hinput hsink
  have hcall := Machine.call_record (call_setUp hintact.built) []
  have hstands : Stands (machine { functions := usualFunction } bridge) 0 0 [] :=
    ⟨hintact, word_initialMemory (by decide), word_initialMemory (by decide), hcontents⟩
  exact ⟨_, _, Controller.create_eq_ok_iff.mpr ⟨_, hcall, rfl⟩, rfl, ⟨hstands.with_inner rfl rfl, rfl⟩, rfl, rfl⟩

section Start

variable {c : Controller (Recorded Echo)} {calls : List Call} {source : String}

/-- A start begins with an interpreter as good as new. -/
theorem Ready.beginStart (h : Ready c m calls) : ∃ m', c.beginStart.machine = m'.record calls ∧ Fresh m' := by
  refine ⟨{ m with bridge := m.bridge.clearInput.resetAnchor }, ?_, ?_, h.fresh.heap⟩
  · rw [Controller.beginStart, h.machine]
    rfl
  · obtain ⟨hintact, hallocations, hreleases, hcontents⟩ := h.fresh.stands
    exact ⟨{ hintact with input := rfl }, hallocations, hreleases, hcontents⟩

/-- A source that gets no region is refused, and the guest sees no more of it than its length. -/
theorem start_of_no_room (h : Ready c m calls) (hbig : 64512 < (Text.encode source).length)
    (hroom : (Text.encode source).length < UInt32.size - 1024 ∨ UInt32.size ≤ (Text.encode source).length) :
    (c.start source).1 = .ok .outOfMemory ∧
      ∃ new, (c.start source).2.calls = calls ++ new ∧ ∀ call ∈ new, call.function.role = .allocate := by
  obtain ⟨m', hmachine, hfresh⟩ := h.beginStart
  -- The guest has no room for the source, or its length does not fit into 32 bits and the guest is not asked.
  by_cases hlen : (Text.encode source).length < UInt32.size
  · have hoff := handOff_of_no_room calls hfresh hlen (by omega)
    rw [← hmachine] at hoff
    obtain ⟨hanswer, hleft, -⟩ := Controller.start_of_refused h.inactive hoff nofun
    refine ⟨hanswer, _, congrArg Machine.calls hleft, fun call hcall => ?_⟩
    rw [List.mem_singleton.mp hcall]
    rfl
  · have hoff := handOff_of_too_long (m := m') calls (Nat.not_lt.mp hlen)
    rw [← hmachine] at hoff
    obtain ⟨hanswer, hleft, -⟩ := Controller.start_of_refused h.inactive hoff nofun
    refine ⟨hanswer, [], ?_, fun _ hcall => absurd hcall List.not_mem_nil⟩
    rw [List.append_nil]
    exact (congrArg Machine.calls hleft).trans (congrArg Machine.calls hmachine)

/-- A source whose region ends beyond 32 bits does not fit into the region that it gets. -/
theorem start_of_wrapped (h : Ready c m calls) (hlen : (Text.encode source).length < UInt32.size)
    (hwrapped : UInt32.size - 1024 ≤ (Text.encode source).length) :
    (c.start source).1 =
        .error (.marshal (.guest (.bounds ⟨1024, UInt32.ofNat (Text.encode source).length, 65536⟩))) ∧
      (c.start source).2.calls =
        calls ++ [⟨.allocate (Machine.regionSize (Text.encode source)), .ok 1024⟩,
          ⟨.release 1024 (Machine.regionSize (Text.encode source)), .ok ()⟩] := by
  obtain ⟨m', hmachine, hfresh⟩ := h.beginStart
  have hoff := handOff_of_wrapped calls hfresh hlen hwrapped
  rw [← hmachine] at hoff
  obtain ⟨hanswer, hleft, -⟩ := Controller.start_of_refused h.inactive hoff nofun
  exact ⟨hanswer, congrArg Machine.calls hleft⟩

/-- A source that does not compile is refused. -/
theorem start_of_opening (h : Ready c m calls) (hfits : (Text.encode source).length ≤ 64512)
    (hopens : (Text.encode source).head? = some 0x28) :
    (c.start source).1 = .ok .syntaxError ∧ Stands (c.start source).2.machine.erase 1 1 [] := by
  obtain ⟨m', hmachine, hfresh⟩ := h.beginStart
  obtain ⟨hstands, hlen, hsource, hin⟩ := hfresh.holds hfits
  obtain ⟨calls', hoff⟩ := handOff_of_fitting calls hfresh hfits
    (call_initRun_of_refused hstands.intact.built hsource hlen hin hopens) hstands.intact
  rw [← hmachine] at hoff
  obtain ⟨hanswer, hleft, -⟩ := Controller.start_of_refused h.inactive hoff nofun
  refine ⟨hanswer, ?_⟩
  rw [hleft]
  exact hstands.count_release

/-- A source that compiles is running, prepared, on an empty console. -/
theorem start_of_prepared (h : Ready c m calls) (hfits : (Text.encode source).length ≤ 64512)
    (hopens : (Text.encode source).head? ≠ some 0x28) :
    ∃ d g, c.start source = (.ok .success, d) ∧ d.state = .running ∧ d.runActive = true ∧
      Stands d.machine.erase 1 1 [] ∧ d.machine.erase.inner = prepared g (Text.encode source) := by
  obtain ⟨m', hmachine, hfresh⟩ := h.beginStart
  obtain ⟨hstands, hlen, hsource, hin⟩ := hfresh.holds hfits
  have hprepared := hstands.with_inner
    (g := prepared (Echo.granted m' (Text.encode source)).inner (Text.encode source)) rfl rfl
  obtain ⟨calls', hoff⟩ := handOff_of_fitting calls hfresh hfits
    (call_initRun_of_accepted hstands.intact.built hsource hlen hin hopens) hprepared.intact
  rw [← hmachine] at hoff
  have hreleased := hprepared.count_release
  obtain ⟨bridge, hcleared, hbridge⟩ := hreleased.clearConsole
  obtain ⟨d, hstart, hleft, hstate, hactive, -⟩ := Controller.start_of_accepted h.inactive h.clears hoff hcleared
  refine ⟨d, (Echo.granted m' (Text.encode source)).inner, hstart, hstate, hactive, ?_, ?_⟩
  · rw [hleft]
    exact hbridge
  · rw [hleft]
    rfl

end Start

end Echo

end Playground
