import Playground.Proofs.Controller.Lockstep
import Playground.Proofs.Controller.Restart
import Playground.Proofs.Guest.EchoStart
import Playground.Proofs.Scheduler.Steps

/-!
# Programs on an echo interpreter that was used before

A source for which there is room, and which compiles, is running after its start, and `Launched` says how: nothing is pending, the
console is empty, time begins anew, and the interpreter knows about its run what the source says. All that a program may have left
is the heap and what lies on it. On an interpreter that is whole, no other source is started with success
(`Whole.start_success_iff`). Where the heap begins anew at the bottom of memory, a source can be launched over the words that its
steps print (`Vacant.launched`).
-/

namespace Playground

namespace Echo

/-- A program is running on an interpreter that was like the given one before its start. -/
structure Launched (m : Machine Echo) (source : List UInt8) (d : Controller Echo) : Prop where
  memory : d.machine.memory = (count (filled m source) 4).memory
  inner : d.machine.inner = prepared (granted m source).inner source
  pending : d.machine.bridge.input.toList = []
  steady : d.machine.bridge.sink.Steady
  contents : d.machine.bridge.sink.contents = []
  clock : d.machine.bridge.clock = m.bridge.clock
  anchor : d.machine.bridge.anchor = ⟨m.bridge.clock.now⟩
  state : d.state = .running
  runActive : d.runActive = true
  fault : d.fault = none

variable {m : Machine Echo} {source : List UInt8} {d : Controller Echo}

namespace Launched

/-- A start leaves the build as it was. -/
theorem built (h : Launched m source d) (hbuilt : Built m) : Built d.machine := by
  have hfilled := (hbuilt.filled source).count 4
  constructor
  · rw [h.memory, hfilled.size]
  · rw [h.inner]
    exact hfilled.defect
  · rw [h.inner]
    exact hfilled.functions

/-- An interpreter that was whole is so after the start, if there was room for the source. -/
theorem whole (h : Launched m source d) (hwhole : Whole m) (hroom : Room m source) : Whole d.machine := by
  have hfilled : Whole (count (filled m source) 4) := (hwhole.filled hroom).count (by decide)
  constructor
  case toBuilt => exact h.built hwhole.toBuilt
  case names => rw [h.inner]; exact hfilled.names
  case worded => rw [h.memory]; exact hfilled.worded
  case above => rw [h.inner]; exact hfilled.above
  case below => rw [h.inner]; exact hfilled.below

/-- The words stay in place unless the source was copied over them. -/
theorem worded (h : Launched m source d) (hbuilt : Built m) (hworded : Worded m.memory) (hroom : Room m source)
    (hout : m.inner.heap.toNat + source.length ≤ 16 ∨ 44 ≤ m.inner.heap.toNat) : Worded d.machine.memory := by
  rw [h.memory]
  exact (hworded.filled hbuilt hroom hout).setWord (hbuilt.filled source).size (by decide) _

/-- The heap ends after the source. -/
theorem toNat_heap (h : Launched m source d) (hroom : Room m source) :
    d.machine.inner.heap.toNat = m.inner.heap.toNat + max source.length 1 := by
  rw [h.inner]
  exact hroom.toNat_heap

/-- The interpreter is about to make its first step. -/
theorem progress (h : Launched m source d) :
    d.machine.inner.progress = ⟨true, 0, UInt32.ofNat source.length, panicIndex source⟩ := by
  rw [h.inner]
  rfl

end Launched

/-! ## Starts -/

/-- Nothing is running on an interpreter of the usual build with its words in place, and its heap ends at an address that need not
be above them. -/
structure Vacant (c : Controller Echo) (top : UInt32) : Prop where
  built : Built c.machine
  worded : Worded c.machine.memory
  steady : c.machine.bridge.sink.Steady
  heap : c.machine.inner.heap = top
  inactive : c.runActive = false
  clears : c.clearOnStart = true

section Start

variable {c : Controller Echo} {text : String} {top : UInt32}

/-- There is room for a payload that fits between the end of the heap and that of memory. -/
theorem Vacant.room (h : Vacant c top) {payload : List UInt8} (hfits : top.toNat + max payload.length 1 ≤ memorySize) :
    Room c.machine payload := by
  rw [Room, h.heap]
  exact hfits

/-- Where nothing is running, a source for which there is room is launched if it compiles. -/
theorem Vacant.launched (h : Vacant c top) (htop : top ≠ 0) (hroom : Room c.machine (Text.encode text))
    (hopens : (Text.encode text).head? ≠ some 0x28) :
    (c.start text).1 = .ok .success ∧ Launched c.machine (Text.encode text) (c.start text).2 := by
  have hbegun : Built c.beginStart.machine := h.built.with_bridge _
  have hheap : c.machine.inner.heap ≠ 0 := by
    rw [h.heap]
    exact htop
  have hroom' : Room c.beginStart.machine (Text.encode text) := hroom
  have hoff := hroom'.handOff_initRun hbegun hheap hopens
  have hsteady : (count (readied c.beginStart.machine (Text.encode text)) 4).bridge.sink.Steady := h.steady
  obtain ⟨sink, hcleared, hempty, hcontents⟩ := Bridge.exists_cleared hsteady
  obtain ⟨d, hstart, hmachine, hstate, hactive, hfault⟩ := Controller.start_of_accepted h.inactive h.clears hoff hcleared
  rw [hstart]
  refine ⟨rfl, ?_⟩
  dsimp only
  constructor
  case state => exact hstate
  case runActive => exact hactive
  case fault => exact hfault
  all_goals rw [hmachine]
  case steady => exact hempty
  case contents => exact hcontents
  all_goals rfl

/-- On a whole interpreter the old run can be ended, which leaves the console and the heap as they are. -/
theorem Whole.exists_torn (h : Whole c.machine) :
    ∃ c₁, c.teardown = (.ok (), c₁) ∧ Whole c₁.machine ∧ c₁.machine.bridge = c.machine.bridge ∧
      c₁.machine.inner.heap = c.machine.inner.heap := by
  obtain ⟨c₁, htorn⟩ := Controller.exists_teardown (c := c) fun _ => congrArg Prod.fst (call_deinitRun h.toBuilt)
  refine ⟨c₁, htorn, ?_⟩
  obtain ⟨-, rfl⟩ | ⟨m, -, hcall, rfl⟩ := Controller.teardown_ok_cases htorn
  · exact ⟨h, rfl, rfl⟩
  · have hwhole := h.call (e := .deinitRun) trivial
    rw [hcall] at hwhole
    rw [call_deinitRun h.toBuilt] at hcall
    cases hcall
    exact ⟨hwhole, rfl, rfl⟩

/-- On a whole interpreter, a source for which there is room is launched if it compiles, whatever ran before. -/
theorem Whole.launched (h : Whole c.machine) (hclears : c.clearOnStart = true) (hsteady : c.machine.bridge.sink.Steady)
    (hroom : Room c.machine (Text.encode text)) (hopens : (Text.encode text).head? ≠ some 0x28) :
    (c.start text).1 = .ok .success ∧ ∃ m, Whole m ∧ Room m (Text.encode text) ∧ m.bridge = c.machine.bridge ∧
      m.inner.heap = c.machine.inner.heap ∧ Launched m (Text.encode text) (c.start text).2 := by
  obtain ⟨c₁, htorn, hwhole, hbridge, hheap⟩ := h.exists_torn
  have hvacant : Vacant c₁ c₁.machine.inner.heap :=
    { built := hwhole.toBuilt
      worded := hwhole.worded
      steady := hbridge ▸ hsteady
      heap := rfl
      inactive := Controller.runActive_of_teardown htorn
      clears := (Controller.clearOnStart_of_teardown htorn).trans hclears }
  have hroom₁ : Room c₁.machine (Text.encode text) := by
    rw [Room, hheap]
    exact hroom
  rw [Controller.start_of_teardown htorn text]
  obtain ⟨hsuccess, hlaunched⟩ := hvacant.launched hwhole.heap_ne_zero hroom₁ hopens
  exact ⟨hsuccess, c₁.machine, hwhole, hroom₁, hbridge, hheap, hlaunched⟩

/-- On a whole interpreter, a source is started with success exactly if there is room for it and it compiles. -/
theorem Whole.start_success_iff (h : Whole c.machine) (hclears : c.clearOnStart = true)
    (hsteady : c.machine.bridge.sink.Steady) :
    (c.start text).1 = .ok .success ↔ Room c.machine (Text.encode text) ∧ (Text.encode text).head? ≠ some 0x28 := by
  constructor
  · intro hsuccess
    obtain ⟨c₁, htorn, hwhole, -, hheap⟩ := h.exists_torn
    have hbegun : Whole c₁.beginStart.machine := hwhole.with_bridge _
    rw [Controller.start_of_teardown htorn text] at hsuccess
    -- What the hand-off would answer otherwise is not a success.
    have hanswered : ∀ {result m' events},
        c₁.beginStart.machine.handOff (Text.encode text) Controller.initUse = (result, m', events) →
        Controller.answerOf result = .ok .success := by
      intro result m' events hoff
      by_contra hrefused
      obtain ⟨hanswer, -⟩ := Controller.start_of_refused (Controller.runActive_of_teardown htorn) hoff hrefused
      exact hrefused (hanswer.symm.trans hsuccess)
    have hroom : Room c₁.beginStart.machine (Text.encode text) := by
      by_contra hnone
      obtain ⟨e, herror⟩ := exists_handOff_error Controller.initUse hbegun.toBuilt hnone
      have hanswer := hanswered (Prod.ext herror rfl)
      rw [Controller.answerOf] at hanswer
      split at hanswer <;> cases hanswer
    refine ⟨?_, ?_⟩
    · rw [Room, ← hheap]
      exact hroom
    · intro hopens
      cases hanswered (hroom.handOff_initRun_of_opening hbegun.toBuilt hbegun.heap_ne_zero hopens)
  · rintro ⟨hroom, hopens⟩
    exact (h.launched hclears hsteady hroom hopens).1

/-- A controller can be created over the interpreter's own build, whatever its console is like, and the interpreter is whole. -/
theorem exists_created (bridge : Bridge) (clears : Bool) :
    ∃ m c, Image.echo.instantiate {} bridge = .ok m ∧ Controller.create m clears = .ok c ∧ Whole c.machine ∧
      c.machine.bridge = bridge ∧ c.machine.inner.heap = heapStart ∧ c.runActive = false ∧ c.clearOnStart = clears := by
  have hbuilt : Built (machine { functions := usualFunction } bridge) := ⟨size_initialMemory, rfl, rfl⟩
  have hstart : heapStart.toNat ≤ memorySize := by decide
  refine ⟨_, _, instantiate_echo bridge, Controller.create_eq_ok_iff.mpr ⟨_, call_setUp hbuilt, rfl⟩, ?_, rfl, rfl, rfl, rfl⟩
  constructor
  case toBuilt => exact ⟨size_initialMemory, rfl, rfl⟩
  case names => rfl
  case worded => exact worded_initialMemory
  case above => exact Nat.le_refl _
  case below => exact hstart

/-- On a fresh heap, a source just so long that the end of its region wraps around is not handed over, but moves the end of the
heap to below its beginning. -/
theorem Vacant.start_of_wrapping (h : Vacant c heapStart) {low : UInt32}
    (hlen : (Text.encode text).length = UInt32.size - 1024 + low.toNat) (hlow : low.toNat < 1024) :
    Vacant (c.start text).2 low := by
  have hsize : UInt32.size = 4294967296 := rfl
  have hmemory : memorySize = 65536 := rfl
  have hmemory' : (UInt32.ofNat memorySize).toNat = 65536 := rfl
  have hstart : heapStart.toNat = 1024 := rfl
  have hlen' : (Text.encode text).length < UInt32.size := by omega
  have hend : heapStart + Machine.regionSize (Text.encode text) = low := by
    refine UInt32.toNat_inj.mp ?_
    rw [toNat_region_end hlen', hlen, hsize]
    omega
  have hbegun : Built c.beginStart.machine := h.built.with_bridge _
  have hheap : c.beginStart.machine.inner.heap = heapStart := h.heap
  have hroom : ¬Room c.beginStart.machine (Text.encode text) := by
    rw [Room, hheap]
    omega
  have hwrapped : c.beginStart.machine.inner.heap + Machine.regionSize (Text.encode text) ≤ UInt32.ofNat memorySize := by
    rw [hheap, hend, UInt32.le_iff_toNat_le]
    omega
  have hnonzero : c.beginStart.machine.inner.heap ≠ 0 := by
    rw [hheap]
    decide
  obtain ⟨e, hoff⟩ := handOff_of_beyond Controller.initUse hbegun hlen' hnonzero hroom hwrapped
  have hrefused : Controller.answerOf (.error (.guest e)) ≠ .ok .success := by
    intro haccepted
    cases haccepted
  obtain ⟨-, hmachine, hinactive, hclears⟩ := Controller.start_of_refused h.inactive hoff hrefused
  constructor
  case inactive => exact hinactive
  case clears => exact hclears.trans h.clears
  all_goals rw [hmachine]
  case built => exact (hbegun.granted _).count 4
  case worded =>
    have hcounted : Worded (granted c.beginStart.machine (Text.encode text)).memory :=
      h.worded.setWord h.built.size (by decide) _
    exact hcounted.setWord (hbegun.granted _).size (by decide) _
  case steady => exact h.steady
  case heap =>
    rw [← hend, ← hheap]
    rfl

end Start

/-! ## A first step -/

/-- The next step is to be made, and an ordinary one. -/
structure Progress.Ordinary (p : Progress) : Prop where
  active : p.active = true
  unfinished : ¬p.limit ≤ p.steps
  ordinary : p.steps ≠ p.panicAt

/-- A program that is about to make an ordinary step, with nothing pending and an empty console. -/
structure Poised (d : Controller Echo) : Prop where
  built : Built d.machine
  next : d.machine.inner.progress.Ordinary
  pending : d.machine.bridge.input.toList = []
  steady : d.machine.bridge.sink.Steady
  contents : d.machine.bridge.sink.contents = []
  state : d.state = .running
  runActive : d.runActive = true

/-- After a launch the first step is to be made. -/
theorem Launched.poised (h : Launched m source d) (hbuilt : Built m) (hsome : UInt32.ofNat source.length ≠ 0)
    (hordinary : panicIndex source ≠ 0) : Poised d where
  built := h.built hbuilt
  next := by
    rw [h.progress]
    exact ⟨rfl, fun hle => hsome (UInt32.le_zero_iff.mp hle), hordinary.symm⟩
  pending := h.pending
  steady := h.steady
  contents := h.contents
  state := h.state
  runActive := h.runActive

/-- The next tick prints what lies where the interpreter looks for its words. -/
theorem Poised.contents_of_tick (h : Poised d) {s : Scheduler} (hdrives : s.Drives d.standing) :
    (s.tick d).2.2.machine.bridge.visible.contents = words d.machine.memory false := by
  have hactive : d.machine.inner.active = true := h.next.active
  have hunfinished : ¬d.machine.inner.limit ≤ d.machine.inner.steps := h.next.unfinished
  have hordinary : panics d.machine.inner = false := decide_eq_false h.next.ordinary
  have hincomplete : (!d.machine.inner.active || decide (d.machine.inner.limit ≤ d.machine.inner.steps)) = false := by
    simp [hactive, hunfinished]
  have hasked := call_isFinished h.built
  obtain ⟨bridge, hspoken, -, -, hcontents⟩ := spoken_of_quiet h.pending h.steady (words d.machine.memory false)
  have hstep := call_step_eq h.built s.budget
  rw [hordinary, hspoken, stepReply, hordinary] at hstep
  rw [hincomplete] at hasked
  rw [Scheduler.tick_of_progress hdrives h.runActive hasked hstep]
  exact hcontents.trans (by rw [h.contents, List.nil_append])

/-- Loops that are answered alike have the interpreters print the same. -/
theorem Poised.words_eq_of_play {d' : Controller Echo} (h : Poised d) (h' : Poised d') {s s' : Scheduler}
    (hdrives : s.Drives d.standing) (hdrives' : s'.Drives d'.standing)
    (hsame : Host.play ⟨s, d⟩ [.tick] = Host.play ⟨s', d'⟩ [.tick]) :
    words d.machine.memory false = words d'.machine.memory false := by
  have hshown := congrArg (fun shown => shown.head?.map fun seen => seen.2.visible.contents) hsame
  exact (h.contents_of_tick hdrives).symm.trans ((Option.some.inj hshown).trans (h'.contents_of_tick hdrives'))

/-- A check of a text for which there is room leaves the step to be made. -/
theorem Poised.validate (h : Poised d) (hheap : d.machine.inner.heap ≠ 0) {text : String}
    (hroom : Room d.machine (Text.encode text)) :
    Poised (d.validate text).2 ∧ (d.validate text).2.machine = count (filled d.machine (Text.encode text)) 4 := by
  have hmachine : (d.validate text).2.machine = count (filled d.machine (Text.encode text)) 4 := by
    rw [Controller.machine_validate, hroom.handOff_validate h.built hheap]
  have hstanding := d.standing_validate text
  refine ⟨?_, hmachine⟩
  constructor
  case state => exact (congrArg Standing.state hstanding).trans h.state
  case runActive => exact (congrArg Standing.runActive hstanding).trans h.runActive
  case built =>
    rw [hmachine]
    exact (h.built.filled _).count 4
  case next =>
    rw [hmachine, progress_filled]
    exact h.next
  all_goals rw [hmachine, bridge_filled]
  case pending => exact h.pending
  case steady => exact h.steady
  case contents => exact h.contents

/-- A payload of the same length that is copied to where the interpreter looks for the words of a step is what it finds there. -/
theorem words_of_overlap (hbuilt : Built m) (hroom : Room m source) (hheap : m.inner.heap = stepAddress)
    (hlength : source.length = stepText.length) : words (count (filled m source) 4).memory false = source := by
  have hsize : (filled m source).memory.size = 65536 := (hbuilt.filled source).size
  obtain ⟨hlen, hsource, -⟩ := hroom.holds hbuilt
  rw [← hlen, hlength, hheap] at hsource
  exact (Memory.peek_setWord_of_outside (by omega) (by decide) _).trans hsource

end Echo

end Playground
