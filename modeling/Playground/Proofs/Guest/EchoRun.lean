import Playground.Proofs.Guest.EchoStart
import Playground.Proofs.Scheduler.Steps

/-!
# Programs of the echo interpreter

What comes of a program, from its source to the last line on the console. The interpreter makes one step for each byte of a
source until it is through or comes to an exclamation mark; `Running` is what holds between two ticks, and ties the
interpreter's counter to what was printed. `course` reads off a source how its loop ends, and `source_decides_run` says that it
is so for every source that compiles, and what becomes of the others.
-/

namespace Playground

/-! ## A source and its course -/

namespace Echo

/-- How a program's loop ends: its exit, its ticks and steps, and what the program printed. -/
structure Course where
  exit : LoopExit
  ticks : Nat
  steps : Nat
  printed : List UInt8
  deriving DecidableEq, Repr

/-- The words of so many ordinary steps. -/
def stepTexts (n : Nat) : List UInt8 := (List.replicate n stepText).flatten

/-- One more step prints its words behind the others. -/
theorem stepTexts_succ (n : Nat) : stepTexts (n + 1) = stepTexts n ++ stepText := by
  simp [stepTexts, List.replicate_succ']

/-- The course of the program with a source: it panics at the first exclamation mark, and else completes. -/
def course (source : List UInt8) : Course :=
  match source.findIdx? (· == 0x21) with
  | some k => ⟨.faulted .runtimeFault, k + 1, k + 1, stepTexts k ++ panicText⟩
  | none => ⟨.finished, source.length + 1, source.length, stepTexts source.length⟩

/-! ## Between two ticks -/

/-- A program that has made `i` ordinary steps. -/
structure Running (source : List UInt8) (i : Nat) (m : Machine Echo) : Prop where
  stands : Stands m 1 1 (stepTexts i)
  active : m.inner.active = true
  steps : m.inner.steps = UInt32.ofNat i
  limit : m.inner.limit = UInt32.ofNat source.length
  panicAt : m.inner.panicAt = panicIndex source

variable {source : List UInt8} {m : Machine Echo} {i : Nat}

/-- Lengths and indices of a source that fits into memory are told apart as words. -/
theorem toNat_ofNat_of_fits (hfits : source.length ≤ 64512) (hi : i ≤ source.length) : (UInt32.ofNat i).toNat = i := by
  have hsize : UInt32.size = 4294967296 := rfl
  exact UInt32.toNat_ofNat_of_lt' (by omega)

/-- The interpreter comes to a panic at the first exclamation mark and nowhere else. -/
theorem eq_panicIndex_iff (hfits : source.length ≤ 64512) (hi : i < source.length) :
    UInt32.ofNat i = panicIndex source ↔ source.findIdx? (· == 0x21) = some i := by
  have hindex : (UInt32.ofNat i).toNat = i := toNat_ofNat_of_fits hfits (Nat.le_of_lt hi)
  unfold panicIndex
  cases hfirst : source.findIdx? (· == 0x21) with
  | none =>
    simp only [Option.map_none, Option.getD_none, reduceCtorEq, iff_false]
    intro heq
    have hnone : (0xFFFFFFFF : UInt32).toNat = 4294967295 := rfl
    rw [← heq] at hnone
    omega
  | some k =>
    obtain ⟨hk, -⟩ := List.findIdx?_eq_some_iff_getElem.mp hfirst
    have hpanic : (UInt32.ofNat k).toNat = k := toNat_ofNat_of_fits hfits (Nat.le_of_lt hk)
    simp only [Option.map_some, Option.getD_some, Option.some.injEq]
    constructor
    · intro heq
      rw [← hindex, ← hpanic, heq]
    · rintro rfl
      rfl

/-- A run begins with no step made. -/
theorem running_of_prepared (hstands : Stands m 1 1 []) {g : Echo} (hprepared : m.inner = prepared g source) :
    Running source 0 m := by
  constructor
  case stands => exact hstands
  all_goals
    rw [hprepared]
    rfl

namespace Running

/-- The program is complete exactly if it has made a step for each byte of its source. -/
theorem asked (h : Running source i m) (hfits : source.length ≤ 64512) (hi : i ≤ source.length) :
    Guest.call .isFinished m = (.ok (decide (i = source.length)), m) := by
  have hlimit : (UInt32.ofNat source.length).toNat = source.length := toNat_ofNat_of_fits hfits (Nat.le_refl _)
  have hsteps : (UInt32.ofNat i).toNat = i := toNat_ofNat_of_fits hfits hi
  have hcomplete : decide (UInt32.ofNat source.length ≤ UInt32.ofNat i) = decide (i = source.length) := by
    rw [decide_eq_decide, UInt32.le_iff_toNat_le, hlimit, hsteps]
    omega
  rw [call_isFinished h.stands.intact.built, h.active, h.limit, h.steps, Bool.not_true, Bool.false_or, hcomplete]

/-- An ordinary step prints its words. -/
theorem step (h : Running source i m) (hfits : source.length ≤ 64512) (hi : i < source.length)
    (hordinary : source.findIdx? (· == 0x21) ≠ some i) (budget : UInt32) :
    ∃ m', Guest.call (.step budget) m = (.ok 0, m') ∧ Running source (i + 1) m' := by
  have hnot : ¬m.inner.steps = m.inner.panicAt := by
    rw [h.steps, h.panicAt, eq_panicIndex_iff hfits hi]
    exact hordinary
  obtain ⟨m', hcall, hintact, hinner, hcontents, hallocations, hreleases⟩ := call_step h.stands.intact budget
  rw [if_neg hnot] at hcall hcontents
  refine ⟨m', hcall, ⟨hintact, ?_, ?_, ?_⟩, ?_, ?_, ?_, ?_⟩
  · exact hallocations.trans h.stands.allocations
  · exact hreleases.trans h.stands.releases
  · rw [hcontents, h.stands.contents, stepTexts_succ]
  · rw [hinner]
    exact h.active
  · rw [hinner, UInt32.ofNat_add, ← h.steps]
    rfl
  · rw [hinner]
    exact h.limit
  · rw [hinner]
    exact h.panicAt

/-- The step with the index of the first exclamation mark panics. -/
theorem panic (h : Running source i m) (hfits : source.length ≤ 64512) (hfirst : source.findIdx? (· == 0x21) = some i)
    (budget : UInt32) :
    ∃ m', Guest.call (.step budget) m = (.ok 4, m') ∧ Stands m' 1 1 (stepTexts i ++ panicText) := by
  obtain ⟨hi, -⟩ := List.findIdx?_eq_some_iff_getElem.mp hfirst
  have hpanics : m.inner.steps = m.inner.panicAt := by
    rw [h.steps, h.panicAt, eq_panicIndex_iff hfits hi]
    exact hfirst
  obtain ⟨m', hcall, hintact, -, hcontents, hallocations, hreleases⟩ := call_step h.stands.intact budget
  rw [if_pos hpanics] at hcall hcontents
  refine ⟨m', hcall, hintact, ?_, ?_, ?_⟩
  · exact hallocations.trans h.stands.allocations
  · exact hreleases.trans h.stands.releases
  · rw [hcontents, h.stands.contents]

/-- Time may pass. -/
theorem with_clock (h : Running source i m) (clock : Clock) :
    Running source i { m with bridge := { m.bridge with clock } } :=
  { h with stands := { h.stands with intact := { h.stands.intact with } } }

end Running

/-! ## A run -/

/-- Lets time pass, and does nothing else. -/
def waiting {γ σ : Type} (tell : Controller γ → σ → Clock × σ) (c : Controller γ) (w : σ) : Controller γ × σ :=
  let (clock, w) := tell c w
  ({ c with machine := { c.machine with bridge := { c.machine.bridge with clock } } }, w)

/-- A loop has gone a course, and left the interpreter with one region that was allocated and released. -/
structure Went {σ : Type} (course : Course)
    (left : Option (Except HostError LoopExit) × Scheduler × Controller (Recorded Echo) × σ) : Prop where
  exit : left.1 = some (.ok course.exit)
  ticks : left.2.1.ticks = course.ticks
  steps : left.2.1.steps = course.steps
  stands : Stands left.2.2.1.machine.erase 1 1 course.printed

/-- A loop whose program has made `i` ordinary steps, one in each tick. -/
structure Looping (source : List UInt8) (i : Nat) (s : Scheduler) (d : Controller (Recorded Echo)) : Prop where
  drives : s.Drives d.standing
  active : d.runActive = true
  running : Running source i d.machine.erase
  ticks : s.ticks = i
  steps : s.steps = i

namespace Looping

variable {σ : Type} {s : Scheduler} {d : Controller (Recorded Echo)} {k : Nat}

/-- A loop is ticked again for each ordinary step. -/
theorem ordinary (h : Looping source 0 s d) (hfits : source.length ≤ 64512) (hk : k ≤ source.length)
    (hordinary : ∀ i, i < k → source.findIdx? (· == 0x21) ≠ some i)
    (tell : Controller (Recorded Echo) → σ → Clock × σ) (w : σ) :
    ∃ (s' : Scheduler) (d' : Controller (Recorded Echo)) (w' : σ), Looping source k s' d' ∧
      ∀ fuel, s.run (waiting tell) (k + fuel) d w = s'.run (waiting tell) fuel d' w' := by
  -- The loop's guest has a record, and what holds between two ticks is about the guest alone.
  have hasked : ∀ i (r : Machine (Recorded Echo)), i < k → Running source i r.erase →
      ∃ r', Guest.call .isFinished r = (.ok false, r') ∧ Running source i r'.erase := by
    intro i r hi hrunning
    have hcall := hrunning.asked hfits (by omega)
    have hincomplete : decide (i = source.length) = false := decide_eq_false (by omega)
    rw [hincomplete] at hcall
    obtain ⟨r', hrecorded, herase⟩ := Machine.exists_call hcall
    exact ⟨r', hrecorded, herase ▸ hrunning⟩
  have hstep : ∀ i (r : Machine (Recorded Echo)), i < k → Running source i r.erase →
      ∃ r', Guest.call (.step s.budget) r = (.ok 0, r') ∧ Running source (i + 1) r'.erase := by
    intro i r hi hrunning
    obtain ⟨m', hcall, hnext⟩ := hrunning.step hfits (by omega) (hordinary i hi) s.budget
    obtain ⟨r', hrecorded, rfl⟩ := Machine.exists_call hcall
    exact ⟨r', hrecorded, hnext⟩
  have hbetween : ∀ i (c : Controller (Recorded Echo)) (w : σ), Running source i c.machine.erase →
      Running source i (waiting tell c w).1.machine.erase ∧ (waiting tell c w).1.standing = c.standing := by
    intro i c w hrunning
    exact ⟨hrunning.with_clock (tell c w).1, rfl⟩
  obtain ⟨s', d', w', hdrives, hactive, hrunning, -, hticks, hsteps, hrun⟩ :=
    Scheduler.run_of_steps (fun i r => Running source i r.erase) k hasked hstep hbetween h.drives h.active h.running w
  rw [h.ticks, Nat.zero_add] at hticks
  rw [h.steps, Nat.zero_add] at hsteps
  exact ⟨s', d', w', ⟨hdrives, hactive, hrunning, hticks, hsteps⟩, hrun⟩

/-- A loop that has come to the first exclamation mark ends with the panic. -/
theorem panics (h : Looping source k s d) (hfits : source.length ≤ 64512)
    (hfirst : source.findIdx? (· == 0x21) = some k) (tell : Controller (Recorded Echo) → σ → Clock × σ) (w : σ)
    (fuel : Nat) :
    Went ⟨.faulted .runtimeFault, k + 1, k + 1, stepTexts k ++ panicText⟩ (s.run (waiting tell) (fuel + 1) d w) := by
  obtain ⟨hk, -⟩ := List.findIdx?_eq_some_iff_getElem.mp hfirst
  have hasked := h.running.asked hfits (Nat.le_of_lt hk)
  rw [decide_eq_false (Nat.ne_of_lt hk)] at hasked
  obtain ⟨r, hincomplete, hr⟩ := Machine.exists_call hasked
  have hrunning : Running source k r.erase := hr ▸ h.running
  obtain ⟨m', hpanic, hprinted⟩ := hrunning.panic hfits hfirst s.budget
  obtain ⟨r', hstep, rfl⟩ := Machine.exists_call hpanic
  have hfault : (4 : Int32) ≠ 0 := by decide
  obtain ⟨hexit, hloop, hleft⟩ := Scheduler.tick_of_status h.drives h.active hincomplete hfault hstep
  rw [Scheduler.run_of_exit hexit]
  constructor
  case exit => rfl
  case ticks => simp only [hloop, Scheduler.ended, Scheduler.stepped, Scheduler.counted, h.ticks]
  case steps => simp only [hloop, Scheduler.ended, Scheduler.stepped, Scheduler.counted, h.steps]
  case stands =>
    rw [hleft]
    exact hprinted

/-- A loop that has come to the end of its source ends as finished. -/
theorem completes (h : Looping source source.length s d) (hfits : source.length ≤ 64512)
    (tell : Controller (Recorded Echo) → σ → Clock × σ) (w : σ) (fuel : Nat) :
    Went ⟨.finished, source.length + 1, source.length, stepTexts source.length⟩
      (s.run (waiting tell) (fuel + 1) d w) := by
  have hasked := h.running.asked hfits (Nat.le_refl _)
  rw [decide_eq_true rfl] at hasked
  obtain ⟨r, hcomplete, hr⟩ := Machine.exists_call hasked
  obtain ⟨hexit, hloop, hleft⟩ := Scheduler.tick_of_done h.drives h.active hcomplete
  rw [Scheduler.run_of_exit hexit]
  constructor
  case exit => rfl
  case ticks => simp only [hloop, Scheduler.ended, Scheduler.counted, h.ticks]
  case steps => simp only [hloop, Scheduler.ended, Scheduler.counted, h.steps]
  case stands =>
    rw [hleft, hr]
    exact h.running.stands

/-- A loop that was just armed goes the course of its source, as long as it is ticked often enough. -/
theorem went_course (h : Looping source 0 s d) (hfits : source.length ≤ 64512)
    (tell : Controller (Recorded Echo) → σ → Clock × σ) (w : σ) {fuel : Nat} (hfuel : (course source).ticks ≤ fuel) :
    Went (course source) (s.run (waiting tell) fuel d w) := by
  cases hfirst : source.findIdx? (· == 0x21) with
  | some k =>
    obtain ⟨hk, -⟩ := List.findIdx?_eq_some_iff_getElem.mp hfirst
    have hordinary : ∀ i, i < k → source.findIdx? (· == 0x21) ≠ some i := by
      intro i hi hsome
      rw [hfirst, Option.some.injEq] at hsome
      omega
    simp only [course, hfirst] at hfuel ⊢
    obtain ⟨extra, rfl⟩ := Nat.exists_eq_add_of_le hfuel
    obtain ⟨s', d', w', h', hrun⟩ := h.ordinary hfits (Nat.le_of_lt hk) hordinary tell w
    rw [Nat.add_assoc, hrun, Nat.add_comm 1]
    exact h'.panics hfits hfirst tell w' extra
  | none =>
    have hordinary : ∀ i, i < source.length → source.findIdx? (· == 0x21) ≠ some i := by
      intro i _ hsome
      rw [hfirst] at hsome
      cases hsome
    simp only [course, hfirst] at hfuel ⊢
    obtain ⟨extra, rfl⟩ := Nat.exists_eq_add_of_le hfuel
    obtain ⟨s', d', w', h', hrun⟩ := h.ordinary hfits (Nat.le_refl _) hordinary tell w
    rw [Nat.add_assoc, hrun, Nat.add_comm 1]
    exact h'.completes hfits tell w' extra

end Looping

/-! ## From a source to its course -/

/-- The program with a source, on a fresh controller over the interpreter's own build, with nothing typed and a console that
takes everything. A source that does not fit onto the heap is answered with a lack of memory, and the guest is shown no more
than its length, unless the end of its region comes out small again in 32 bits: then the host finds that it does not fit into
its region, and the start fails. A source that fits and begins with an opening parenthesis does not compile. Any other goes its
course, whatever the budget of the loop and however much time passes between two ticks. -/
theorem source_decides_run (clock : Clock) :
    ∃ m c, Image.echo.instantiate {} (Bridge.create {} clock) = .ok m ∧ Controller.create m.record = .ok c ∧
      ∀ source : String,
        let bytes := Text.encode source
        let n := bytes.length
        let answer := (c.start source).1
        let d := (c.start source).2
        (64512 < n →
          ((answer = .ok .outOfMemory ∧
              ∃ new, d.calls = c.calls ++ new ∧ ∀ call ∈ new, call.function.role = .allocate) ↔
            n < UInt32.size - 1024 ∨ UInt32.size ≤ n)) ∧
        (UInt32.size - 1024 ≤ n → n < UInt32.size →
          answer = .error (.marshal (.guest (.bounds ⟨1024, UInt32.ofNat n, 65536⟩))) ∧
            d.calls = c.calls ++
              [⟨.allocate (Machine.regionFor n), .ok 1024⟩, ⟨.release 1024 (Machine.regionFor n), .ok ()⟩]) ∧
        (n ≤ 64512 → bytes.head? = some 0x28 → answer = .ok .syntaxError ∧ Stands d.machine.erase 1 1 []) ∧
        (n ≤ 64512 → bytes.head? ≠ some 0x28 → answer = .ok .success ∧
          ∀ {σ : Type} (s : Scheduler) (tell : Controller (Recorded Echo) → σ → Clock × σ) (w : σ) (fuel : Nat),
            (course bytes).ticks ≤ fuel → Went (course bytes) ((s.arm d).run (waiting tell) fuel d w)) := by
  have hinput : (Bridge.create {} clock).input.toList = [] := rfl
  have hsink : (Bridge.create {} clock).sink.Steady := Sink.steady_default
  obtain ⟨c, m, hcreate, hready⟩ := exists_ready hinput hsink rfl
  have hcalls : c.calls = [⟨.setUp, .ok ()⟩] := congrArg Machine.calls hready.machine
  refine ⟨_, c, instantiate_echo _, hcreate, ?_⟩
  intro source bytes n answer d
  rw [hcalls]
  refine ⟨?_, ?_, ?_, ?_⟩
  · intro hbig
    constructor
    · rintro ⟨hanswer, -⟩
      by_contra hroom
      have hlen : n < UInt32.size := by omega
      have hwrapped : UInt32.size - 1024 ≤ n := by omega
      obtain ⟨herror, -⟩ := start_of_wrapped hready hlen hwrapped
      cases herror.symm.trans hanswer
    · intro hroom
      exact start_of_no_room hready hbig hroom
  · intro hwrapped hlen
    exact start_of_wrapped hready hlen hwrapped
  · intro hfits hopens
    exact start_of_opening hready hfits hopens
  · intro hfits hopens
    obtain ⟨d', g, hstart, hstate, hactive, hstands, hprepared⟩ := start_of_prepared hready hfits hopens
    have hanswer : answer = .ok .success := congrArg Prod.fst hstart
    have hleft : d = d' := congrArg Prod.snd hstart
    refine ⟨hanswer, ?_⟩
    intro σ s tell w fuel hfuel
    have hdrives : (s.arm d').Drives d'.standing := ⟨rfl, rfl, hstate⟩
    have hlooping : Looping bytes 0 (s.arm d') d' :=
      ⟨hdrives, hactive, running_of_prepared hstands hprepared, rfl, rfl⟩
    rw [hleft]
    exact hlooping.went_course hfits tell w hfuel

/-- A program that panics in its second step. -/
theorem source_decides_run_panicking :
    (Text.encode "x!").length ≤ 64512 ∧ (Text.encode "x!").head? ≠ some 0x28 ∧
      ∃ m c, Image.echo.instantiate {} (Bridge.create {} {}) = .ok m ∧ Controller.create m.record = .ok c ∧
        (c.start "x!").1 = .ok .success ∧
        ∀ fuel, 2 ≤ fuel →
          Went ⟨.faulted .runtimeFault, 2, 2, Text.encode "step\npanic: Boom\n"⟩
            ((({} : Scheduler).arm (c.start "x!").2).run (waiting fun _ w => ({}, w)) fuel (c.start "x!").2 ()) := by
  have hfits : (Text.encode "x!").length ≤ 64512 := by decide
  have hopens : (Text.encode "x!").head? ≠ some 0x28 := by decide
  have hcourse : course (Text.encode "x!") = ⟨.faulted .runtimeFault, 2, 2, Text.encode "step\npanic: Boom\n"⟩ := by decide
  obtain ⟨m, c, hloaded, hcreate, hruns⟩ := source_decides_run {}
  obtain ⟨-, -, -, hcompiled⟩ := hruns "x!"
  obtain ⟨hanswer, hwent⟩ := hcompiled hfits hopens
  refine ⟨hfits, hopens, m, c, hloaded, hcreate, hanswer, ?_⟩
  intro fuel hfuel
  rw [← hcourse]
  exact hwent {} _ () fuel (by rw [hcourse]; exact hfuel)

/-- A text of so many ordinary letters has as many bytes. -/
theorem length_encode_replicate (n : Nat) : (Text.encode (String.ofList (List.replicate n 'x'))).length = n := by
  have hletter : 'x'.utf8Size = 1 := by decide
  simp [Text.encode, List.length_flatMap, hletter]

/-- A source of four gibibytes less one kibibyte does not fit onto the heap, and still the start does not answer that memory is
lacking: the guest grants a region, and it is released. -/
theorem region_granted_beyond_memory :
    ∃ m c, Image.echo.instantiate {} (Bridge.create {} {}) = .ok m ∧ Controller.create m.record = .ok c ∧
      64512 < (Text.encode (String.ofList (List.replicate 4294966272 'x'))).length ∧
      (c.start (String.ofList (List.replicate 4294966272 'x'))).1 ≠ .ok .outOfMemory ∧
      ∃ call ∈ (c.start (String.ofList (List.replicate 4294966272 'x'))).2.calls, call.function.role = .release := by
  have hlength := length_encode_replicate 4294966272
  generalize String.ofList (List.replicate 4294966272 'x') = source at hlength ⊢
  have hinput : (Bridge.create {} {}).input.toList = [] := rfl
  have hsink : (Bridge.create {} {}).sink.Steady := Sink.steady_default
  obtain ⟨c, m, hcreate, hready⟩ := exists_ready hinput hsink rfl
  have hlen : (Text.encode source).length < UInt32.size := by
    rw [hlength]
    decide
  have hwrapped : UInt32.size - 1024 ≤ (Text.encode source).length := by
    rw [hlength]
    decide
  obtain ⟨herror, hcalls⟩ := start_of_wrapped hready hlen hwrapped
  refine ⟨_, c, instantiate_echo _, hcreate, by omega, ?_, ?_⟩
  · rw [herror]
    nofun
  · refine ⟨⟨.release 1024 (Machine.regionSize (Text.encode source)), .ok ()⟩, ?_, rfl⟩
    rw [hcalls]
    simp

end Echo

end Playground
