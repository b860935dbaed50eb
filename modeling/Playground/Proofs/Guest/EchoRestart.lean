import Playground.Proofs.Controller.Output
import Playground.Proofs.Guest.EchoAlike
import Playground.Proofs.Guest.EchoLaunch
import Playground.Proofs.Guest.EchoRun

/-!
# Nothing of an earlier program reaches a later one

Programs that are launched from one source go on alike on any two interpreters that are whole (`Launched.alike`): of what went
before, only the heap, what lies on it, the counts and the numbers of the starts are left, and no program comes to see them. So it
is after every history of measured sources (`restart_isolated`). One source that is not measured is enough for a later source to lie
where the interpreter looks for its words (`source_printed_as_words`).
-/

namespace Playground

namespace Echo

variable {m m' : Machine Echo} {source : List UInt8} {d d' : Controller Echo}

/-- Programs launched from one source on whole interpreters are alike for as long as neither clock wraps around. -/
theorem Launched.alike (h : Launched m source d) (h' : Launched m' source d') (hwhole : Whole m) (hwhole' : Whole m')
    (hroom : Room m source) (hroom' : Room m' source) {left : Nat} (hleft : m.bridge.clock.millis.toNat + left < UInt64.size)
    (hleft' : m'.bridge.clock.millis.toNat + left < UInt64.size) :
    Controller.Alike (Alike (Bridge.Shifted left)) d.generation d'.generation d d' where
  machine :=
    { whole := h.whole hwhole hroom
      whole' := h'.whole hwhole' hroom'
      progress := h.progress.trans h'.progress.symm
      bridge :=
        { pending := h.pending.trans h'.pending.symm
          steady := h.steady
          steady' := h'.steady
          contents := h.contents.trans h'.contents.symm
          anchored := by
            rw [h.clock, h'.clock, h.anchor, h'.anchor]
            exact ⟨0, .now hleft, .now hleft'⟩ } }
  state := h.state.trans h'.state.symm
  runActive := h.runActive.trans h'.runActive.symm
  fault := h.fault.trans h'.fault.symm
  generation := rfl
  generation' := rfl

end Echo

/-- The words that steps leave in memory while moves are made, oldest first. -/
def Host.stepWords (h : Host Echo) (moves : List Move) : List Echo.StepWords :=
  (Host.after ⟨h.loop, h.controller.noting Echo.StepWords⟩ moves).controller.machine.notes

namespace Echo

/-- Whatever was done with a controller over the interpreter's own build and a console that takes everything, as long as nothing
was done to what is on the console behind its back, and every text that was handed over was measured: a source that is then started
with success is started with success on a fresh controller too, and there is the same to see after both starts. With a loop that is
not armed, or is armed first, the same moves are then answered alike, with the same to see after each of them, and the steps leave
the same times and budgets in memory. For all of that it does not matter what the clocks show, as long as they do not wrap around
while the moves are made. -/
theorem restart_isolated (clock clock' : Clock) :
    ∃ m m' c c', Image.echo.instantiate {} (Bridge.create {} clock) = .ok m ∧ Controller.create m = .ok c ∧
      Image.echo.instantiate {} (Bridge.create {} clock') = .ok m' ∧ Controller.create m' = .ok c' ∧
      ∀ (ops : List Operation) (text : String) (s : Scheduler) (moves : List Move),
        let before := c.after ops
        let d := (before.start text).2
        let d' := (c'.start text).2
        let time := Move.spent moves
        (∀ op ∈ ops, op.KeepsOutput ∧ op.Measured) → (before.start text).1 = .ok .success →
          (s.armed = false ∨ moves.head? = some .arm) →
          before.machine.bridge.clock.millis.toNat + time < UInt64.size → clock'.millis.toNat + time < UInt64.size →
          (c'.start text).1 = .ok .success ∧ d.machine.bridge.visible = d'.machine.bridge.visible ∧
            Host.play ⟨s, d⟩ moves = Host.play ⟨s, d'⟩ moves ∧ Host.stepWords ⟨s, d⟩ moves = Host.stepWords ⟨s, d'⟩ moves := by
  obtain ⟨m, c, hloaded, hcreate, hwhole, hbridge, -, -, hclears⟩ := exists_created (Bridge.create {} clock) true
  obtain ⟨m', c', hloaded', hcreate', hwhole', hbridge', hheap', -, hclears'⟩ :=
    exists_created (Bridge.create {} clock') true
  refine ⟨m, m', c, c', hloaded, hcreate, hloaded', hcreate', ?_⟩
  intro ops text s moves before d d' time hops hsuccess hloop htime htime'
  have hsteady : c.machine.bridge.sink.Steady := hbridge ▸ Sink.steady_default
  have hsteady' : c'.machine.bridge.sink.Steady := hbridge' ▸ Sink.steady_default
  -- After the history the interpreter is whole, and its console takes everything.
  have hbefore : Whole before.machine := hwhole.after fun op hop => (hops op hop).2
  have hsink : before.machine.bridge.sink.Steady := by
    rw [c.sink_after fun op hop => (hops op hop).1]
    exact hsteady.receiveAll _
  have hclears₁ : before.clearOnStart = true := (c.clearOnStart_after ops).trans hclears
  obtain ⟨hroom, hopens⟩ := (hbefore.start_success_iff hclears₁ hsink).mp hsuccess
  -- A source for which there is room has room on a fresh heap.
  have hroom' : Room c'.machine (Text.encode text) := by
    have habove := hbefore.above
    rw [Room] at hroom ⊢
    rw [hheap']
    omega
  obtain ⟨-, m₁, hwhole₁, hroom₁, hbridge₁, -, hlaunched⟩ := hbefore.launched hclears₁ hsink hroom hopens
  obtain ⟨hsuccess', m₁', hwhole₁', hroom₁', hbridge₁', -, hlaunched'⟩ := hwhole'.launched hclears' hsteady' hroom' hopens
  have halike : Controller.Alike (Alike (Bridge.Shifted time)) d.generation d'.generation d d' := by
    refine hlaunched.alike hlaunched' hwhole₁ hwhole₁' hroom₁ hroom₁' ?_ ?_
    · rw [hbridge₁]
      exact htime
    · rw [hbridge₁', hbridge']
      exact htime'
  have hvisible := (lockstep Bridge.lockstep_shifted).visible halike.machine
  refine ⟨hsuccess', hvisible, ?_, ?_⟩
  · rw [(Host.play_disarmed hloop d).1, (Host.play_disarmed hloop d').1]
    rw [← Nat.zero_add time] at halike
    exact ((lockstep Bridge.lockstep_shifted).play_eq moves ⟨.disarmed s, halike⟩).1
  · have hnoted := halike.noting StepWords
    rw [← Nat.zero_add time] at hnoted
    unfold Host.stepWords
    rw [(Host.play_disarmed hloop _).2, (Host.play_disarmed hloop _).2]
    exact ((lockstep_watched Bridge.lockstep_shifted).play_eq moves ⟨.disarmed s, hnoted⟩).2.controller.machine.2

/-- A second program goes on as if the first had never been, later and on less of a heap. -/
theorem restart_isolated_after_use :
    ∃ m m' c c', Image.echo.instantiate {} (Bridge.create {} {}) = .ok m ∧ Controller.create m = .ok c ∧
      Image.echo.instantiate {} (Bridge.create {} ⟨3⟩) = .ok m' ∧ Controller.create m' = .ok c' ∧
      let ops : List Operation := [.start "ab", .onBridge (·.advance (.ofMillis 7))]
      let moves : List Move := [.arm, .tick, .wait (.ofMillis 5), .tick]
      let before := c.after ops
      let d := (before.start "cd").2
      let d' := (c'.start "cd").2
      (∀ op ∈ ops, op.KeepsOutput ∧ op.Measured) ∧ (before.start "cd").1 = .ok .success ∧
        (({} : Scheduler).armed = false ∨ moves.head? = some .arm) ∧
        before.machine.bridge.clock.millis.toNat + Move.spent moves < UInt64.size ∧
        3 + Move.spent moves < UInt64.size ∧
        Host.play ⟨{}, d⟩ moves = Host.play ⟨{}, d'⟩ moves ∧ Host.stepWords ⟨{}, d⟩ moves = Host.stepWords ⟨{}, d'⟩ moves := by
  obtain ⟨m, m', c, c', hloaded, hcreate, hloaded', hcreate', hisolated⟩ := restart_isolated {} ⟨3⟩
  refine ⟨m, m', c, c', hloaded, hcreate, hloaded', hcreate', ?_⟩
  intro ops moves before d d'
  obtain ⟨m₀, c₀, hloaded₀, hcreate₀, hwhole, hbridge, hheap, -, hclears⟩ := exists_created (Bridge.create {} {}) true
  cases hloaded₀.symm.trans hloaded
  cases hcreate₀.symm.trans hcreate
  have hops : ∀ op ∈ ops, op.KeepsOutput ∧ op.Measured := by
    have hmeasured : Measured (Text.encode "ab") := by decide
    simp [ops, Operation.KeepsOutput, Operation.Measured, hmeasured, Bridge.advance]
  have hsteady : c.machine.bridge.sink.Steady := hbridge ▸ Sink.steady_default
  have hbefore : Whole before.machine := hwhole.after fun op hop => (hops op hop).2
  have hsink : before.machine.bridge.sink.Steady := by
    rw [c.sink_after fun op hop => (hops op hop).1]
    exact hsteady.receiveAll _
  have hroom : Room c.machine (Text.encode "ab") := by
    rw [Room, hheap]
    decide
  obtain ⟨-, m₁, -, hroom₁, hbridge₁, hheap₁, hlaunched⟩ := hwhole.launched hclears hsteady hroom (by decide)
  have hend : before.machine.inner.heap.toNat = 1026 := by
    have hmoved := hlaunched.toNat_heap hroom₁
    rw [hheap₁, hheap] at hmoved
    exact hmoved
  have hclock : before.machine.bridge.clock = ⟨7⟩ := by
    have hmoved : before.machine.bridge.clock = (c.start "ab").2.machine.bridge.clock.advance (.ofMillis 7) := rfl
    rw [hmoved, hlaunched.clock, hbridge₁, hbridge]
    rfl
  have hsuccess : (before.start "cd").1 = .ok .success := by
    refine (hbefore.start_success_iff ((c.clearOnStart_after ops).trans hclears) hsink).mpr ⟨?_, by decide⟩
    rw [Room, hend]
    decide
  have htime : before.machine.bridge.clock.millis.toNat + Move.spent moves < UInt64.size := by
    rw [hclock]
    decide
  obtain ⟨-, -, hplay, hwords⟩ := hisolated ops "cd" {} moves hops hsuccess (.inl rfl) htime (by decide)
  exact ⟨hops, hsuccess, .inl rfl, htime, by decide, hplay, hwords⟩

/-- A source of 1008 bytes less than four gibibytes is refused, but the heap then ends where the words of a step lie. The next
source is copied over them, and its first step prints it. On a fresh controller it prints the words. -/
theorem source_printed_as_words :
    ∃ m c, Image.echo.instantiate {} (Bridge.create {} {}) = .ok m ∧ Controller.create m = .ok c ∧
      let before := c.after [.start (String.ofList (List.replicate 4294966288 'x'))]
      (before.start "hello").1 = .ok .success ∧ (c.start "hello").1 = .ok .success ∧
        Host.play ⟨{}, (before.start "hello").2⟩ [.arm, .tick] ≠ Host.play ⟨{}, (c.start "hello").2⟩ [.arm, .tick] := by
  obtain ⟨m, c, hloaded, hcreate, hwhole, hbridge, hheap, hinactive, hclears⟩ := exists_created (Bridge.create {} {}) true
  refine ⟨m, c, hloaded, hcreate, ?_⟩
  have hlen : (Text.encode (String.ofList (List.replicate 4294966288 'x'))).length = UInt32.size - 1024 + (16 : UInt32).toNat :=
    length_encode_replicate _
  generalize String.ofList (List.replicate 4294966288 'x') = long at hlen ⊢
  have hfresh : Vacant c heapStart := ⟨hwhole.toBuilt, hwhole.worded, hbridge ▸ Sink.steady_default, hheap, hinactive, hclears⟩
  intro before
  have hused : Vacant before 16 := hfresh.start_of_wrapping hlen (by decide)
  clear_value before
  have hroom : Room c.machine (Text.encode "hello") := hfresh.room (by decide)
  have hroom' : Room before.machine (Text.encode "hello") := hused.room (by decide)
  obtain ⟨hsuccess, hlaunched⟩ := hfresh.launched (by decide) hroom (by decide)
  obtain ⟨hsuccess', hlaunched'⟩ := hused.launched (by decide) hroom' (by decide)
  refine ⟨hsuccess', hsuccess, fun hsame => ?_⟩
  have hpoised := hlaunched.poised hfresh.built (by decide) (by decide)
  have hpoised' := hlaunched'.poised hused.built (by decide) (by decide)
  have hwords := hpoised'.words_eq_of_play hpoised ⟨rfl, rfl, hpoised'.state⟩ ⟨rfl, rfl, hpoised.state⟩ (List.cons.inj hsame).2
  -- Here the source lies over the words of a step; on the fresh controller it does not.
  have hprinted : words (c.start "hello").2.machine.memory false = stepText :=
    (hlaunched.worded hfresh.built hfresh.worded hroom (.inr (by rw [hheap]; decide))).words_eq false
  have hprinted' : words (before.start "hello").2.machine.memory false = Text.encode "hello" := by
    rw [hlaunched'.memory]
    exact words_of_overlap hused.built hroom' hused.heap (by decide)
  rw [hprinted, hprinted'] at hwords
  exact absurd hwords (by decide)

end Echo

end Playground
