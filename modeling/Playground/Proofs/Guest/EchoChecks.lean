import Playground.Proofs.Guest.EchoAlike
import Playground.Proofs.Guest.EchoLaunch
import Playground.Proofs.Guest.EchoRun

/-!
# A text that is checked does not get at the program

A check of a text leaves every controller where it stands. It has the guest allocate, though, and the text is copied in beside the
program that runs. On an interpreter that is whole, it is copied to the heap, where the program does not look: a program goes on as
if none of the texts had been checked (`validate_invisible`). On one that is not, it can be copied over the words that the next step
prints (`checked_text_printed`).
-/

namespace Playground

namespace Echo

/-- A measured text that is checked leaves interpreters alike. -/
theorem Alike.handOff_validate {B : Bridge → Bridge → Prop} {m m' : Machine Echo} (h : Alike B m m') {payload : List UInt8}
    (hmeasured : Measured payload) : Alike B (m.handOff payload Controller.validateUse).2.1 m' := by
  obtain ⟨hwhole, hprogress, hbridge⟩ := h.whole.handOff_validate hmeasured
  refine ⟨hwhole, h.whole', hprogress.trans h.progress, ?_⟩
  rw [hbridge]
  exact h.bridge

/-- Every interpreter that is whole is like itself. -/
theorem Whole.alike {m : Machine Echo} (h : Whole m) : Alike (fun b b' => b = b') m m := ⟨h, h, rfl, rfl⟩

/-- Whatever guest it has, a check of a text leaves a controller where it stands, whatever comes of the check. Over the
interpreter's own build, whatever its console is like and whatever was done before, as long as every text that was handed over was
measured: moves are answered as if no measured text had been checked between them, with the same to see after each of them. -/
theorem validate_invisible (bridge : Bridge) (clears : Bool) :
    (∀ {γ : Type} [Guest γ] (c : Controller γ) (text : String), (c.validate text).2.standing = c.standing) ∧
      ∃ m c, Image.echo.instantiate {} bridge = .ok m ∧ Controller.create m clears = .ok c ∧
        ∀ (ops : List Operation) (s : Scheduler) (visits : List Visit), (∀ op ∈ ops, op.Measured) →
          (∀ text, .validate text ∈ visits → Measured (Text.encode text)) →
          Host.playAmid ⟨s, c.after ops⟩ visits = Host.play ⟨s, c.after ops⟩ (visits.filterMap Visit.move?) := by
  refine ⟨fun c text => c.standing_validate text, ?_⟩
  obtain ⟨m, c, hloaded, hcreate, hwhole, -⟩ := exists_created bridge clears
  refine ⟨m, c, hloaded, hcreate, ?_⟩
  intro ops s visits hops hvisits
  have hafter : Whole (c.after ops).machine := hwhole.after hops
  have hcontroller : Controller.Alike (Alike fun b b' => b = b') (c.after ops).generation (c.after ops).generation
      (c.after ops) (c.after ops) := ⟨hafter.alike, rfl, rfl, rfl, rfl, rfl⟩
  have hloop : s.Alike (c.after ops).generation (c.after ops).generation s := ⟨rfl, rfl, rfl, rfl, rfl, fun _ => Iff.rfl⟩
  exact (lockstep Bridge.lockstep_eq).playAmid_eq (n := 0) visits
    (fun text htext _ _ _ halike => halike.handOff_validate (hvisits text htext)) ⟨hloop, hcontroller⟩

/-- Two texts are checked while a program runs, one of them not a program. -/
theorem validate_invisible_between_ticks :
    ∃ m c, Image.echo.instantiate {} (Bridge.create {} {}) = .ok m ∧ Controller.create m true = .ok c ∧
      let ops : List Operation := [.start "ab"]
      let visits : List Visit := [.act .arm, .validate "(", .act .tick, .validate "cdef", .act .tick]
      (∀ op ∈ ops, op.Measured) ∧ (∀ text, .validate text ∈ visits → Measured (Text.encode text)) ∧
        (c.start "ab").1 = .ok .success ∧
        Host.playAmid ⟨{}, c.after ops⟩ visits = Host.play ⟨{}, c.after ops⟩ [.arm, .tick, .tick] := by
  obtain ⟨-, m, c, hloaded, hcreate, hplay⟩ := validate_invisible (Bridge.create {} {}) true
  obtain ⟨m₀, c₀, hloaded₀, hcreate₀, hwhole, hbridge, hheap, -, hclears⟩ := exists_created (Bridge.create {} {}) true
  cases hloaded₀.symm.trans hloaded
  cases hcreate₀.symm.trans hcreate
  refine ⟨m, c, hloaded, hcreate, ?_⟩
  intro ops visits
  have hmeasured : ∀ text ∈ ["ab", "(", "cdef"], Measured (Text.encode text) := by decide
  have hops : ∀ op ∈ ops, op.Measured := by
    simpa [ops, Operation.Measured] using hmeasured "ab" (by decide)
  have hvisits : ∀ text, .validate text ∈ visits → Measured (Text.encode text) := by
    intro text htext
    refine hmeasured text ?_
    simp [visits] at htext
    obtain rfl | rfl := htext <;> decide
  have hsteady : c.machine.bridge.sink.Steady := hbridge ▸ Sink.steady_default
  have hroom : Room c.machine (Text.encode "ab") := by
    rw [Room, hheap]
    decide
  exact ⟨hops, hvisits, (hwhole.launched hclears hsteady hroom (by decide)).1, hplay ops {} visits hops hvisits⟩

/-- A source of 1023 bytes less than four gibibytes is refused, but the heap then begins anew. A program whose source fills it up to
the words of a step runs as it should; a text that is checked before its first step is copied over the words, and printed. -/
theorem checked_text_printed :
    ∃ m c, Image.echo.instantiate {} (Bridge.create {} {}) = .ok m ∧ Controller.create m true = .ok c ∧
      let before := c.after [.start (String.ofList (List.replicate 4294966273 'x')), .start "xxxxxxxxxxxxxxx"]
      Host.playAmid ⟨{}, before⟩ [.act .arm, .validate "hello", .act .tick] ≠ Host.play ⟨{}, before⟩ [.arm, .tick] := by
  obtain ⟨m, c, hloaded, hcreate, hwhole, hbridge, hheap, hinactive, hclears⟩ := exists_created (Bridge.create {} {}) true
  refine ⟨m, c, hloaded, hcreate, ?_⟩
  have hlen : (Text.encode (String.ofList (List.replicate 4294966273 'x'))).length = UInt32.size - 1024 + (1 : UInt32).toNat :=
    length_encode_replicate _
  generalize String.ofList (List.replicate 4294966273 'x') = long at hlen ⊢
  have hfresh : Vacant c heapStart := ⟨hwhole.toBuilt, hwhole.worded, hbridge ▸ Sink.steady_default, hheap, hinactive, hclears⟩
  obtain ⟨mid, hmid⟩ : ∃ mid, mid = (c.start long).2 := ⟨_, rfl⟩
  have hused : Vacant mid 1 := hmid ▸ hfresh.start_of_wrapping hlen (by decide)
  intro before
  have hbefore : before = (mid.start "xxxxxxxxxxxxxxx").2 := by
    rw [hmid]
    rfl
  clear_value before
  subst hbefore
  -- The source fills the heap up to the words of a step.
  have hroom : Room mid.machine (Text.encode "xxxxxxxxxxxxxxx") := hused.room (by decide)
  obtain ⟨-, hlaunched⟩ := hused.launched (by decide) hroom (by decide)
  have hpoised := hlaunched.poised hused.built (by decide) (by decide)
  have hend := hlaunched.toNat_heap hroom
  have hworded := hlaunched.worded hused.built hused.worded hroom (.inl (by rw [hused.heap]; decide))
  rw [hused.heap] at hend
  generalize (mid.start "xxxxxxxxxxxxxxx").2 = d at hlaunched hpoised hend hworded ⊢
  have hheap' : d.machine.inner.heap = 16 := UInt32.toNat_inj.mp hend
  -- The text is copied over them.
  have hover : Room d.machine (Text.encode "hello") := by
    rw [Room, hheap']
    decide
  obtain ⟨hchecked, hmachine⟩ := hpoised.validate (by rw [hheap']; decide) hover
  have hgeneration : (d.validate "hello").2.standing.generation = d.standing.generation :=
    congrArg Standing.generation (d.standing_validate "hello")
  intro hsame
  have hwords := hchecked.words_eq_of_play hpoised (s := ({} : Scheduler).arm d) ⟨rfl, hgeneration, hchecked.state⟩
    ⟨rfl, rfl, hpoised.state⟩ (List.cons.inj hsame).2
  rw [hmachine, words_of_overlap hpoised.built hover hheap' (by decide), hworded.words_eq] at hwords
  exact absurd hwords (by decide)

end Echo

end Playground
