import Playground.Proofs.Scheduler.Binding
import Playground.Proofs.Scheduler.Exits

/-!
# The calls of a tick

A loop drives a program when it is armed, was armed for the latest start, and finds the program running. Such a tick asks the guest
whether the program is complete and, if it is not, makes one step (`Driven`): that a running program is really asked about rests on
its run being active, which holds of every sound controller. Every other tick makes no call and changes nothing about where the
controller stands.
-/

namespace Playground

/-- The error of a call that failed. -/
def Call.failure (call : Call) : Option GuestError :=
  match call.result with
  | .error e => some e
  | .ok _ => none

variable {p q : Standing} {new : List Call} {s s' : Scheduler} {result : Except HostError Tick}

/-- The loop's next tick goes to the guest: there is a loop, for this program, and the program is running. -/
def Scheduler.Drives (s : Scheduler) (p : Standing) : Prop :=
  s.armed = true ∧ p.generation = s.generation ∧ p.state = .running

/-- The ways in which a tick goes that drives a program whose run is active. -/
inductive Driven (s : Scheduler) (p : Standing) : Except HostError Tick → Scheduler → List Call → Standing → Prop where
  | notAsked (e : GuestError) :
    Driven s p (.error (.guest e)) s.counted.disarmed [⟨.isFinished, .error e⟩] p.faulted
  | finished :
    Driven s p (.ok (.exit .finished)) (s.counted.ended .finished) [⟨.isFinished, .ok true⟩] { p with state := .stopped }
  | notStepped (e : GuestError) :
    Driven s p (.error (.guest e)) s.counted.disarmed [⟨.isFinished, .ok false⟩, ⟨.step s.budget, .error e⟩] p.faulted
  | again :
    Driven s p (.ok .again) s.counted.stepped [⟨.isFinished, .ok false⟩, ⟨.step s.budget, .ok 0⟩] p
  | failed {status : Int32} (h : status ≠ 0) :
    Driven s p (.ok (.exit (.ofFault (.ofStatus status)))) (s.counted.stepped.ended (.ofFault (.ofStatus status)))
      [⟨.isFinished, .ok false⟩, ⟨.step s.budget, .ok status⟩] (p.faultedBy (.ofStatus status))

/-! ## Asking and stepping while the program runs -/

/-- A guest that fails when it is asked faults its program. -/
theorem Asked.of_error {e : HostError} (h : Asked p (.error e) new q) :
    ∃ e', e = .guest e' ∧ new = [⟨.isFinished, .error e'⟩] ∧ q = p.faulted := by
  cases h with
  | failed _ e => exact ⟨e, rfl, rfl, rfl⟩

/-- Where a run is active, the answer is the guest's own. -/
theorem Asked.of_answer {finished : Bool} (h : Asked p (.ok finished) new q) (hactive : p.runActive = true) :
    new = [⟨.isFinished, .ok finished⟩] ∧ q = p := by
  cases h with
  | inactive hinactive => exact nomatch hactive.symm.trans hinactive
  | answered _ _ => exact ⟨rfl, rfl⟩

/-- A check fails as the question does, and faults the program. -/
theorem Checked.of_error {e : HostError} (h : Checked p (.error e) new q) :
    ∃ e', e = .guest e' ∧ new = [⟨.isFinished, .error e'⟩] ∧ q = p.faulted := by
  cases h with
  | unchanged ha _ => exact ha.of_error

/-- A running program that is found incomplete is left as it was. -/
theorem Checked.of_incomplete (h : Checked p (.ok false) new q) (hactive : p.runActive = true) :
    new = [⟨.isFinished, .ok false⟩] ∧ q = p := by
  cases h with
  | unchanged ha _ => exact ha.of_answer hactive

/-- A running program that is found complete is stopped. -/
theorem Checked.of_complete (h : Checked p (.ok true) new q) (hactive : p.runActive = true) (hs : p.state = .running) :
    new = [⟨.isFinished, .ok true⟩] ∧ q = { p with state := .stopped } := by
  cases h with
  | completed ha _ =>
    obtain ⟨rfl, rfl⟩ := ha.of_answer hactive
    exact ⟨rfl, rfl⟩
  | unchanged ha hnot =>
    obtain ⟨-, rfl⟩ := ha.of_answer hactive
    exact absurd hs (hnot rfl)

/-- A tick that drives a program with an active run goes in one of its ways. -/
theorem Ticked.driven (h : Ticked s p result s' new q) (hd : s.Drives p) (hactive : p.runActive = true) :
    Driven s p result s' new q := by
  obtain ⟨harmed, hg, hs⟩ := hd
  cases h with
  | unarmed hnot => exact nomatch harmed.symm.trans hnot
  | replaced _ hnot => exact absurd hg hnot
  | faulted _ _ hnot => exact nomatch hs.symm.trans hnot
  | stopped _ _ hnot _ => exact absurd hs hnot
  | notAsked _ _ _ hc =>
    obtain ⟨e, rfl, rfl, rfl⟩ := hc.of_error
    exact .notAsked e
  | finished _ _ _ hc =>
    obtain ⟨rfl, rfl⟩ := hc.of_complete hactive hs
    exact .finished
  | notStepped _ _ _ hc hw =>
    obtain ⟨rfl, rfl⟩ := hc.of_incomplete hactive
    cases hw with
    | failed _ e => exact .notStepped e
    | refused hnot _ => exact absurd hs hnot
  | again _ _ _ hc hw =>
    obtain ⟨rfl, rfl⟩ := hc.of_incomplete hactive
    generalize hanswer : Except.ok Outcome.success = answer at hw
    cases hw with
    | worked _ => exact .again
    | ended _ hstatus => exact absurd (Outcome.ofStatus_eq_success_iff.mp (Except.ok.inj hanswer).symm) hstatus
    | _ => cases hanswer
  | failed _ _ _ hc hw ho =>
    obtain ⟨rfl, rfl⟩ := hc.of_incomplete hactive
    cases hw with
    | worked _ => exact absurd rfl ho
    | ended _ hstatus => exact .failed hstatus
    | stopped hnot => exact nomatch hs.symm.trans hnot

/-- A tick that drives no program makes no call and leaves the controller where it stands. -/
theorem Ticked.quiet (h : Ticked s p result s' new q) (hd : ¬s.Drives p) : new = [] ∧ q = p := by
  cases h with
  | unarmed _ | replaced _ _ | faulted _ _ _ | stopped _ _ _ _ => exact ⟨rfl, rfl⟩
  | notAsked harmed hg hs _ | finished harmed hg hs _ | notStepped harmed hg hs _ _ | again harmed hg hs _ _
  | failed harmed hg hs _ _ _ => exact absurd ⟨harmed, hg, hs⟩ hd

/-! ## What the calls say about the tick -/

namespace Driven

/-- The guest is asked, and if the program is not complete one step is made, with the loop's budget. -/
theorem calls_cases (h : Driven s p result s' new q) :
    (∃ answer, answer ≠ .ok false ∧ new = [⟨.isFinished, answer⟩]) ∨
      ∃ made, new = [⟨.isFinished, .ok false⟩, ⟨.step s.budget, made⟩] := by
  cases h with
  | notAsked e => exact .inl ⟨.error e, by simp, rfl⟩
  | finished => exact .inl ⟨.ok true, by simp, rfl⟩
  | notStepped e => exact .inr ⟨.error e, rfl⟩
  | again => exact .inr ⟨.ok 0, rfl⟩
  | failed _ => exact .inr ⟨.ok _, rfl⟩

/-- A program that is complete is not stepped. -/
theorem of_complete (h : Driven s p result s' new q) (hcall : ⟨.isFinished, .ok true⟩ ∈ new) :
    new = [⟨.isFinished, .ok true⟩] ∧ result = .ok (.exit .finished) ∧ q.state = .stopped := by
  cases h with
  | finished => exact ⟨rfl, rfl, rfl⟩
  | _ => simp at hcall

/-- A call that fails ends the loop with its error and faults the program. -/
theorem of_failure (h : Driven s p result s' new q) {call : Call} {e : GuestError} (hcall : call ∈ new)
    (he : call.failure = some e) : result = .error (.guest e) ∧ s'.armed = false ∧ q.state = .faulted := by
  cases h with
  | notAsked e' =>
    obtain rfl := List.mem_singleton.mp hcall
    cases he
    exact ⟨rfl, rfl, rfl⟩
  | notStepped e' =>
    -- The answer to the question is no failure, so the failure is the step's.
    obtain rfl | hmade := List.mem_cons.mp hcall
    · cases he
    · obtain rfl := List.mem_singleton.mp hmade
      cases he
      exact ⟨rfl, rfl, rfl⟩
  | finished =>
    obtain rfl := List.mem_singleton.mp hcall
    cases he
  | again | failed _ =>
    obtain rfl | hmade := List.mem_cons.mp hcall
    · cases he
    · obtain rfl := List.mem_singleton.mp hmade
      cases he

end Driven

/-! ## A loop bound to its program -/

/-- A tick leaves the start that its loop was armed for. -/
theorem Ticked.generation_eq (h : Ticked s p result s' new q) : s'.generation = s.generation := by
  cases h <;> rfl

/-- A start that succeeds leaves its program running. -/
theorem Started.running {source : String} (h : Started p source (.ok .success) new q) : q.state = .running := by
  cases h with
  | begun _ hb =>
    cases hb with
    | refused _ ho => exact absurd rfl ho
    | launched _ => rfl

namespace Scheduler

variable {γ : Type} [Guest γ]

/-- A loop that is over stays as it is. -/
theorem tick_of_unarmed {s : Scheduler} (c : Controller γ) (h : s.armed = false) : s.tick c = (.ok .idle, s, c) := by
  simp only [tick, h]
  rfl

/-- A tick that drives its program is what comes of the check for completion. -/
theorem tick_of_drives {s : Scheduler} {c : Controller γ} (hd : s.Drives c.standing) :
    s.tick c = match c.checkFinished with
      | (.error e, c') => s.counted.fail e c'
      | (.ok true, c') => s.counted.leave .finished c'
      | (.ok false, c') => s.counted.advance c' := by
  obtain ⟨harmed, hg, hs⟩ := hd
  have hgeneration : c.generation = s.generation := hg
  have hstate : c.state = .running := hs
  rw [tick, if_pos harmed]
  simp only [hgeneration, hstate, if_true]
  rfl

/-- A tick that finds no program running leaves the controller where it stands. -/
theorem standing_tick (s : Scheduler) {c : Controller (Recorded γ)} (hs : c.state ≠ .running) :
    (s.tick c).2.2.standing = c.standing := by
  obtain ⟨new, -, hticked⟩ := s.tick_goes c
  exact (hticked.quiet fun hd => hs hd.2.2).2

variable {l : Scheduler × Controller (Recorded γ)}

/-- A loop that was armed for the program of a sound controller, and is not over while it runs. -/
structure Bound (l : Scheduler × Controller (Recorded γ)) : Prop where
  sound : l.2.standing.Sound
  generation_eq : l.2.generation = l.1.generation
  armed_of_running : l.2.state = .running → l.1.armed = true

omit [Guest γ] in
/-- A loop is bound to the program that it is armed for. -/
theorem bound_arm (s : Scheduler) {c : Controller (Recorded γ)} (hs : c.standing.Sound) : Bound (s.arm c, c) :=
  ⟨hs, rfl, fun _ => rfl⟩

namespace Bound

omit [Guest γ] in
/-- The next tick drives the program if it is running. -/
theorem drives (h : Bound l) (hs : l.2.state = .running) : l.1.Drives l.2.standing :=
  ⟨h.armed_of_running hs, h.generation_eq, hs⟩

/-- A tick of a loop whose program is running goes to the guest. -/
theorem driven (h : Bound l) (hs : l.2.state = .running) {result : Except HostError Tick} {s' : Scheduler}
    {c' : Controller (Recorded γ)} (htick : l.1.tick l.2 = (result, s', c')) :
    ∃ new, Driven l.1 l.2.standing result s' new c'.standing := by
  obtain ⟨new, -, hticked⟩ := l.1.tick_goes l.2
  rw [htick] at hticked
  exact ⟨new, hticked.driven (h.drives hs) (h.sound.active_of_running hs)⟩

/-- A tick leaves the loop bound. -/
theorem tick (h : Bound l) : Bound (l.1.tick l.2).2 := by
  obtain ⟨new, -, hticked⟩ := l.1.tick_goes l.2
  refine ⟨hticked.sound h.sound, ?_, fun hrunning => ?_⟩
  · exact hticked.stays.generation_eq.trans (h.generation_eq.trans hticked.generation_eq.symm)
  by_cases hs : l.2.state = .running
  · -- Of the ways in which the program is driven, only the one that wants another tick leaves it running.
    rcases htick : l.1.tick l.2 with ⟨result, s', c'⟩
    obtain ⟨new, hdriven⟩ := h.driven hs htick
    have hafter : c'.standing.state = .running := by rwa [htick] at hrunning
    dsimp only
    generalize c'.standing = q at hdriven hafter
    cases hdriven with
    | again => exact h.armed_of_running hs
    | _ => cases hafter
  · exact absurd ((congrArg Standing.state (l.1.standing_tick hs)).symm.trans hrunning) hs

end Bound

/-- A loop is bound to the program that it is armed for, once its start succeeded. -/
theorem bound_of_start {c d : Controller (Recorded γ)} {source : String} (hc : c.standing.Sound)
    (hstart : c.start source = (.ok .success, d)) (s : Scheduler) : Bound (s.arm d, d) ∧ d.state = .running := by
  obtain ⟨new, -, hstarted⟩ := c.start_goes source
  rw [hstart] at hstarted
  exact ⟨bound_arm s (hstarted.sound hc), hstarted.running⟩

/-! ## Every tick of every history -/

variable {m : Machine γ} {clear : Bool} {c : Controller (Recorded γ)}

/-- Whatever the guest does and whatever was done before, with any loop: a tick makes no call, or asks once whether the program is
complete, or asks, is told that it is not, and makes one step with the loop's budget. It calls the guest exactly if the loop is
armed, was armed for the latest start, and the program is running. Where the program is complete, the loop ends as finished, with
the program stopped; where a call fails, the loop ends with that error and the program faulted. -/
theorem at_most_one_step (h : Controller.create m.record clear = .ok c) (ops : List Operation) (s : Scheduler) :
    let d := c.after ops
    let result := (s.tick d).1
    let loop := (s.tick d).2.1
    let left := (s.tick d).2.2
    ∃ new, left.calls = d.calls ++ new ∧
      (new = [] ∨ (∃ answer, answer ≠ .ok false ∧ new = [⟨.isFinished, answer⟩]) ∨
        ∃ made, new = [⟨.isFinished, .ok false⟩, ⟨.step s.budget, made⟩]) ∧
      (new ≠ [] ↔ s.armed = true ∧ d.generation = s.generation ∧ d.state = .running) ∧
      (⟨.isFinished, .ok true⟩ ∈ new →
        new = [⟨.isFinished, .ok true⟩] ∧ result = .ok (.exit .finished) ∧ left.state = .stopped) ∧
      (∀ call ∈ new, ∀ e, call.failure = some e →
        result = .error (.guest e) ∧ loop.armed = false ∧ left.state = .faulted) := by
  intro d result loop left
  have hsound : d.standing.Sound := Controller.sound_after h ops
  obtain ⟨new, hnew, hticked⟩ := s.tick_goes d
  refine ⟨new, hnew, ?_⟩
  by_cases hd : s.Drives d.standing
  · have hdriven := hticked.driven hd (hsound.active_of_running hd.2.2)
    have hcalls := hdriven.calls_cases
    have hne : new ≠ [] := by
      obtain ⟨answer, -, rfl⟩ | ⟨made, rfl⟩ := hcalls <;> simp
    exact ⟨.inr hcalls, iff_of_true hne hd, hdriven.of_complete, fun _ hcall _ => hdriven.of_failure hcall⟩
  · obtain ⟨rfl, -⟩ := hticked.quiet hd
    exact ⟨.inl rfl, iff_of_false (by simp) hd, nofun, nofun⟩

/-- A program is started, and the first tick of its loop asks about it and steps it. -/
theorem at_most_one_step_willing :
    ∃ c : Controller (Recorded Fixed), Controller.create Fixed.willing.machine.record = .ok c ∧
      let d := c.after [.start ""]
      ∃ made, ((arm {} d).tick d).2.2.calls = d.calls ++ [⟨.isFinished, .ok false⟩, ⟨.step 1000, made⟩] := by
  let c : Controller (Recorded Fixed) := { machine := Fixed.willing.machine.record [⟨.setUp, .ok ()⟩] }
  have h : Controller.create Fixed.willing.machine.record = .ok c := rfl
  refine ⟨c, h, ?_⟩
  intro d
  obtain ⟨new, hnew, hcalls, hdrives, hcomplete, hfailure⟩ := at_most_one_step h [.start ""] (arm {} d)
  have hagain : ((arm {} d).tick d).1 = .ok .again := rfl
  obtain rfl | ⟨answer, hanswer, rfl⟩ | ⟨made, rfl⟩ := hcalls
  · exact absurd rfl (hdrives.mpr ⟨rfl, rfl, rfl⟩)
  · -- The loop goes on, so the guest neither failed when it was asked nor said that its program is complete.
    rcases answer with e | _ | _
    · exact nomatch hagain.symm.trans (hfailure _ (List.mem_singleton_self _) e rfl).1
    · exact absurd rfl hanswer
    · exact nomatch hagain.symm.trans (hcomplete (List.mem_singleton_self _)).2.1
  · exact ⟨made, hnew⟩

end Scheduler

end Playground
