import Playground.Proofs.Controller.Reach
import Playground.Proofs.Controller.Runs

/-!
# How a tick loop ends

A tick ends its loop at two places: on a fault that it finds, and on the status of the step it makes. Both agree on what is an
alarm, because a fault that can be found was never success or a cancellation (`Standing.Sound`). A step's status says all about
the tick it was made in (`Ticked.of_step`), and the alarms in a journal are the alarm exits of the loops that wrote to it
(`Controller.alarms_after`).
-/

namespace Playground

/-! ## Faults and exits -/

namespace LoopExit

/-- The exit says what it is for: a panic, or an outcome that is an alarm. -/
def Faithful : LoopExit → Prop
  | .alarm outcome => outcome.isAlarm = true
  | .faulted outcome => outcome = .runtimeFault
  | .finished | .cancelled => True

/-- The exit for a fault says what it is for. -/
theorem faithful_ofFault {o : Outcome} (hs : o ≠ .success) (hc : o ≠ .cancelled) : (ofFault o).Faithful := by
  obtain rfl | halarm := Outcome.eq_runtimeFault_or_isAlarm hs hc
  · exact rfl
  · rw [ofFault_of_isAlarm halarm]
    exact halarm

end LoopExit

/-! ## The tick of a step -/

variable {p q : Standing} {new : List Call} {s s' : Scheduler} {result : Except HostError Tick}

/-- What a tick leaves if its step returned a status. -/
def StepEnds (status : Int32) (result : Except HostError Tick) (q : Standing) : Prop :=
  (status = 0 ∧ result = .ok .again ∧ q.state = .running) ∨
    (status ≠ 0 ∧ result = .ok (.exit (.ofFault (.ofStatus status))) ∧ q.state = .faulted ∧
      q.fault = some (.ofStatus status))

/-- A step that returned a status made progress or faulted its program. -/
theorem Stepped.of_step {budget made : UInt32} {answer : Except HostError Outcome} (h : Stepped p budget answer new q)
    {status : Int32} (hcall : ⟨.step made, .ok status⟩ ∈ new) :
    (status = 0 ∧ answer = .ok .success ∧ q.state = .running) ∨
      (status ≠ 0 ∧ answer = .ok (.ofStatus status) ∧ q.state = .faulted ∧ q.fault = some (.ofStatus status)) := by
  cases h with
  | failed _ e => simp at hcall
  | worked hs =>
    obtain ⟨-, rfl⟩ : made = budget ∧ status = 0 := by simpa using hcall
    exact .inl ⟨rfl, rfl, hs⟩
  | ended _ hstatus =>
    simp only [List.mem_singleton, Call.mk.injEq, Export.step.injEq] at hcall
    obtain ⟨rfl, hsame⟩ := hcall
    cases eq_of_heq hsame
    exact .inr ⟨hstatus, rfl, rfl, rfl⟩
  | stopped _ => cases hcall
  | refused _ _ => cases hcall

/-- The status of the step that a tick makes decides how the tick ends. -/
theorem Ticked.of_step (h : Ticked s p result s' new q) {made : UInt32} {status : Int32}
    (hcall : ⟨.step made, .ok status⟩ ∈ new) : StepEnds status result q := by
  -- The question whether the program is complete is no step, so the call is the one that was made for the step.
  have hwork : ∀ {answer asked work r}, Checked p answer asked r → ⟨.step made, .ok status⟩ ∈ asked ++ work →
      ⟨.step made, .ok status⟩ ∈ work := by
    intro answer asked work r hc hmem
    refine (List.mem_append.mp hmem).resolve_left fun hasked => ?_
    exact nomatch hc.function_eq _ hasked
  cases h with
  | unarmed _ => cases hcall
  | replaced _ _ => cases hcall
  | faulted _ _ _ => cases hcall
  | stopped _ _ _ _ => cases hcall
  | notAsked _ _ _ hc => exact nomatch hc.function_eq _ hcall
  | finished _ _ _ hc => exact nomatch hc.function_eq _ hcall
  | notStepped _ _ _ hc hw =>
    obtain ⟨-, hanswer, -⟩ | ⟨-, hanswer, -⟩ := hw.of_step (hwork hc hcall) <;> cases hanswer
  | again _ _ _ hc hw =>
    obtain ⟨hstatus, -, hrunning⟩ | ⟨hstatus, hanswer, -⟩ := hw.of_step (hwork hc hcall)
    · exact .inl ⟨hstatus, rfl, hrunning⟩
    · exact absurd (Outcome.ofStatus_eq_success_iff.mp (Except.ok.inj hanswer).symm) hstatus
  | failed _ _ _ hc hw ho =>
    obtain ⟨-, hanswer, -⟩ | ⟨hstatus, hanswer, hfaulted, hfault⟩ := hw.of_step (hwork hc hcall)
    · exact absurd (Except.ok.inj hanswer) ho
    · cases hanswer
      exact .inr ⟨hstatus, rfl, hfaulted, hfault⟩

/-- A program that is found incomplete is left as it was. -/
theorem Checked.eq_of_incomplete {asked : List Call} (h : Checked p (.ok false) asked q) : q = p := by
  cases h with
  | unchanged ha _ =>
    cases ha with
    | answered _ _ => rfl

/-- A step of a running program is never cancelled. -/
theorem Stepped.ne_cancelled {budget : UInt32} {outcome : Outcome} (h : Stepped p budget (.ok outcome) new q)
    (hs : p.state = .running) : outcome ≠ .cancelled := by
  cases h with
  | worked _ => nofun
  | ended _ _ => exact Outcome.ofStatus_ne_cancelled _
  | stopped hstopped => exact nomatch hs.symm.trans hstopped

/-- A tick of a sound controller ends its loop as what it is. -/
theorem Ticked.faithful {exit : LoopExit} (h : Ticked s p (.ok (.exit exit)) s' new q) (hp : p.Sound) : exit.Faithful := by
  cases h with
  | replaced _ _ => trivial
  | stopped _ _ _ _ => trivial
  | finished _ _ _ _ => trivial
  | faulted _ _ _ =>
    cases ho : p.fault with
    | none => exact LoopExit.faithful_ofFault nofun nofun
    | some o =>
      obtain ⟨-, hs, hc⟩ := hp.faulted_of_fault o ho
      exact LoopExit.faithful_ofFault hs hc
  | failed _ _ hrunning hc hw ho =>
    -- The program is still running when it is stepped, so the step was not cancelled.
    obtain rfl := hc.eq_of_incomplete
    exact LoopExit.faithful_ofFault ho (hw.ne_cancelled hrunning)

/-! ## The alarms of a history -/

namespace Scheduler

variable {γ : Type}

/-- The line that a tick notes when it ends its loop with an alarm, which tells the steps of the loop. -/
def raised (ticked : Except HostError Tick × Scheduler × Controller γ) : List LogEvent :=
  match ticked with
  | (.ok (.exit (.alarm outcome)), s, _) => [.emulatorFailed outcome s.steps]
  | _ => []

/-- A tick that ends its loop with an alarm notes one line. -/
theorem raised_of_alarm {ticked : Except HostError Tick × Scheduler × Controller γ} {o : Outcome}
    (h : ticked.1 = .ok (.exit (.alarm o))) : raised ticked = [.emulatorFailed o ticked.2.1.steps] := by
  obtain ⟨result, loop, c⟩ := ticked
  cases h
  rfl

/-- Every other tick notes none. -/
theorem raised_of_no_alarm {ticked : Except HostError Tick × Scheduler × Controller γ}
    (h : ∀ o, ticked.1 ≠ .ok (.exit (.alarm o))) : raised ticked = [] := by
  unfold raised
  split
  · exact absurd rfl (h _)
  · rfl

/-- The end of a loop notes an alarm exactly when it is one. -/
theorem alarms_leave (s : Scheduler) (exit : LoopExit) (c : Controller γ) :
    (s.leave exit c).2.2.alarms = c.alarms ++ raised (s.leave exit c) := by
  cases exit with
  | alarm outcome => exact List.filter_append c.journal [.emulatorFailed outcome s.steps]
  | _ => exact (List.append_nil _).symm

/-- A tick notes an alarm exactly when it ends its loop with one. -/
theorem alarms_tick [Guest γ] (s : Scheduler) (c : Controller γ) :
    (s.tick c).2.2.alarms = c.alarms ++ raised (s.tick c) := by
  have hleaves := s.tick_leaves c
  generalize s.tick c = ticked at hleaves ⊢
  cases hleaves with
  | exited h loop exit => rw [alarms_leave, h.alarms_eq]
  | stayed h loop hstays =>
    rw [raised_of_no_alarm fun o => hstays (.alarm o), List.append_nil]
    exact h.alarms_eq

end Scheduler

/-- The alarm that an operation notes: only a tick notes one. -/
def Operation.raised {γ : Type} [Guest γ] (c : Controller γ) : Operation → List LogEvent
  | .tick loop => Scheduler.raised (loop.tick c)
  | _ => []

namespace Controller

variable {γ : Type} [Guest γ]

/-- The alarms of the loops that a list of operations ticks, in order. -/
def raised (c : Controller γ) : List Operation → List LogEvent
  | [] => []
  | op :: ops => op.raised c ++ (c.perform op).raised ops

/-- A start raises no alarm, whatever comes of it. -/
theorem alarms_start (c : Controller γ) (source : String) : (c.start source).2.alarms = c.alarms := by
  have htorn := c.reaches_teardown.alarms_eq
  rcases h : c.teardown with ⟨e | _, c₁⟩
  · rw [start_of_teardown_error source h]
    rwa [h] at htorn
  · rw [h] at htorn
    exact (reaches_start source h).alarms_eq.trans htorn

omit [Guest γ] in
/-- Nor does input that is typed. -/
theorem alarms_pushInput (c : Controller γ) (bytes : List UInt8) : (c.pushInput bytes).2.alarms = c.alarms := by
  unfold pushInput
  split <;> rfl

/-- Only a tick raises an alarm, and only with the end of its loop. -/
theorem alarms_perform (c : Controller γ) (op : Operation) : (c.perform op).alarms = c.alarms ++ op.raised c := by
  have hquiet : ∀ {d : Controller γ}, c.Reaches d → d.alarms = c.alarms ++ [] := fun h => by
    rw [h.alarms_eq, List.append_nil]
  cases op with
  | tick loop => exact loop.alarms_tick c
  | validate source => exact hquiet (c.reaches_validate source)
  | start source => exact (c.alarms_start source).trans (List.append_nil _).symm
  | stop => exact hquiet c.reaches_stop
  | isFinished => exact hquiet c.reaches_isFinished
  | checkFinished => exact hquiet c.reaches_checkFinished
  | step budget => exact hquiet (c.reaches_step budget)
  | pushInput bytes => exact (c.alarms_pushInput bytes).trans (List.append_nil _).symm
  | onBridge act => exact (List.append_nil _).symm

/-- The alarms in a journal are those of the loops that were ticked, whatever else was done. -/
theorem alarms_after (c : Controller γ) (ops : List Operation) : (c.after ops).alarms = c.alarms ++ c.raised ops := by
  induction ops generalizing c with
  | nil => exact (List.append_nil _).symm
  | cons op ops ih => rw [after_cons, ih, alarms_perform, List.append_assoc, raised]

end Controller

/-! ## Every tick of every history -/

namespace Scheduler

variable {γ : Type} [Guest γ] {m : Machine γ} {clear : Bool} {c : Controller (Recorded γ)}

/-- Whatever the guest does and whatever was done before, with any loop: a tick whose step returned a status goes on if it is
success, and otherwise faults the program with what the status means and ends the loop, as faulted by a panic or with an alarm. No
loop ends with an alarm that is none or as faulted by anything but a panic. A tick notes the line `emulator failed` exactly when
it ends its loop with an alarm, and nothing else notes it. -/
theorem exits_classified (h : Controller.create m.record clear = .ok c) (ops : List Operation) :
    (c.after ops).alarms = c.raised ops ∧
      ∀ s : Scheduler,
        let d := c.after ops
        let result := (s.tick d).1
        let left := (s.tick d).2.2
        (∃ new, left.calls = d.calls ++ new ∧ ∀ made status, ⟨.step made, .ok status⟩ ∈ new →
          (status = 0 → result = .ok .again ∧ left.state = .running) ∧
            (status = 4 → result = .ok (.exit (.faulted .runtimeFault)) ∧ left.state = .faulted ∧
              left.fault = some .runtimeFault) ∧
            (status ≠ 0 → status ≠ 4 → result = .ok (.exit (.alarm (.ofStatus status))) ∧ left.state = .faulted ∧
              left.fault = some (.ofStatus status))) ∧
          (∀ o, result = .ok (.exit (.alarm o)) →
            o.isAlarm = true ∧ left.alarms = d.alarms ++ [.emulatorFailed o (s.tick d).2.1.steps]) ∧
          (∀ o, result = .ok (.exit (.faulted o)) → o = .runtimeFault) ∧
          ((∀ o, result ≠ .ok (.exit (.alarm o))) → left.alarms = d.alarms) := by
  have hfresh : c.alarms = [] := by
    obtain ⟨m', -, rfl⟩ := Controller.create_eq_ok_iff.mp h
    rfl
  refine ⟨by rw [Controller.alarms_after, hfresh, List.nil_append], fun s => ?_⟩
  intro d result left
  have hsound : d.standing.Sound := Controller.sound_after h ops
  obtain ⟨new, hnew, hticked⟩ := s.tick_goes d
  have hfaithful : ∀ exit, result = .ok (.exit exit) → exit.Faithful := by
    intro exit hexit
    have hended : Ticked s d.standing result _ new _ := hticked
    rw [hexit] at hended
    exact hended.faithful hsound
  refine ⟨⟨new, hnew, ?_⟩, ?_, fun o ho => hfaithful _ ho, ?_⟩
  · intro made status hcall
    obtain ⟨hzero, hresult, hrunning⟩ | ⟨hzero, hresult, hfaulted, hfault⟩ := hticked.of_step hcall
    · subst hzero
      exact ⟨fun _ => ⟨hresult, hrunning⟩, nofun, fun hne => absurd rfl hne⟩
    · refine ⟨fun heq => absurd heq hzero, ?_, ?_⟩
      · rintro rfl
        exact ⟨hresult, hfaulted, hfault⟩
      · intro _ hpanic
        rw [LoopExit.ofFault_of_isAlarm (Outcome.isAlarm_ofStatus hzero hpanic)] at hresult
        exact ⟨hresult, hfaulted, hfault⟩
  · intro o ho
    have hraised : raised (s.tick d) = _ := raised_of_alarm ho
    exact ⟨hfaithful _ ho, by rw [← hraised, ← alarms_tick]⟩
  · intro hnone
    have hraised : raised (s.tick d) = _ := raised_of_no_alarm hnone
    have halarms : left.alarms = d.alarms ++ _ := alarms_tick s d
    rw [halarms, hraised, List.append_nil]

/-- A guest's step says that an object was used after its end, and the loop ends with an alarm. -/
theorem exits_classified_stepping :
    ∃ c : Controller (Recorded Fixed), Controller.create (Fixed.stepping 5).machine.record = .ok c ∧
      ((arm {} (c.after [.start ""])).tick (c.after [.start ""])).1 = .ok (.exit (.alarm .invalidObject)) ∧
      ((arm {} (c.after [.start ""])).tick (c.after [.start ""])).2.2.alarms = [.emulatorFailed .invalidObject 1] := by
  obtain ⟨c, hc⟩ : ∃ c : Controller (Recorded Fixed),
      c = { machine := (Fixed.stepping 5).machine.record [⟨.setUp, .ok ()⟩] } := ⟨_, rfl⟩
  have h : Controller.create (Fixed.stepping 5).machine.record = .ok c := by
    rw [hc]
    rfl
  have hcalls : ((arm {} (c.after [.start ""])).tick (c.after [.start ""])).2.2.calls =
      (c.after [.start ""]).calls ++ [⟨.isFinished, .ok false⟩, ⟨.step 1000, .ok 5⟩] := by
    rw [hc]
    rfl
  obtain ⟨-, htick⟩ := exits_classified h [.start ""]
  obtain ⟨⟨new, hnew, hstatus⟩, halarm, -⟩ := htick (arm {} (c.after [.start ""]))
  obtain rfl := List.append_cancel_left (hnew.symm.trans hcalls)
  obtain ⟨-, -, hother⟩ := hstatus 1000 5 (by simp)
  obtain ⟨hexit, -⟩ := hother (by decide) (by decide)
  have hsteps : ((arm {} (c.after [.start ""])).tick (c.after [.start ""])).2.1.steps = 1 := by
    rw [hc]
    rfl
  have halarms := (halarm .invalidObject hexit).2
  rw [hsteps] at halarms
  exact ⟨c, h, hexit, halarms.trans (by rw [hc]; rfl)⟩

end Scheduler

end Playground
