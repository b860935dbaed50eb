import Playground.Proofs.Controller.Calls
import Playground.Proofs.Controller.Frame
import Playground.Proofs.Guest.Fixed

/-!
# Starting over

A start ends the old run itself, so stopping first adds nothing: as long as the guest ends the run, the two ways lead to the same
controller, its journal apart (`start_eq_stop_start`). Where the guest fails to end it, a start goes no further, and the machine
stays as that call left it.
-/

namespace Playground

namespace Controller

variable {γ : Type} [Guest γ] {c c₁ d : Controller γ}

/-! ## What a start depends on -/

/-- A start goes on from where the teardown of the old run leads. -/
theorem start_of_teardown (h : c.teardown = (.ok (), c₁)) (source : String) : c.start source = c₁.start source := by
  have h₁ := teardown_of_inactive (runActive_of_teardown h)
  unfold start startPayload
  rw [h, h₁]

/-- With no run active, a start does not look at the phase of the old program. -/
theorem start_with_state (h : c.runActive = false) (state : RunState) (source : String) :
    ({ c with state } : Controller γ).start source = c.start source := by
  have h' : ({ c with state } : Controller γ).runActive = false := h
  unfold start startPayload
  rw [teardown_of_inactive h, teardown_of_inactive h']
  rfl

/-- A start does the same to controllers that differ in nothing but their journals. -/
theorem start_congr (h : c.unlogged = d.unlogged) (source : String) :
    (c.start source).1 = (d.start source).1 ∧ (c.start source).2.unlogged = (d.start source).2.unlogged :=
  congr_of_unlogged (f := fun c => c.start source) (fun _ c => seen_start (fun _ _ => rfl) c source) h

/-- What tears down goes the same way in every phase, as long as it succeeds. -/
theorem teardown_with_state (h : c.teardown = (.ok (), c₁)) (state : RunState) :
    ({ c with state } : Controller γ).teardown = (.ok (), { c₁ with state }) := by
  obtain ⟨hinactive, rfl⟩ | ⟨m, hactive, hcall, rfl⟩ := teardown_ok_cases h
  · simp [teardown, hinactive]
  · simp [teardown, hactive, hcall]

/-- Where the old run can be torn down, a stop does nothing, or it tears the run down and leaves another phase. -/
theorem stop_of_teardown (h : c.teardown = (.ok (), c₁)) :
    c.stop = c ∨ c.stop.unlogged = ({ c₁ with state := c.stop.state } : Controller γ).unlogged := by
  unfold stop
  cases hs : c.state with
  | running =>
    right
    simp only [teardown_with_state h .stopped]
    rfl
  | faulted =>
    right
    simp only [h]
  | idle | compiling | stopped =>
    left
    rfl

/-- Where the old run can be torn down, a stop before a start changes nothing about the start. -/
theorem start_stop_of_teardown (h : c.teardown = (.ok (), c₁)) (source : String) :
    (c.start source).1 = (c.stop.start source).1 ∧
      (c.start source).2.unlogged = (c.stop.start source).2.unlogged := by
  obtain hsame | hstopped := stop_of_teardown h
  · rw [hsame]
    exact ⟨rfl, rfl⟩
  · obtain ⟨hanswer, hleft⟩ := start_congr hstopped source
    rw [hanswer, hleft, start_with_state (runActive_of_teardown h), start_of_teardown h]
    exact ⟨rfl, rfl⟩

/-- A run that the guest ends, if one is active, is torn down. -/
theorem exists_teardown (h : c.runActive = true → (Guest.call .deinitRun c.machine).1 = .ok ()) :
    ∃ c₁, c.teardown = (.ok (), c₁) := by
  by_cases hactive : c.runActive = true
  · rcases hcall : Guest.call .deinitRun c.machine with ⟨e | _, m⟩
    · rw [hcall] at h
      cases h hactive
    · exact ⟨{ c with machine := m, runActive := false }, by simp [teardown, hactive, hcall]⟩
  · exact ⟨c, teardown_of_inactive (Bool.eq_false_iff.mpr hactive)⟩

/-- A run that the guest does not end keeps a start from going on. -/
theorem start_of_clinging (hactive : c.runActive = true) {e : GuestError}
    (h : (Guest.call .deinitRun c.machine).1 = .error e) (source : String) :
    c.start source = (.error (.guest e),
      { c with machine := (Guest.call .deinitRun c.machine).2, runActive := false, state := .faulted }) := by
  refine start_of_teardown_error source ?_
  rcases hcall : Guest.call .deinitRun c.machine with ⟨result, m⟩
  rw [hcall] at h
  cases h
  simp [teardown, hactive, hcall]

end Controller

/-! ## The calls of a start -/

/-- The calls that end the old run, if there is one and the guest ends it. -/
def Standing.ending (p : Standing) : List Call := if p.runActive then [⟨.deinitRun, .ok ()⟩] else []

/-- A teardown that succeeds makes the calls that end the old run. -/
theorem TornDown.eq_ending {p q : Standing} {torn : List Call} (h : TornDown p (.ok ()) torn q) : torn = p.ending := by
  cases h with
  | none hinactive => simp [Standing.ending, hinactive]
  | ended hactive => simp [Standing.ending, hactive]

/-- A start that gets past the end of the old run hands its program over, and it ends a run once more only to take back the one
that this program opened. -/
theorem Begun.handsOver {p q : Standing} {source : String} {result : Except HostError Outcome} {new : List Call}
    (h : Begun p source result new q) :
    ∃ given back, new = given ++ back ∧ (∀ call ∈ given, call.IsHandOff) ∧
      (back = [] ∨ (∃ call ∈ given, call.OpensRun) ∧ ∃ ended, back = [⟨.deinitRun, ended⟩]) := by
  cases h with
  | failed hg => exact ⟨new, [], (List.append_nil _).symm, hg.isHandOff fun _ _ => trivial, .inl rfl⟩
  | refused hg _ => exact ⟨new, [], (List.append_nil _).symm, hg.isHandOff fun _ _ => trivial, .inl rfl⟩
  | launched hg => exact ⟨new, [], (List.append_nil _).symm, hg.isHandOff fun _ _ => trivial, .inl rfl⟩
  | @abandoned given torn _ _ hg e ht =>
    refine ⟨given, torn, rfl, hg.isHandOff fun _ _ => trivial, .inr ⟨?_, ?_⟩⟩
    · obtain ⟨size, ptr, slice, rfl⟩ := hg.eq_preparing
      exact ⟨Call.ofInitRun slice (.ok 0), by simp [Call.preparing], rfl⟩
    · cases ht with
      | none hinactive => cases hinactive
      | ended _ => exact ⟨.ok (), rfl⟩
      | failed _ e => exact ⟨.error e, rfl⟩

namespace Controller

variable {γ : Type} [Guest γ]

/-- Whatever the guest does and wherever the controller stands: if the guest ends the old run, where there is one to end, a start
and a stop followed by a start answer the same and leave the same controller, its journal apart; the guest receives the same
calls, and first of all the one that ends the old run. If the guest fails to end it, the start answers why, and that call is all
that happens to the machine: nothing is allocated, no run is prepared, and what is pending and the clock's anchor stay as they
are. -/
theorem start_eq_stop_start (c : Controller (Recorded γ)) (source : String) :
    let ended := Guest.call .deinitRun c.machine
    let started := c.start source
    ((c.runActive = true → ended.1 = .ok ()) →
      started.1 = (c.stop.start source).1 ∧ started.2.unlogged = (c.stop.start source).2.unlogged ∧
        started.2.standing = (c.stop.start source).2.standing ∧ started.2.calls = (c.stop.start source).2.calls ∧
        ∃ given back, started.2.calls = c.calls ++ c.standing.ending ++ (given ++ back) ∧
          (∀ call ∈ given, call.IsHandOff) ∧
          (back = [] ∨ (∃ call ∈ given, call.OpensRun) ∧ ∃ ended, back = [⟨.deinitRun, ended⟩])) ∧
      (∀ e, c.runActive = true → ended.1 = .error e →
        started.1 = .error (.guest e) ∧ started.2.state = .faulted ∧ started.2.runActive = false ∧
          started.2.machine = ended.2 ∧ started.2.calls = c.calls ++ [⟨.deinitRun, .error e⟩]) := by
  intro ended started
  constructor
  · intro hended
    obtain ⟨c₁, htorn⟩ := exists_teardown hended
    obtain ⟨hanswer, hleft⟩ := start_stop_of_teardown htorn source
    have hstanding : started.2.unlogged.standing = (c.stop.start source).2.unlogged.standing := congrArg standing hleft
    have hcalls : started.2.unlogged.calls = (c.stop.start source).2.unlogged.calls := congrArg calls hleft
    obtain ⟨torn, hfirst, ht⟩ := c.teardown_goes
    rw [htorn] at hfirst ht
    obtain ⟨new, hnew, hb⟩ := begin_goes source htorn
    obtain ⟨given, back, rfl, hgiven, hback⟩ := hb.handsOver
    refine ⟨hanswer, hleft, hstanding, hcalls, given, back, ?_, hgiven, hback⟩
    rw [← ht.eq_ending, ← hfirst]
    exact hnew
  · intro e hactive he
    have hstart : started = _ := start_of_clinging hactive he source
    have hcall : Guest.call .deinitRun c.machine = (.error e, ended.2) := Prod.ext he rfl
    rw [hstart]
    exact ⟨rfl, rfl, rfl, rfl, Machine.calls_of_call hcall⟩

/-- A running program is replaced, once by a guest that ends its run and once by one that does not. -/
theorem start_eq_stop_start_running :
    (∃ c : Controller (Recorded Fixed), create Fixed.willing.machine.record = .ok c ∧
      (c.after [.start ""]).runActive = true ∧
        ((c.after [.start ""]).start "x").1 = ((c.after [.start ""]).stop.start "x").1) ∧
      ∃ c : Controller (Recorded Fixed), create Fixed.clinging.machine.record = .ok c ∧
        (c.after [.start ""]).runActive = true ∧
          ((c.after [.start ""]).start "x").1 = .error (.guest (.trap "deinitInterpreter" none)) := by
  constructor
  · let c : Controller (Recorded Fixed) := { machine := Fixed.willing.machine.record [⟨.setUp, .ok ()⟩] }
    obtain ⟨hends, -⟩ := start_eq_stop_start (c.after [.start ""]) "x"
    obtain ⟨hsame, -⟩ := hends fun _ => rfl
    exact ⟨c, rfl, rfl, hsame⟩
  · let c : Controller (Recorded Fixed) := { machine := Fixed.clinging.machine.record [⟨.setUp, .ok ()⟩] }
    obtain ⟨-, hclings⟩ := start_eq_stop_start (c.after [.start ""]) "x"
    obtain ⟨hanswer, -⟩ := hclings (.trap "deinitInterpreter" none) rfl rfl
    exact ⟨c, rfl, rfl, hanswer⟩

end Controller

end Playground
