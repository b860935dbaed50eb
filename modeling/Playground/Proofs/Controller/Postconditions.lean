import Playground.Proofs.Controller.Calls
import Playground.Proofs.Controller.Frame
import Playground.Proofs.Guest.Fixed

/-!
# What a start and a stop leave

A start answers success with its program running, or it leaves the controller faulted, without a run and with a fault that says what
was answered (`start_leaves`). A stop ends the active run, if its phase has one to end, and does nothing else; so a second one has
nothing to do (`stop_only_ends`).
-/

namespace Playground

variable {p q : Standing} {new : List Call}

/-! ## The end of a start -/

/-- Where a start leads that is not answered with success. -/
structure Standing.Foiled (p q : Standing) : Prop where
  state : q.state = .faulted
  runActive : q.runActive = false
  runs : q.runs = p.runs

/-- A teardown that fails foils the start that it was made for, and the fault stays. -/
theorem TornDown.foiled {e : HostError} (h : TornDown p (.error e) new q) : p.Foiled q ∧ q.fault = p.fault := by
  obtain ⟨hactive, hfault, hruns, -⟩ := h.frame
  exact ⟨⟨h.state_of_error, hactive, hruns⟩, hfault⟩

/-- Where a start leads that is answered with success. -/
structure Standing.Launches (p q : Standing) : Prop where
  state : q.state = .running
  runActive : q.runActive = true
  fault : q.fault = none
  runs : q.runs = p.runs + 1

/-- With the old run gone, a start answers success and its program runs, or it is foiled, and the fault is the outcome that it
answers, if it answers one. -/
theorem Begun.launches_or_foiled {source : String} {result : Except HostError Outcome} (h : Begun p source result new q)
    (hinactive : p.runActive = false) :
    (result = .ok .success ∧ p.Launches q) ∨ (result ≠ .ok .success ∧ p.Foiled q ∧ q.fault = result.toOption) := by
  cases h with
  | failed _ => exact .inr ⟨nofun, ⟨rfl, hinactive, rfl⟩, rfl⟩
  | refused _ ho => exact .inr ⟨fun h => ho (Except.ok.inj h), ⟨rfl, hinactive, rfl⟩, rfl⟩
  | launched _ => exact .inl ⟨rfl, rfl, rfl, rfl, rfl⟩
  | abandoned _ e ht =>
    obtain ⟨hactive, hfault, hruns, -⟩ := ht.frame
    exact .inr ⟨nofun, ⟨ht.state_of_faulted rfl, hactive, hruns⟩, hfault⟩

namespace Controller

variable {γ : Type} [Guest γ] {c : Controller γ}

omit [Guest γ] in
/-- Input is refused unless a program runs. -/
theorem pushInput_of_not_running (h : c.state ≠ .running) (bytes : List UInt8) : c.pushInput bytes = (false, c) := by
  simp [pushInput, h]

/-- A faulted program makes no step. -/
theorem step_of_faulted (h : c.state = .faulted) (budget : UInt32) :
    c.step budget = (.error (.invalidTransition "step" .faulted), c) := by
  unfold step
  rw [h]

/-- A start comes to the point where the console is cleared for its program, and the console refuses. -/
structure ClearFails (c : Controller γ) (source : String) (e : ConsoleError) (given : Controller γ) : Prop where
  /-- The old run was torn down, and then the guest accepted the program. -/
  accepted : ∃ torn, c.teardown = (.ok (), torn) ∧
    torn.beginStart.callWithSource (.ofText source) initUse = (.ok .success, given)
  clears : given.clearOnStart = true
  refused : given.machine.bridge.clearConsole.1 = .error e

/-- Then the console's error is the answer, and all that still happens to the machine is that the run is ended. -/
theorem ClearFails.start {source : String} {e : ConsoleError} {given : Controller γ} (h : c.ClearFails source e given) :
    (c.start source).1 = .error (.console e) ∧
      (c.start source).2.machine =
        (Guest.call .deinitRun { given.machine with bridge := given.machine.bridge.clearConsole.2 }).2 := by
  obtain ⟨⟨torn, htorn, hgiven⟩, hclears, hrefused⟩ := h
  have hstart : c.start source = given.launch := by
    unfold Controller.start startPayload
    rw [htorn]
    dsimp only
    rw [hgiven]
  obtain ⟨hanswer, hmachine, -⟩ := abandon_of_active
    (c := { given with runActive := true, machine :=
      { given.machine with bridge := given.machine.bridge.clearConsole.2 } }) rfl e
  have hlaunch : given.launch =
      abandon { given with runActive := true, machine :=
        { given.machine with bridge := given.machine.bridge.clearConsole.2 } } e := by
    have hcleared : given.machine.bridge.clearConsole = (.error e, given.machine.bridge.clearConsole.2) :=
      Prod.ext hrefused rfl
    unfold launch
    simp only [if_pos hclears]
    rw [hcleared]
  rw [hstart, hlaunch]
  exact ⟨hanswer, hmachine⟩

/-- The three ways in which a start ends: the old run is gone and the program runs; the old run is gone and the program does not
get to run; the old run cannot be torn down. -/
theorem start_ends (c : Controller (Recorded γ)) (source : String) :
    (c.teardown.1 = .ok () ∧ (c.start source).1 = .ok .success ∧ c.standing.Launches (c.start source).2.standing) ∨
      (c.teardown.1 = .ok () ∧ (c.start source).1 ≠ .ok .success ∧ c.standing.Foiled (c.start source).2.standing ∧
        (c.start source).2.fault = (c.start source).1.toOption) ∨
      ∃ e, c.teardown.1 = .error e ∧ (c.start source).1 = .error e ∧ c.standing.Foiled (c.start source).2.standing ∧
        (c.start source).2.fault = c.fault := by
  obtain ⟨torn, -, ht⟩ := c.teardown_goes
  rcases htorn : c.teardown with ⟨e | _, c₁⟩
  · rw [htorn] at ht
    rw [start_of_teardown_error source htorn]
    obtain ⟨hfoiled, hfault⟩ := ht.foiled
    exact .inr (.inr ⟨e, rfl, rfl, hfoiled, hfault⟩)
  · rw [htorn] at ht
    obtain ⟨hinactive, -, hruns, -⟩ := ht.frame
    obtain ⟨new, -, hb⟩ := begin_goes source htorn
    obtain ⟨hanswer, hl⟩ | ⟨hanswer, hf, hfault⟩ := hb.launches_or_foiled hinactive
    · exact .inl ⟨rfl, hanswer, hl.state, hl.runActive, hl.fault, hl.runs.trans (congrArg (· + 1) hruns)⟩
    · exact .inr (.inl ⟨rfl, hanswer, ⟨hf.state, hf.runActive, hf.runs.trans hruns⟩, hfault⟩)

/-- Wherever the controller stands and whatever the guest does: a start that answers success leaves its program running, with an
active run, no fault and one more run counted. After any other start the program is faulted, no run is active, no run was counted,
a step is refused without a guest call and input is dropped. The fault is then the outcome that was answered; it is none if the
start failed once the old run was gone, and the old one if that could not be torn down. Where the console cannot be cleared for the
program, its run is ended by one call, and the console's error is answered, whatever that call comes to. -/
theorem start_leaves (c : Controller (Recorded γ)) (source : String) :
    let answer := (c.start source).1
    let d := (c.start source).2
    (answer = .ok .success → d.state = .running ∧ d.runActive = true ∧ d.fault = none ∧ d.runs = c.runs + 1) ∧
      (answer ≠ .ok .success →
        d.state = .faulted ∧ d.runActive = false ∧ d.runs = c.runs ∧
          (∀ budget, d.step budget = (.error (.invalidTransition "step" .faulted), d)) ∧
          ∀ bytes, d.pushInput bytes = (false, d)) ∧
      (∀ o, answer = .ok o → o ≠ .success → d.fault = some o) ∧
      (∀ e, answer = .error e → c.teardown.1 = .ok () → d.fault = none) ∧
      (∀ e, c.teardown.1 = .error e → answer = .error e ∧ d.fault = c.fault) ∧
      ∀ e given, c.ClearFails source e given →
        answer = .error (.console e) ∧ ∃ ended, d.calls = given.calls ++ [⟨.deinitRun, ended⟩] := by
  intro answer d
  have hends := c.start_ends source
  have hrefuses : c.standing.Foiled d.standing → d.state = .faulted ∧ d.runActive = false ∧ d.runs = c.runs ∧
      (∀ budget, d.step budget = (.error (.invalidTransition "step" .faulted), d)) ∧
      ∀ bytes, d.pushInput bytes = (false, d) := by
    intro hf
    have hstate : d.state = .faulted := hf.state
    exact ⟨hstate, hf.runActive, hf.runs, step_of_faulted hstate,
      pushInput_of_not_running fun h => nomatch hstate.symm.trans h⟩
  refine ⟨?_, ?_, ?_, ?_, ?_, ?_⟩
  · intro hanswer
    obtain ⟨-, -, hl⟩ | ⟨-, hne, -⟩ | ⟨e, -, herror, -⟩ := hends
    · exact ⟨hl.state, hl.runActive, hl.fault, hl.runs⟩
    · exact absurd hanswer hne
    · exact nomatch hanswer.symm.trans herror
  · intro hanswer
    obtain ⟨-, hok, -⟩ | ⟨-, -, hf, -⟩ | ⟨e, -, -, hf, -⟩ := hends
    · exact absurd hok hanswer
    · exact hrefuses hf
    · exact hrefuses hf
  · intro o hanswer ho
    obtain ⟨-, hok, -⟩ | ⟨-, -, -, hfault⟩ | ⟨e, -, herror, -⟩ := hends
    · exact absurd (Except.ok.inj (hanswer.symm.trans hok)) ho
    · exact hfault.trans (congrArg Except.toOption hanswer)
    · exact nomatch hanswer.symm.trans herror
  · intro e hanswer htorn
    obtain ⟨-, hok, -⟩ | ⟨-, -, -, hfault⟩ | ⟨e', herror, -⟩ := hends
    · exact nomatch hanswer.symm.trans hok
    · exact hfault.trans (congrArg Except.toOption hanswer)
    · exact nomatch htorn.symm.trans herror
  · intro e htorn
    obtain ⟨hok, -⟩ | ⟨hok, -⟩ | ⟨e', herror, hanswer, -, hfault⟩ := hends
    · exact nomatch htorn.symm.trans hok
    · exact nomatch htorn.symm.trans hok
    · obtain rfl := Except.error.inj (htorn.symm.trans herror)
      exact ⟨hanswer, hfault⟩
  · intro e given hfails
    obtain ⟨hanswer, hmachine⟩ := hfails.start
    have hcalls := congrArg Machine.calls hmachine
    rw [Machine.calls_call] at hcalls
    exact ⟨hanswer, _, hcalls⟩

/-- A guest that ends no run accepts a program, and the console cannot be cleared for it. -/
theorem start_leaves_uncleared :
    ∃ c : Controller (Recorded Fixed),
      create (⟨Memory.zeroed 1, { sink := .failing [] [1] }, Fixed.clinging⟩ : Machine Fixed).record = .ok c ∧
        c.teardown.1 = .ok () ∧ (c.start "").1 = .error (.console Sink.refused) ∧ (c.start "").2.fault = none ∧
        (c.start "").2.pushInput [7] = (false, (c.start "").2) ∧
        ∃ given, c.ClearFails "" Sink.refused given ∧
          ∃ ended, (c.start "").2.calls = given.calls ++ [⟨.deinitRun, ended⟩] := by
  let m : Machine Fixed := ⟨Memory.zeroed 1, { sink := .failing [] [1] }, Fixed.clinging⟩
  let c : Controller (Recorded Fixed) := { machine := m.record [⟨.setUp, .ok ()⟩] }
  have hfails : c.ClearFails "" Sink.refused _ := ⟨⟨_, rfl, rfl⟩, rfl, rfl⟩
  obtain ⟨-, hrefuses, -, hfault, -, hended⟩ := start_leaves c ""
  obtain ⟨hanswer, hcalls⟩ := hended _ _ hfails
  obtain ⟨-, -, -, -, hpush⟩ := hrefuses (hanswer ▸ nofun)
  exact ⟨c, rfl, rfl, hanswer, hfault _ hanswer rfl, hpush [7], _, hfails, hcalls⟩

end Controller

/-! ## The end of a stop -/

/-- The ways in which a stop ends the run. Where there is none that its phase lets it end, it does nothing; a running program is
stopped, or faulted if the guest fails; a faulted one stays so. -/
inductive Standing.Ends (p : Standing) : List Call → Standing → Prop where
  | nothing (hr : p.state ≠ .running) (hf : p.state = .faulted → p.runActive = false) : Ends p [] p
  | stopped (hs : p.state = .running) (ha : p.runActive = true) :
    Ends p [⟨.deinitRun, .ok ()⟩] { p with state := .stopped, runActive := false }
  | failed (hs : p.state = .running) (ha : p.runActive = true) (e : GuestError) :
    Ends p [⟨.deinitRun, .error e⟩] { p with state := .faulted, runActive := false }
  | faulted (hs : p.state = .faulted) (ha : p.runActive = true) (ended : Except GuestError Unit) :
    Ends p [⟨.deinitRun, ended⟩] { p with runActive := false }

/-- A running program has a run to end, so a stop of a sound controller goes in one of these ways. -/
theorem Halted.ends (h : Halted p new q) (hp : p.Sound) : p.Ends new q := by
  cases h with
  | running hs ht =>
    have hactive := hp.active_of_running hs
    cases ht with
    | none h => exact nomatch h.symm.trans hactive
    | ended _ => exact .stopped hs hactive
    | failed _ e => exact .failed hs hactive e
  | faulted hs ht =>
    cases ht with
    | none h => exact .nothing (fun hr => nomatch hs.symm.trans hr) fun _ => h
    | ended ha => exact .faulted hs ha (.ok ())
    | failed ha e =>
      have hsame : ({ p with runActive := false, state := .faulted } : Standing) = { p with runActive := false } := by
        rw [← hs]
      exact hsame ▸ .faulted hs ha (.error e)
  | idle hr hf => exact .nothing hr fun h => absurd h hf

namespace Standing.Ends

/-- Afterwards there is nothing left to end. -/
theorem settled (h : p.Ends new q) : q.state ≠ .running ∧ (q.state = .faulted → q.runActive = false) := by
  cases h with
  | nothing hr hf => exact ⟨hr, hf⟩
  | stopped _ _ => exact ⟨nofun, nofun⟩
  | failed _ _ e => exact ⟨nofun, fun _ => rfl⟩
  | faulted hs _ ended => exact ⟨fun hr => (nomatch hs.symm.trans hr), fun _ => rfl⟩

/-- The call to end the run is made where there is a run to end, and it decides what becomes of a program that runs. -/
theorem calls (h : p.Ends new q) :
    (new = [] ∨ ∃ ended, new = [⟨.deinitRun, ended⟩]) ∧
      (new ≠ [] ↔ p.runActive = true ∧ (p.state = .running ∨ p.state = .faulted)) ∧
      (p.state = .running →
        (new = [⟨.deinitRun, .ok ()⟩] ∧ q.state = .stopped) ∨
          ∃ e, new = [⟨.deinitRun, .error e⟩] ∧ q.state = .faulted) := by
  cases h with
  | nothing hr hf =>
    refine ⟨.inl rfl, ⟨fun h => absurd rfl h, ?_⟩, fun h => absurd h hr⟩
    rintro ⟨ha, h | h⟩
    · exact absurd h hr
    · exact nomatch (hf h).symm.trans ha
  | stopped hs ha => exact ⟨.inr ⟨_, rfl⟩, ⟨fun _ => ⟨ha, .inl hs⟩, fun _ => nofun⟩, fun _ => .inl ⟨rfl, rfl⟩⟩
  | failed hs ha e => exact ⟨.inr ⟨_, rfl⟩, ⟨fun _ => ⟨ha, .inl hs⟩, fun _ => nofun⟩, fun _ => .inr ⟨e, rfl, rfl⟩⟩
  | faulted hs ha ended =>
    exact ⟨.inr ⟨_, rfl⟩, ⟨fun _ => ⟨ha, .inr hs⟩, fun _ => nofun⟩, fun h => (nomatch hs.symm.trans h)⟩

/-- The fault and the counts stay. -/
theorem frame (h : p.Ends new q) : q.fault = p.fault ∧ q.runs = p.runs ∧ q.generation = p.generation := by
  cases h <;> exact ⟨rfl, rfl, rfl⟩

/-- Only a program that ran comes to another phase, and a program that ran or was faulted has no active run any more. -/
theorem phase (h : p.Ends new q) :
    (p.state ≠ .running → q.state = p.state) ∧ (p.state = .running ∨ p.state = .faulted → q.runActive = false) := by
  cases h with
  | nothing hr hf => exact ⟨fun _ => rfl, fun h => h.elim (fun h => absurd h hr) hf⟩
  | stopped hs _ => exact ⟨fun h => absurd hs h, fun _ => rfl⟩
  | failed hs _ e => exact ⟨fun h => absurd hs h, fun _ => rfl⟩
  | faulted hs _ ended => exact ⟨fun _ => rfl, fun _ => rfl⟩

end Standing.Ends

namespace Controller

variable {γ : Type} [Guest γ]

/-- A stop that finds nothing to end does nothing, and notes nothing. -/
theorem stop_of_settled {c : Controller γ} (hr : c.state ≠ .running) (hf : c.state = .faulted → c.runActive = false) :
    c.stop = c := by
  unfold stop
  cases hs : c.state with
  | running => exact absurd hs hr
  | faulted => simp only [teardown_of_inactive (hf hs)]
  | idle | compiling | stopped => rfl

/-- All that a teardown does to the machine is to have the active run ended. -/
theorem machine_teardown (c : Controller γ) :
    c.teardown.2.machine = if c.runActive = true then (Guest.call .deinitRun c.machine).2 else c.machine := by
  unfold teardown
  split
  · rcases Guest.call .deinitRun c.machine with ⟨_ | _, m⟩ <;> rfl
  · rfl

/-- A stop does no more, and only where the program runs or is faulted. -/
theorem machine_stop (c : Controller γ) :
    c.stop.machine =
      if c.runActive = true ∧ (c.state = .running ∨ c.state = .faulted) then (Guest.call .deinitRun c.machine).2
      else c.machine := by
  unfold stop
  cases hs : c.state with
  | running =>
    have hmachine := machine_teardown { c with state := .stopped }
    dsimp only
    generalize teardown { c with state := .stopped } = torn at hmachine ⊢
    obtain ⟨_ | _, c'⟩ := torn <;> simpa [note] using hmachine
  | faulted =>
    have hmachine := c.machine_teardown
    dsimp only
    generalize c.teardown = torn at hmachine ⊢
    obtain ⟨_ | _, c'⟩ := torn <;> simpa [note] using hmachine
  | idle | compiling | stopped => simp

/-- Whatever the guest does and whatever was done with its controller before: a second stop changes nothing at all. A stop makes
one call or none, to end the run, and makes it exactly if a run is active and the program runs or is faulted; that call is all that
happens to the machine. The fault and the counts stay. A program that ran is stopped if the call succeeded and faulted if it
failed, every other phase stays, and a program that ran or was faulted has no active run any more. -/
theorem stop_only_ends {m : Machine γ} {clear : Bool} {c : Controller (Recorded γ)} (h : create m.record clear = .ok c)
    (ops : List Operation) :
    let before := c.after ops
    let after := before.stop
    let ends := before.runActive = true ∧ (before.state = .running ∨ before.state = .faulted)
    after.stop = after ∧
      (∃ new, after.calls = before.calls ++ new ∧ (new = [] ∨ ∃ ended, new = [⟨.deinitRun, ended⟩]) ∧
        (new ≠ [] ↔ ends) ∧
        (before.state = .running →
          (new = [⟨.deinitRun, .ok ()⟩] ∧ after.state = .stopped) ∨
            ∃ e, new = [⟨.deinitRun, .error e⟩] ∧ after.state = .faulted)) ∧
      ((ends → after.machine = (Guest.call .deinitRun before.machine).2) ∧ (¬ends → after.machine = before.machine)) ∧
      (after.fault = before.fault ∧ after.runs = before.runs ∧ after.generation = before.generation) ∧
      (before.state ≠ .running → after.state = before.state) ∧
      (before.state = .running ∨ before.state = .faulted → after.runActive = false) := by
  intro before after ends
  obtain ⟨new, hcalls, hhalted⟩ := before.stop_goes
  have hends := hhalted.ends (sound_after h ops)
  obtain ⟨hr, hf⟩ := hends.settled
  have hmachine := before.machine_stop
  refine ⟨stop_of_settled hr hf, ⟨new, hcalls, hends.calls⟩, ⟨fun he => ?_, fun he => ?_⟩, hends.frame, hends.phase⟩
  · rwa [if_pos he] at hmachine
  · rwa [if_neg he] at hmachine

/-- A program runs and is stopped, once by a guest that ends its run and once by one that does not. -/
theorem stop_only_ends_running :
    (∃ c : Controller (Recorded Fixed), create Fixed.willing.machine.record = .ok c ∧
      (c.after [.start ""]).state = .running ∧ (c.after [.start ""]).stop.stop = (c.after [.start ""]).stop ∧
        (c.after [.start ""]).stop.runActive = false) ∧
      ∃ c : Controller (Recorded Fixed), create Fixed.clinging.machine.record = .ok c ∧
        (c.after [.start ""]).state = .running ∧ (c.after [.start ""]).stop.stop = (c.after [.start ""]).stop ∧
          (c.after [.start ""]).stop.state ≠ .stopped ∧ (c.after [.start ""]).stop.fault = none := by
  constructor
  · let c : Controller (Recorded Fixed) := { machine := Fixed.willing.machine.record [⟨.setUp, .ok ()⟩] }
    have h : create Fixed.willing.machine.record = .ok c := rfl
    obtain ⟨htwice, -, -, -, -, hactive⟩ := stop_only_ends h [.start ""]
    exact ⟨c, h, rfl, htwice, hactive (.inl rfl)⟩
  · let c : Controller (Recorded Fixed) := { machine := Fixed.clinging.machine.record [⟨.setUp, .ok ()⟩] }
    have h : create Fixed.clinging.machine.record = .ok c := rfl
    obtain ⟨htwice, -, -, ⟨hfault, -, -⟩, -, -⟩ := stop_only_ends h [.start ""]
    exact ⟨c, h, rfl, htwice, nofun, hfault⟩

end Controller

end Playground
