import Playground.Proofs.Scheduler.Calls
import Playground.Session

/-!
# Cancelling a session

A session's program runs in every gap between two ticks that its run comes to (`Underway`): signals other than the request to stop
only push input, and a tick that wants another one leaves the program running. So a request to stop finds the program running,
whichever gap it falls into, and ends its run (`Ceased`). What arrives afterwards finds no running program and changes nothing, and
the tick that closes the gap ends the session's run without a call.
-/

namespace Playground

/-- How a session's run ends once its program was stopped: as cancelled if the guest ended the program's run, and else with an
alarm. -/
def SessionExit.ofTeardown : Except GuestError Unit → SessionExit
  | .ok () => .cancelled
  | .error _ => .alarm .invalidState

namespace Session

variable {γ σ : Type} [Guest γ]

/-- Where a run stands when it comes to one of its gaps, counted from zero: the session, what it listens to, and the source of its
signals. `none` when the run ends before. -/
def gap (arrivals : Machine γ → σ → List Signal × σ) :
    Nat → Session γ → Listening → σ → Option (Session γ × Listening × σ)
  | 0, s, l, w => some (s, l, w)
  | n + 1, s, l, w =>
    let (signals, w) := arrivals s.controller.machine w
    let (s, l) := s.receiveAll l signals
    match s.tick with
    | (some _, _) => none
    | (none, s) => gap arrivals n s l w

/-- From a gap that it comes to, a run goes on with the ticks that are left. -/
theorem loop_of_gap {arrivals : Machine γ → σ → List Signal × σ} {n : Nat} {s s' : Session γ} {l l' : Listening} {w w' : σ}
    (h : gap arrivals n s l w = some (s', l', w')) (fuel : Nat) :
    s.loop arrivals (n + fuel) l w = s'.loop arrivals fuel l' w' := by
  induction n generalizing s l w with
  | zero =>
    cases h
    rw [Nat.zero_add]
  | succ n ih =>
    rw [Nat.add_right_comm]
    unfold gap at h
    rw [loop]
    generalize arrivals s.controller.machine w = arrived at h ⊢
    obtain ⟨signals, w₁⟩ := arrived
    dsimp only at h ⊢
    generalize s.receiveAll l signals = received at h ⊢
    obtain ⟨s₁, l₁⟩ := received
    dsimp only at h ⊢
    generalize s₁.tick = ticked at h ⊢
    obtain ⟨_ | result, s₂⟩ := ticked
    · exact ih h
    · cases h

/-! ## Signals -/

/-- Between two moments of a gap, nothing happened but that input was pushed, to a program that is running. -/
structure Undisturbed (a b : Session (Recorded γ) × Listening) : Prop where
  scheduler_eq : b.1.scheduler = a.1.scheduler
  standing_eq : b.1.controller.standing = a.1.controller.standing
  cancel_eq : b.2.cancel = a.2.cancel
  machine_eq : a.1.controller.state ≠ .running → b.1.controller.machine = a.1.controller.machine

namespace Undisturbed

variable {a b c : Session (Recorded γ) × Listening}

omit [Guest γ] in
theorem refl (a : Session (Recorded γ) × Listening) : Undisturbed a a := ⟨rfl, rfl, rfl, fun _ => rfl⟩

omit [Guest γ] in
theorem trans (hab : Undisturbed a b) (hbc : Undisturbed b c) : Undisturbed a c where
  scheduler_eq := hbc.scheduler_eq.trans hab.scheduler_eq
  standing_eq := hbc.standing_eq.trans hab.standing_eq
  cancel_eq := hbc.cancel_eq.trans hab.cancel_eq
  machine_eq ha := by
    have hstate : b.1.controller.state = a.1.controller.state := congrArg Standing.state hab.standing_eq
    exact (hbc.machine_eq (hstate ▸ ha)).trans (hab.machine_eq ha)

end Undisturbed

variable {s s' : Session (Recorded γ)} {l l' : Listening}

/-- A signal disturbs nothing, unless it is the request to stop and the run still listens to it. -/
theorem receive_undisturbed (s : Session (Recorded γ)) {signal : Signal} (h : signal = .cancel → l.cancel = false) :
    Undisturbed (s, l) (s.receive l signal) := by
  cases signal with
  | cancel =>
    simp only [receive, h rfl]
    exact .refl (s, l)
  | chunk bytes =>
    by_cases hopen : l.input = true
    · simp only [receive, if_pos hopen]
      refine ⟨rfl, (s.controller.pushInput_goes bytes).2, rfl, fun hs => ?_⟩
      have hs' : s.controller.state ≠ .running := hs
      simp only [Controller.pushInput, if_neg hs']
    · simp only [receive, if_neg hopen]
      exact .refl (s, l)
  | endOfInput => exact ⟨rfl, rfl, rfl, fun _ => rfl⟩
  | inputFailed reason =>
    by_cases hopen : l.input = true
    · simp only [receive, if_pos hopen]
      exact ⟨rfl, rfl, rfl, fun _ => rfl⟩
    · simp only [receive, if_neg hopen]
      exact .refl (s, l)

/-- Signals in a row disturb nothing, unless a request to stop is among them to which the run still listens. -/
theorem receiveAll_undisturbed (s : Session (Recorded γ)) {signals : List Signal}
    (h : .cancel ∈ signals → l.cancel = false) : Undisturbed (s, l) (s.receiveAll l signals) := by
  induction signals generalizing s l with
  | nil => exact .refl (s, l)
  | cons signal signals ih =>
    have hfirst : Undisturbed (s, l) (s.receive l signal) :=
      s.receive_undisturbed fun hcancel => h (hcancel ▸ List.mem_cons_self ..)
    exact hfirst.trans (ih _ fun hmem => hfirst.cancel_eq.trans (h (List.mem_cons_of_mem _ hmem)))

/-- Signals are taken in one after the other. -/
theorem receiveAll_append (s : Session γ) (l : Listening) (signals signals' : List Signal) :
    s.receiveAll l (signals ++ signals') =
      (s.receiveAll l signals).1.receiveAll (s.receiveAll l signals).2 signals' :=
  List.foldl_append

/-! ## Before and after the request -/

/-- The session's program runs, and the next tick goes to it. -/
structure Underway (s : Session (Recorded γ)) : Prop where
  drives : s.scheduler.Drives s.controller.standing
  active : s.controller.runActive = true
  fault_eq : s.controller.fault = none

/-- The session's program was stopped and its run torn down, which came to `ended`, and no tick has been made since. -/
structure Ceased (ended : Except GuestError Unit) (s : Session (Recorded γ)) : Prop where
  armed : s.scheduler.armed = true
  generation_eq : s.controller.generation = s.scheduler.generation
  inactive : s.controller.runActive = false
  stopped_of_ok : ended = .ok () → s.controller.state = .stopped
  faulted_of_error : ∀ e, ended = .error e → s.controller.state = .faulted ∧ s.controller.fault = none

section Undisturbed

variable {a b : Session (Recorded γ) × Listening}

omit [Guest γ] in
/-- A run that is underway stays so while nothing disturbs it. -/
theorem Underway.undisturbed (h : Underway a.1) (hab : Undisturbed a b) : Underway b.1 := by
  obtain ⟨hd, hactive, hfault⟩ := h
  obtain ⟨hscheduler, hstanding, -, -⟩ := hab
  refine ⟨?_, (congrArg Standing.runActive hstanding).trans hactive, (congrArg Standing.fault hstanding).trans hfault⟩
  rwa [hscheduler, hstanding]

omit [Guest γ] in
/-- So does one that has ceased. -/
theorem Ceased.undisturbed {ended : Except GuestError Unit} (h : Ceased ended a.1) (hab : Undisturbed a b) :
    Ceased ended b.1 := by
  obtain ⟨harmed, hg, hinactive, hstopped, hfaulted⟩ := h
  obtain ⟨hscheduler, hstanding, -, -⟩ := hab
  have hstate : b.1.controller.state = a.1.controller.state := congrArg Standing.state hstanding
  have hfault : b.1.controller.fault = a.1.controller.fault := congrArg Standing.fault hstanding
  have hgeneration : b.1.controller.generation = a.1.controller.generation := congrArg Standing.generation hstanding
  refine ⟨?_, ?_, (congrArg Standing.runActive hstanding).trans hinactive, ?_, ?_⟩
  · rwa [hscheduler]
  · rwa [hscheduler, hgeneration]
  · rwa [hstate]
  · rwa [hstate, hfault]

end Undisturbed

omit [Guest γ] in
/-- A program that has ceased is not running. -/
theorem Ceased.ne_running {ended : Except GuestError Unit} (h : Ceased ended s) : s.controller.state ≠ .running := by
  intro hs
  rcases ended with e | _
  · exact nomatch hs.symm.trans (h.faulted_of_error e rfl).1
  · exact nomatch hs.symm.trans (h.stopped_of_ok rfl)

/-- The request to stop ends the run of the program, with one call. -/
theorem Underway.receive_cancel (h : Underway s) (hl : l.cancel = true) :
    ∃ ended, (s.receive l .cancel).1.controller.calls = s.controller.calls ++ [⟨.deinitRun, ended⟩] ∧
      Ceased ended (s.receive l .cancel).1 ∧ (s.receive l .cancel).2.cancel = false ∧
      (s.receive l .cancel).1.scheduler = s.scheduler := by
  obtain ⟨⟨harmed, hg, hs⟩, hactive, hfault⟩ := h
  obtain ⟨torn, hcalls, hhalted⟩ := (s.controller.note [.stopRequested]).stop_goes
  simp only [receive, hl, if_true]
  generalize hleft : (s.controller.note [.stopRequested]).stop = left at hcalls hhalted ⊢
  generalize hstanding : left.standing = q at hhalted
  have hgeneration : left.generation = q.generation := congrArg Standing.generation hstanding
  have hrunActive : left.runActive = q.runActive := congrArg Standing.runActive hstanding
  have hstate : left.state = q.state := congrArg Standing.state hstanding
  have hfaultEq : left.fault = q.fault := congrArg Standing.fault hstanding
  cases hhalted with
  | running _ ht =>
    cases ht with
    | none hinactive => exact nomatch hactive.symm.trans hinactive
    | ended _ =>
      exact ⟨.ok (), hcalls, ⟨harmed, hgeneration.trans hg, hrunActive, fun _ => hstate, nofun⟩, trivial, trivial⟩
    | failed _ e =>
      exact ⟨.error e, hcalls,
        ⟨harmed, hgeneration.trans hg, hrunActive, nofun, fun _ _ => ⟨hstate, hfaultEq.trans hfault⟩⟩, trivial, trivial⟩
  | faulted hfaulted _ => exact nomatch hs.symm.trans hfaulted
  | idle hnot _ => exact absurd hs hnot

/-- The first request to stop in a gap ends the run of the program, whatever arrived before it; what arrives behind it disturbs
nothing. -/
theorem Underway.receiveAll_cancel (h : Underway s) (hl : l.cancel = true) {before : List Signal} (hfirst : .cancel ∉ before)
    (after : List Signal) :
    let asked := s.receiveAll l before
    let handled := asked.1.receive asked.2 .cancel
    (∃ ended, handled.1.controller.calls = asked.1.controller.calls ++ [⟨.deinitRun, ended⟩] ∧ Ceased ended handled.1) ∧
      handled.2.cancel = false ∧ handled.1.scheduler = s.scheduler ∧
      Undisturbed handled (s.receiveAll l (before ++ .cancel :: after)) := by
  intro asked handled
  have hbefore : Undisturbed (s, l) asked := s.receiveAll_undisturbed fun hmem => absurd hmem hfirst
  obtain ⟨ended, hcalls, hceased, hlistening, hscheduler⟩ :=
    (h.undisturbed hbefore).receive_cancel (hbefore.cancel_eq.trans hl)
  refine ⟨⟨ended, hcalls, hceased⟩, hlistening, hscheduler.trans hbefore.scheduler_eq, ?_⟩
  rw [receiveAll_append]
  exact receiveAll_undisturbed handled.1 fun _ => hlistening

/-! ## Ticks -/

/-- A tick that wants another one leaves the program running. -/
theorem Underway.tick (h : Underway s) (htick : s.tick = (none, s')) : Underway s' := by
  obtain ⟨new, -, hticked⟩ := s.scheduler.tick_goes s.controller
  have hdriven := hticked.driven h.drives h.active
  unfold Session.tick at htick
  generalize s.scheduler.tick s.controller = ticked at hdriven htick
  obtain ⟨result, loop, c⟩ := ticked
  dsimp only at hdriven
  generalize hstanding : c.standing = q at hdriven
  cases hdriven with
  | again =>
    obtain rfl := (Prod.mk.inj htick).2
    obtain ⟨⟨harmed, hg, hs⟩, hactive, hfault⟩ := h
    refine ⟨?_, (congrArg Standing.runActive hstanding).trans hactive, (congrArg Standing.fault hstanding).trans hfault⟩
    dsimp only
    rw [hstanding]
    exact ⟨harmed, hg, hs⟩
  | _ => cases htick

/-- The tick after a program was stopped ends the session's run, without a call and without a step. -/
theorem Ceased.tick {ended : Except GuestError Unit} (h : Ceased ended s) :
    s.tick.1 = some (.ok (.ofTeardown ended)) ∧ s.tick.2.controller.machine = s.controller.machine ∧
      s.tick.2.controller.runActive = false ∧ s.tick.2.scheduler.steps = s.scheduler.steps := by
  obtain ⟨harmed, hg, hinactive, hstopped, hfaulted⟩ := h
  unfold Session.tick
  rcases ended with e | _
  · obtain ⟨hs, hfault⟩ := hfaulted e rfl
    simp only [Scheduler.tick, harmed, hg, hs, hfault, if_true]
    exact ⟨rfl, rfl, hinactive, rfl⟩
  · rw [Scheduler.tick_of_stopped harmed hg (hstopped rfl)]
    exact ⟨rfl, rfl, hinactive, rfl⟩

/-! ## Runs -/

/-- The gap in which the request to stop arrives is the last one. -/
theorem Underway.ticks_after_cancel (h : Underway s) (hl : l.cancel = true) {signals : List Signal}
    (hcancel : .cancel ∈ signals) : (s.receiveAll l signals).1.tick.1 ≠ none := by
  obtain ⟨before, after, rfl, hfirst⟩ := List.eq_append_cons_of_mem hcancel
  obtain ⟨⟨ended, -, hceased⟩, -, -, hafter⟩ := h.receiveAll_cancel hl hfirst after
  rw [(hceased.undisturbed hafter).tick.1]
  nofun

/-- In every gap that a run comes to, the program runs and the run listens to the request to stop. -/
theorem Underway.of_gap {arrivals : Machine (Recorded γ) → σ → List Signal × σ} {n : Nat} {w w' : σ} (h : Underway s)
    (hl : l.cancel = true) (hgap : gap arrivals n s l w = some (s', l', w')) : Underway s' ∧ l'.cancel = true := by
  induction n generalizing s l w with
  | zero =>
    cases hgap
    exact ⟨h, hl⟩
  | succ n ih =>
    unfold gap at hgap
    generalize arrivals s.controller.machine w = arrived at hgap
    obtain ⟨signals, w₁⟩ := arrived
    dsimp only at hgap
    rcases htick : (s.receiveAll l signals).1.tick with ⟨_ | result, s₂⟩
    · rw [htick] at hgap
      -- The tick wanted another one, so the request to stop was not among the signals.
      have hnone : .cancel ∉ signals := fun hmem => h.ticks_after_cancel hl hmem (congrArg Prod.fst htick)
      have hquiet : Undisturbed (s, l) (s.receiveAll l signals) :=
        s.receiveAll_undisturbed fun hmem => absurd hmem hnone
      exact ih ((h.undisturbed hquiet).tick htick) (hquiet.cancel_eq.trans hl) hgap
    · rw [htick] at hgap
      cases hgap

/-- A run that comes to its first gap has its program running, and has made no step. -/
theorem underway_of_begin {source : String} (h : s.begin source = (none, s')) :
    Underway s' ∧ s'.scheduler.steps = 0 := by
  unfold begin at h
  generalize s.greet = greeted at h
  obtain ⟨_ | _, g⟩ := greeted
  · cases h
  dsimp only at h
  obtain ⟨new, -, hstarted⟩ := g.controller.start_goes source
  generalize g.controller.start source = started at h hstarted
  obtain ⟨e | outcome, c⟩ := started
  · cases h
  cases outcome with
  | success =>
    obtain rfl := (Prod.mk.inj h).2
    dsimp only at hstarted
    generalize hstanding : c.standing = q at hstarted
    cases hstarted with
    | begun _ hb =>
      cases hb with
      | refused _ ho => exact absurd rfl ho
      | launched _ =>
        have hs : c.state = .running := congrArg Standing.state hstanding
        exact ⟨⟨⟨rfl, rfl, hs⟩, congrArg Standing.runActive hstanding, congrArg Standing.fault hstanding⟩, rfl⟩
  | _ => cases h

/-- Whatever the guest does, and whatever arrives and when: a session's program was started, and in one of the gaps that its run
comes to, the request to stop arrives for the first time. It is handled by one `deinitRun`. No call follows, and nothing typed
behind it reaches the program; a further request changes nothing; and the tick that closes the gap ends the run, as cancelled if
that call succeeded and with an alarm if it failed, with no run active. If it is the first gap, no step has been made. -/
theorem run_cancelled {arrivals : Machine (Recorded γ) → σ → List Signal × σ} {source : String} {s₀ s₁ : Session (Recorded γ)}
    {n : Nat} {w w' w'' : σ} {before after : List Signal} (hbegin : s.begin source = (none, s₀))
    (hgap : gap arrivals n s₀ {} w = some (s₁, l, w'))
    (harrivals : arrivals s₁.controller.machine w' = (before ++ .cancel :: after, w'')) (hfirst : .cancel ∉ before) :
    let asked := s₁.receiveAll l before
    let handled := asked.1.receive asked.2 .cancel
    ∃ ended left,
      handled.1.controller.calls = asked.1.controller.calls ++ [⟨.deinitRun, ended⟩] ∧
        (∀ extra, s.run arrivals (n + 1 + extra) source w = (some (.ok (.ofTeardown ended)), left, w'')) ∧
        left.controller.machine = handled.1.controller.machine ∧
        (∀ later, later <+: after →
          let moment := handled.1.receiveAll handled.2 later
          moment.1.receive moment.2 .cancel = moment) ∧
        left.controller.runActive = false ∧ (n = 0 → left.scheduler.steps = 0) := by
  intro asked handled
  obtain ⟨hunderway, hsteps⟩ := underway_of_begin hbegin
  obtain ⟨hhere, hl⟩ := hunderway.of_gap rfl hgap
  obtain ⟨⟨ended, hcalls, hceased⟩, hlistening, hscheduler, hafter⟩ := hhere.receiveAll_cancel hl hfirst after
  rcases htick : (s₁.receiveAll l (before ++ .cancel :: after)).1.tick with ⟨result, left⟩
  obtain ⟨hresult, hmachine, hinactive, hleft⟩ := (hceased.undisturbed hafter).tick
  rw [htick] at hresult hmachine hinactive hleft
  cases hresult
  refine ⟨ended, left, hcalls, fun extra => ?_, hmachine.trans (hafter.machine_eq hceased.ne_running), ?_, hinactive, ?_⟩
  · unfold run
    rw [hbegin]
    dsimp only
    rw [Nat.add_assoc, loop_of_gap hgap, Nat.add_comm 1, loop, harrivals]
    dsimp only
    rw [htick]
  · intro later hlater moment
    have hmoment : Undisturbed handled moment := receiveAll_undisturbed _ fun _ => hlistening
    have hdeaf : moment.2.cancel = false := hmoment.cancel_eq.trans hlistening
    simp only [receive, hdeaf]
    rfl
  · rintro rfl
    cases hgap
    rw [hleft, hafter.scheduler_eq, hscheduler, hsteps]

/-- A program is stopped between its first two ticks, and something is typed before and behind the request. -/
theorem run_cancelled_willing :
    let arrivals : Machine (Recorded Fixed) → Bool → List Signal × Bool :=
      fun _ stopping => (if stopping then [.chunk [7], .cancel, .chunk [8]] else [], true)
    ∃ s left : Session (Recorded Fixed), s.run arrivals 2 "" false = (some (.ok .cancelled), left, true) ∧
      left.controller.machine.bridge.input.toList = [7] ∧ left.controller.runActive = false := by
  intro arrivals
  obtain ⟨s, hs⟩ : ∃ s : Session (Recorded Fixed),
      s = { controller := { machine := Fixed.willing.machine.record }, greeting := false } := ⟨_, rfl⟩
  have hbegin : s.begin "" = (none, (s.begin "").2) := by
    rw [hs]
    rfl
  obtain ⟨ticked, hticked⟩ : ∃ ticked : Session (Recorded Fixed), ticked = (s.begin "").2.tick.2 := ⟨_, rfl⟩
  have hgap : gap arrivals 1 (s.begin "").2 {} false = some (ticked, {}, true) := by
    rw [hticked, hs]
    rfl
  have harrivals : arrivals ticked.controller.machine true = ([.chunk [7]] ++ .cancel :: [.chunk [8]], true) := rfl
  have hfirst : .cancel ∉ [Signal.chunk [7]] := by decide
  obtain ⟨ended, left, hcalls, hrun, hmachine, -, hinactive, -⟩ := run_cancelled hbegin hgap harrivals hfirst
  have hended : ended = .ok () := by
    rw [hticked, hs] at hcalls
    cases List.append_cancel_left hcalls
    rfl
  subst hended
  refine ⟨s, left, hrun 0, ?_, hinactive⟩
  rw [hmachine, hticked, hs]
  rfl

end Session

end Playground
