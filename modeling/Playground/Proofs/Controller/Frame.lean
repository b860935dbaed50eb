import Playground.Proofs.Controller.Start
import Playground.Proofs.HandOff
import Playground.Proofs.Scheduler.Effects

/-!
# What happens to the machine

Most operations do no more to a machine than call the guest about the run that it has: `Machine.Works` says that one machine comes
from another in that way, and there is one lemma for each such operation. The others hand a text over. A check of a text is that
hand-off and nothing else (`machine_validate`); for a start, `Proceeds` lists what may come after it.
-/

namespace Playground

/-- The call is about the run that the guest has. -/
def Export.AboutRun : Export → Prop
  | deinitRun | isFinished | step _ => True
  | setUp | allocate _ | release _ _ | validate _ _ | initRun _ _ => False

namespace Machine

variable {γ : Type} [Guest γ]

/-- One machine comes from another by calls about the run. -/
inductive Works (m : Machine γ) : Machine γ → Prop where
  | refl : Works m m
  | call {m' : Machine γ} (h : Works m m') {e : Export} (he : e.AboutRun) : Works m (Guest.call e m').2

namespace Works

variable {m m' : Machine γ}

/-- A call about the run is such a way. -/
theorem of_call {e : Export} {result : Except GuestError e.Reply} (h : Guest.call e m = (result, m')) (he : e.AboutRun) :
    m.Works m' := by
  have hcall := refl.call (m := m) he
  rw [h] at hcall
  exact hcall

theorem trans {m'' : Machine γ} (h : m.Works m') (h' : m'.Works m'') : m.Works m'' := by
  induction h' with
  | refl => exact h
  | call _ he ih => exact ih.call he

/-- What every such call goes along with, all of them together do. -/
theorem rel {Q : Machine γ → Machine γ → Prop} (hrefl : ∀ m, Q m m)
    (htrans : ∀ {m m' m''}, Q m m' → Q m' m'' → Q m m'') (hcall : ∀ {e : Export}, e.AboutRun → ∀ m, Q m (Guest.call e m).2)
    (h : m.Works m') : Q m m' := by
  induction h with
  | refl => exact hrefl m
  | call _ he ih => exact htrans ih (hcall he _)

end Works

end Machine

/-! ## The end of the old run -/

namespace Controller

section Teardown

variable {γ : Type} [Guest γ] {c c₁ : Controller γ}

/-- With no run active there is nothing to tear down. -/
theorem teardown_of_inactive (h : c.runActive = false) : c.teardown = (.ok (), c) := by
  simp [teardown, h]

/-- A teardown that succeeds finds no active run, or has the guest end it. -/
theorem teardown_ok_cases (h : c.teardown = (.ok (), c₁)) :
    c.runActive = false ∧ c₁ = c ∨
      ∃ m, c.runActive = true ∧ Guest.call .deinitRun c.machine = (.ok (), m) ∧
        c₁ = { c with machine := m, runActive := false } := by
  unfold teardown at h
  by_cases hactive : c.runActive = true
  · rw [if_pos hactive] at h
    rcases hcall : Guest.call .deinitRun c.machine with ⟨e | _, m⟩
    · rw [hcall] at h
      cases h
    · rw [hcall] at h
      cases h
      exact .inr ⟨m, hactive, rfl, rfl⟩
  · rw [if_neg hactive] at h
    cases h
    exact .inl ⟨Bool.eq_false_iff.mpr hactive, rfl⟩

/-- A teardown that fails is one of an active run that the guest does not end. -/
theorem teardown_error_cases {e : HostError} (h : c.teardown = (.error e, c₁)) :
    ∃ e' m, c.runActive = true ∧ Guest.call .deinitRun c.machine = (.error e', m) ∧ e = .guest e' ∧
      c₁ = { c with machine := m, runActive := false, state := .faulted } := by
  unfold teardown at h
  by_cases hactive : c.runActive = true
  · rw [if_pos hactive] at h
    rcases hcall : Guest.call .deinitRun c.machine with ⟨e' | _, m⟩
    · rw [hcall] at h
      cases h
      exact ⟨e', m, hactive, rfl, rfl, rfl⟩
    · rw [hcall] at h
      cases h
  · rw [if_neg hactive] at h
    cases h

/-- A teardown that succeeds leaves no active run. -/
theorem runActive_of_teardown (h : c.teardown = (.ok (), c₁)) : c₁.runActive = false := by
  obtain ⟨hinactive, rfl⟩ | ⟨m, -, -, rfl⟩ := teardown_ok_cases h
  · exact hinactive
  · rfl

/-- A teardown leaves it as it was set whether the console is cleared. -/
theorem clearOnStart_of_teardown (h : c.teardown = (.ok (), c₁)) : c₁.clearOnStart = c.clearOnStart := by
  obtain ⟨-, rfl⟩ | ⟨m, -, -, rfl⟩ := teardown_ok_cases h <;> rfl

end Teardown

end Controller

/-! ## Operations that hand nothing over -/

namespace Controller

variable {γ : Type} [Guest γ]

/-- One controller comes from another by calls about the run. -/
structure Works (c d : Controller γ) : Prop where
  machine : c.machine.Works d.machine
  clearOnStart : d.clearOnStart = c.clearOnStart

theorem Works.refl (c : Controller γ) : c.Works c := ⟨.refl, rfl⟩

theorem Works.trans {c d d' : Controller γ} (h : c.Works d) (h' : d.Works d') : c.Works d' :=
  ⟨h.machine.trans h'.machine, h'.clearOnStart.trans h.clearOnStart⟩

variable (c : Controller γ)

/-- A teardown only calls the guest about the run. -/
theorem works_teardown : c.Works c.teardown.2 := by
  unfold teardown
  split
  · rcases hcall : Guest.call .deinitRun c.machine with ⟨_ | _, m⟩ <;> exact ⟨.of_call hcall trivial, rfl⟩
  · exact .refl c

/-- So does a stop. -/
theorem works_stop : c.Works c.stop := by
  unfold stop
  split
  · obtain ⟨hmachine, hclears⟩ := ({ c with state := .stopped } : Controller γ).works_teardown
    generalize ({ c with state := .stopped } : Controller γ).teardown = torn at hmachine hclears ⊢
    obtain ⟨_ | _, c'⟩ := torn <;> exact ⟨hmachine, hclears⟩
  · obtain ⟨hmachine, hclears⟩ := c.works_teardown
    generalize c.teardown = torn at hmachine hclears ⊢
    obtain ⟨_ | _, c'⟩ := torn <;> exact ⟨hmachine, hclears⟩
  all_goals exact .refl c

/-- So does the question whether the program is complete. -/
theorem works_isFinished : c.Works c.isFinished.2 := by
  unfold isFinished
  split
  · rcases hcall : Guest.call .isFinished c.machine with ⟨_ | _, m⟩ <;> exact ⟨.of_call hcall trivial, rfl⟩
  · exact .refl c

/-- So does the check for completion. -/
theorem works_checkFinished : c.Works c.checkFinished.2 := by
  obtain ⟨hmachine, hclears⟩ := c.works_isFinished
  unfold checkFinished
  generalize c.isFinished = answer at hmachine hclears ⊢
  obtain ⟨_ | finished, c'⟩ := answer
  · exact ⟨hmachine, hclears⟩
  · dsimp only
    split <;> exact ⟨hmachine, hclears⟩

/-- So does a step. -/
theorem works_step (budget : UInt32) : c.Works (c.step budget).2 := by
  unfold step
  split
  · rcases hcall : Guest.call (.step budget) c.machine with ⟨_ | status, m⟩
    · exact ⟨.of_call hcall trivial, rfl⟩
    · dsimp only
      split <;> exact ⟨.of_call hcall trivial, rfl⟩
  all_goals exact .refl c

end Controller

namespace Scheduler

variable {γ : Type}

/-- The end of a loop is only noted. -/
theorem works_leave [Guest γ] (s : Scheduler) (exit : LoopExit) (c : Controller γ) : c.Works (s.leave exit c).2.2 := by
  cases exit <;> exact ⟨.refl, rfl⟩

variable [Guest γ] (s : Scheduler) (c : Controller γ)

/-- The part of a tick that steps only calls the guest about the run. -/
theorem works_advance : c.Works (s.advance c).2.2 := by
  have hstep := c.works_step s.budget
  unfold advance
  generalize c.step s.budget = made at hstep ⊢
  obtain ⟨e | outcome, c'⟩ := made
  · exact hstep
  · cases outcome with
    | success => exact hstep
    | _ => exact hstep.trans (works_leave _ _ c')

/-- So does a whole tick. -/
theorem works_tick : c.Works (s.tick c).2.2 := by
  unfold tick
  by_cases harmed : s.armed = true
  · simp only [if_pos harmed]
    split
    · split
      · have hchecked := c.works_checkFinished
        generalize c.checkFinished = checked at hchecked ⊢
        obtain ⟨e | _ | _, c'⟩ := checked
        · exact hchecked
        · exact hchecked.trans (works_advance _ c')
        · exact hchecked.trans (works_leave _ _ c')
      all_goals exact works_leave _ _ c
    · exact works_leave _ _ c
  · simp only [if_neg harmed]
    exact .refl c

end Scheduler

/-! ## Operations that hand a text over -/

namespace Controller

variable {γ : Type} [Guest γ] {c c₁ : Controller γ}

/-- What the guest is given a text for by a check of it. -/
abbrev validateUse (slice : Slice) (m : Machine γ) : Except GuestError Int32 × Machine γ :=
  Guest.call (.validate slice.ptr slice.len) m

/-- A text that is handed over changes nothing but the machine and the journal. -/
theorem unlogged_callWithSource (c : Controller γ) (source : String)
    (use : Slice → Machine γ → Except GuestError Int32 × Machine γ) :
    (c.callWithSource (.ofText source) use).2.unlogged =
      ({ c with machine := (c.machine.handOff (Text.encode source) use).2.1 } : Controller γ).unlogged :=
  (callWithSource_of_handOff rfl).2

/-- It does to the machine what the hand-off does. -/
theorem machine_callWithSource (c : Controller γ) (source : String)
    (use : Slice → Machine γ → Except GuestError Int32 × Machine γ) :
    (c.callWithSource (.ofText source) use).2.machine = (c.machine.handOff (Text.encode source) use).2.1 :=
  congrArg machine (c.unlogged_callWithSource source use)

/-- It leaves it as it was set whether the console is cleared. -/
theorem clearOnStart_callWithSource (c : Controller γ) (source : String)
    (use : Slice → Machine γ → Except GuestError Int32 × Machine γ) :
    (c.callWithSource (.ofText source) use).2.clearOnStart = c.clearOnStart :=
  (congrArg clearOnStart (c.unlogged_callWithSource source use) :)

/-- It answers what the result of the hand-off means. -/
theorem answer_callWithSource (c : Controller γ) (source : String)
    (use : Slice → Machine γ → Except GuestError Int32 × Machine γ) :
    (c.callWithSource (.ofText source) use).1 = answerOf (c.machine.handOff (Text.encode source) use).1 :=
  (callWithSource_of_handOff rfl).1

/-- A check of a text changes nothing but the machine and the journal, whatever comes of it. -/
theorem unlogged_validate (c : Controller γ) (source : String) :
    (c.validate source).2.unlogged =
      ({ c with machine := (c.machine.handOff (Text.encode source) validateUse).2.1 } : Controller γ).unlogged := by
  have hgiven := c.unlogged_callWithSource source validateUse
  unfold validate
  generalize c.callWithSource (.ofText source) _ = given at hgiven ⊢
  obtain ⟨e | outcome, c'⟩ := given
  · exact hgiven
  · cases outcome <;> exact hgiven

/-- A check of a text does to the machine what the hand-off does. -/
theorem machine_validate (c : Controller γ) (source : String) :
    (c.validate source).2.machine = (c.machine.handOff (Text.encode source) validateUse).2.1 :=
  congrArg machine (c.unlogged_validate source)

/-- A check of a text leaves the controller where it stands. -/
theorem standing_validate (c : Controller γ) (source : String) : (c.validate source).2.standing = c.standing :=
  (congrArg standing (c.unlogged_validate source) :)

/-- What comes after a hand-off in a start, by what the hand-off answered: a program that was not accepted is answered with the
reason, and nothing else happens; before one that was, the console is cleared, if it is to be cleared, and if that fails the run is
ended again. -/
inductive Proceeds (clears : Bool) (m : Machine γ) :
    Except HostError Outcome → Except HostError Outcome → Machine γ → Prop where
  | refused {answer : Except HostError Outcome} (h : answer ≠ .ok .success) : Proceeds clears m answer answer m
  | kept (hclears : clears = false) : Proceeds clears m (.ok .success) (.ok .success) m
  | cleared (hclears : clears = true) {bridge : Bridge} (h : m.bridge.clearConsole = (.ok (), bridge)) :
    Proceeds clears m (.ok .success) (.ok .success) { m with bridge }
  | abandoned (hclears : clears = true) {e : ConsoleError} {bridge : Bridge} (h : m.bridge.clearConsole = (.error e, bridge)) :
    Proceeds clears m (.ok .success) (.error (.console e)) (Guest.call .deinitRun { m with bridge }).2

/-- An abandoned start ends the run that it has. -/
theorem abandon_of_active (hactive : c.runActive = true) (e : ConsoleError) :
    (c.abandon e).1 = .error (.console e) ∧ (c.abandon e).2.machine = (Guest.call .deinitRun c.machine).2 ∧
      (c.abandon e).2.clearOnStart = c.clearOnStart := by
  have hfaulted : ({ c with state := .faulted } : Controller γ).runActive = true := hactive
  unfold abandon teardown
  simp only [if_pos hfaulted]
  rcases Guest.call .deinitRun c.machine with ⟨_ | _, m⟩ <;> exact ⟨rfl, rfl, rfl⟩

/-- A program that was accepted is launched, or abandoned where the console cannot be cleared. -/
theorem launch_proceeds (c : Controller γ) :
    Proceeds c.clearOnStart c.machine (.ok .success) c.launch.1 c.launch.2.machine := by
  unfold launch
  by_cases hclears : c.clearOnStart = true
  · simp only [if_pos hclears]
    rcases hcleared : c.machine.bridge.clearConsole with ⟨e | _, bridge⟩
    · obtain ⟨hanswer, hmachine, -⟩ := abandon_of_active
        (c := { c with runActive := true, machine := { c.machine with bridge } }) rfl e
      dsimp only
      rw [hanswer, hmachine]
      exact .abandoned hclears hcleared
    · exact .cleared hclears hcleared
  · simp only [if_neg hclears]
    exact .kept (Bool.eq_false_iff.mpr hclears)

/-- Once the old run is gone, a start hands its source over and proceeds with the answer. -/
theorem start_proceeds (h : c.teardown = (.ok (), c₁)) (source : String) :
    Proceeds c₁.clearOnStart (c₁.beginStart.callWithSource (.ofText source) initUse).2.machine
      (c₁.beginStart.callWithSource (.ofText source) initUse).1 (c.start source).1 (c.start source).2.machine := by
  have hclears : (c₁.beginStart.callWithSource (.ofText source) initUse).2.clearOnStart = c₁.clearOnStart :=
    c₁.beginStart.clearOnStart_callWithSource source initUse
  unfold start startPayload
  rw [h, ← hclears]
  dsimp only
  rcases c₁.beginStart.callWithSource (.ofText source) _ with ⟨e | outcome, c₂⟩
  · exact .refused nofun
  · cases outcome with
    | success => exact c₂.launch_proceeds
    | _ => exact .refused nofun

/-! ## What stays as it was set -/

/-- A check of a text leaves it as it was set whether the console is cleared. -/
theorem clearOnStart_validate (c : Controller γ) (source : String) : (c.validate source).2.clearOnStart = c.clearOnStart :=
  (congrArg clearOnStart (c.unlogged_validate source) :)

/-- So does the end of a start. -/
theorem clearOnStart_launch (c : Controller γ) : c.launch.2.clearOnStart = c.clearOnStart := by
  unfold launch
  by_cases hclears : c.clearOnStart = true
  · simp only [if_pos hclears]
    rcases c.machine.bridge.clearConsole with ⟨e | _, bridge⟩
    · exact (abandon_of_active (c := { c with runActive := true, machine := { c.machine with bridge } }) rfl e).2.2
    · rfl
  · simp only [if_neg hclears]
    rfl

/-- So does a whole start. -/
theorem clearOnStart_start (c : Controller γ) (source : String) : (c.start source).2.clearOnStart = c.clearOnStart := by
  have htorn := c.works_teardown.clearOnStart
  rcases h : c.teardown with ⟨e | _, c₁⟩
  · rw [h] at htorn
    rw [start_of_teardown_error source h]
    exact htorn
  · rw [h] at htorn
    have hgiven := c₁.beginStart.clearOnStart_callWithSource source initUse
    unfold start startPayload
    rw [h]
    dsimp only
    generalize c₁.beginStart.callWithSource (.ofText source) _ = given at hgiven ⊢
    obtain ⟨e | outcome, c₂⟩ := given
    · exact hgiven.trans htorn
    · cases outcome with
      | success => exact c₂.clearOnStart_launch.trans (hgiven.trans htorn)
      | _ => exact hgiven.trans htorn

/-- Whether the console is cleared for a program stays as it was set. -/
theorem clearOnStart_perform (c : Controller γ) (op : Operation) : (c.perform op).clearOnStart = c.clearOnStart := by
  cases op with
  | start source => exact c.clearOnStart_start source
  | validate source => exact c.clearOnStart_validate source
  | onBridge act => rfl
  | pushInput bytes =>
    unfold perform pushInput
    dsimp only
    split <;> rfl
  | stop => exact c.works_stop.clearOnStart
  | isFinished => exact c.works_isFinished.clearOnStart
  | checkFinished => exact c.works_checkFinished.clearOnStart
  | step budget => exact (c.works_step budget).clearOnStart
  | tick loop => exact (loop.works_tick c).clearOnStart

/-- It stays so through every history. -/
theorem clearOnStart_after (c : Controller γ) (ops : List Operation) : (c.after ops).clearOnStart = c.clearOnStart :=
  after_induction (P := fun d => d.clearOnStart = c.clearOnStart) (fun d op h => (d.clearOnStart_perform op).trans h) rfl ops

end Controller

end Playground
