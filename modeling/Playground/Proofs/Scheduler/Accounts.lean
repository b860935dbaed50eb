import Playground.Proofs.Scheduler.Completion

/-!
# The ticks and the steps of a loop

A loop counts its ticks, and the steps that the guest returned from. `tickCalls` gathers the calls that the ticks of a loop make, among
whatever else is done with its controller, and `armedTicks` counts the ticks that find it armed. The loop's count of ticks is the
latter. Its count of steps is that of the steps among those calls, unless the last of them failed: then it is one behind
(`ticks_accounted`).
-/

namespace Playground

namespace Call

instance : DecidablePred IsStep
  | ⟨.step _, _⟩ => .isTrue trivial
  | ⟨.setUp, _⟩ | ⟨.allocate _, _⟩ | ⟨.release _ _, _⟩ | ⟨.validate _ _, _⟩ | ⟨.initRun _ _, _⟩ | ⟨.deinitRun, _⟩
  | ⟨.isFinished, _⟩ => .isFalse id

/-- The call is a step that the guest returned from. -/
def IsReturnedStep (call : Call) : Prop := call.IsStep ∧ call.failure = none

instance : DecidablePred IsReturnedStep := fun _ => inferInstanceAs (Decidable (_ ∧ _))

/-- The steps among some calls. -/
def steps (calls : List Call) : Nat := calls.countP (IsStep ·)

/-- The steps among some calls that the guest returned from. -/
def returnedSteps (calls : List Call) : Nat := calls.countP (IsReturnedStep ·)

theorem steps_append (calls calls' : List Call) : steps (calls ++ calls') = steps calls + steps calls' :=
  List.countP_append

theorem returnedSteps_append (calls calls' : List Call) :
    returnedSteps (calls ++ calls') = returnedSteps calls + returnedSteps calls' :=
  List.countP_append

/-- A step that was returned from was made. -/
theorem returnedSteps_le (calls : List Call) : returnedSteps calls ≤ steps calls :=
  List.countP_mono_left fun _ _ h => decide_eq_true (of_decide_eq_true h).1

/-- All steps were returned from exactly if none of them failed. -/
theorem returnedSteps_eq_iff (calls : List Call) :
    returnedSteps calls = steps calls ↔ ∀ call ∈ calls, call.IsStep → call.failure = none := by
  have hreturned : returnedSteps calls = (calls.filter (IsStep ·)).countP (·.failure = none) := by
    rw [List.countP_filter]
    exact List.countP_congr fun call _ => by
      simp only [decide_eq_true_eq, Bool.and_eq_true]
      exact and_comm
  have hmade : steps calls = (calls.filter (IsStep ·)).length := List.countP_eq_length_filter
  rw [hreturned, hmade, List.countP_eq_length]
  simp

end Call

/-! ## One tick -/

variable {p q : Standing} {new : List Call} {s s' : Scheduler} {result : Except HostError Tick}

/-- The question whether the program is complete is no step. -/
theorem Checked.steps_eq {answer : Except HostError Bool} (h : Checked p answer new q) :
    Call.steps new = 0 ∧ Call.returnedSteps new = 0 := by
  have hasked : ∀ {answer r}, Asked p answer new r → Call.steps new = 0 ∧ Call.returnedSteps new = 0 := by
    intro answer r ha
    cases ha <;> exact ⟨rfl, rfl⟩
  cases h with
  | completed ha _ => exact hasked ha
  | unchanged ha _ => exact hasked ha

/-- A step of a running program is made, and it is answered if the guest returned from it. -/
theorem Stepped.steps_eq {budget : UInt32} {answer : Except HostError Outcome} (h : Stepped p budget answer new q)
    (hs : p.state = .running) :
    Call.steps new = 1 ∧ Call.returnedSteps new = if answer.isOk then 1 else 0 := by
  cases h with
  | failed _ e => exact ⟨rfl, rfl⟩
  | worked _ => exact ⟨rfl, rfl⟩
  | ended _ _ => exact ⟨rfl, rfl⟩
  | stopped hnot => exact nomatch hs.symm.trans hnot
  | refused hnot _ => exact absurd hs hnot

/-- Both together are one step, which is answered if the guest returned from it. -/
theorem Checked.steps_append {asked work : List Call} {budget : UInt32} {answer : Except HostError Outcome} {r : Standing}
    (hc : Checked p (.ok false) asked r) (hw : Stepped r budget answer work q) (hs : p.state = .running) :
    Call.steps (asked ++ work) = 1 ∧ Call.returnedSteps (asked ++ work) = if answer.isOk then 1 else 0 := by
  obtain ⟨hasked, haskedReturned⟩ := hc.steps_eq
  obtain rfl := hc.eq_of_incomplete
  obtain ⟨hmade, hreturned⟩ := hw.steps_eq hs
  rw [Call.steps_append, Call.returnedSteps_append, hasked, haskedReturned, hmade, hreturned]
  exact ⟨rfl, Nat.zero_add _⟩

/-- What the tick of an armed loop adds to the counts, for the calls that it makes: a tick, and a step if it made one and the guest
returned from it. A loop that goes on has made its step. -/
structure Scheduler.Counts (s s' : Scheduler) (new : List Call) : Prop where
  ticks : s'.ticks = s.ticks + 1
  steps : s'.steps = s.steps + Call.returnedSteps new
  made : Call.steps new ≤ 1
  returned : s'.armed = true → Call.returnedSteps new = 1

/-- A tick of an armed loop counts so. -/
theorem Ticked.counts (h : Ticked s p result s' new q) (harmed : s.armed = true) : s.Counts s' new := by
  cases h with
  | unarmed hnot => exact nomatch harmed.symm.trans hnot
  | replaced _ _ | faulted _ _ _ | stopped _ _ _ _ => exact ⟨rfl, rfl, Nat.zero_le 1, nofun⟩
  | notAsked _ _ _ hc | finished _ _ _ hc =>
    obtain ⟨hmade, hreturned⟩ := hc.steps_eq
    exact ⟨rfl, by rw [hreturned]; rfl, by omega, nofun⟩
  | notStepped _ _ hs hc hw | failed _ _ hs hc hw _ =>
    obtain ⟨hmade, hreturned⟩ := hc.steps_append hw hs
    exact ⟨rfl, by rw [hreturned]; rfl, Nat.le_of_eq hmade, nofun⟩
  | again _ _ hs hc hw =>
    obtain ⟨hmade, hreturned⟩ := hc.steps_append hw hs
    exact ⟨rfl, by rw [hreturned]; rfl, Nat.le_of_eq hmade, fun _ => hreturned⟩

namespace Scheduler

variable {γ : Type} [Guest γ]

/-! ## A row of turns -/

/-- The calls that a turn makes if it is a tick of the loop. -/
def turnCalls (l : Scheduler × Controller (Recorded γ)) : Turn → List Call
  | .tick => (l.1.tick l.2).2.2.calls.drop l.2.calls.length
  | .act _ => []

/-- The calls that the loop's own ticks make in a row of turns, in order. -/
def tickCalls (l : Scheduler × Controller (Recorded γ)) : List Turn → List Call
  | [] => []
  | t :: ts => turnCalls l t ++ tickCalls (turn l t) ts

/-- One if the turn is a tick of the loop that finds it armed. -/
def armedTick (l : Scheduler × Controller (Recorded γ)) : Turn → Nat
  | .tick => if l.1.armed then 1 else 0
  | .act _ => 0

/-- The ticks that find the loop armed in a row of turns. -/
def armedTicks (l : Scheduler × Controller (Recorded γ)) : List Turn → Nat
  | [] => 0
  | t :: ts => armedTick l t + armedTicks (turn l t) ts

/-- How the counts of a loop stand to the ticks that found it armed and the calls that they made. -/
structure Accounted (s : Scheduler) (ticks : Nat) (made : List Call) : Prop where
  ticks_eq : s.ticks = ticks
  steps_eq : s.steps = Call.returnedSteps made
  steps_le : s.steps ≤ s.ticks
  ticks_le : s.ticks ≤ s.steps + 1
  made_le : Call.steps made ≤ s.steps + 1
  /-- A loop that is not over has made a step in every tick. -/
  even : s.armed = true → s.ticks = s.steps ∧ Call.steps made = s.steps

omit [Guest γ] in
/-- A loop that was just armed has nothing to account for. -/
theorem accounted_arm (s : Scheduler) (c : Controller γ) : (s.arm c).Accounted 0 [] :=
  ⟨rfl, rfl, Nat.le_refl 0, Nat.zero_le 1, Nat.zero_le 1, fun _ => ⟨rfl, rfl⟩⟩

variable {l : Scheduler × Controller (Recorded γ)} {n : Nat} {made : List Call}

/-- A turn keeps the account. -/
theorem Accounted.turn (h : Accounted l.1 n made) (t : Turn) :
    Accounted (turn l t).1 (n + armedTick l t) (made ++ turnCalls l t) := by
  cases t with
  | act op =>
    rw [turnCalls, List.append_nil]
    exact h
  | tick =>
    obtain ⟨new, hnew, hticked⟩ := l.1.tick_goes l.2
    have hcalls : turnCalls l .tick = new := by
      rw [turnCalls, hnew, List.drop_left]
    rw [hcalls, armedTick]
    cases harmed : l.1.armed with
    | false =>
      have hidle : Scheduler.turn l .tick = l := congrArg Prod.snd (tick_of_unarmed l.2 harmed)
      have hnone : new = [] := (hticked.quiet fun hd => nomatch harmed.symm.trans hd.1).1
      rw [hidle, hnone, List.append_nil]
      exact h
    | true =>
      obtain ⟨hticks, hsteps, hmade, hreturned⟩ := hticked.counts harmed
      obtain ⟨hticksEq, hstepsEq, hle, hle', hmadeLe, heven⟩ := h
      obtain ⟨hsame, hsameMade⟩ := heven harmed
      have hnewLe := Call.returnedSteps_le new
      have hnext : Scheduler.turn l .tick = (l.1.tick l.2).2 := rfl
      rw [hnext]
      refine ⟨?_, ?_, ?_, ?_, ?_, fun hgoes => ?_⟩
      · rw [hticks, hticksEq]
        rfl
      · rw [hsteps, hstepsEq, Call.returnedSteps_append]
      · omega
      · omega
      · rw [Call.steps_append]
        omega
      · have hone := hreturned hgoes
        rw [Call.steps_append]
        omega

/-- So does a row of turns. -/
theorem Accounted.turns (h : Accounted l.1 n made) (ts : List Turn) :
    Accounted (turns l ts).1 (n + armedTicks l ts) (made ++ tickCalls l ts) := by
  induction ts generalizing l n made with
  | nil =>
    rw [tickCalls, List.append_nil]
    exact h
  | cons t ts ih =>
    have hlater := ih (h.turn t)
    rw [List.append_assoc, Nat.add_assoc] at hlater
    exact hlater

/-- Whatever the guest does and whatever is done with the controller between the ticks of a loop: the loop's count of ticks is that of
the ticks that found it armed. Its count of steps is that of the steps which its ticks made and the guest returned from; these are
all of them exactly if none failed, and at most one did. So the steps are as many as the ticks, or one fewer. -/
theorem ticks_accounted (s : Scheduler) (d : Controller (Recorded γ)) (ts : List Turn) :
    let l := (s.arm d, d)
    let loop := (Scheduler.turns l ts).1
    let made := tickCalls l ts
    loop.ticks = armedTicks l ts ∧
      loop.steps = Call.returnedSteps made ∧
      (loop.steps = Call.steps made ↔ ∀ call ∈ made, call.IsStep → call.failure = none) ∧
      loop.steps ≤ Call.steps made ∧ Call.steps made ≤ loop.steps + 1 ∧
      loop.steps ≤ loop.ticks ∧ loop.ticks ≤ loop.steps + 1 := by
  intro l loop made
  have harm : Accounted l.1 0 [] := accounted_arm s d
  have h := harm.turns ts
  have hle := Call.returnedSteps_le made
  refine ⟨h.ticks_eq.trans (Nat.zero_add _), h.steps_eq, ?_, ?_, h.made_le, h.steps_le, h.ticks_le⟩
  · rw [h.steps_eq]
    exact Call.returnedSteps_eq_iff made
  · rw [h.steps_eq]
    exact hle

/-- The guest fails in the first step of a program. The loop that made the step counts its tick and no step. -/
theorem step_not_counted :
    ∃ c d : Controller (Recorded Fixed), Controller.create Fixed.tripping.machine.record = .ok c ∧
      c.start "" = (.ok .success, d) ∧
      let l := (arm {} d, d)
      Call.steps (tickCalls l [.tick]) = 1 ∧ (Scheduler.turns l [.tick]).1.steps = 0 ∧ (Scheduler.turns l [.tick]).1.ticks = 1 :=
  ⟨{ machine := Fixed.tripping.machine.record [⟨.setUp, .ok ()⟩] }, _, rfl, rfl, rfl, rfl, rfl⟩

end Scheduler

end Playground
