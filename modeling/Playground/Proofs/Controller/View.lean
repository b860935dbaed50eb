import Playground.Proofs.Controller.History
import Playground.Proofs.Guest.Watch

/-!
# Controllers over a guest that is seen through another

`Controller.seen` looks at a controller's guest through a view and puts events that were noted earlier in front of its journal.
Nothing a controller or a tick loop does depends on either, so every operation (`seen_perform`) and every history (`seen_after`)
looks the same: it answers the same and leaves the same controller, seen the same way. So a controller goes through the same history
while its guest is watched (`after_eq_noting`), and with the view that changes nothing, this says that the journal is only ever
written to (`congr_of_unlogged`).
-/

namespace Playground

variable {γ δ α : Type} {view : γ → δ} {earlier : List LogEvent}

namespace Controller

/-- The controller with its guest seen through a view, and with events in front of its journal. -/
def seen (view : γ → δ) (earlier : List LogEvent) (c : Controller γ) : Controller δ :=
  { machine := c.machine.map view
    state := c.state
    runActive := c.runActive
    fault := c.fault
    runs := c.runs
    generation := c.generation
    clearOnStart := c.clearOnStart
    journal := earlier ++ c.journal }

@[simp] theorem state_seen (c : Controller γ) : (c.seen view earlier).state = c.state := rfl

@[simp] theorem runActive_seen (c : Controller γ) : (c.seen view earlier).runActive = c.runActive := rfl

@[simp] theorem generation_seen (c : Controller γ) : (c.seen view earlier).generation = c.generation := rfl

@[simp] theorem clearOnStart_seen (c : Controller γ) : (c.seen view earlier).clearOnStart = c.clearOnStart := rfl

@[simp] theorem machine_seen (c : Controller γ) : (c.seen view earlier).machine = c.machine.map view := rfl

/-- Events are noted behind the earlier ones. -/
@[simp] theorem note_seen (c : Controller γ) (events : List LogEvent) :
    (c.seen view earlier).note events = (c.note events).seen view earlier := by
  simp [note, seen, List.append_assoc]

/-- What an operation answers, with the controller it leaves as it is seen. -/
abbrev outcomeSeen (view : γ → δ) (earlier : List LogEvent) (p : α × Controller γ) : α × Controller δ :=
  Prod.map id (seen view earlier) p

variable [Guest γ] [Guest δ] (hview : Guest.SeenThrough view)

include hview

/-- A teardown looks the same through a view. -/
theorem seen_teardown (c : Controller γ) : (c.seen view earlier).teardown = outcomeSeen view earlier c.teardown := by
  unfold teardown
  cases hactive : c.runActive with
  | false => simp [hactive]
  | true =>
    simp only [runActive_seen, hactive, if_true, machine_seen, hview _ _]
    rcases Guest.call .deinitRun c.machine with ⟨_ | _, m⟩ <;> rfl

/-- So does a text that is handed over, if the call it is handed over for does. -/
theorem seen_callWithSource {use : Slice → Machine γ → Except GuestError Int32 × Machine γ}
    {use' : Slice → Machine δ → Except GuestError Int32 × Machine δ}
    (h : ∀ slice m, use' slice (m.map view) = Prod.map id (Machine.map view) (use slice m)) (c : Controller γ)
    (source : String) :
    (c.seen view earlier).callWithSource (.ofText source) use' =
      outcomeSeen view earlier (c.callWithSource (.ofText source) use) := by
  unfold callWithSource
  rw [Machine.handOffPayload_ofText, Machine.handOffPayload_ofText, machine_seen, Machine.map_handOff hview h]
  rcases c.machine.handOff (Text.encode source) use with ⟨result, m, events⟩
  have hnoted : ({ c.seen view earlier with machine := m.map view } : Controller δ).note events =
      (({ c with machine := m } : Controller γ).note events).seen view earlier := note_seen { c with machine := m } events
  simp only [Prod.map, id, hnoted]
  rcases result with e | status
  · cases hroom : e.isOutOfMemory <;> simp [hroom]
  · rfl

/-- So does a check of a text. -/
theorem seen_validate (c : Controller γ) (source : String) :
    (c.seen view earlier).validate source = outcomeSeen view earlier (c.validate source) := by
  unfold validate
  rw [seen_callWithSource hview fun slice m => hview (.validate slice.ptr slice.len) m]
  rcases c.callWithSource (.ofText source) _ with ⟨_ | outcome, c'⟩
  · rfl
  · cases outcome with
    | success => rfl
    | _ => simp

/-- So does a start that is abandoned. -/
theorem seen_abandon (c : Controller γ) (e : ConsoleError) :
    (c.seen view earlier).abandon e = outcomeSeen view earlier (c.abandon e) := by
  unfold abandon
  have hs : { c.seen view earlier with state := .faulted } = ({ c with state := .faulted } : Controller γ).seen view earlier :=
    rfl
  rw [hs, seen_teardown hview]
  rcases ({ c with state := .faulted } : Controller γ).teardown with ⟨_ | _, c'⟩
  · simp
  · rfl

omit [Guest γ] [Guest δ] hview in
/-- So does a program that was launched, whatever the view. -/
theorem seen_launched (c : Controller γ) : (c.seen view earlier).launched = outcomeSeen view earlier c.launched := by
  let running : Controller γ := { c with state := .running, runs := c.runs + 1 }
  have hnoted : (running.seen view earlier).note [.programStarted (c.runs + 1)] =
      (running.note [.programStarted (c.runs + 1)]).seen view earlier := note_seen running _
  exact congrArg _ hnoted

/-- So does a launch. -/
theorem seen_launch (c : Controller γ) : (c.seen view earlier).launch = outcomeSeen view earlier c.launch := by
  unfold launch
  have hbridge : (c.seen view earlier).machine.bridge = c.machine.bridge := rfl
  by_cases hclear : c.clearOnStart = true
  · have hseen : (c.seen view earlier).clearOnStart = true := hclear
    simp only [if_pos hclear, if_pos hseen, hbridge]
    rcases c.machine.bridge.clearConsole with ⟨e | _, bridge⟩
    · exact seen_abandon hview { c with runActive := true, machine := { c.machine with bridge } } e
    · exact seen_launched { c with runActive := true, machine := { c.machine with bridge } }
  · have hseen : ¬(c.seen view earlier).clearOnStart = true := hclear
    simp only [if_neg hclear, if_neg hseen]
    exact seen_launched { c with runActive := true }

/-- So does a whole start. -/
theorem seen_start (c : Controller γ) (source : String) :
    (c.seen view earlier).start source = outcomeSeen view earlier (c.start source) := by
  unfold start startPayload
  rw [seen_teardown hview]
  rcases c.teardown with ⟨e | _, c'⟩
  · rfl
  · have hbegin : (c'.seen view earlier).beginStart = c'.beginStart.seen view earlier := rfl
    simp only [Prod.map, id, hbegin]
    rw [seen_callWithSource hview fun slice m => hview (.initRun slice.ptr slice.len) m]
    rcases c'.beginStart.callWithSource (.ofText source) _ with ⟨e | outcome, c''⟩
    · rfl
    · cases outcome with
      | success => exact seen_launch hview c''
      | _ => exact congrArg _ (note_seen { c'' with state := .faulted, fault := some _ } _)

/-- So does a stop. -/
theorem seen_stop (c : Controller γ) : (c.seen view earlier).stop = c.stop.seen view earlier := by
  unfold stop
  rw [state_seen]
  cases c.state with
  | running =>
    have hstopped :
        { c.seen view earlier with state := .stopped } = ({ c with state := .stopped } : Controller γ).seen view earlier :=
      rfl
    simp only [hstopped, seen_teardown hview]
    rcases ({ c with state := .stopped } : Controller γ).teardown with ⟨_ | _, c'⟩ <;> simp
  | faulted =>
    simp only [seen_teardown hview]
    rcases c.teardown with ⟨_ | _, c'⟩
    · simp
    · rfl
  | idle | compiling | stopped => rfl

/-- So does the question whether the program is complete. -/
theorem seen_isFinished (c : Controller γ) :
    (c.seen view earlier).isFinished = outcomeSeen view earlier c.isFinished := by
  unfold isFinished
  cases hactive : c.runActive with
  | false => simp [hactive]
  | true =>
    simp only [runActive_seen, hactive, if_true, machine_seen, hview _ _]
    rcases Guest.call .isFinished c.machine with ⟨_ | _, m⟩ <;> rfl

/-- So does the check for completion. -/
theorem seen_checkFinished (c : Controller γ) :
    (c.seen view earlier).checkFinished = outcomeSeen view earlier c.checkFinished := by
  unfold checkFinished
  rw [seen_isFinished hview]
  rcases c.isFinished with ⟨_ | finished, c'⟩
  · rfl
  · by_cases hdone : finished = true ∧ c'.state = .running
    · have hseen : finished = true ∧ (c'.seen view earlier).state = .running := hdone
      simp only [Prod.map, id, if_pos hdone, if_pos hseen]
      exact congrArg _ (note_seen { c' with state := .stopped } _)
    · have hseen : ¬(finished = true ∧ (c'.seen view earlier).state = .running) := hdone
      simp only [Prod.map, id, if_neg hdone, if_neg hseen]

/-- So does a step. -/
theorem seen_step (c : Controller γ) (budget : UInt32) :
    (c.seen view earlier).step budget = outcomeSeen view earlier (c.step budget) := by
  unfold step
  rw [state_seen]
  cases c.state with
  | running =>
    simp only [machine_seen, hview _ _]
    rcases Guest.call (.step budget) c.machine with ⟨_ | status, m⟩
    · rfl
    · simp only [Prod.map, id]
      cases Outcome.ofStatus status <;> rfl
  | idle | compiling | stopped | faulted => rfl

omit [Guest γ] [Guest δ] hview in
/-- So does input that is typed, whatever the view. -/
theorem seen_pushInput (c : Controller γ) (bytes : List UInt8) :
    (c.seen view earlier).pushInput bytes = outcomeSeen view earlier (c.pushInput bytes) := by
  unfold pushInput
  rw [state_seen]
  split <;> rfl

end Controller

namespace Scheduler

/-- So does the end of a loop, whatever the view. -/
theorem seen_leave (s : Scheduler) (exit : LoopExit) (c : Controller γ) :
    s.leave exit (c.seen view earlier) = Prod.map id (Prod.map id (Controller.seen view earlier)) (s.leave exit c) := by
  cases exit with
  | alarm outcome => simp [leave]
  | _ => rfl

variable [Guest γ] [Guest δ] (hview : Guest.SeenThrough view)

include hview

/-- So does the part of a tick that steps. -/
theorem seen_advance (s : Scheduler) (c : Controller γ) :
    s.advance (c.seen view earlier) = Prod.map id (Prod.map id (Controller.seen view earlier)) (s.advance c) := by
  unfold advance
  rw [Controller.seen_step hview]
  rcases c.step s.budget with ⟨_ | outcome, c'⟩
  · rfl
  · cases outcome with
    | success => rfl
    | _ => exact seen_leave _ _ c'

/-- So does a whole tick. -/
theorem seen_tick (s : Scheduler) (c : Controller γ) :
    s.tick (c.seen view earlier) = Prod.map id (Prod.map id (Controller.seen view earlier)) (s.tick c) := by
  unfold tick
  by_cases harmed : s.armed = true
  · by_cases hgen : c.generation = s.generation
    · simp only [harmed, Controller.generation_seen, hgen, Controller.state_seen, if_true]
      cases c.state with
      | running =>
        simp only [Controller.seen_checkFinished hview]
        rcases c.checkFinished with ⟨_ | finished, c'⟩
        · rfl
        · cases finished with
          | true => exact seen_leave _ _ c'
          | false => exact seen_advance hview _ c'
      | faulted => exact seen_leave _ _ c
      | idle | compiling | stopped => exact seen_leave _ _ c
    · simp only [harmed, Controller.generation_seen, hgen, if_true, if_false]
      exact seen_leave _ _ c
  · simp only [harmed]
    rfl

end Scheduler

namespace Controller

variable [Guest γ] [Guest δ] (hview : Guest.SeenThrough view)

include hview in
/-- Every operation looks the same through a view. -/
theorem seen_perform (earlier : List LogEvent) (c : Controller γ) (op : Operation) :
    (c.seen view earlier).perform op = (c.perform op).seen view earlier := by
  cases op with
  | validate source => exact congrArg Prod.snd (seen_validate hview c source)
  | start source => exact congrArg Prod.snd (seen_start hview c source)
  | stop => exact seen_stop hview c
  | isFinished => exact congrArg Prod.snd (seen_isFinished hview c)
  | checkFinished => exact congrArg Prod.snd (seen_checkFinished hview c)
  | step budget => exact congrArg Prod.snd (seen_step hview c budget)
  | pushInput bytes => exact congrArg Prod.snd (seen_pushInput c bytes)
  | tick loop => exact congrArg (·.2.2) (Scheduler.seen_tick hview loop c)
  | onBridge act => rfl

include hview in
/-- So does every history. -/
theorem seen_after (earlier : List LogEvent) (c : Controller γ) (ops : List Operation) :
    (c.seen view earlier).after ops = (c.after ops).seen view earlier := by
  induction ops generalizing c with
  | nil => rfl
  | cons op ops ih => rw [after_cons, seen_perform hview earlier, ih, after_cons]

/-! ## A guest with notes -/

/-- A controller whose guest is watched from now on. -/
def noting (ν : Type) {γ : Type} (c : Controller γ) : Controller (Watched γ ν) := c.seen (⟨·, []⟩) []

/-- A controller with a watched guest goes through the same history. -/
theorem after_eq_noting (ν : Type) [Watch γ ν] (c : Controller γ) (ops : List Operation) :
    c.after ops = ((c.noting ν).after ops).seen Watched.inner [] :=
  seen_after (γ := Watched γ ν) Watched.seenThrough [] (c.noting ν) ops

/-! ## Without the journal -/

/-- The controller with an empty journal. -/
def unlogged (c : Controller γ) : Controller γ := { c with journal := [] }

omit [Guest γ] in
theorem unlogged_note (c : Controller γ) (events : List LogEvent) : (c.note events).unlogged = c.unlogged := rfl

omit [Guest γ] in
/-- A controller is the one with an empty journal, with its own journal put in front. -/
theorem seen_journal_unlogged (c : Controller γ) : c.unlogged.seen id c.journal = c := by
  simp [seen, unlogged]

omit [Guest γ] in
/-- An operation that only writes to the journal does the same to controllers that differ in nothing but their journals. -/
theorem congr_of_unlogged {f : Controller γ → α × Controller γ}
    (hf : ∀ earlier c, f (c.seen id earlier) = outcomeSeen id earlier (f c)) {c d : Controller γ}
    (h : c.unlogged = d.unlogged) : (f c).1 = (f d).1 ∧ (f c).2.unlogged = (f d).2.unlogged := by
  have hown : ∀ c, f c = outcomeSeen id c.journal (f c.unlogged) := fun c => by
    rw [← hf, seen_journal_unlogged]
  rw [hown c, hown d, h]
  exact ⟨rfl, rfl⟩

end Controller

end Playground
