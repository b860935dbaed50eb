import Mathlib.Logic.Relation
import Playground.Proofs.Controller.History
import Playground.Proofs.HandOff

/-!
# What an operation can do

Between two guest calls a controller writes memory and clears the console, and that is all it does to the machine, apart from
what a start does once the old run is gone (`Controller.beginStart`) and from input that is pushed. `Machine.Reaches` says that
one machine comes from another by such moves. To the journal a controller only adds, and never the line `emulator failed`: raising
an alarm is left to the tick loop. `Controller.Reaches` says both, and every operation goes that way; what moves and such lines
keep, every operation keeps.
-/

namespace Playground

/-! ## Moves of a machine -/

namespace Machine

variable {γ : Type} [Guest γ]

/-- A move: a guest call, a write to memory, or a clear of the console. -/
inductive Moves : Machine γ → Machine γ → Prop where
  | call (e : Export) (m : Machine γ) : Moves m (Guest.call e m).2
  | memory (m : Machine γ) (memory : Memory) : Moves m { m with memory }
  | clear (m : Machine γ) : Moves m { m with bridge := m.bridge.clearConsole.2 }

/-- One machine comes from another by moves. -/
def Reaches : Machine γ → Machine γ → Prop := Relation.ReflTransGen Moves

namespace Reaches

variable {m m' m'' : Machine γ}

theorem refl (m : Machine γ) : m.Reaches m := Relation.ReflTransGen.refl

theorem trans (h : m.Reaches m') (h' : m'.Reaches m'') : m.Reaches m'' := Relation.ReflTransGen.trans h h'

/-- A guest call is a move. -/
theorem of_call {e : Export} {result : Except GuestError e.Reply} (h : Guest.call e m = (result, m')) : m.Reaches m' := by
  have hmove := Moves.call e m
  rw [h] at hmove
  exact .single hmove

/-- A write to memory is a move. -/
theorem of_memory (m : Machine γ) (memory : Memory) : m.Reaches { m with memory } := .single (.memory m memory)

/-- A clear of the console is a move, whether or not it succeeds. -/
theorem of_clearConsole (m : Machine γ) : m.Reaches { m with bridge := m.bridge.clearConsole.2 } := .single (.clear m)

/-- What every move keeps is kept by all of them together. -/
theorem rel {R : Machine γ → Machine γ → Prop} (hrefl : ∀ m, R m m)
    (htrans : ∀ {m m' m''}, R m m' → R m' m'' → R m m'') (hmoves : ∀ {m m'}, Moves m m' → R m m') (h : m.Reaches m') :
    R m m' := by
  induction h with
  | refl => exact hrefl m
  | tail _ hmove ih => exact htrans ih (hmoves hmove)

end Reaches

end Machine

/-! ## Alarms in a journal -/

/-- The event is the line `emulator failed`: the host tells the user of something that the guest did not. -/
def LogEvent.isAlarm : LogEvent → Bool
  | emulatorFailed _ _ => true
  | _ => false

/-- The alarms that were noted, oldest first. -/
def Controller.alarms {γ : Type} (c : Controller γ) : List LogEvent := c.journal.filter LogEvent.isAlarm

namespace Machine

variable {γ α : Type} [Guest γ] {use : Slice → Machine γ → Except GuestError α × Machine γ}

/-- A hand-off is a row of moves, if the use it is made for is one, and it notes at most that a release failed. -/
theorem handOff_reaches (huse : ∀ slice (m : Machine γ), m.Reaches (use slice m).2) (m : Machine γ) (payload : List UInt8) :
    m.Reaches (m.handOff payload use).2.1 ∧ ∀ e ∈ (m.handOff payload use).2.2, e.isAlarm = false := by
  refine ⟨handOff_rel .refl .trans (fun _ _ => .of_call rfl) .of_memory huse m payload, ?_⟩
  have hsettle : ∀ (used : Except GuestError α) released, ∀ e ∈ (settle used released).2, e.isAlarm = false := by
    intro used released
    rcases used with _ | _ <;> rcases released with _ | _ <;> simp [settle, LogEvent.isAlarm]
  rw [handOff_eq]
  by_cases hfit : payload.length ≤ Memory.maxLength
  · simp only [if_pos hfit]
    rcases Guest.call (.allocate (regionSize payload)) m with ⟨e | ptr, m₁⟩
    · simp
    by_cases hptr : ptr = 0
    · simp [hptr]
    · simp only [if_neg hptr]
      exact hsettle _ _
  · simp [if_neg hfit]

end Machine

/-! ## Every operation goes that way -/

namespace Controller

variable {γ : Type} [Guest γ]

/-- One controller comes from another by moves of its machine, and lines were added to the journal, none of them an alarm. -/
structure Reaches (c d : Controller γ) : Prop where
  machine : c.machine.Reaches d.machine
  journal : ∃ events, d.journal = c.journal ++ events ∧ ∀ e ∈ events, e.isAlarm = false

namespace Reaches

variable {c d d' : Controller γ}

/-- Moves of the machine alone. -/
theorem of_machine (h : c.machine.Reaches d.machine) (hjournal : d.journal = c.journal) : c.Reaches d :=
  ⟨h, [], by simpa using hjournal, by simp⟩

theorem refl (c : Controller γ) : c.Reaches c := of_machine (.refl _) rfl

theorem trans (h : c.Reaches d) (h' : d.Reaches d') : c.Reaches d' := by
  obtain ⟨hmachine, events, hevents, hquiet⟩ := h
  obtain ⟨hmachine', events', hevents', hquiet'⟩ := h'
  refine ⟨hmachine.trans hmachine', events ++ events', ?_, List.forall_mem_append.mpr ⟨hquiet, hquiet'⟩⟩
  rw [hevents', hevents, List.append_assoc]

/-- Lines that are no alarms may be added. -/
theorem note {events : List LogEvent} (h : c.Reaches d) (hquiet : ∀ e ∈ events, e.isAlarm = false) :
    c.Reaches (d.note events) :=
  h.trans ⟨.refl _, events, rfl, hquiet⟩

/-- The phase of the program and what is kept about it do not matter. -/
theorem congr (h : c.Reaches d) (hmachine : d'.machine = d.machine) (hjournal : d'.journal = d.journal) : c.Reaches d' :=
  h.trans (of_machine (hmachine ▸ .refl _) hjournal)

/-- On that way no alarm is raised. -/
theorem alarms_eq (h : c.Reaches d) : d.alarms = c.alarms := by
  obtain ⟨-, events, hevents, hquiet⟩ := h
  have hnone : events.filter LogEvent.isAlarm = [] := List.filter_eq_nil_iff.mpr fun e he => by simp [hquiet e he]
  rw [alarms, hevents, List.filter_append, hnone, List.append_nil, alarms]

end Reaches

variable (c : Controller γ)

/-- A teardown goes that way. -/
theorem reaches_teardown : c.Reaches c.teardown.2 := by
  unfold teardown
  split
  · rcases hcall : Guest.call .deinitRun c.machine with ⟨_ | _, m⟩ <;> exact .of_machine (.of_call hcall) rfl
  · exact .refl _

/-- So does a text that is handed over, if what it is handed over for does. -/
theorem reaches_callWithSource (source : String) (use : Slice → Machine γ → Except GuestError Int32 × Machine γ)
    (huse : ∀ slice (m : Machine γ), m.Reaches (use slice m).2) : c.Reaches (c.callWithSource (.ofText source) use).2 := by
  obtain ⟨hgiven, hquiet⟩ := c.machine.handOff_reaches huse (Text.encode source)
  unfold callWithSource
  rw [Machine.handOffPayload_ofText]
  generalize c.machine.handOff (Text.encode source) use = handed at hgiven hquiet ⊢
  obtain ⟨e | status, m, events⟩ := handed
  all_goals
    have hnoted : c.Reaches (({ c with machine := m } : Controller γ).note events) := .note (.of_machine hgiven rfl) hquiet
  · dsimp only
    split
    · exact hnoted.note (by simp [LogEvent.isAlarm])
    · exact hnoted
  · exact hnoted

/-- So does a check of a text. -/
theorem reaches_validate (source : String) : c.Reaches (c.validate source).2 := by
  have hgiven := c.reaches_callWithSource source
    (fun slice m => Guest.call (.validate slice.ptr slice.len) m) (fun _ _ => .of_call rfl)
  unfold validate
  generalize c.callWithSource (.ofText source) _ = given at hgiven ⊢
  obtain ⟨_ | outcome, c'⟩ := given
  · exact hgiven
  · cases outcome with
    | success => exact hgiven
    | _ => exact hgiven.note (by simp [LogEvent.isAlarm])

/-- So does a start that is abandoned. -/
theorem reaches_abandon (e : ConsoleError) : c.Reaches (c.abandon e).2 := by
  have hfaulted : c.Reaches { c with state := .faulted } := .of_machine (.refl _) rfl
  have htorn := hfaulted.trans (reaches_teardown _)
  unfold abandon
  generalize ({ c with state := .faulted } : Controller γ).teardown = torn at htorn ⊢
  obtain ⟨_ | _, c'⟩ := torn
  · exact htorn.note (by simp [LogEvent.isAlarm])
  · exact htorn

/-- So does a program that was launched. -/
theorem reaches_launched : c.Reaches c.launched.2 :=
  .note (d := { c with state := .running, runs := c.runs + 1 }) (.of_machine (.refl _) rfl) (by simp [LogEvent.isAlarm])

/-- So does a launch, whether or not the console can be cleared. -/
theorem reaches_launch : c.Reaches c.launch.2 := by
  have hclear := Machine.Reaches.of_clearConsole c.machine
  unfold launch
  dsimp only
  split
  · generalize c.machine.bridge.clearConsole = cleared at hclear ⊢
    obtain ⟨result, bridge⟩ := cleared
    have hcleared : c.Reaches { c with runActive := true, machine := { c.machine with bridge } } := .of_machine hclear rfl
    cases result with
    | error e => exact hcleared.trans (reaches_abandon _ e)
    | ok _ => exact hcleared.trans (reaches_launched _)
  · have hactive : c.Reaches { c with runActive := true } := .of_machine (.refl _) rfl
    exact hactive.trans (reaches_launched _)

variable {c} in
/-- Once the old run is gone, and input with it, a start goes that way. -/
theorem reaches_start {c₁ : Controller γ} (source : String) (h : c.teardown = (.ok (), c₁)) :
    c₁.beginStart.Reaches (c.start source).2 := by
  have hgiven := c₁.beginStart.reaches_callWithSource source
    (fun slice m => Guest.call (.initRun slice.ptr slice.len) m) (fun _ _ => .of_call rfl)
  unfold start startPayload
  rw [h]
  dsimp only
  generalize c₁.beginStart.callWithSource (.ofText source) _ = given at hgiven ⊢
  obtain ⟨_ | outcome, c₂⟩ := given
  · exact hgiven.congr rfl rfl
  · cases outcome with
    | success => exact hgiven.trans c₂.reaches_launch
    | _ => exact .note (d := { c₂ with state := .faulted, fault := _ }) (hgiven.congr rfl rfl) (by simp [LogEvent.isAlarm])

/-- So does a stop. -/
theorem reaches_stop : c.Reaches c.stop := by
  unfold stop
  split
  · have hstopped : c.Reaches { c with state := .stopped } := .of_machine (.refl _) rfl
    have htorn := hstopped.trans (reaches_teardown _)
    generalize ({ c with state := .stopped } : Controller γ).teardown = torn at htorn ⊢
    obtain ⟨_ | _, c'⟩ := torn <;> exact htorn.note (by simp [LogEvent.isAlarm])
  · have htorn := c.reaches_teardown
    generalize c.teardown = torn at htorn ⊢
    obtain ⟨_ | _, c'⟩ := torn
    · exact htorn.note (by simp [LogEvent.isAlarm])
    · exact htorn
  all_goals exact .refl _

/-- So does the question whether the program is complete. -/
theorem reaches_isFinished : c.Reaches c.isFinished.2 := by
  unfold isFinished
  split
  · rcases hcall : Guest.call .isFinished c.machine with ⟨_ | _, m⟩ <;> exact .of_machine (.of_call hcall) rfl
  · exact .refl _

/-- So does the check for completion. -/
theorem reaches_checkFinished : c.Reaches c.checkFinished.2 := by
  have hasked := c.reaches_isFinished
  unfold checkFinished
  generalize c.isFinished = answer at hasked ⊢
  obtain ⟨_ | finished, c'⟩ := answer
  · exact hasked
  · dsimp only
    split
    · exact .note (d := { c' with state := .stopped }) (hasked.congr rfl rfl) (by simp [LogEvent.isAlarm])
    · exact hasked

/-- So does a step. -/
theorem reaches_step (budget : UInt32) : c.Reaches (c.step budget).2 := by
  unfold step
  split
  · rcases hcall : Guest.call (.step budget) c.machine with ⟨_ | status, m⟩
    · exact .of_machine (.of_call hcall) rfl
    · dsimp only
      split <;> exact .of_machine (.of_call hcall) rfl
  all_goals exact .refl _

end Controller

/-! ## Ticks -/

namespace Scheduler

variable {γ : Type} [Guest γ]

/-- The ways in which a tick ends: it leaves its loop, or it ends without an exit. -/
inductive Leaves (c : Controller γ) : Except HostError Tick × Scheduler × Controller γ → Prop where
  | exited {d : Controller γ} (h : c.Reaches d) (loop : Scheduler) (exit : LoopExit) : Leaves c (loop.leave exit d)
  | stayed {d : Controller γ} (h : c.Reaches d) (loop : Scheduler) {result : Except HostError Tick}
    (hresult : ∀ exit, result ≠ .ok (.exit exit)) : Leaves c (result, loop, d)

/-- The part of a tick that steps ends in one of these ways. -/
theorem advance_leaves (s : Scheduler) {c d : Controller γ} (h : c.Reaches d) : Leaves c (s.advance d) := by
  have hstep := h.trans (d.reaches_step s.budget)
  unfold advance
  generalize d.step s.budget = made at hstep ⊢
  obtain ⟨e | outcome, d'⟩ := made
  · exact .stayed hstep _ nofun
  · cases outcome with
    | success => exact .stayed hstep _ nofun
    | _ => exact .exited hstep _ _

/-- A tick goes the way of every operation, and then it may leave its loop. -/
theorem tick_leaves (s : Scheduler) (c : Controller γ) : Leaves c (s.tick c) := by
  unfold tick
  by_cases harmed : s.armed = true
  · simp only [if_pos harmed]
    by_cases hg : c.generation = s.generation
    · simp only [if_pos hg]
      split
      next =>
        have hchecked := c.reaches_checkFinished
        generalize c.checkFinished = checked at hchecked ⊢
        obtain ⟨e | finished, c'⟩ := checked
        · exact .stayed hchecked _ nofun
        · cases finished with
          | true => exact .exited hchecked _ _
          | false => exact advance_leaves _ hchecked
      all_goals exact .exited (.refl c) _ _
    · simp only [if_neg hg]
      exact .exited (.refl c) _ _
  · simp only [if_neg harmed]
    exact .stayed (.refl c) _ nofun

/-- A tick moves the machine; leaving its loop does not. -/
theorem reaches_tick (s : Scheduler) (c : Controller γ) : c.machine.Reaches (s.tick c).2.2.machine := by
  have hleaves := s.tick_leaves c
  generalize s.tick c = ticked at hleaves ⊢
  cases hleaves with
  | exited h loop exit => cases exit <;> exact h.machine
  | stayed h loop _ => exact h.machine

end Scheduler

end Playground
