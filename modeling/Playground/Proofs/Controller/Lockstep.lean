import Playground.Proofs.Controller.Frame

/-!
# Controllers that go on alike

Two machines may differ in what their programs never come to see. `Lockstep` is for relations between machines along which calls
about the run are answered alike and lead to machines that are related again. Controllers that stand alike over such machines stay
alike through every operation that hands nothing over, and so does a `Host`, which has a loop to tick as well: the same moves get
the same answers, and after each of them there is the same to see (`Lockstep.play_eq`).
-/

namespace Playground

/-! ## What there is to see -/

/-- What there is to see of a bridge: what is on the console, what is pending, and the time that the guest is told. -/
structure Visible where
  contents : List UInt8
  pending : List UInt8
  elapsed : UInt32
  deriving DecidableEq, Repr

/-- What there is to see of the bridge. -/
def Bridge.visible (b : Bridge) : Visible := ⟨b.sink.contents, b.input.toList, b.elapsedMillis⟩

/-- The milliseconds by which a span moves a clock. -/
def Duration.counted (d : Duration) : Nat := min d.wholeMillis (UInt64.size - 1)

namespace Machine

variable {γ : Type}

/-- The machine once something was typed. -/
def typed (m : Machine γ) (bytes : List UInt8) : Machine γ := { m with bridge := m.bridge.pushInput bytes }

/-- The machine once time has passed. -/
def passed (m : Machine γ) (d : Duration) : Machine γ := { m with bridge := m.bridge.advance d }

end Machine

/-- Related machines answer calls about the run alike, and stay related. -/
def CallsAlike {γ : Type} [Guest γ] (P : Machine γ → Machine γ → Prop) : Prop :=
  ∀ (e : Export) {m m' : Machine γ}, e.AboutRun → P m m' →
    (Guest.call e m).1 = (Guest.call e m').1 ∧ P (Guest.call e m).2 (Guest.call e m').2

/-- Related machines go on alike, whatever is done with both, and there is the same to see of them. The number is a time in
milliseconds, for which at least they do so. -/
structure Lockstep {γ : Type} [Guest γ] (R : Nat → Machine γ → Machine γ → Prop) : Prop where
  call : ∀ n, CallsAlike (R n)
  typed : ∀ {n m m'} (bytes : List UInt8), R n m m' → R n (m.typed bytes) (m'.typed bytes)
  passed : ∀ {n m m'} (d : Duration), R (n + d.counted) m m' → R n (m.passed d) (m'.passed d)
  visible : ∀ {n m m'}, R n m m' → m.bridge.visible = m'.bridge.visible

/-- Where the same is noted of calls to related machines, they go on alike with their notes. -/
theorem Lockstep.watched {γ ν : Type} [Guest γ] [Watch γ ν] {R : Nat → Machine γ → Machine γ → Prop} (hR : Lockstep R)
    (hnotes : ∀ {n m m'} (e : Export), e.AboutRun → R n m m' →
      (Watch.observe e m (Guest.call e m).1 (Guest.call e m).2 : List ν) =
        Watch.observe e m' (Guest.call e m').1 (Guest.call e m').2) :
    Lockstep fun n (m m' : Machine (Watched γ ν)) => R n m.unwatched m'.unwatched ∧ m.notes = m'.notes where
  call n := by
    rintro e m m' he ⟨hmachine, hsame⟩
    obtain ⟨hresult, hafter⟩ := hR.call n e he hmachine
    have hnoted : (Guest.call e m).2.notes = (Guest.call e m').2.notes := by
      have hnew := hnotes e he hmachine
      rw [Machine.notes_call, Machine.notes_call, hsame]
      exact congrArg _ hnew
    exact ⟨hresult, hafter, hnoted⟩
  typed bytes h := ⟨hR.typed bytes h.1, h.2⟩
  passed d h := ⟨hR.passed d h.1, h.2⟩
  visible h := hR.visible h.1

/-! ## Controllers that stand alike -/

namespace Controller

variable {γ : Type}

/-- Controllers that stand alike over related machines. The numbers of their starts may differ. -/
structure Alike (P : Machine γ → Machine γ → Prop) (g g' : Nat) (c c' : Controller γ) : Prop where
  machine : P c.machine c'.machine
  state : c.state = c'.state
  runActive : c.runActive = c'.runActive
  fault : c.fault = c'.fault
  generation : c.generation = g
  generation' : c'.generation = g'

/-- Answers that are the same, with controllers that stand alike. -/
def SameAnswer {α : Type} (P : Machine γ → Machine γ → Prop) (g g' : Nat) (p p' : α × Controller γ) : Prop :=
  p.1 = p'.1 ∧ Alike P g g' p.2 p'.2

namespace Alike

variable {P : Machine γ → Machine γ → Prop} {g g' : Nat} {c c' : Controller γ}

/-- What they note does not matter. -/
theorem note (h : Alike P g g' c c') (events events' : List LogEvent) : Alike P g g' (c.note events) (c'.note events') :=
  { h with }

/-- Both may come to stand elsewhere. -/
theorem with_state (h : Alike P g g' c c') (state : RunState) :
    Alike P g g' ({ c with state } : Controller γ) { c' with state } :=
  { h with state := rfl }

/-- What is typed is taken by both or by none. -/
theorem pushInput (h : Alike P g g' c c') {bytes : List UInt8} (htyped : P (c.machine.typed bytes) (c'.machine.typed bytes)) :
    SameAnswer P g g' (c.pushInput bytes) (c'.pushInput bytes) := by
  unfold Controller.pushInput
  by_cases hs : c.state = .running
  · simp only [if_pos hs, if_pos (h.state ▸ hs)]
    exact ⟨rfl, { h with machine := htyped }⟩
  · simp only [if_neg hs, if_neg (h.state ▸ hs)]
    exact ⟨rfl, h⟩

section Calls

variable [Guest γ] (hcall : CallsAlike P)

include hcall

/-- Their runs are torn down alike. -/
theorem teardown (h : Alike P g g' c c') : SameAnswer P g g' c.teardown c'.teardown := by
  unfold Controller.teardown
  by_cases hactive : c.runActive = true
  · simp only [if_pos hactive, if_pos (h.runActive ▸ hactive)]
    obtain ⟨hresult, hafter⟩ := hcall .deinitRun trivial h.machine
    generalize Guest.call .deinitRun c.machine = ended at hresult hafter ⊢
    generalize Guest.call .deinitRun c'.machine = ended' at hresult hafter ⊢
    obtain ⟨result, m⟩ := ended
    obtain ⟨_, m'⟩ := ended'
    cases hresult
    rcases result with e | _
    · exact ⟨rfl, { h with machine := hafter, state := rfl, runActive := rfl }⟩
    · exact ⟨rfl, { h with machine := hafter, runActive := rfl }⟩
  · simp only [if_neg hactive, if_neg (h.runActive ▸ hactive)]
    exact ⟨rfl, h⟩

/-- They are stopped alike. -/
theorem stop (h : Alike P g g' c c') : Alike P g g' c.stop c'.stop := by
  unfold Controller.stop
  rw [h.state]
  cases c'.state with
  | running =>
    obtain ⟨hanswer, htorn⟩ := (h.with_state .stopped).teardown hcall
    generalize ({ c with state := .stopped } : Controller γ).teardown = torn at hanswer htorn ⊢
    generalize ({ c' with state := .stopped } : Controller γ).teardown = torn' at hanswer htorn ⊢
    obtain ⟨answer, d⟩ := torn
    obtain ⟨_, d'⟩ := torn'
    cases hanswer
    rcases answer with e | _ <;> exact htorn.note _ _
  | faulted =>
    obtain ⟨hanswer, htorn⟩ := h.teardown hcall
    generalize c.teardown = torn at hanswer htorn ⊢
    generalize c'.teardown = torn' at hanswer htorn ⊢
    obtain ⟨answer, d⟩ := torn
    obtain ⟨_, d'⟩ := torn'
    cases hanswer
    rcases answer with e | _
    · exact htorn.note _ _
    · exact htorn
  | idle | compiling | stopped => exact h

/-- They answer alike whether their programs are complete. -/
theorem isFinished (h : Alike P g g' c c') : SameAnswer P g g' c.isFinished c'.isFinished := by
  unfold Controller.isFinished
  by_cases hactive : c.runActive = true
  · simp only [if_pos hactive, if_pos (h.runActive ▸ hactive)]
    obtain ⟨hresult, hafter⟩ := hcall .isFinished trivial h.machine
    generalize Guest.call .isFinished c.machine = asked at hresult hafter ⊢
    generalize Guest.call .isFinished c'.machine = asked' at hresult hafter ⊢
    obtain ⟨result, m⟩ := asked
    obtain ⟨_, m'⟩ := asked'
    cases hresult
    rcases result with e | finished
    · exact ⟨rfl, { h with machine := hafter, state := rfl }⟩
    · exact ⟨rfl, { h with machine := hafter }⟩
  · simp only [if_neg hactive, if_neg (h.runActive ▸ hactive)]
    exact ⟨rfl, h⟩

/-- They are checked for completion alike. -/
theorem checkFinished (h : Alike P g g' c c') : SameAnswer P g g' c.checkFinished c'.checkFinished := by
  obtain ⟨hanswer, hasked⟩ := h.isFinished hcall
  unfold Controller.checkFinished
  generalize c.isFinished = asked at hanswer hasked ⊢
  generalize c'.isFinished = asked' at hanswer hasked ⊢
  obtain ⟨answer, d⟩ := asked
  obtain ⟨_, d'⟩ := asked'
  cases hanswer
  rcases answer with e | finished
  · exact ⟨rfl, hasked⟩
  · dsimp only at hasked
    by_cases hdone : finished = true ∧ d.state = .running
    · simp only [if_pos hdone, if_pos (hasked.state ▸ hdone)]
      exact ⟨rfl, (hasked.with_state .stopped).note _ _⟩
    · simp only [if_neg hdone, if_neg (hasked.state ▸ hdone)]
      exact ⟨rfl, hasked⟩

/-- They step alike. -/
theorem step (h : Alike P g g' c c') (budget : UInt32) : SameAnswer P g g' (c.step budget) (c'.step budget) := by
  have hstate := h.state
  unfold Controller.step
  rw [hstate]
  cases hs : c'.state with
  | running =>
    obtain ⟨hresult, hafter⟩ := hcall (.step budget) trivial h.machine
    dsimp only
    generalize Guest.call (.step budget) c.machine = made at hresult hafter ⊢
    generalize Guest.call (.step budget) c'.machine = made' at hresult hafter ⊢
    obtain ⟨result, m⟩ := made
    obtain ⟨_, m'⟩ := made'
    cases hresult
    rcases result with e | status
    · exact ⟨rfl, { h with machine := hafter, state := rfl }⟩
    · dsimp only
      cases Outcome.ofStatus status with
      | success => exact ⟨rfl, { h with machine := hafter, state := rfl }⟩
      | _ => exact ⟨rfl, { h with machine := hafter, state := rfl, fault := rfl }⟩
  | idle | compiling | stopped | faulted => exact ⟨rfl, h⟩

end Calls

/-- Controllers that stand alike do so with notes beside their guests. -/
theorem noting (h : Alike P g g' c c') (ν : Type) :
    Alike (fun (m m' : Machine (Watched γ ν)) => P m.unwatched m'.unwatched ∧ m.notes = m'.notes) g g' (c.noting ν)
      (c'.noting ν) :=
  { h with machine := ⟨h.machine, rfl⟩ }

end Alike

end Controller

/-! ## Loops -/

namespace Scheduler

/-- Loops that have gone the same way; where they are armed, both are bound to the program that their controller has, or none is. -/
structure Alike (g g' : Nat) (s s' : Scheduler) : Prop where
  budget : s.budget = s'.budget
  armed : s.armed = s'.armed
  ticks : s.ticks = s'.ticks
  steps : s.steps = s'.steps
  lastExit : s.lastExit = s'.lastExit
  bound : s'.armed = true → (g = s.generation ↔ g' = s'.generation)

variable {γ : Type} {P : Machine γ → Machine γ → Prop} {g g' : Nat} {s s' : Scheduler} {c c' : Controller γ}

/-- Results of ticks that are the same, with loops and controllers that are alike. -/
def SameTick (P : Machine γ → Machine γ → Prop) (g g' : Nat)
    (p p' : Except HostError Tick × Scheduler × Controller γ) : Prop :=
  p.1 = p'.1 ∧ Alike g g' p.2.1 p'.2.1 ∧ Controller.Alike P g g' p.2.2 p'.2.2

/-- A loop that is not armed is bound to nothing. -/
theorem Alike.disarmed (s : Scheduler) : Alike g g' s.disarmed s.disarmed := ⟨rfl, rfl, rfl, rfl, rfl, nofun⟩

/-- A loop that is armed is bound to the program that its controller has. -/
theorem Alike.arm (h : Alike g g' s s') (hc : Controller.Alike P g g' c c') : Alike g g' (s.arm c) (s'.arm c') :=
  ⟨h.budget, rfl, rfl, rfl, rfl, fun _ => iff_of_true hc.generation.symm hc.generation'.symm⟩

/-- Loops that are alike are left alike. -/
theorem Alike.leave (h : Alike g g' s s') (exit : LoopExit) (hc : Controller.Alike P g g' c c') :
    SameTick P g g' (s.leave exit c) (s'.leave exit c') := by
  refine ⟨rfl, ⟨h.budget, rfl, h.ticks, h.steps, rfl, nofun⟩, ?_⟩
  cases exit with
  | alarm outcome => exact hc.note _ _
  | _ => exact hc

/-- They fail alike. -/
theorem Alike.fail (h : Alike g g' s s') (e : HostError) (hc : Controller.Alike P g g' c c') :
    SameTick P g g' (s.fail e c) (s'.fail e c') :=
  ⟨rfl, ⟨h.budget, rfl, h.ticks, h.steps, h.lastExit, nofun⟩, hc⟩

section Calls

variable [Guest γ] (hcall : CallsAlike P)

include hcall

/-- They step alike. -/
theorem Alike.advance (h : Alike g g' s s') (hc : Controller.Alike P g g' c c') :
    SameTick P g g' (s.advance c) (s'.advance c') := by
  obtain ⟨hanswer, hmade⟩ := hc.step hcall s.budget
  have hbudget : c'.step s'.budget = c'.step s.budget := by rw [h.budget]
  unfold Scheduler.advance
  rw [hbudget]
  generalize c.step s.budget = made at hanswer hmade ⊢
  generalize c'.step s.budget = made' at hanswer hmade ⊢
  obtain ⟨answer, d⟩ := made
  obtain ⟨_, d'⟩ := made'
  cases hanswer
  have hstepped : Alike g g' { s with steps := s.steps + 1 } { s' with steps := s'.steps + 1 } :=
    { h with steps := congrArg (· + 1) h.steps }
  rcases answer with e | outcome
  · exact h.fail e hmade
  · cases outcome with
    | success => exact ⟨rfl, hstepped, hmade⟩
    | _ => exact hstepped.leave _ hmade

/-- They tick alike. -/
theorem Alike.tick (h : Alike g g' s s') (hc : Controller.Alike P g g' c c') :
    SameTick P g g' (s.tick c) (s'.tick c') := by
  unfold Scheduler.tick
  by_cases harmed : s.armed = true
  · have harmed' : s'.armed = true := h.armed ▸ harmed
    simp only [if_pos harmed, if_pos harmed']
    have hcounted : Alike g g' { s with ticks := s.ticks + 1 } { s' with ticks := s'.ticks + 1 } :=
      { h with ticks := congrArg (· + 1) h.ticks }
    have hbound := h.bound harmed'
    rw [← hc.generation, ← hc.generation'] at hbound
    by_cases hgen : c.generation = s.generation
    · simp only [if_pos hgen, if_pos (hbound.mp hgen), hc.state]
      cases c'.state with
      | running =>
        obtain ⟨hanswer, hchecked⟩ := hc.checkFinished hcall
        dsimp only
        generalize c.checkFinished = checked at hanswer hchecked ⊢
        generalize c'.checkFinished = checked' at hanswer hchecked ⊢
        obtain ⟨answer, d⟩ := checked
        obtain ⟨_, d'⟩ := checked'
        cases hanswer
        rcases answer with e | _ | _
        · exact hcounted.fail e hchecked
        · exact hcounted.advance hcall hchecked
        · exact hcounted.leave .finished hchecked
      | faulted =>
        simp only [hc.fault]
        exact hcounted.leave _ hc
      | idle | compiling | stopped => exact hcounted.leave .cancelled hc
    · simp only [if_neg hgen, if_neg (hgen ∘ hbound.mpr)]
      exact hcounted.leave .cancelled hc
  · simp only [if_neg harmed, if_neg (h.armed ▸ harmed)]
    exact ⟨rfl, h, hc⟩

end Calls

end Scheduler

/-! ## A host with a loop -/

/-- What a host does about a program that it has. -/
inductive Move where
  | arm
  | tick
  | step (budget : UInt32)
  | pushInput (bytes : List UInt8)
  | stop
  | isFinished
  | checkFinished
  /-- Time passes. -/
  | wait (d : Duration)
  deriving DecidableEq, Repr

/-- The milliseconds that pass in a move. -/
def Move.millis : Move → Nat
  | .wait d => d.counted
  | _ => 0

/-- The milliseconds that pass in moves. -/
def Move.spent : List Move → Nat
  | [] => 0
  | move :: moves => spent moves + move.millis

/-- What a move is answered. -/
inductive Answer where
  | done
  | ticked (result : Except HostError Tick)
  | stepped (result : Except HostError Outcome)
  | pushed (taken : Bool)
  | asked (result : Except HostError Bool)

/-- All there is to see of a loop and its program. -/
structure Sight where
  armed : Bool
  ticks : Nat
  steps : Nat
  lastExit : Option LoopExit
  state : RunState
  runActive : Bool
  fault : Option Outcome
  visible : Visible

/-- A loop, and the controller that it is ticked with. -/
structure Host (γ : Type) where
  loop : Scheduler
  controller : Controller γ

namespace Host

variable {γ : Type}

/-- All there is to see. -/
def sight (h : Host γ) : Sight where
  armed := h.loop.armed
  ticks := h.loop.ticks
  steps := h.loop.steps
  lastExit := h.loop.lastExit
  state := h.controller.state
  runActive := h.controller.runActive
  fault := h.controller.fault
  visible := h.controller.machine.bridge.visible

/-- The host with its controller replaced by another, and an answer. -/
def answering {α : Type} (h : Host γ) (tell : α → Answer) (p : α × Controller γ) : Answer × Host γ :=
  (tell p.1, { h with controller := p.2 })

variable [Guest γ]

/-- Makes a move. -/
def make (h : Host γ) : Move → Answer × Host γ
  | .arm => (.done, { h with loop := h.loop.arm h.controller })
  | .tick =>
    let (result, loop, controller) := h.loop.tick h.controller
    (.ticked result, ⟨loop, controller⟩)
  | .step budget => h.answering .stepped (h.controller.step budget)
  | .pushInput bytes => h.answering .pushed (h.controller.pushInput bytes)
  | .stop => (.done, { h with controller := h.controller.stop })
  | .isFinished => h.answering .asked h.controller.isFinished
  | .checkFinished => h.answering .asked h.controller.checkFinished
  | .wait d => (.done, { h with controller := h.controller.onBridge (·.advance d) })

/-- Makes moves, and tells what each of them is answered and what there is to see after it. -/
def play (h : Host γ) : List Move → List (Answer × Sight)
  | [] => []
  | move :: moves => ((h.make move).1, (h.make move).2.sight) :: (h.make move).2.play moves

/-- The host once moves were made. -/
def after (h : Host γ) (moves : List Move) : Host γ := moves.foldl (fun h move => (h.make move).2) h

/-- It makes no difference what a loop was armed for that is not armed, or is armed first. -/
theorem play_disarmed {s : Scheduler} {moves : List Move} (h : s.armed = false ∨ moves.head? = some .arm) (c : Controller γ) :
    play ⟨s, c⟩ moves = play ⟨s.disarmed, c⟩ moves ∧ after ⟨s, c⟩ moves = after ⟨s.disarmed, c⟩ moves := by
  obtain hunarmed | hfirst := h
  · have hsame : s.disarmed = s := by rw [Scheduler.disarmed, ← hunarmed]
    rw [hsame]
    exact ⟨rfl, rfl⟩
  · cases moves with
    | nil => cases hfirst
    | cons move moves =>
      cases hfirst
      exact ⟨rfl, rfl⟩

/-- Hosts whose loops and controllers are alike. -/
structure Alike (P : Machine γ → Machine γ → Prop) (g g' : Nat) (h h' : Host γ) : Prop where
  loop : h.loop.Alike g g' h'.loop
  controller : Controller.Alike P g g' h.controller h'.controller

variable {P : Machine γ → Machine γ → Prop} {g g' : Nat} {h h' : Host γ}

omit [Guest γ] in
/-- Hosts that are alike tell the same answers. -/
theorem Alike.answering {α : Type} (hh : Alike P g g' h h') (tell : α → Answer) {p p' : α × Controller γ}
    (hp : Controller.SameAnswer P g g' p p') :
    (h.answering tell p).1 = (h'.answering tell p').1 ∧ Alike P g g' (h.answering tell p).2 (h'.answering tell p').2 :=
  ⟨congrArg tell hp.1, hh.loop, hp.2⟩

end Host

namespace Lockstep

variable {γ : Type} [Guest γ] {R : Nat → Machine γ → Machine γ → Prop} {n g g' : Nat} {h h' : Host γ}

/-- There is the same to see of hosts that are alike. -/
theorem sight_eq (hR : Lockstep R) (hh : Host.Alike (R n) g g' h h') : h.sight = h'.sight := by
  obtain ⟨-, harmed, hticks, hsteps, hexit, -⟩ := hh.loop
  obtain ⟨hmachine, hstate, hactive, hfault, -, -⟩ := hh.controller
  unfold Host.sight
  rw [harmed, hticks, hsteps, hexit, hstate, hactive, hfault, hR.visible hmachine]

/-- A move is answered alike and leaves hosts alike. -/
theorem make_eq (hR : Lockstep R) (move : Move) (hh : Host.Alike (R (n + move.millis)) g g' h h') :
    (h.make move).1 = (h'.make move).1 ∧ Host.Alike (R n) g g' (h.make move).2 (h'.make move).2 := by
  obtain ⟨hloop, hcontroller⟩ := hh
  cases move with
  | arm => exact ⟨rfl, hloop.arm hcontroller, hcontroller⟩
  | tick =>
    obtain ⟨hanswer, hticked⟩ := hloop.tick (hR.call n) hcontroller
    exact ⟨congrArg Answer.ticked hanswer, hticked.1, hticked.2⟩
  | step budget => exact Host.Alike.answering ⟨hloop, hcontroller⟩ _ (hcontroller.step (hR.call n) budget)
  | pushInput bytes =>
    exact Host.Alike.answering ⟨hloop, hcontroller⟩ _ (hcontroller.pushInput (hR.typed bytes hcontroller.machine))
  | stop => exact ⟨rfl, hloop, hcontroller.stop (hR.call n)⟩
  | isFinished => exact Host.Alike.answering ⟨hloop, hcontroller⟩ _ (hcontroller.isFinished (hR.call n))
  | checkFinished => exact Host.Alike.answering ⟨hloop, hcontroller⟩ _ (hcontroller.checkFinished (hR.call n))
  | wait d => exact ⟨rfl, hloop, { hcontroller with machine := hR.passed d hcontroller.machine }⟩

/-- Moves are answered alike, with the same to see after each of them, and leave hosts alike. -/
theorem play_eq (hR : Lockstep R) (moves : List Move)
    (hh : Host.Alike (R (n + Move.spent moves)) g g' h h') :
    h.play moves = h'.play moves ∧ Host.Alike (R n) g g' (h.after moves) (h'.after moves) := by
  induction moves generalizing h h' with
  | nil => exact ⟨rfl, hh⟩
  | cons move moves ih =>
    rw [Move.spent, ← Nat.add_assoc] at hh
    obtain ⟨hanswer, hnext⟩ := hR.make_eq move hh
    obtain ⟨hrest, hlast⟩ := ih hnext
    refine ⟨?_, hlast⟩
    rw [Host.play, Host.play, hanswer, hR.sight_eq hnext, hrest]

end Lockstep

/-! ## Texts that are checked in between -/

/-- A move, or a check of a text. -/
inductive Visit where
  | act (move : Move)
  | validate (text : String)
  deriving DecidableEq, Repr

/-- The move, unless it is a check. -/
def Visit.move? : Visit → Option Move
  | .act move => some move
  | .validate _ => none

/-- Makes moves and checks texts, and tells what each move is answered and what there is to see after it. -/
def Host.playAmid {γ : Type} [Guest γ] (h : Host γ) : List Visit → List (Answer × Sight)
  | [] => []
  | .act move :: visits => ((h.make move).1, (h.make move).2.sight) :: (h.make move).2.playAmid visits
  | .validate text :: visits => Host.playAmid { h with controller := (h.controller.validate text).2 } visits

namespace Lockstep

variable {γ : Type} [Guest γ] {R : Nat → Machine γ → Machine γ → Prop} {n g g' : Nat} {h h' : Host γ}

/-- Where a check of a text leads to a machine that is still related, checks in between are not noticed. -/
theorem playAmid_eq (hR : Lockstep R) (visits : List Visit)
    (hchecks : ∀ text, .validate text ∈ visits → ∀ n m m', R n m m' →
      R n (m.handOff (Text.encode text) Controller.validateUse).2.1 m')
    (hh : Host.Alike (R (n + Move.spent (visits.filterMap Visit.move?))) g g' h h') :
    h.playAmid visits = h'.play (visits.filterMap Visit.move?) := by
  induction visits generalizing h h' with
  | nil => rfl
  | cons visit visits ih =>
    have hchecks' := fun text htext => hchecks text (List.mem_cons_of_mem _ htext)
    cases visit with
    | act move =>
      have hmoves : (Visit.act move :: visits).filterMap Visit.move? = move :: visits.filterMap Visit.move? := rfl
      rw [hmoves] at hh ⊢
      rw [Move.spent, ← Nat.add_assoc] at hh
      obtain ⟨hanswer, hnext⟩ := hR.make_eq move hh
      rw [Host.playAmid, Host.play, hanswer, hR.sight_eq hnext, ih hchecks' hnext]
    | validate text =>
      have hmachine := hchecks text List.mem_cons_self _ _ _ hh.controller.machine
      have hstanding := h.controller.standing_validate text
      rw [← Controller.machine_validate] at hmachine
      simp only [Controller.standing, Standing.mk.injEq] at hstanding
      obtain ⟨hstate, hactive, hfault, -, hgeneration⟩ := hstanding
      obtain ⟨-, hstate', hactive', hfault', hgen, hgen'⟩ := hh.controller
      have hnext : Host.Alike (R (n + Move.spent (visits.filterMap Visit.move?))) g g'
          { h with controller := (h.controller.validate text).2 } h' :=
        ⟨hh.loop, hmachine, hstate.trans hstate', hactive.trans hactive', hfault.trans hfault', hgeneration.trans hgen, hgen'⟩
      exact ih hchecks' hnext

end Lockstep

end Playground
