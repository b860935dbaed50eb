import Playground.Proofs.Controller.Runs

/-!
# The calls a guest receives

A guest is set up once, before anything else; calls about a run come while one is open; and a step is made by a controller
whose program is running (`Controller.madeStep_of_step`), which is either the one the host has or, in a tick, the one it has once
it asked whether the program is complete (`Operation.stepsFrom`).
-/

namespace Playground

namespace Call

/-- The call is part of a hand-off. -/
def IsHandOff (call : Call) : Prop :=
  match call.function with
  | .allocate _ | .release _ _ | .validate _ _ | .initRun _ _ => True
  | .setUp | .deinitRun | .isFinished | .step _ => False

variable {call : Call}

/-- No part of a hand-off sets the guest up. -/
theorem IsHandOff.function_ne (h : call.IsHandOff) : call.function ≠ .setUp := by
  intro hsetUp
  rw [IsHandOff, hsetUp] at h
  exact h

/-- No part of a hand-off is a step. -/
theorem IsHandOff.not_isStep (h : call.IsHandOff) : ¬call.IsStep := by
  obtain ⟨function, result⟩ := call
  cases function with
  | step budget => exact h.elim
  | _ => exact id

/-- No call about a run sets the guest up. -/
theorem NeedsRun.function_ne (h : call.NeedsRun) : call.function ≠ .setUp := by
  obtain ⟨function, result⟩ := call
  rintro rfl
  obtain h | h | h := h <;> cases h

/-- Calls of one other export are no steps. -/
theorem not_isStep_of_function_eq (h : call.function = .deinitRun ∨ call.function = .isFinished) : ¬call.IsStep := by
  obtain ⟨function, result⟩ := call
  obtain h | h := h <;> cases h <;> exact id

end Call

variable {p q : Standing} {calls new : List Call}

/-! ## The calls of a hand-off -/

/-- All calls of a hand-off are part of it, if the one that it is made for counts as such. -/
theorem HandedOff.isHandOff {call : Slice → Except GuestError Int32 → Call} {payload : List UInt8}
    {result : Except MarshalError Int32} (h : HandedOff call payload result new)
    (hcall : ∀ slice result, (call slice result).IsHandOff) : ∀ call ∈ new, call.IsHandOff := by
  cases h <;> simp [Call.IsHandOff]
  exact hcall _ _

/-- So are all calls by which a program is submitted. -/
theorem Submitted.isHandOff {call : Slice → Except GuestError Int32 → Call} {source : String}
    {result : Except HostError Outcome} (h : Submitted call source result new)
    (hcall : ∀ slice result, (call slice result).IsHandOff) : ∀ call ∈ new, call.IsHandOff := by
  obtain ⟨_, h⟩ := h.handedOff
  exact h.isHandOff hcall

/-- A start ends a run and hands its program over. -/
theorem Started.isHandOff_or_function_eq {source : String} {result : Except HostError Outcome}
    (h : Started p source result new q) : ∀ call ∈ new, call.IsHandOff ∨ call.function = .deinitRun := by
  have hgiven : ∀ {result given}, Submitted Call.ofInitRun source result given →
      ∀ call ∈ given, call.IsHandOff ∨ call.function = .deinitRun :=
    fun hg call hcall => .inl (hg.isHandOff (fun _ _ => trivial) call hcall)
  have htorn : ∀ {r s result torn}, TornDown r result torn s → ∀ call ∈ torn, call.IsHandOff ∨ call.function = .deinitRun :=
    fun ht call hcall => .inr (ht.function_eq call hcall)
  cases h with
  | held ht => exact htorn ht
  | begun ht hb =>
    refine List.forall_mem_append.mpr ⟨htorn ht, ?_⟩
    cases hb with
    | failed hg => exact hgiven hg
    | refused hg _ => exact hgiven hg
    | launched hg => exact hgiven hg
    | abandoned hg e ht => exact List.forall_mem_append.mpr ⟨hgiven hg, htorn ht⟩

/-! ## Setting up -/

/-- No operation sets the guest up. -/
theorem Operation.Goes.function_ne {op : Operation} (h : op.Goes p new q) : ∀ call ∈ new, call.function ≠ .setUp := by
  intro call hcall
  obtain ⟨_, _, -, h⟩ | ⟨_, _, -, h⟩ | h := h.cases_source
  · exact (h.isHandOff (fun _ _ => trivial) call hcall).function_ne
  · obtain hhandOff | hends := h.isHandOff_or_function_eq call hcall
    · exact hhandOff.function_ne
    · rw [hends]
      nofun
  · exact (h call hcall).function_ne

/-! ## Stepping -/

/-- The controller that makes the step of an operation, and the budget of the step. A tick first asks whether the program is
complete. -/
def Operation.stepsFrom {γ : Type} [Guest γ] (c : Controller γ) : Operation → Option (Controller γ × UInt32)
  | .step budget => some (c, budget)
  | .tick loop => some (c.checkFinished.2, loop.budget)
  | _ => none

/-- Operations other than steps and ticks make no step. -/
theorem Operation.Goes.not_isStep {γ : Type} [Guest γ] {c : Controller γ} {op : Operation} (h : op.Goes p new q)
    (hop : op.stepsFrom c = none) : ∀ call ∈ new, ¬call.IsStep := by
  intro call hcall
  cases h with
  | validate h => exact (h.isHandOff (fun _ _ => trivial) call hcall).not_isStep
  | start h =>
    obtain hhandOff | hends := h.isHandOff_or_function_eq call hcall
    · exact hhandOff.not_isStep
    · exact Call.not_isStep_of_function_eq (.inl hends)
  | stop h => exact Call.not_isStep_of_function_eq (.inl (h.function_eq call hcall))
  | isFinished h => exact Call.not_isStep_of_function_eq (.inr (h.function_eq call hcall))
  | checkFinished h => exact Call.not_isStep_of_function_eq (.inr (h.function_eq call hcall))
  | step _ => cases hop
  | tick _ => cases hop
  | pushInput _ => cases hcall
  | onBridge _ => cases hcall

namespace Scheduler

variable {γ : Type}

/-- Leaving a loop calls nothing. -/
theorem calls_leave (s : Scheduler) (exit : LoopExit) (c : Controller (Recorded γ)) :
    (s.leave exit c).2.2.calls = c.calls :=
  congrArg Machine.calls (machine_leave s exit c)

variable [Guest γ]

/-- All that a tick calls after its question is the step. -/
theorem calls_advance (s : Scheduler) (c : Controller (Recorded γ)) :
    (s.advance c).2.2.calls = (c.step s.budget).2.calls := by
  unfold advance
  rcases c.step s.budget with ⟨e | outcome, c'⟩
  · rfl
  · cases outcome with
    | success => rfl
    | _ => exact calls_leave _ _ c'

/-- A tick leaves the guest alone, or it asks whether the program is complete and makes at most a step. -/
theorem calls_tick (s : Scheduler) (c : Controller (Recorded γ)) :
    (s.tick c).2.2.calls = c.calls ∨ (s.tick c).2.2.calls = c.checkFinished.2.calls ∨
      (s.tick c).2.2.calls = (c.checkFinished.2.step s.budget).2.calls := by
  unfold tick
  by_cases harmed : s.armed = true
  · rw [if_pos harmed]
    by_cases hg : c.generation = s.generation
    · simp only [if_pos hg]
      split
      next =>
        rcases c.checkFinished with ⟨e | finished, c'⟩
        · exact .inr (.inl rfl)
        · cases finished with
          | true => exact .inr (.inl (calls_leave _ _ c'))
          | false => exact .inr (.inr (calls_advance _ c'))
      all_goals exact .inl (calls_leave _ _ c)
    · simp only [if_neg hg]
      exact .inl (calls_leave _ _ c)
  · rw [if_neg harmed]
    exact .inl rfl

end Scheduler

/-- A step makes its call if the program is running, and none if it is not. -/
theorem Stepped.cases_call {budget : UInt32} {result : Except HostError Outcome} (h : Stepped p budget result new q) :
    new = [] ∨ p.state = .running ∧ ∃ status, new = [⟨.step budget, status⟩] := by
  cases h with
  | failed hs e => exact .inr ⟨hs, _, rfl⟩
  | worked hs => exact .inr ⟨hs, _, rfl⟩
  | ended hs _ => exact .inr ⟨hs, _, rfl⟩
  | stopped _ => exact .inl rfl
  | refused _ _ => exact .inl rfl

namespace Controller

variable {γ : Type} [Guest γ] {c : Controller (Recorded γ)}

/-- Between the controller a host has and the one that makes the step there is no step, and after it there is the step or
nothing. -/
theorem calls_stepsFrom {op : Operation} {c₁ : Controller (Recorded γ)} {budget : UInt32}
    (h : op.stepsFrom c = some (c₁, budget)) :
    ∃ asked, c₁.calls = c.calls ++ asked ∧ (∀ call ∈ asked, ¬call.IsStep) ∧
      ((c.perform op).calls = c.calls ∨ (c.perform op).calls = c₁.calls ∨
        (c.perform op).calls = (c₁.step budget).2.calls) := by
  cases op with
  | step budget =>
    cases h
    exact ⟨[], (List.append_nil _).symm, by simp, .inr (.inr rfl)⟩
  | tick loop =>
    cases h
    obtain ⟨asked, hasked, hc⟩ := c.checkFinished_goes
    exact ⟨asked, hasked, fun call hcall => Call.not_isStep_of_function_eq (.inr (hc.function_eq call hcall)),
      loop.calls_tick c⟩
  | _ => cases h

/-- An operation makes its step, if it makes one, as its last call, and the controller it makes it from is running. -/
theorem stepsFrom_of_step {op : Operation} {before after : List Call} {budget : UInt32} {result : Except GuestError Int32}
    (h : (c.perform op).calls = c.calls ++ (before ++ ⟨.step budget, result⟩ :: after)) :
    ∃ c₁, op.stepsFrom c = some (c₁, budget) ∧ c₁.calls = c.calls ++ before ∧ c₁.state = .running := by
  have hstep : ∀ {new}, (c.perform op).calls = c.calls ++ new → ¬∀ call ∈ new, ¬call.IsStep := by
    intro new hnew hnone
    have hsame := List.append_cancel_left (hnew.symm.trans h)
    exact hnone ⟨.step budget, result⟩ (by simp [hsame]) trivial
  cases hfrom : op.stepsFrom c with
  | none =>
    obtain ⟨new, hnew, hgoes⟩ := c.perform_goes op
    exact absurd (hgoes.not_isStep hfrom) (hstep hnew)
  | some made =>
    obtain ⟨c₁, made⟩ := made
    obtain ⟨asked, hasked, hnone, hcalls | hcalls | hcalls⟩ := calls_stepsFrom hfrom
    · exact absurd (by simp) (hstep (hcalls.trans (List.append_nil _).symm))
    · exact absurd hnone (hstep (hcalls.trans hasked))
    obtain ⟨work, hwork, hw⟩ := c₁.step_goes made
    rw [hcalls] at h hstep
    obtain rfl | ⟨hrunning, status, rfl⟩ := hw.cases_call
    · rw [List.append_nil] at hwork
      exact absurd hnone (hstep (hwork.trans hasked))
    rw [hwork, hasked, List.append_assoc] at h
    obtain ⟨-, rfl, hsame⟩ | ⟨rest, -, rfl⟩ := concat_eq_append_cons.mp (List.append_cancel_left h)
    · cases hsame
      exact ⟨c₁, rfl, hasked, hrunning⟩
    · exact absurd trivial (hnone ⟨.step budget, result⟩ (by simp))

/-- Along a history, a step of some budget was made by a running controller that had just some calls in its record. -/
def MadeStep (c : Controller (Recorded γ)) (ops : List Operation) (before : List Call) (budget : UInt32) : Prop :=
  ∃ earlier op later c₁, ops = earlier ++ op :: later ∧ op.stepsFrom (c.after earlier) = some (c₁, budget) ∧
    c₁.calls = before ∧ c₁.state = .running

/-- A step made along a history is made along every longer one. -/
theorem MadeStep.concat {ops : List Operation} {before : List Call} {budget : UInt32} (h : MadeStep c ops before budget)
    (op : Operation) : MadeStep c (ops ++ [op]) before budget := by
  obtain ⟨earlier, op', later, c₁, rfl, hmade⟩ := h
  exact ⟨earlier, op', later ++ [op], c₁, by simp, hmade⟩

variable {m : Machine γ} {clear : Bool}

/-- A guest is set up first, and never again. -/
theorem exists_calls_eq_cons (h : create m.record clear = .ok c) (ops : List Operation) :
    ∃ rest, (c.after ops).calls = ⟨.setUp, .ok ()⟩ :: rest ∧ ∀ call ∈ rest, call.function ≠ .setUp := by
  refine after_induction (P := fun d => ∃ rest, d.calls = ⟨.setUp, .ok ()⟩ :: rest ∧ ∀ call ∈ rest, call.function ≠ .setUp)
    ?_ ⟨[], calls_create h, by simp⟩ ops
  rintro d op ⟨rest, hrest, hnone⟩
  obtain ⟨new, hnew, hgoes⟩ := d.perform_goes op
  refine ⟨rest ++ new, ?_, List.forall_mem_append.mpr ⟨hnone, hgoes.function_ne⟩⟩
  rw [hnew, hrest, List.cons_append]

/-- Every step in a record was made by a running controller, with just the calls before it in its record. -/
theorem madeStep_of_step (h : create m.record clear = .ok c) {ops : List Operation} {before after : List Call}
    {budget : UInt32} {result : Except GuestError Int32}
    (hcalls : (c.after ops).calls = before ++ ⟨.step budget, result⟩ :: after) : MadeStep c ops before budget := by
  induction ops using List.reverseRecOn generalizing after with
  | nil =>
    rw [after_nil, calls_create h, ← List.nil_append [_]] at hcalls
    obtain ⟨-, -, hsame⟩ | ⟨rest, -, hempty⟩ := concat_eq_append_cons.mp hcalls
    · cases hsame
    · simp at hempty
  | append_singleton ops op ih =>
    obtain ⟨new, hnew, -⟩ := (c.after ops).perform_goes op
    rw [after_concat] at hcalls
    have hlast : ∀ mid, before = (c.after ops).calls ++ mid → MadeStep c (ops ++ [op]) before budget := by
      rintro mid rfl
      rw [List.append_assoc] at hcalls
      obtain ⟨c₁, hmade⟩ := stepsFrom_of_step hcalls
      exact ⟨ops, op, [], c₁, rfl, hmade⟩
    obtain ⟨mid, hbefore, -⟩ | ⟨rest, hold, hrest⟩ := List.append_eq_append_iff.mp (hnew.symm.trans hcalls)
    · exact hlast mid hbefore
    · cases rest with
      | nil => exact hlast [] (by simpa using hold.symm)
      | cons first rest =>
        obtain rfl := List.head_eq_of_cons_eq hrest
        exact (ih hold).concat op

/-- Whatever the guest does and whatever is done with its controller: it is set up first and only once, a call about a run comes
after one was opened and before it is ended, so that a run was opened between any two calls that end one, and a step is made
while the program is running. -/
theorem no_stray_calls (h : create m.record clear = .ok c) (ops : List Operation) :
    (∃ rest, (c.after ops).calls = ⟨.setUp, .ok ()⟩ :: rest ∧ ∀ call ∈ rest, call.function ≠ .setUp) ∧
      (∀ before call after, (c.after ops).calls = before ++ call :: after → call.NeedsRun → RunOpen before) ∧
      (∀ before first between second after, (c.after ops).calls = before ++ first :: between ++ second :: after →
        first.function = .deinitRun → second.function = .deinitRun → ∃ call ∈ between, call.OpensRun) ∧
      (∀ before budget result after, (c.after ops).calls = before ++ ⟨.step budget, result⟩ :: after →
        MadeStep c ops before budget) := by
  have horderly : Orderly (c.after ops).calls := (tracked_after h ops).orderly
  refine ⟨exists_calls_eq_cons h ops, horderly, ?_, fun _ _ _ _ hcalls => madeStep_of_step h hcalls⟩
  intro before first between second after hcalls hfirst hsecond
  exact exists_opensRun_of_runOpen hfirst (horderly _ second after hcalls (.inr (.inr hsecond)))

/-- A program is started, stepped and stopped. -/
theorem no_stray_calls_willing :
    ∃ c : Controller (Recorded Fixed), create Fixed.willing.machine.record = .ok c ∧ ∃ before after,
      (c.after [.start "", .step 5, .stop]).calls = before ++ ⟨.step 5, .ok 0⟩ :: after ∧ RunOpen before ∧
        MadeStep c [.start "", .step 5, .stop] before 5 := by
  let c : Controller (Recorded Fixed) := { machine := Fixed.willing.machine.record [⟨.setUp, .ok ()⟩] }
  have h : create Fixed.willing.machine.record = .ok c := rfl
  have hcalls : (c.after [.start "", .step 5, .stop]).calls =
      [⟨.setUp, .ok ()⟩, ⟨.allocate 1, .ok 1⟩, ⟨.initRun 1 0, .ok 0⟩, ⟨.release 1 1, .ok ()⟩] ++
        ⟨.step 5, .ok 0⟩ :: [⟨.deinitRun, .ok ()⟩] := rfl
  obtain ⟨-, horderly, -, hsteps⟩ := no_stray_calls h [.start "", .step 5, .stop]
  exact ⟨c, h, _, _, hcalls, horderly _ _ _ hcalls (.inl trivial), hsteps _ _ _ _ hcalls⟩

end Controller

end Playground
