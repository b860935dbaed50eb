import Playground.Proofs.Controller.Effects

/-!
# What a tick does, and what any operation does

`Ticked` lists the ways in which a tick of a loop can go, in the manner of the relations for the controller's operations: a tick
asks whether the program is complete and makes a step when it is not, and every other tick leaves the guest alone.
`Operation.Goes` gathers the ways of all operations; a history is a row of them (`perform_goes`).
-/

namespace Playground

namespace Scheduler

/-- The loop with one more tick counted. -/
def counted (s : Scheduler) : Scheduler := { s with ticks := s.ticks + 1 }

/-- The loop with one more step counted. -/
def stepped (s : Scheduler) : Scheduler := { s with steps := s.steps + 1 }

/-- The loop, ended without an exit. -/
def disarmed (s : Scheduler) : Scheduler := { s with armed := false }

/-- The loop, ended by an exit. -/
def ended (s : Scheduler) (exit : LoopExit) : Scheduler := { s with armed := false, lastExit := some exit }

end Scheduler

/-- The ways in which a tick goes, and the loop it leaves. -/
inductive Ticked (s : Scheduler) (p : Standing) : Except HostError Tick → Scheduler → List Call → Standing → Prop where
  | unarmed (h : s.armed = false) : Ticked s p (.ok .idle) s [] p
  | replaced (h : s.armed = true) (hg : p.generation ≠ s.generation) :
    Ticked s p (.ok (.exit .cancelled)) (s.counted.ended .cancelled) [] p
  | faulted (h : s.armed = true) (hg : p.generation = s.generation) (hs : p.state = .faulted) :
    Ticked s p (.ok (.exit (.ofFault (p.fault.getD .invalidState))))
      (s.counted.ended (.ofFault (p.fault.getD .invalidState))) [] p
  | stopped (h : s.armed = true) (hg : p.generation = s.generation) (hr : p.state ≠ .running) (hf : p.state ≠ .faulted) :
    Ticked s p (.ok (.exit .cancelled)) (s.counted.ended .cancelled) [] p
  | notAsked {e : HostError} {asked : List Call} {q : Standing} (h : s.armed = true) (hg : p.generation = s.generation)
    (hs : p.state = .running) (hc : Checked p (.error e) asked q) : Ticked s p (.error e) s.counted.disarmed asked q
  | finished {asked : List Call} {q : Standing} (h : s.armed = true) (hg : p.generation = s.generation)
    (hs : p.state = .running) (hc : Checked p (.ok true) asked q) :
    Ticked s p (.ok (.exit .finished)) (s.counted.ended .finished) asked q
  | notStepped {e : HostError} {asked work : List Call} {q q' : Standing} (h : s.armed = true)
    (hg : p.generation = s.generation) (hs : p.state = .running) (hc : Checked p (.ok false) asked q)
    (hw : Stepped q s.budget (.error e) work q') : Ticked s p (.error e) s.counted.disarmed (asked ++ work) q'
  | again {asked work : List Call} {q q' : Standing} (h : s.armed = true) (hg : p.generation = s.generation)
    (hs : p.state = .running) (hc : Checked p (.ok false) asked q) (hw : Stepped q s.budget (.ok .success) work q') :
    Ticked s p (.ok .again) s.counted.stepped (asked ++ work) q'
  | failed {outcome : Outcome} {asked work : List Call} {q q' : Standing} (h : s.armed = true)
    (hg : p.generation = s.generation) (hs : p.state = .running) (hc : Checked p (.ok false) asked q)
    (hw : Stepped q s.budget (.ok outcome) work q') (ho : outcome ≠ .success) :
    Ticked s p (.ok (.exit (.ofFault outcome))) (s.counted.stepped.ended (.ofFault outcome)) (asked ++ work) q'

namespace Scheduler

variable {γ : Type} {s : Scheduler} {p : Standing} {calls : List Call}

/-- Leaving a loop leaves the guest's machine alone. -/
theorem machine_leave (loop : Scheduler) (exit : LoopExit) (c : Controller γ) : (loop.leave exit c).2.2.machine = c.machine := by
  cases exit <;> rfl

/-- Leaving a loop is no call and changes nothing about where the controller stands. -/
theorem leave_goes (loop : Scheduler) {exit : LoopExit} {c : Controller (Recorded γ)} {new : List Call}
    (hcalls : c.calls = calls ++ new) (h : Ticked s p (.ok (.exit exit)) (loop.ended exit) new c.standing) :
    ∃ new, (loop.leave exit c).2.2.calls = calls ++ new ∧
      Ticked s p (loop.leave exit c).1 (loop.leave exit c).2.1 new (loop.leave exit c).2.2.standing := by
  cases exit <;> exact ⟨new, hcalls, h⟩

variable [Guest γ]

/-- The step of a tick, once the program has been found incomplete. -/
theorem advance_goes {c : Controller (Recorded γ)} {asked : List Call} (harmed : s.armed = true)
    (hg : p.generation = s.generation) (hs : p.state = .running) (hcalls : c.calls = calls ++ asked)
    (hc : Checked p (.ok false) asked c.standing) :
    ∃ new, (s.counted.advance c).2.2.calls = calls ++ new ∧
      Ticked s p (s.counted.advance c).1 (s.counted.advance c).2.1 new (s.counted.advance c).2.2.standing := by
  obtain ⟨work, hwork, hw⟩ := c.step_goes s.budget
  have hb : s.counted.budget = s.budget := rfl
  unfold advance
  rw [hb]
  generalize c.step s.budget = made at hwork hw ⊢
  obtain ⟨e | outcome, c'⟩ := made
  · rw [hcalls, List.append_assoc] at hwork
    exact ⟨asked ++ work, hwork, .notStepped harmed hg hs hc hw⟩
  rw [hcalls, List.append_assoc] at hwork
  by_cases ho : outcome = .success
  · subst ho
    exact ⟨asked ++ work, hwork, .again harmed hg hs hc hw⟩
  · have hleft := leave_goes s.counted.stepped hwork (.failed harmed hg hs hc hw ho)
    cases outcome with
    | success => exact absurd rfl ho
    | _ => exact hleft

/-- A tick goes in one of its ways. -/
theorem tick_goes (s : Scheduler) (c : Controller (Recorded γ)) :
    ∃ new, (s.tick c).2.2.calls = c.calls ++ new ∧
      Ticked s c.standing (s.tick c).1 (s.tick c).2.1 new (s.tick c).2.2.standing := by
  unfold tick
  by_cases harmed : s.armed = true
  · have hquiet : c.calls = c.calls ++ [] := by simp
    simp only [if_pos harmed]
    by_cases hg : c.generation = s.generation
    · rw [if_pos hg]
      split
      next hs =>
        obtain ⟨asked, hcalls, hc⟩ := c.checkFinished_goes
        generalize c.checkFinished = checked at hcalls hc ⊢
        obtain ⟨e | finished, c'⟩ := checked
        · exact ⟨asked, hcalls, .notAsked harmed hg hs hc⟩
        · cases finished with
          | true => exact leave_goes _ hcalls (.finished harmed hg hs hc)
          | false => exact advance_goes harmed hg hs hcalls hc
      next hs => exact leave_goes _ hquiet (.faulted harmed hg hs)
      all_goals
        next hs =>
          exact leave_goes _ hquiet
            (.stopped harmed hg (fun h => nomatch hs.symm.trans h) (fun h => nomatch hs.symm.trans h))
    · rw [if_neg hg]
      exact leave_goes _ hquiet (.replaced harmed hg)
  · rw [if_neg harmed]
    exact ⟨[], by simp, .unarmed (Bool.eq_false_iff.mpr harmed)⟩

end Scheduler

/-- The ways in which an operation goes. -/
inductive Operation.Goes (p : Standing) : Operation → List Call → Standing → Prop where
  | validate {source : String} {result : Except HostError Outcome} {new : List Call}
    (h : Submitted Call.ofValidate source result new) : Goes p (.validate source) new p
  | start {source : String} {result : Except HostError Outcome} {new : List Call} {q : Standing}
    (h : Started p source result new q) : Goes p (.start source) new q
  | stop {new : List Call} {q : Standing} (h : Halted p new q) : Goes p .stop new q
  | isFinished {result : Except HostError Bool} {new : List Call} {q : Standing} (h : Asked p result new q) :
    Goes p .isFinished new q
  | checkFinished {result : Except HostError Bool} {new : List Call} {q : Standing} (h : Checked p result new q) :
    Goes p .checkFinished new q
  | step {budget : UInt32} {result : Except HostError Outcome} {new : List Call} {q : Standing}
    (h : Stepped p budget result new q) : Goes p (.step budget) new q
  | tick {loop loop' : Scheduler} {result : Except HostError Tick} {new : List Call} {q : Standing}
    (h : Ticked loop p result loop' new q) : Goes p (.tick loop) new q
  | pushInput (bytes : List UInt8) : Goes p (.pushInput bytes) [] p
  | onBridge (act : Bridge → Bridge) : Goes p (.onBridge act) [] p

/-- Every operation goes in one of its ways. -/
theorem Controller.perform_goes {γ : Type} [Guest γ] (c : Controller (Recorded γ)) (op : Operation) :
    ∃ new, (c.perform op).calls = c.calls ++ new ∧ op.Goes c.standing new (c.perform op).standing := by
  cases op with
  | validate source =>
    obtain ⟨new, hcalls, hg, hstanding⟩ := c.validate_goes source
    exact ⟨new, hcalls, hstanding ▸ .validate hg⟩
  | start source =>
    obtain ⟨new, hcalls, h⟩ := c.start_goes source
    exact ⟨new, hcalls, .start h⟩
  | stop =>
    obtain ⟨new, hcalls, h⟩ := c.stop_goes
    exact ⟨new, hcalls, .stop h⟩
  | isFinished =>
    obtain ⟨new, hcalls, h⟩ := c.isFinished_goes
    exact ⟨new, hcalls, .isFinished h⟩
  | checkFinished =>
    obtain ⟨new, hcalls, h⟩ := c.checkFinished_goes
    exact ⟨new, hcalls, .checkFinished h⟩
  | step budget =>
    obtain ⟨new, hcalls, h⟩ := c.step_goes budget
    exact ⟨new, hcalls, .step h⟩
  | pushInput bytes =>
    obtain ⟨hcalls, hstanding⟩ := c.pushInput_goes bytes
    exact ⟨[], hcalls.trans (List.append_nil _).symm, hstanding ▸ .pushInput bytes⟩
  | tick loop =>
    obtain ⟨new, hcalls, h⟩ := loop.tick_goes c
    exact ⟨new, hcalls, .tick h⟩
  | onBridge act => exact ⟨[], (List.append_nil _).symm, .onBridge act⟩

/-- A history only adds to the calls. -/
theorem Controller.exists_calls_after {γ : Type} [Guest γ] (c : Controller (Recorded γ)) (ops : List Operation) :
    ∃ new, (c.after ops).calls = c.calls ++ new := by
  refine after_induction (P := fun d => ∃ new, d.calls = c.calls ++ new) ?_ ⟨[], (List.append_nil _).symm⟩ ops
  rintro d op ⟨new, hnew⟩
  obtain ⟨more, hmore, -⟩ := d.perform_goes op
  exact ⟨new ++ more, by rw [hmore, hnew, List.append_assoc]⟩

end Playground
