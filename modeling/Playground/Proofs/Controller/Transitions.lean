import Playground.Guest.Scripted
import Playground.Proofs.Scheduler.Calls

/-!
# The phases of a program

Between two starts a program goes through its phases in one direction: a running one is stopped or faults, and of a stopped one only
a failing question whether it is complete makes a faulted one (`Standing.Fares`). Nothing but a start brings a program to run or
leads out of the first phase and the faulted one. A fault that can be reported is reported until a start got past the end of the old
run (`fault_after`).
-/

namespace Playground

variable {p q : Standing} {new : List Call}

/-! ## What an operation other than a start does to the phase -/

/-- The ways in which a program fares in an operation that is no start: its phase and its fault stay; it runs and comes to an end; or
it was stopped without its run being ended, and the guest fails when it is asked about it. -/
inductive Standing.Fares (p : Standing) (new : List Call) (q : Standing) : Prop where
  | stays (hs : q.state = p.state) (hf : q.fault = p.fault)
  | ends (hr : p.state = .running) (hq : q.state = .stopped ∨ q.state = .faulted)
  | lost (hs : p.state = .stopped) (ha : p.runActive = true) (e : GuestError) (hnew : new = [⟨.isFinished, .error e⟩])
    (hq : q.state = .faulted)

/-- A faulted program stays faulted through a teardown, whatever comes of it, and keeps its fault. -/
theorem TornDown.fares {result : Except HostError Unit} (h : TornDown p result new q) (hs : p.state = .faulted) :
    p.Fares new q :=
  .stays ((h.state_of_faulted hs).trans hs.symm) h.frame.2.1

/-- In a stop, a running program ends, and every other stays as it is. -/
theorem Halted.fares (h : Halted p new q) : p.Fares new q := by
  cases h with
  | running hr ht =>
    refine .ends hr ?_
    cases ht with
    | none _ | ended _ => exact .inl rfl
    | failed _ e => exact .inr rfl
  | faulted hs ht => exact ht.fares hs
  | idle _ _ => exact .stays rfl rfl

/-- A question that fails faults the program in every phase but the first, in which there is no run to ask about. -/
theorem Asked.fares {result : Except HostError Bool} (h : Asked p result new q) (hp : p.Sound) : p.Fares new q := by
  cases h with
  | inactive _ | answered _ _ => exact .stays rfl rfl
  | failed hactive e =>
    cases hs : p.state with
    | idle => exact nomatch hactive.symm.trans (hp.fresh_of_idle hs).1
    | compiling => exact absurd hs hp.settled
    | running => exact .ends hs (.inr rfl)
    | stopped => exact .lost hs hactive e rfl rfl
    | faulted => exact .stays hs.symm rfl

/-- In a check, a running program may end; else it fares as in the question. -/
theorem Checked.fares {result : Except HostError Bool} (h : Checked p result new q) (hp : p.Sound) : p.Fares new q := by
  cases h with
  | completed ha hs =>
    cases ha with
    | inactive _ | answered _ _ => exact .ends hs (.inl rfl)
  | unchanged ha _ => exact ha.fares hp

/-- In a step, a running program may end, and every other stays as it is. -/
theorem Stepped.fares {budget : UInt32} {result : Except HostError Outcome} (h : Stepped p budget result new q) :
    p.Fares new q := by
  cases h with
  | failed hr e => exact .ends hr (.inr rfl)
  | ended hr _ => exact .ends hr (.inr rfl)
  | worked _ | stopped _ | refused _ _ => exact .stays rfl rfl

/-- In a tick, a running program may end, and every other stays as it is. -/
theorem Ticked.fares {s s' : Scheduler} {result : Except HostError Tick} (h : Ticked s p result s' new q) (hp : p.Sound) :
    p.Fares new q := by
  by_cases hd : s.Drives p
  · have hr := hd.2.2
    cases h.driven hd (hp.active_of_running hr) with
    | again => exact .stays rfl rfl
    | finished => exact .ends hr (.inl rfl)
    | notAsked _ | notStepped _ | failed _ => exact .ends hr (.inr rfl)
  · obtain ⟨-, rfl⟩ := h.quiet hd
    exact .stays rfl rfl

/-- Every operation but a start lets the program fare in one of these ways. -/
theorem Operation.Goes.fares {op : Operation} (h : op.Goes p new q) (hop : ∀ source, op ≠ .start source) (hp : p.Sound) :
    p.Fares new q := by
  cases h with
  | start _ => exact absurd rfl (hop _)
  | stop h => exact h.fares
  | isFinished h => exact h.fares hp
  | checkFinished h => exact h.fares hp
  | step h => exact h.fares
  | tick h => exact h.fares hp
  | validate _ | pushInput _ | onBridge _ => exact .stays rfl rfl

namespace Standing.Fares

/-- A program that runs was running. -/
theorem running (h : p.Fares new q) (hq : q.state = .running) : p.state = .running := by
  cases h with
  | stays hs _ => exact hs.symm.trans hq
  | ends hr _ => exact hr
  | lost _ _ _ _ hf => exact nomatch hf.symm.trans hq

/-- A faulted program stays so, and its fault with it. -/
theorem faulted (h : p.Fares new q) (hs : p.state = .faulted) : q.state = .faulted ∧ q.fault = p.fault := by
  cases h with
  | stays hq hf => exact ⟨hq.trans hs, hf⟩
  | ends hr _ => exact nomatch hs.symm.trans hr
  | lost hstopped => exact nomatch hs.symm.trans hstopped

/-- A controller that was never started stays so. -/
theorem idle (h : p.Fares new q) (hs : p.state = .idle) : q.state = .idle := by
  cases h with
  | stays hq _ => exact hq.trans hs
  | ends hr _ => exact nomatch hs.symm.trans hr
  | lost hstopped => exact nomatch hs.symm.trans hstopped

/-- A stopped program stays so, or the guest was asked about its run and failed. -/
theorem stopped (h : p.Fares new q) (hs : p.state = .stopped) :
    q.state = .stopped ∨ q.state = .faulted ∧ p.runActive = true ∧ ∃ e, new = [⟨.isFinished, .error e⟩] := by
  cases h with
  | stays hq _ => exact .inl (hq.trans hs)
  | ends hr _ => exact nomatch hs.symm.trans hr
  | lost _ ha e hnew hq => exact .inr ⟨hq, ha, e, hnew⟩

end Standing.Fares

/-! ## Along a history -/

namespace Controller

variable {γ : Type} [Guest γ] {c : Controller (Recorded γ)}

/-- An operation other than a start lets the program fare in one of its ways. -/
theorem perform_fares (hc : c.standing.Sound) {op : Operation} (hop : ∀ source, op ≠ .start source) :
    ∃ new, (c.perform op).calls = c.calls ++ new ∧ c.standing.Fares new (c.perform op).standing := by
  obtain ⟨new, hnew, hgoes⟩ := c.perform_goes op
  exact ⟨new, hnew, hgoes.fares hop hc⟩

theorem not_restarted_nil : ¬c.Restarted [] := by
  rintro ⟨before, source, after, hops, -⟩
  simp at hops

/-- As long as no start gets past the end of the old run, a faulted program stays faulted and keeps its fault. -/
theorem fault_after (hc : c.standing.Sound) (hs : c.state = .faulted) {ops : List Operation} (h : ¬c.Restarted ops) :
    (c.after ops).state = .faulted ∧ (c.after ops).fault = c.fault := by
  induction ops generalizing c with
  | nil => exact ⟨hs, rfl⟩
  | cons op ops ih =>
    rw [restarted_cons, not_or] at h
    obtain ⟨hfirst, hlater⟩ := h
    -- Whatever the operation is, it leaves a faulted program with the same fault.
    have hkept : (c.perform op).standing.state = .faulted ∧ (c.perform op).standing.fault = c.standing.fault := by
      by_cases hop : ∃ source, op = .start source
      · obtain ⟨source, rfl⟩ := hop
        obtain ⟨torn, -, ht⟩ := c.teardown_goes
        rcases htorn : c.teardown with ⟨e | _, c₁⟩
        · have hheld : c.perform (.start source) = c₁ := congrArg Prod.snd (start_of_teardown_error source htorn)
          rw [htorn] at ht
          rw [hheld]
          exact (ht.fares hs).faulted hs
        · exact absurd ⟨⟨source, rfl⟩, congrArg Prod.fst htorn⟩ hfirst
      · obtain ⟨new, -, hfares⟩ := perform_fares hc (not_exists.mp hop)
        exact hfares.faulted hs
    obtain ⟨hfaulted, hfault⟩ := ih (sound_perform hc op) hkept.1 hlater
    exact ⟨hfaulted, hfault.trans hkept.2⟩

/-- Whatever the guest does and whatever was done before: only a start brings a program to run, and only a start leads out of the
faulted phase and out of the first one. A stopped program otherwise stays stopped, or it faults because its run is still active and
the guest fails when it is asked whether it is complete. And a fault that was recorded stays, with the faulted phase, through
everything that is done, until a start gets past the end of the old run. -/
theorem phases_change {m : Machine γ} {clear : Bool} (h : create m.record clear = .ok c) (ops : List Operation) :
    let d := c.after ops
    (∀ op, (∀ source, op ≠ .start source) →
      let d' := d.perform op
      (d'.state = .running → d.state = .running) ∧ (d.state = .faulted → d'.state = .faulted) ∧
        (d.state = .idle → d'.state = .idle) ∧
        (d.state = .stopped → d'.state = .stopped ∨
          d'.state = .faulted ∧ d.runActive = true ∧ ∃ e, d'.calls = d.calls ++ [⟨.isFinished, .error e⟩])) ∧
      ∀ o, d.fault = some o → ∀ more, ¬d.Restarted more →
        (d.after more).state = .faulted ∧ (d.after more).fault = some o := by
  intro d
  have hd : d.standing.Sound := sound_after h ops
  constructor
  · intro op hop d'
    obtain ⟨new, hnew, hfares⟩ := perform_fares hd hop
    refine ⟨hfares.running, fun hs => (hfares.faulted hs).1, hfares.idle, fun hs => ?_⟩
    obtain hsame | ⟨hq, ha, e, rfl⟩ := hfares.stopped hs
    · exact .inl hsame
    · exact .inr ⟨hq, ha, e, hnew⟩
  · intro o ho more hmore
    obtain ⟨hs, -⟩ := hd.faulted_of_fault o ho
    obtain ⟨hfaulted, hfault⟩ := fault_after hd hs hmore
    exact ⟨hfaulted, hfault.trans ho⟩

/-- A guest says that a program is complete and then fails when it is asked again; and a program faults in a step, and a start that
follows cannot end its run. -/
theorem phases_change_sticking :
    (∃ c : Controller (Recorded Scripted),
      (c.after [.start "", .checkFinished]).state = .stopped ∧ (c.after [.start "", .checkFinished]).runActive = true ∧
        (c.after [.start "", .checkFinished, .isFinished]).state = .faulted ∧
        ∃ e, (c.after [.start "", .checkFinished, .isFinished]).calls =
          (c.after [.start "", .checkFinished]).calls ++ [⟨.isFinished, .error e⟩]) ∧
      ∃ c : Controller (Recorded Fixed), create (Fixed.sticking 5).machine.record = .ok c ∧
        (c.after [.start "", .step 1000, .start "", .stop, .checkFinished]).fault = some .invalidObject := by
  constructor
  · let script : Script := { isFinished := [some { value := some 1 }, some { trap := some "gone" }] }
    let m : Machine Scripted := ⟨Memory.zeroed 16, {}, { heap := 1, script }⟩
    obtain ⟨c, hc⟩ : ∃ c : Controller (Recorded Scripted), c = { machine := (Guest.call .setUp m.record).2 } := ⟨_, rfl⟩
    have h : create m.record = .ok c := by
      rw [hc]
      rfl
    have hstopped : (c.after [.start "", .checkFinished]).state = .stopped := by
      rw [hc]
      decide +kernel
    have hfaulted : (c.after [.start "", .checkFinished, .isFinished]).state = .faulted := by
      rw [hc]
      decide +kernel
    obtain ⟨hmoves, -⟩ := phases_change h [.start "", .checkFinished]
    obtain ⟨-, -, -, hlost⟩ := hmoves .isFinished nofun
    obtain hsame | ⟨-, hactive, hcalls⟩ := hlost hstopped
    · exact nomatch hsame.symm.trans hfaulted
    · exact ⟨c, hstopped, hactive, hfaulted, hcalls⟩
  · let c : Controller (Recorded Fixed) := { machine := (Fixed.sticking 5).machine.record [⟨.setUp, .ok ()⟩] }
    have h : create (Fixed.sticking 5).machine.record = .ok c := rfl
    have hkept : (c.after [.start "", .step 1000]).teardown.1 = .error (.guest (.trap "deinitInterpreter" none)) := rfl
    have hheld : ¬(c.after [.start "", .step 1000]).Restarted [.start "", .stop, .checkFinished] := by
      simp only [restarted_cons, not_restarted_nil]
      rintro (⟨-, hthrough⟩ | ⟨⟨source, hop⟩, -⟩ | ⟨⟨source, hop⟩, -⟩ | hnone)
      · exact nomatch hkept.symm.trans hthrough
      · cases hop
      · cases hop
      · exact hnone
    obtain ⟨-, hstays⟩ := phases_change h [.start "", .step 1000]
    obtain ⟨-, hfault⟩ := hstays .invalidObject rfl _ hheld
    rw [← after_append] at hfault
    exact ⟨c, h, hfault⟩

end Controller

end Playground
