import Playground.Proofs.Scheduler.Calls

/-!
# Loops whose guest is known

Where it is known what the guest answers, a tick and a run of the loop are known too: a program that is incomplete and makes its
step is ticked again, and one that makes all its steps takes the loop through as many ticks (`run_of_steps`). Between two ticks
the callback may do what leaves the program where it stands.
-/

namespace Playground

namespace Scheduler

variable {γ σ : Type} [Guest γ] {s : Scheduler} {c : Controller γ} {m m' : Machine γ}

/-! ## One tick -/

/-- A program that the guest says is incomplete is left as it was. -/
theorem checkFinished_of_incomplete (hactive : c.runActive = true)
    (hasked : Guest.call .isFinished c.machine = (.ok false, m)) : c.checkFinished = (.ok false, { c with machine := m }) := by
  simp [Controller.checkFinished, Controller.isFinished, hactive, hasked]

/-- An incomplete program that makes its step is to be ticked again. -/
theorem tick_of_progress (hd : s.Drives c.standing) (hactive : c.runActive = true)
    (hasked : Guest.call .isFinished c.machine = (.ok false, m)) (hstep : Guest.call (.step s.budget) m = (.ok 0, m')) :
    s.tick c = (.ok .again, s.counted.stepped, { c with machine := m' }) := by
  have hstate : c.state = .running := hd.2.2
  have hstepped : Controller.step { c with machine := m } s.counted.budget = (.ok .success, { c with machine := m' }) := by
    have hcall : Guest.call (.step s.counted.budget) m = (.ok 0, m') := hstep
    simp only [Controller.step, hstate, hcall]
    rfl
  rw [tick_of_drives hd, checkFinished_of_incomplete hactive hasked]
  dsimp only
  rw [advance, hstepped]
  rfl

/-- An incomplete program whose step returns another status than success ends its loop. -/
theorem tick_of_status (hd : s.Drives c.standing) (hactive : c.runActive = true)
    (hasked : Guest.call .isFinished c.machine = (.ok false, m)) {status : Int32} (hstatus : status ≠ 0)
    (hstep : Guest.call (.step s.budget) m = (.ok status, m')) :
    (s.tick c).1 = .ok (.exit (.ofFault (.ofStatus status))) ∧
      (s.tick c).2.1 = s.counted.stepped.ended (.ofFault (.ofStatus status)) ∧ (s.tick c).2.2.machine = m' := by
  have hstate : c.state = .running := hd.2.2
  have hne : Outcome.ofStatus status ≠ .success := fun h => hstatus (Outcome.ofStatus_eq_success_iff.mp h)
  have hcall : Guest.call (.step s.counted.budget) m = (.ok status, m') := hstep
  rw [tick_of_drives hd, checkFinished_of_incomplete hactive hasked]
  simp only [advance, Controller.step, hstate, hcall]
  generalize Outcome.ofStatus status = outcome at hne ⊢
  cases outcome with
  | success => exact absurd rfl hne
  | _ => exact ⟨rfl, rfl, machine_leave _ _ _⟩

/-- A complete program ends its loop. -/
theorem tick_of_done (hd : s.Drives c.standing) (hactive : c.runActive = true)
    (hasked : Guest.call .isFinished c.machine = (.ok true, m)) :
    (s.tick c).1 = .ok (.exit .finished) ∧ (s.tick c).2.1 = s.counted.ended .finished ∧ (s.tick c).2.2.machine = m := by
  have hstate : c.state = .running := hd.2.2
  have hchecked : c.checkFinished =
      (.ok true, ({ c with machine := m, state := .stopped } : Controller γ).note [.programFinished c.runs]) := by
    simp [Controller.checkFinished, Controller.isFinished, hactive, hasked, hstate]
  rw [tick_of_drives hd, hchecked]
  exact ⟨rfl, rfl, rfl⟩

/-! ## A run -/

variable {between : Controller γ → σ → Controller γ × σ}

/-- A tick that ends the loop ends the run. -/
theorem run_of_exit {exit : LoopExit} (h : (s.tick c).1 = .ok (.exit exit)) (fuel : Nat) (w : σ) :
    run between (fuel + 1) s c w = (some (.ok exit), (s.tick c).2.1, (s.tick c).2.2, w) := by
  rw [run]
  generalize s.tick c = ticked at h ⊢
  obtain ⟨result, loop, left⟩ := ticked
  cases h
  rfl

/-- A program that makes `n` steps takes its loop through `n` ticks. `P i` is what holds of the machine once `i` steps are made; it
has to hold in the beginning, and each tick and what is done between two ticks has to keep it. -/
theorem run_of_steps (P : Nat → Machine γ → Prop) (n : Nat)
    (hasked : ∀ i m, i < n → P i m → ∃ m', Guest.call .isFinished m = (.ok false, m') ∧ P i m')
    (hstep : ∀ i m, i < n → P i m → ∃ m', Guest.call (.step s.budget) m = (.ok 0, m') ∧ P (i + 1) m')
    (hbetween : ∀ i (c : Controller γ) w, P i c.machine →
      P i (between c w).1.machine ∧ (between c w).1.standing = c.standing)
    (hd : s.Drives c.standing) (hactive : c.runActive = true) (hP : P 0 c.machine) (w : σ) :
    ∃ s' c' w', s'.Drives c'.standing ∧ c'.runActive = true ∧ P n c'.machine ∧ s'.budget = s.budget ∧
      s'.ticks = s.ticks + n ∧ s'.steps = s.steps + n ∧
      ∀ fuel, run between (n + fuel) s c w = run between fuel s' c' w' := by
  induction n with
  | zero => exact ⟨s, c, w, hd, hactive, hP, rfl, rfl, rfl, fun fuel => by rw [Nat.zero_add]⟩
  | succ n ih =>
    obtain ⟨s₁, c₁, w₁, hd₁, hactive₁, hP₁, hbudget, hticks, hsteps, hrun⟩ :=
      ih (fun i m hi => hasked i m (Nat.lt_succ_of_lt hi)) (fun i m hi => hstep i m (Nat.lt_succ_of_lt hi))
    obtain ⟨m, hasked₁, hPm⟩ := hasked n c₁.machine (Nat.lt_succ_self n) hP₁
    obtain ⟨m', hstep₁, hPm'⟩ := hstep n m (Nat.lt_succ_self n) hPm
    have htick := tick_of_progress hd₁ hactive₁ hasked₁ (hbudget ▸ hstep₁)
    obtain ⟨hP₂, hstanding⟩ := hbetween (n + 1) { c₁ with machine := m' } w₁ hPm'
    refine ⟨s₁.counted.stepped, (between { c₁ with machine := m' } w₁).1, (between { c₁ with machine := m' } w₁).2, ?_, ?_, hP₂,
      hbudget, ?_, ?_, fun fuel => ?_⟩
    · rw [hstanding]
      exact hd₁
    · exact (congrArg Standing.runActive hstanding).trans hactive₁
    · rw [← Nat.add_assoc, ← hticks]
      rfl
    · rw [← Nat.add_assoc, ← hsteps]
      rfl
    · rw [Nat.add_assoc, hrun, Nat.add_comm 1, run, htick]

end Scheduler

end Playground
