import Playground.Proofs.Guest.Fixed
import Playground.Proofs.Scheduler.Effects

/-!
# What always holds of a controller

`Standing.Sound` is what can be relied on between two operations: how the phase of the program, the active run, the fault and
the two counts go together. It holds of a controller that was just created, every operation keeps it, whatever the guest does
(`Operation.Goes.sound`), and so it holds after every history (`sound_after`).
-/

namespace Playground

/-- What can be relied on between two operations. -/
structure Standing.Sound (p : Standing) : Prop where
  /-- A start is over when it returns. -/
  settled : p.state ≠ .compiling
  active_of_running : p.state = .running → p.runActive = true
  fault_of_running : p.state = .running → p.fault = none
  runs_of_running : p.state = .running → 1 ≤ p.runs
  runs_of_stopped : p.state = .stopped → 1 ≤ p.runs
  faulted_of_fault : ∀ o, p.fault = some o → p.state = .faulted ∧ o ≠ .success ∧ o ≠ .cancelled
  idle_iff : p.state = .idle ↔ p.generation = 0
  fresh_of_idle : p.state = .idle → p.runActive = false ∧ p.runs = 0
  runs_le : p.runs ≤ p.generation

namespace Standing

variable {p q : Standing}

/-- A faulted controller is sound, once a start was attempted and if its fault is an outcome that faults. -/
theorem sound_of_faulted (hs : p.state = .faulted) (hg : p.generation ≠ 0) (hle : p.runs ≤ p.generation)
    (hf : ∀ o, p.fault = some o → o ≠ .success ∧ o ≠ .cancelled) : p.Sound where
  settled := by simp [hs]
  active_of_running := by simp [hs]
  fault_of_running := by simp [hs]
  runs_of_running := by simp [hs]
  runs_of_stopped := by simp [hs]
  faulted_of_fault o ho := ⟨hs, hf o ho⟩
  idle_iff := by simp [hs, hg]
  fresh_of_idle := by simp [hs]
  runs_le := hle

namespace Sound

/-- A sound controller may fault in any phase but the first. -/
theorem faulted (hp : p.Sound) (hs : p.state ≠ .idle) : p.faulted.Sound :=
  sound_of_faulted rfl (fun hg => hs (hp.idle_iff.mpr hg)) hp.runs_le (fun o ho => (hp.faulted_of_fault o ho).2)

/-- A sound controller whose program stops running is sound. -/
theorem stopped (hp : p.Sound) (hs : p.state = .running) : ({ p with state := .stopped } : Standing).Sound where
  settled := nofun
  active_of_running := nofun
  fault_of_running := nofun
  runs_of_running := nofun
  runs_of_stopped _ := hp.runs_of_running hs
  faulted_of_fault o ho := nomatch (hp.fault_of_running hs).symm.trans ho
  idle_iff := by
    have hg := hp.idle_iff
    simp only [hs] at hg
    simpa using hg
  fresh_of_idle := nofun
  runs_le := hp.runs_le

/-- The fault that a tick finds is no cancellation. -/
theorem fault_ne_cancelled (hp : p.Sound) : p.fault.getD .invalidState ≠ .cancelled := by
  cases ho : p.fault with
  | none => nofun
  | some o => exact (hp.faulted_of_fault o ho).2.2

end Sound

end Standing

/-! ## Every operation keeps it -/

variable {p q : Standing}

/-- A teardown leaves no active run, and the fault and the counts as they were. -/
theorem TornDown.frame {result : Except HostError Unit} {torn : List Call} (h : TornDown p result torn q) :
    q.runActive = false ∧ q.fault = p.fault ∧ q.runs = p.runs ∧ q.generation = p.generation := by
  cases h with
  | none hactive => exact ⟨hactive, rfl, rfl, rfl⟩
  | ended _ => exact ⟨rfl, rfl, rfl, rfl⟩
  | failed _ e => exact ⟨rfl, rfl, rfl, rfl⟩

/-- A teardown that fails faults the controller. -/
theorem TornDown.state_of_error {e : HostError} {torn : List Call} (h : TornDown p (.error e) torn q) :
    q.state = .faulted := by
  cases h
  rfl

/-- A teardown leads nowhere from the faulted phase. -/
theorem TornDown.state_of_faulted {result : Except HostError Unit} {torn : List Call} (h : TornDown p result torn q)
    (hs : p.state = .faulted) : q.state = .faulted := by
  cases h with
  | none _ => exact hs
  | ended _ => exact hs
  | failed _ e => rfl

/-- A teardown keeps the count of runs within that of starts. -/
theorem TornDown.runs_le {result : Except HostError Unit} {torn : List Call} (h : TornDown p result torn q)
    (hle : p.runs ≤ p.generation) : q.runs ≤ q.generation := by
  obtain ⟨-, -, hruns, hg⟩ := h.frame
  rw [hruns, hg]
  exact hle

/-- A teardown keeps a controller sound, unless it succeeds while the program is in the running phase: only a start does that,
and goes on. -/
theorem TornDown.sound {result : Except HostError Unit} {torn : List Call} (h : TornDown p result torn q) (hp : p.Sound)
    (hs : p.state = .running → result ≠ .ok ()) : q.Sound := by
  cases h with
  | none _ => exact hp
  | ended _ =>
    have hr : p.state ≠ .running := fun hr => hs hr rfl
    exact { hp with
      active_of_running := fun h => absurd h hr
      fresh_of_idle := fun h => ⟨rfl, (hp.fresh_of_idle h).2⟩ }
  | failed hactive e =>
    have hidle : p.state ≠ .idle := fun h => nomatch hactive.symm.trans (hp.fresh_of_idle h).1
    exact Standing.sound_of_faulted rfl (fun hg => hidle (hp.idle_iff.mpr hg)) hp.runs_le
      (fun o ho => (hp.faulted_of_fault o ho).2)

/-- An outcome of a hand-off is no cancellation. -/
theorem Submitted.ne_cancelled {call : Slice → Except GuestError Int32 → Call} {source : String} {outcome : Outcome}
    {given : List Call} (h : Submitted call source (.ok outcome) given) : outcome ≠ .cancelled := by
  cases h with
  | answered _ => exact Outcome.ofStatus_ne_cancelled _
  | noRoom _ _ => nofun

/-- A start that faults once its old run is gone leaves the controller sound. -/
theorem Standing.sound_of_begun (hle : p.runs ≤ p.generation) (hs : q.state = .faulted) (hruns : q.runs = p.runs)
    (hg : q.generation = p.generation + 1) (hf : ∀ o, q.fault = some o → o ≠ .success ∧ o ≠ .cancelled) : q.Sound :=
  sound_of_faulted hs (by omega) (by omega) hf

/-- A start that gets its program to run leaves the controller sound. -/
theorem Standing.sound_launched (hle : p.runs ≤ p.generation) : p.begun.launched.Sound where
  settled := nofun
  active_of_running _ := rfl
  fault_of_running _ := rfl
  runs_of_running _ := Nat.le_add_left 1 p.runs
  runs_of_stopped := nofun
  faulted_of_fault := nofun
  idle_iff := ⟨nofun, nofun⟩
  fresh_of_idle := nofun
  runs_le := Nat.succ_le_succ hle

/-- What a start goes on to do counts the attempt. -/
theorem Begun.generation_eq {source : String} {result : Except HostError Outcome} {new : List Call}
    (h : Begun p source result new q) : q.generation = p.generation + 1 := by
  cases h with
  | failed _ => rfl
  | refused _ _ => rfl
  | launched _ => rfl
  | abandoned _ e ht => exact ht.frame.2.2.2

/-- Once the old run is gone, a start leaves a sound controller. -/
theorem Begun.sound {source : String} {result : Except HostError Outcome} {new : List Call}
    (h : Begun p source result new q) (hle : p.runs ≤ p.generation) : q.Sound := by
  have hg := h.generation_eq
  cases h with
  | failed _ => exact Standing.sound_of_begun hle rfl rfl hg nofun
  | refused hs ho =>
    refine Standing.sound_of_begun hle rfl rfl hg (fun o h => ?_)
    cases h
    exact ⟨ho, hs.ne_cancelled⟩
  | launched _ => exact Standing.sound_launched hle
  | abandoned _ e ht =>
    obtain ⟨-, hfault, hruns, -⟩ := ht.frame
    refine Standing.sound_of_begun hle (ht.state_of_faulted rfl) hruns hg (fun o h => ?_)
    cases hfault.symm.trans h

/-- A start keeps a controller sound. -/
theorem Started.sound {source : String} {result : Except HostError Outcome} {new : List Call}
    (h : Started p source result new q) (hp : p.Sound) : q.Sound := by
  cases h with
  | held ht => exact ht.sound hp (fun _ h => nomatch h)
  | begun ht hb => exact hb.sound (ht.runs_le hp.runs_le)

/-- So does a stop. -/
theorem Halted.sound {new : List Call} (h : Halted p new q) (hp : p.Sound) : q.Sound := by
  cases h with
  | running hs ht => exact ht.sound (hp.stopped hs) nofun
  | faulted hs ht => exact ht.sound hp (fun h => nomatch hs.symm.trans h)
  | idle _ _ => exact hp

/-- So does the question whether the program is complete. -/
theorem Asked.sound {result : Except HostError Bool} {new : List Call} (h : Asked p result new q) (hp : p.Sound) :
    q.Sound := by
  cases h with
  | inactive _ => exact hp
  | answered _ finished => exact hp
  | failed hactive e => exact hp.faulted (fun h => nomatch hactive.symm.trans (hp.fresh_of_idle h).1)

/-- So does the check for completion. -/
theorem Checked.sound {result : Except HostError Bool} {new : List Call} (h : Checked p result new q) (hp : p.Sound) :
    q.Sound := by
  cases h with
  | completed ha hs => exact (ha.sound hp).stopped hs
  | unchanged ha _ => exact ha.sound hp

/-- So does a step, whose fault is neither success nor a cancellation. -/
theorem Stepped.sound {budget : UInt32} {result : Except HostError Outcome} {new : List Call}
    (h : Stepped p budget result new q) (hp : p.Sound) : q.Sound := by
  cases h with
  | failed hs e => exact hp.faulted (fun h => nomatch hs.symm.trans h)
  | worked _ => exact hp
  | ended hs hstatus =>
    refine Standing.sound_of_faulted rfl (fun hg => ?_) hp.runs_le (fun o h => ?_)
    · exact nomatch hs.symm.trans (hp.idle_iff.mpr hg)
    · cases h
      exact ⟨fun h => hstatus (Outcome.ofStatus_eq_success_iff.mp h), Outcome.ofStatus_ne_cancelled _⟩
  | stopped _ => exact hp
  | refused _ _ => exact hp

/-- So does a tick: a check, and then a step. -/
theorem Ticked.sound {s s' : Scheduler} {result : Except HostError Tick} {new : List Call}
    (h : Ticked s p result s' new q) (hp : p.Sound) : q.Sound := by
  cases h with
  | unarmed _ => exact hp
  | replaced _ _ => exact hp
  | faulted _ _ _ => exact hp
  | stopped _ _ _ _ => exact hp
  | notAsked _ _ _ hc => exact hc.sound hp
  | finished _ _ _ hc => exact hc.sound hp
  | notStepped _ _ _ hc hw => exact hw.sound (hc.sound hp)
  | again _ _ _ hc hw => exact hw.sound (hc.sound hp)
  | failed _ _ _ hc hw _ => exact hw.sound (hc.sound hp)

/-- Every operation, however it goes, keeps a controller sound. -/
theorem Operation.Goes.sound {op : Operation} {new : List Call} (h : op.Goes p new q) (hp : p.Sound) : q.Sound := by
  cases h with
  | validate _ => exact hp
  | start h => exact h.sound hp
  | stop h => exact h.sound hp
  | isFinished h => exact h.sound hp
  | checkFinished h => exact h.sound hp
  | step h => exact h.sound hp
  | tick h => exact h.sound hp
  | pushInput _ => exact hp
  | onBridge _ => exact hp

/-! ## Every history keeps it -/

namespace Controller

variable {γ : Type} [Guest γ]

/-- A controller that was just created is sound. -/
theorem sound_create {m : Machine γ} {clear : Bool} {c : Controller γ} (h : create m clear = .ok c) :
    c.standing.Sound := by
  obtain ⟨m', -, rfl⟩ := create_eq_ok_iff.mp h
  exact ⟨nofun, nofun, fun _ => rfl, nofun, nofun, nofun, ⟨fun _ => rfl, fun _ => rfl⟩, fun _ => ⟨rfl, rfl⟩, Nat.le_refl 0⟩

/-- Every operation keeps a controller sound. -/
theorem sound_perform {c : Controller (Recorded γ)} (h : c.standing.Sound) (op : Operation) :
    (c.perform op).standing.Sound := by
  obtain ⟨_, -, hgoes⟩ := c.perform_goes op
  exact hgoes.sound h

/-- Whatever the guest does and whatever is done with a controller, it is sound between two operations. -/
theorem sound_after {m : Machine γ} {clear : Bool} {c : Controller γ} (h : create m clear = .ok c)
    (ops : List Operation) : (c.after ops).standing.Sound := by
  obtain ⟨r, hr, rfl⟩ := exists_create_record h
  rw [← erase_after, standing_erase]
  exact after_induction (P := fun c => c.standing.Sound) (fun c op hc => sound_perform hc op) (sound_create hr) ops

/-- What can be read off a controller between two operations, whatever the guest does. -/
theorem consistent_after {m : Machine γ} {clear : Bool} {c : Controller γ} (h : create m clear = .ok c)
    (ops : List Operation) :
    let d := c.after ops
    d.state ≠ .compiling ∧
      (d.state = .running → d.runActive = true ∧ d.fault = none) ∧
      (∀ o, d.fault = some o → d.state = .faulted ∧ o ≠ .success ∧ o ≠ .cancelled) ∧
      (d.state = .idle ↔ d.generation = 0) ∧
      (d.state = .idle → d.runActive = false ∧ d.runs = 0) ∧
      (d.state = .stopped → 1 ≤ d.runs) ∧
      d.runs ≤ d.generation := by
  intro d
  have hs : d.standing.Sound := sound_after h ops
  refine ⟨hs.settled, ?_, hs.faulted_of_fault, hs.idle_iff, hs.fresh_of_idle, hs.runs_of_stopped, hs.runs_le⟩
  intro hrunning
  exact ⟨hs.active_of_running hrunning, hs.fault_of_running hrunning⟩

/-- A program is started, stepped and stopped. -/
theorem consistent_after_stop :
    ∃ c : Controller Fixed, create Fixed.willing.machine = .ok c ∧
      (c.after [.start "", .step 5, .stop]).state = .stopped ∧ 1 ≤ (c.after [.start "", .step 5, .stop]).runs := by
  have h : create Fixed.willing.machine = .ok { machine := Fixed.willing.machine } := rfl
  obtain ⟨-, -, -, -, -, hruns, -⟩ := consistent_after h [.start "", .step 5, .stop]
  exact ⟨_, h, rfl, hruns rfl⟩

end Controller

end Playground
