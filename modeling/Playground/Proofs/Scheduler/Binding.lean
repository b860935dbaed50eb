import Playground.Proofs.Controller.Soundness

/-!
# A loop and the program it was armed for

A loop is bound to its program by the count of starts: a start that finds the old run gone, or ends it, counts the attempt, and
the next tick ends the loop as cancelled (`Restarted`). A start whose old run cannot be ended faults the controller before it
counts, and the controller stays faulted (`Standing.Stays`): the next tick takes that fault for the program's own.
-/

namespace Playground

variable {p q r : Standing} {new : List Call}

/-! ## What operations other than starts leave alone -/

/-- The count of starts stays, and so does a faulted phase. -/
structure Standing.Stays (p q : Standing) : Prop where
  generation_eq : q.generation = p.generation
  faulted_of_faulted : p.state = .faulted → q.state = .faulted

namespace Standing.Stays

theorem refl (p : Standing) : p.Stays p := ⟨rfl, id⟩

theorem trans (hpq : p.Stays q) (hqr : q.Stays r) : p.Stays r :=
  ⟨hqr.generation_eq.trans hpq.generation_eq, fun h => hqr.faulted_of_faulted (hpq.faulted_of_faulted h)⟩

/-- What happens to a running program happens to no faulted one. -/
theorem of_running (hs : p.state = .running) (hg : q.generation = p.generation) : p.Stays q :=
  ⟨hg, fun h => nomatch hs.symm.trans h⟩

end Standing.Stays

/-- In a teardown the count of starts stays, and so does a faulted phase. -/
theorem TornDown.stays {result : Except HostError Unit} (h : TornDown p result new q) : p.Stays q :=
  ⟨h.frame.2.2.2, h.state_of_faulted⟩

/-- So it is in a stop. -/
theorem Halted.stays (h : Halted p new q) : p.Stays q := by
  cases h with
  | running hs ht => exact .of_running hs ht.frame.2.2.2
  | faulted _ ht => exact ht.stays
  | idle _ _ => exact .refl p

/-- So it is when the guest is asked whether the program is complete. -/
theorem Asked.stays {result : Except HostError Bool} (h : Asked p result new q) : p.Stays q := by
  cases h with
  | inactive _ => exact .refl p
  | answered _ finished => exact .refl p
  | failed _ e => exact ⟨rfl, fun _ => rfl⟩

/-- So it is in the check for completion. -/
theorem Checked.stays {result : Except HostError Bool} (h : Checked p result new q) : p.Stays q := by
  cases h with
  | completed ha hs => exact ha.stays.trans (.of_running hs rfl)
  | unchanged ha _ => exact ha.stays

/-- So it is in a step. -/
theorem Stepped.stays {budget : UInt32} {result : Except HostError Outcome} (h : Stepped p budget result new q) :
    p.Stays q := by
  cases h with
  | failed hs e => exact .of_running hs rfl
  | worked _ => exact .refl p
  | ended hs _ => exact .of_running hs rfl
  | stopped _ => exact .refl p
  | refused _ _ => exact .refl p

/-- So it is in a tick. -/
theorem Ticked.stays {s s' : Scheduler} {result : Except HostError Tick} (h : Ticked s p result s' new q) : p.Stays q := by
  cases h with
  | unarmed _ => exact .refl p
  | replaced _ _ => exact .refl p
  | faulted _ _ _ => exact .refl p
  | stopped _ _ _ _ => exact .refl p
  | notAsked _ _ _ hc => exact hc.stays
  | finished _ _ _ hc => exact hc.stays
  | notStepped _ _ _ hc hw => exact hc.stays.trans hw.stays
  | again _ _ _ hc hw => exact hc.stays.trans hw.stays
  | failed _ _ _ hc hw _ => exact hc.stays.trans hw.stays

/-- Nothing but a start changes the count of starts or leads out of a faulted phase. -/
theorem Operation.Goes.stays {op : Operation} (h : op.Goes p new q) (hop : ∀ source, op ≠ .start source) : p.Stays q := by
  cases h with
  | validate _ => exact .refl p
  | start _ => exact absurd rfl (hop _)
  | stop h => exact h.stays
  | isFinished h => exact h.stays
  | checkFinished h => exact h.stays
  | step h => exact h.stays
  | tick h => exact h.stays
  | pushInput _ => exact .refl p
  | onBridge _ => exact .refl p

/-! ## Starts along a history -/

namespace Controller

variable {γ : Type} [Guest γ]

/-- Along a history, a start finds the old run gone or ends it. -/
def Restarted (c : Controller γ) (ops : List Operation) : Prop :=
  ∃ before source after, ops = before ++ .start source :: after ∧ (c.after before).teardown.1 = .ok ()

/-- A start that is first and gets through, or one that does later. -/
theorem restarted_cons {c : Controller γ} {op : Operation} {ops : List Operation} :
    Restarted c (op :: ops) ↔ ((∃ source, op = .start source) ∧ c.teardown.1 = .ok ()) ∨ Restarted (c.perform op) ops := by
  constructor
  · rintro ⟨_ | ⟨first, before⟩, source, after, hops, hthrough⟩
    · obtain ⟨rfl, rfl⟩ := List.cons.inj hops
      exact .inl ⟨⟨source, rfl⟩, hthrough⟩
    · obtain ⟨rfl, rfl⟩ := List.cons.inj hops
      exact .inr ⟨before, source, after, rfl, hthrough⟩
  · rintro (⟨⟨source, rfl⟩, hthrough⟩ | ⟨before, source, after, rfl, hthrough⟩)
    · exact ⟨[], source, ops, rfl, hthrough⟩
    · exact ⟨op :: before, source, after, rfl, hthrough⟩

/-- Starts get through the same way over a guest that is seen through another. -/
theorem restarted_seen {δ : Type} [Guest δ] {view : γ → δ} (hview : Guest.SeenThrough view) (earlier : List LogEvent)
    (c : Controller γ) (ops : List Operation) : (c.seen view earlier).Restarted ops ↔ c.Restarted ops := by
  have hsame : ∀ before, ((c.seen view earlier).after before).teardown.1 = (c.after before).teardown.1 := fun before => by
    rw [seen_after hview, seen_teardown hview]
    rfl
  simp only [Restarted, hsame]

variable (c : Controller (Recorded γ))

/-- A start that gets through counts. One that does not faults the controller and leaves the count as it was. -/
theorem start_counts (source : String) :
    (c.teardown.1 = .ok () ∧ (c.start source).2.generation = c.generation + 1) ∨
      (c.teardown.1 ≠ .ok () ∧ (c.start source).2.generation = c.generation ∧ (c.start source).2.state = .faulted) := by
  obtain ⟨torn, -, ht⟩ := c.teardown_goes
  rcases h : c.teardown with ⟨e | _, c₁⟩
  · rw [h] at ht
    rw [start_of_teardown_error source h]
    exact .inr ⟨nofun, ht.frame.2.2.2, ht.state_of_error⟩
  · rw [h] at ht
    obtain ⟨new, -, hb⟩ := begin_goes source h
    have hg : c₁.standing.generation = c.standing.generation := ht.frame.2.2.2
    exact .inl ⟨rfl, hb.generation_eq.trans (congrArg (· + 1) hg)⟩

/-- An operation never sets the count of starts back. -/
theorem generation_le_perform (op : Operation) : c.generation ≤ (c.perform op).generation := by
  by_cases hop : ∃ source, op = .start source
  · obtain ⟨source, rfl⟩ := hop
    obtain ⟨-, hg⟩ | ⟨-, hg, -⟩ := c.start_counts source
    · exact Nat.le_trans (Nat.le_succ _) (Nat.le_of_eq hg.symm)
    · exact Nat.le_of_eq hg.symm
  · obtain ⟨new, -, hgoes⟩ := c.perform_goes op
    exact Nat.le_of_eq (hgoes.stays (not_exists.mp hop)).generation_eq.symm

/-- The count of starts never goes back. -/
theorem generation_le_after (ops : List Operation) : c.generation ≤ (c.after ops).generation :=
  after_induction (P := fun d => c.generation ≤ d.generation)
    (fun d op h => Nat.le_trans h (d.generation_le_perform op)) (Nat.le_refl _) ops

/-- A start that gets through is still counted later. -/
theorem generation_lt_after {ops : List Operation} (h : c.Restarted ops) : c.generation < (c.after ops).generation := by
  obtain ⟨before, source, after, rfl, hthrough⟩ := h
  rw [after_append, after_cons]
  have hbefore := c.generation_le_after before
  have hafter := generation_le_after ((c.after before).perform (.start source)) after
  obtain ⟨-, hg⟩ | ⟨hnot, -⟩ := (c.after before).start_counts source
  · have hstart : ((c.after before).perform (.start source)).generation = (c.after before).generation + 1 := hg
    omega
  · exact absurd hthrough hnot

/-- As long as no start gets through, the count of starts stays, and from the first start on the controller is faulted. -/
theorem stays_after {ops : List Operation} (h : ¬c.Restarted ops) :
    (c.after ops).generation = c.generation ∧
      (c.state = .faulted ∨ (∃ source, .start source ∈ ops) → (c.after ops).state = .faulted) := by
  induction ops generalizing c with
  | nil =>
    refine ⟨rfl, ?_⟩
    rintro (hs | ⟨source, hsource⟩)
    · exact hs
    · cases hsource
  | cons op ops ih =>
    rw [restarted_cons, not_or] at h
    obtain ⟨hfirst, hlater⟩ := h
    obtain ⟨hg, hfaulted⟩ := ih (c.perform op) hlater
    rw [after_cons]
    by_cases hop : ∃ source, op = .start source
    · obtain ⟨source, rfl⟩ := hop
      obtain ⟨hthrough, -⟩ | ⟨-, hgeneration, hs⟩ := c.start_counts source
      · exact absurd ⟨⟨source, rfl⟩, hthrough⟩ hfirst
      · exact ⟨hg.trans hgeneration, fun _ => hfaulted (.inl hs)⟩
    · obtain ⟨new, -, hgoes⟩ := c.perform_goes op
      have hstays := hgoes.stays (not_exists.mp hop)
      refine ⟨hg.trans hstays.generation_eq, ?_⟩
      rintro (hs | ⟨source, hsource⟩)
      · exact hfaulted (.inl (hstays.faulted_of_faulted hs))
      · obtain rfl | hmem := List.mem_cons.mp hsource
        · exact absurd ⟨source, rfl⟩ hop
        · exact hfaulted (.inr ⟨source, hmem⟩)

end Controller

/-! ## The next tick -/

namespace Scheduler

variable {γ : Type} [Guest γ] {s : Scheduler} {c : Controller γ}

/-- A loop whose program was replaced ends without a call. -/
theorem tick_of_replaced (harmed : s.armed = true) (hg : c.generation ≠ s.generation) :
    (s.tick c).1 = .ok (.exit .cancelled) ∧ (s.tick c).2.2.machine = c.machine := by
  simp only [tick, harmed, hg, if_true, if_false]
  exact ⟨rfl, rfl⟩

/-- A loop whose program faulted ends without a call. -/
theorem tick_of_faulted (harmed : s.armed = true) (hg : c.generation = s.generation) (hs : c.state = .faulted) :
    (s.tick c).1 = .ok (.exit (.ofFault (c.fault.getD .invalidState))) ∧ (s.tick c).2.2.machine = c.machine := by
  simp only [tick, harmed, hg, hs, if_true]
  exact ⟨rfl, machine_leave _ _ c⟩

/-- A loop whose program was stopped ends without a call. -/
theorem tick_of_stopped (harmed : s.armed = true) (hg : c.generation = s.generation) (hs : c.state = .stopped) :
    s.tick c = (.ok (.exit .cancelled), s.counted.ended .cancelled, c) := by
  simp only [tick, harmed, hg, hs, if_true]
  rfl

/-- The next tick of a loop, once another start was attempted, makes no call. It ends the loop as cancelled exactly if the old
run was gone or ended before one of the starts; otherwise it reports a fault that is no cancellation. -/
theorem tick_after_start {m : Machine γ} {clear : Bool} {c : Controller (Recorded γ)}
    (h : Controller.create m.record clear = .ok c) (s : Scheduler) (earlier ops : List Operation)
    (hstart : ∃ source, .start source ∈ ops) :
    let armed := s.arm (c.after earlier)
    let d := (c.after earlier).after ops
    (armed.tick d).2.2.calls = d.calls ∧
      ((armed.tick d).1 = .ok (.exit .cancelled) ↔ (c.after earlier).Restarted ops) ∧
      (¬(c.after earlier).Restarted ops → (armed.tick d).1 = .ok (.exit (.ofFault (d.fault.getD .invalidState)))) := by
  intro armed d
  by_cases hthrough : (c.after earlier).Restarted ops
  · have hg : d.generation ≠ armed.generation := Nat.ne_of_gt ((c.after earlier).generation_lt_after hthrough)
    obtain ⟨hresult, hmachine⟩ := tick_of_replaced (s := armed) rfl hg
    exact ⟨congrArg Machine.calls hmachine, iff_of_true hresult hthrough, fun hnot => absurd hthrough hnot⟩
  · obtain ⟨hg, hfaulted⟩ := (c.after earlier).stays_after hthrough
    obtain ⟨hresult, hmachine⟩ := tick_of_faulted (s := armed) (c := d) rfl hg (hfaulted (.inr hstart))
    refine ⟨congrArg Machine.calls hmachine, iff_of_false ?_ hthrough, fun _ => hresult⟩
    have hsound : d.standing.Sound := by
      have hafter := Controller.sound_after h (earlier ++ ops)
      rwa [Controller.after_append] at hafter
    have hfault : d.fault.getD .invalidState ≠ .cancelled := by
      cases ho : d.fault with
      | none => nofun
      | some o => exact (hsound.faulted_of_fault o ho).2.2
    intro hcancelled
    have hexit := Except.ok.inj (hresult.symm.trans hcancelled)
    exact LoopExit.ofFault_ne_cancelled hfault (Tick.exit.inj hexit)

/-- A loop whose program is replaced by another one ends as cancelled. -/
theorem tick_after_start_willing :
    ∃ c : Controller (Recorded Fixed), Controller.create Fixed.willing.machine.record = .ok c ∧
      ((arm {} (c.after [.start ""])).tick ((c.after [.start ""]).after [.start ""])).1 = .ok (.exit .cancelled) := by
  have h : Controller.create Fixed.willing.machine.record =
      .ok { machine := Fixed.willing.machine.record [⟨.setUp, .ok ()⟩] } := rfl
  refine ⟨_, h, ?_⟩
  obtain ⟨-, hcancelled, -⟩ := tick_after_start h {} [.start ""] [.start ""] ⟨"", by simp⟩
  exact hcancelled.mpr ⟨[], "", [], rfl, rfl⟩

/-- A guest does not end the run of the old program when another one is started, and the loop of the old program raises an
alarm. -/
theorem alarm_after_clinging :
    ∃ c : Controller (Recorded Fixed), Controller.create Fixed.clinging.machine.record = .ok c ∧
      ((arm {} (c.after [.start ""])).tick ((c.after [.start ""]).after [.start ""])).1 =
        .ok (.exit (.alarm .invalidState)) :=
  ⟨{ machine := Fixed.clinging.machine.record [⟨.setUp, .ok ()⟩] }, rfl, rfl⟩

end Scheduler

end Playground
