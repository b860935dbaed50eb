import Playground.Proofs.Scheduler.Calls

/-!
# Programs that complete, and how their loops end

A tick asks about its program first, and a program that it finds complete ends the loop as finished. But a host may check for
completion too, between two ticks. A check that finds the running program complete stops it, and the next tick sees no more than a
stopped program and ends the loop as cancelled, as if somebody had stopped it. That is the only way to such an exit, as long as no
program is stopped or started (`completed_as_finished_iff`).
-/

namespace Playground

/-- What happens next around a loop: a tick of it, or something done to its controller. -/
inductive Turn where
  | tick
  | act (op : Operation)

/-- The operation stops no program, starts none, and is no tick of another loop. -/
def Operation.LeavesProgram : Operation → Prop
  | .start _ | .stop | .tick _ => False
  | .validate _ | .isFinished | .checkFinished | .step _ | .pushInput _ | .onBridge _ => True

namespace Turn

/-- The turn stops no program, starts none, and is no tick of another loop. -/
def LeavesProgram : Turn → Prop
  | tick => True
  | act op => op.LeavesProgram

/-- The turn stops a running program that the guest says is complete. -/
def Checks : Turn → Prop
  | tick | act .checkFinished => True
  | act _ => False

end Turn

/-- The program is running, and the guest is about to say that it is complete. -/
def Controller.FoundComplete {γ : Type} [Guest γ] (c : Controller γ) : Prop :=
  c.state = .running ∧ c.checkFinished.1 = .ok true

namespace Scheduler

variable {γ : Type} [Guest γ]

/-- The loop and the controller that a turn leaves. -/
def turn (l : Scheduler × Controller γ) : Turn → Scheduler × Controller γ
  | .tick => (l.1.tick l.2).2
  | .act op => (l.1, l.2.perform op)

/-- The loop and the controller that a list of turns leaves, taken in order. -/
def turns (l : Scheduler × Controller γ) (ts : List Turn) : Scheduler × Controller γ := ts.foldl turn l

theorem turns_concat (l : Scheduler × Controller γ) (ts : List Turn) (t : Turn) :
    turns l (ts ++ [t]) = turn (turns l ts) t := by
  simp [turns]

/-- Among the turns there is one of some kind, given the loop and the controller that it finds. -/
def Happens (P : Scheduler × Controller γ → Turn → Prop) (l : Scheduler × Controller γ) (ts : List Turn) : Prop :=
  ∃ before t after, ts = before ++ t :: after ∧ P (turns l before) t

/-- The program completed: it was running, and a tick or a check found it complete. -/
def Completed : Scheduler × Controller γ → List Turn → Prop := Happens fun l t => t.Checks ∧ l.2.FoundComplete

/-- The program completed, and it was a check between two ticks that found it complete. -/
def FoundOutside : Scheduler × Controller γ → List Turn → Prop :=
  Happens fun l t => t = .act .checkFinished ∧ l.2.FoundComplete

section Happens

variable {P : Scheduler × Controller γ → Turn → Prop} {l : Scheduler × Controller γ} {ts : List Turn}

theorem not_happens_nil : ¬Happens P l [] := by
  rintro ⟨before, t, after, h, -⟩
  simp at h

/-- What happens in a row of turns happens before the last of them or in it. -/
theorem happens_concat {t : Turn} : Happens P l (ts ++ [t]) ↔ Happens P l ts ∨ P (turns l ts) t := by
  constructor
  · rintro ⟨before, t', after, h, hP⟩
    obtain ⟨-, rfl, rfl⟩ | ⟨rest, -, rfl⟩ := concat_eq_append_cons.mp h
    · exact .inr hP
    · exact .inl ⟨before, t', rest, rfl, hP⟩
  · rintro (⟨before, t', after, rfl, hP⟩ | hP)
    · exact ⟨before, t', after ++ [t], by simp, hP⟩
    · exact ⟨ts, t, [], rfl, hP⟩

/-- What happened is still part of the past later. -/
theorem Happens.of_isPrefix {past : List Turn} (h : Happens P l past) (hpast : past <+: ts) : Happens P l ts := by
  obtain ⟨before, t, after, rfl, hP⟩ := h
  obtain ⟨later, rfl⟩ := hpast
  exact ⟨before, t, after ++ later, by simp, hP⟩

end Happens

end Scheduler

/-! ## A loop and its program -/

section Phase

variable {p q : Standing} {new : List Call}

/-- A question about a program leaves all as it is, or faults the program. -/
theorem Asked.eq_or_faulted {result : Except HostError Bool} (h : Asked p result new q) : q = p ∨ q.state = .faulted := by
  cases h with
  | inactive _ | answered _ _ => exact .inl rfl
  | failed _ e => exact .inr rfl

/-- A check leaves the phase, or faults the program, or stops it because it runs and is complete. -/
theorem Checked.state_cases {result : Except HostError Bool} (h : Checked p result new q) :
    q.state = p.state ∨ q.state = .faulted ∨ p.state = .running ∧ result = .ok true ∧ q.state = .stopped := by
  cases h with
  | completed ha hs =>
    obtain rfl | hfaulted := ha.eq_or_faulted
    · exact .inr (.inr ⟨hs, rfl, rfl⟩)
    · exact nomatch hs.symm.trans hfaulted
  | unchanged ha _ => exact ha.eq_or_faulted.imp (congrArg Standing.state) .inl

/-- A step leaves the phase, or faults the program. -/
theorem Stepped.state_cases {budget : UInt32} {result : Except HostError Outcome} (h : Stepped p budget result new q) :
    q.state = p.state ∨ q.state = .faulted := by
  cases h with
  | failed _ e => exact .inr rfl
  | ended _ _ => exact .inr rfl
  | worked _ | stopped _ | refused _ _ => exact .inl rfl

end Phase

namespace Controller

variable {γ : Type} [Guest γ] (c : Controller (Recorded γ))

/-- An operation that leaves the program leaves its phase, or faults it, or is a check that finds it complete. -/
theorem state_perform {op : Operation} (hop : op.LeavesProgram) :
    (c.perform op).state = c.state ∨ (c.perform op).state = .faulted ∨
      op = .checkFinished ∧ c.FoundComplete ∧ (c.perform op).state = .stopped := by
  cases op with
  | validate source =>
    obtain ⟨-, -, -, hstanding⟩ := c.validate_goes source
    exact .inl (congrArg Standing.state hstanding)
  | isFinished =>
    obtain ⟨asked, -, ha⟩ := c.isFinished_goes
    exact ha.eq_or_faulted.imp (congrArg Standing.state) .inl
  | checkFinished =>
    obtain ⟨asked, -, hc⟩ := c.checkFinished_goes
    obtain hsame | hfaulted | ⟨hs, hcomplete, hstopped⟩ := hc.state_cases
    · exact .inl hsame
    · exact .inr (.inl hfaulted)
    · exact .inr (.inr ⟨rfl, ⟨hs, hcomplete⟩, hstopped⟩)
  | step budget =>
    obtain ⟨work, -, hw⟩ := c.step_goes budget
    exact hw.state_cases.imp_right .inl
  | pushInput bytes => exact .inl (congrArg Standing.state (c.pushInput_goes bytes).2)
  | onBridge act => exact .inl rfl
  | start _ | stop | tick _ => exact hop.elim

end Controller

namespace Scheduler

variable {γ : Type} [Guest γ]

/-- A tick that drives a program which is complete ends the loop as finished. -/
theorem tick_of_complete {s : Scheduler} {c : Controller γ} (hd : s.Drives c.standing) (h : c.checkFinished.1 = .ok true) :
    (s.tick c).2.1 = s.counted.ended .finished := by
  rcases hchecked : c.checkFinished with ⟨answer, c'⟩
  rw [hchecked] at h
  cases h
  rw [tick_of_drives hd, hchecked]
  rfl

variable {l : Scheduler × Controller (Recorded γ)} {ts : List Turn} {t : Turn}

namespace Bound

/-- An operation that leaves the program to the loop leaves the loop bound. -/
theorem act (h : Bound l) {op : Operation} (hop : op.LeavesProgram) : Bound (l.1, l.2.perform op) := by
  obtain ⟨new, -, hgoes⟩ := l.2.perform_goes op
  have hstart : ∀ source, op ≠ .start source := by
    rintro source rfl
    exact hop
  refine ⟨hgoes.sound h.sound, (hgoes.stays hstart).generation_eq.trans h.generation_eq, fun hrunning => ?_⟩
  obtain hsame | hfaulted | ⟨-, -, hstopped⟩ := l.2.state_perform hop
  · exact h.armed_of_running (hsame.symm.trans hrunning)
  · exact nomatch hrunning.symm.trans hfaulted
  · exact nomatch hrunning.symm.trans hstopped

/-- So does a turn. -/
theorem turn (h : Bound l) (ht : t.LeavesProgram) : Bound (turn l t) := by
  cases t with
  | tick => exact h.tick
  | act op => exact h.act ht

/-- So does a row of turns. -/
theorem turns (h : Bound l) (hts : ∀ t ∈ ts, t.LeavesProgram) : Bound (turns l ts) := by
  induction ts using List.reverseRecOn with
  | nil => exact h
  | append_singleton ts t ih =>
    rw [turns_concat]
    exact (ih fun t' ht' => hts t' (List.mem_append_left _ ht')).turn (hts t (by simp))

end Bound

/-! ## Until the program completes -/

/-- The loop has ended as finished. -/
def Over (l : Scheduler × Controller (Recorded γ)) : Prop := l.1.armed = false ∧ l.1.lastExit = some .finished

/-- The program has not completed: it is running, or it faulted. -/
def Pending (l : Scheduler × Controller (Recorded γ)) : Prop := l.2.state = .running ∨ l.2.state = .faulted

/-- A loop that is over stays over. -/
theorem Over.turn (h : Over l) (t : Turn) : Over (turn l t) := by
  cases t with
  | tick =>
    have htick : Scheduler.turn l .tick = l := congrArg Prod.snd (tick_of_unarmed l.2 h.1)
    rwa [htick]
  | act op => exact h

/-- A tick of a running program leaves it running or faulted, or it has found it complete and ended the loop as finished. -/
theorem Bound.pending_or_over (hb : Bound l) (hs : l.2.state = .running) :
    Pending (l.1.tick l.2).2 ∨ Over (l.1.tick l.2).2 := by
  rcases htick : l.1.tick l.2 with ⟨result, s', c'⟩
  obtain ⟨new, hdriven⟩ := hb.driven hs htick
  have hpending : c'.standing.state = .running ∨ c'.standing.state = .faulted → Pending (s', c') := id
  generalize c'.standing = q at hdriven hpending
  cases hdriven with
  | notAsked e | notStepped e | failed _ => exact .inl (hpending (.inr rfl))
  | again => exact .inl (hpending (.inl hs))
  | finished => exact .inr ⟨rfl, rfl⟩

/-- A turn of a program that has not completed, if it is no check that finds it complete: it has not completed afterwards either,
or a tick has ended the loop as finished. -/
theorem Pending.turn (hb : Bound l) (h : Pending l) (ht : t.LeavesProgram)
    (hcheck : ¬(t = .act .checkFinished ∧ l.2.FoundComplete)) :
    Pending (turn l t) ∧ ¬(t.Checks ∧ l.2.FoundComplete) ∨ Over (turn l t) := by
  cases t with
  | act op =>
    have hnone : ¬((Turn.act op).Checks ∧ l.2.FoundComplete) := by
      rintro ⟨hchecks, hfound⟩
      cases op with
      | checkFinished => exact hcheck ⟨rfl, hfound⟩
      | _ => exact hchecks
    obtain hsame | hfaulted | ⟨rfl, hfound, -⟩ := l.2.state_perform ht
    · have hpending : Pending (Scheduler.turn l (.act op)) := h.imp hsame.trans hsame.trans
      exact .inl ⟨hpending, hnone⟩
    · exact .inl ⟨.inr hfaulted, hnone⟩
    · exact absurd ⟨rfl, hfound⟩ hcheck
  | tick =>
    by_cases hfound : l.2.FoundComplete
    · have hended := tick_of_complete (hb.drives hfound.1) hfound.2
      exact .inr ⟨congrArg armed hended, congrArg lastExit hended⟩
    have hpending : Pending (Scheduler.turn l .tick) ∨ Over (Scheduler.turn l .tick) := by
      obtain hs | hs := h
      · exact hb.pending_or_over hs
      · have hstanding := l.1.standing_tick (c := l.2) (fun hr => nomatch hs.symm.trans hr)
        exact .inl (.inr ((congrArg Standing.state hstanding).trans hs))
    exact hpending.imp_left fun hleft => ⟨hleft, fun hchecks => hfound hchecks.2⟩

/-- As long as no check between two ticks finds the program complete, it has not completed or its loop has ended as finished. -/
theorem Bound.pending_or_over_turns (hb : Bound l) (hs : l.2.state = .running) (hts : ∀ t ∈ ts, t.LeavesProgram)
    (hfound : ¬FoundOutside l ts) :
    Pending (Scheduler.turns l ts) ∧ ¬Completed l ts ∨ Over (Scheduler.turns l ts) := by
  induction ts using List.reverseRecOn with
  | nil => exact .inl ⟨.inl hs, not_happens_nil⟩
  | append_singleton ts t ih =>
    have hearlier : ∀ t' ∈ ts, t'.LeavesProgram := fun t' ht' => hts t' (List.mem_append_left _ ht')
    rw [FoundOutside, happens_concat, not_or] at hfound
    obtain ⟨hbefore, hcheck⟩ := hfound
    rw [turns_concat, Completed, happens_concat, not_or]
    obtain ⟨hpending, hnone⟩ | hover := ih hearlier hbefore
    · refine (hpending.turn (hb.turns hearlier) (hts t (by simp)) hcheck).imp_left ?_
      exact fun ⟨hpending', hnone'⟩ => ⟨hpending', hnone, hnone'⟩
    · exact .inr (hover.turn t)

/-! ## The next tick -/

/-- The tick of a loop whose program has not completed is no cancellation. -/
theorem Pending.tick_ne_cancelled (hb : Bound l) (h : Pending l) : (l.1.tick l.2).1 ≠ .ok (.exit .cancelled) := by
  obtain hs | hs := h
  · rcases htick : l.1.tick l.2 with ⟨result, s', c'⟩
    obtain ⟨new, hdriven⟩ := hb.driven hs htick
    dsimp only
    generalize c'.standing = q at hdriven
    cases hdriven with
    | failed _ =>
      intro hcancelled
      exact LoopExit.ofFault_ne_cancelled (Outcome.ofStatus_ne_cancelled _) (Tick.exit.inj (Except.ok.inj hcancelled))
    | _ => nofun
  · cases harmed : l.1.armed with
    | false =>
      rw [tick_of_unarmed l.2 harmed]
      nofun
    | true =>
      rw [(tick_of_faulted harmed hb.generation_eq hs).1]
      intro hcancelled
      exact LoopExit.ofFault_ne_cancelled hb.sound.fault_ne_cancelled (Tick.exit.inj (Except.ok.inj hcancelled))

/-- A check that finds the program complete makes the next tick end the loop as cancelled. -/
theorem Bound.tick_of_foundOutside (hb : Bound l) (hfound : l.2.FoundComplete) :
    (l.1.tick l.2.checkFinished.2).1 = .ok (.exit .cancelled) := by
  obtain ⟨asked, -, hc⟩ := l.2.checkFinished_goes
  rw [hfound.2] at hc
  obtain ⟨-, hstopped⟩ := hc.of_complete (hb.sound.active_of_running hfound.1) hfound.1
  have hstate : l.2.checkFinished.2.state = .stopped := congrArg Standing.state hstopped
  have hgeneration : l.2.checkFinished.2.generation = l.2.generation := congrArg Standing.generation hstopped
  rw [tick_of_stopped (hb.armed_of_running hfound.1) (hgeneration.trans hb.generation_eq) hstate]

/-! ## Every program that was started -/

/-- Whatever the guest does and whatever was done before: a program is started, a loop is armed for it, and turns follow that leave
the program alone. No tick among them or right after them ends the loop as cancelled, and the loop ends as finished if the program
completed, exactly if no check between two ticks finds the program complete. -/
theorem completed_as_finished_iff {m : Machine γ} {clear : Bool} {c d : Controller (Recorded γ)} {source : String}
    (h : Controller.create m.record clear = .ok c) (ops : List Operation) (s : Scheduler)
    (hstart : (c.after ops).start source = (.ok .success, d)) (hts : ∀ t ∈ ts, t.LeavesProgram) :
    let l := (s.arm d, d)
    (∀ past, past <+: ts →
        let next := (turns l past).1.tick (turns l past).2
        next.1 ≠ .ok (.exit .cancelled) ∧ (Completed l past → next.2.1.lastExit = some .finished)) ↔
      ¬FoundOutside l ts := by
  intro l
  obtain ⟨hb, hs⟩ : Bound l ∧ d.state = .running := bound_of_start (Controller.sound_after h ops) hstart s
  constructor
  · rintro hall ⟨before, t, after, rfl, rfl, hfound⟩
    have hbefore : Bound (turns l before) := hb.turns fun t ht => hts t (List.mem_append_left _ ht)
    obtain ⟨hne, -⟩ := hall (before ++ [.act .checkFinished]) ⟨after, by simp⟩
    rw [turns_concat] at hne
    exact hne (hbefore.tick_of_foundOutside hfound)
  · intro hnone past hpast next
    have hpastLeaves : ∀ t ∈ past, t.LeavesProgram := fun t ht => hts t (hpast.subset ht)
    have hpastNone : ¬FoundOutside l past := fun hfound => hnone (hfound.of_isPrefix hpast)
    obtain ⟨hpending, hincomplete⟩ | hover := hb.pending_or_over_turns hs hpastLeaves hpastNone
    · exact ⟨hpending.tick_ne_cancelled (hb.turns hpastLeaves), fun hcompleted => absurd hcompleted hincomplete⟩
    · have hidle : next = _ := tick_of_unarmed (turns l past).2 hover.1
      rw [hidle]
      exact ⟨nofun, fun _ => hover.2⟩

/-- A program is complete as soon as it is started, and its loop ends as finished. -/
theorem completed_as_finished_completing :
    ∃ c d : Controller (Recorded Fixed), Controller.create Fixed.completing.machine.record = .ok c ∧
      c.start "" = (.ok .success, d) ∧ (turns (arm {} d, d) [.tick]).1.lastExit = some .finished := by
  let c : Controller (Recorded Fixed) := { machine := Fixed.completing.machine.record [⟨.setUp, .ok ()⟩] }
  have h : Controller.create Fixed.completing.machine.record = .ok c := rfl
  have hstart : (c.after []).start "" = (.ok .success, (c.start "").2) := rfl
  refine ⟨c, (c.start "").2, h, hstart, ?_⟩
  have hleaves : ∀ t ∈ [Turn.tick], t.LeavesProgram := by simp [Turn.LeavesProgram]
  have hinside : ¬FoundOutside (arm {} (c.start "").2, (c.start "").2) [.tick] := by
    rintro ⟨before, t, after, hts, rfl, -⟩
    have hcheck : Turn.act .checkFinished ∈ [Turn.tick] := hts ▸ List.mem_append_right before (List.mem_cons_self ..)
    cases List.mem_singleton.mp hcheck
  obtain ⟨-, hfinished⟩ := (completed_as_finished_iff h [] {} hstart hleaves).mpr hinside [.tick] List.prefix_rfl
  exact hfinished ⟨[], .tick, [], rfl, trivial, rfl, rfl⟩

/-- A check between the start and the first tick finds the program complete, and its loop ends as cancelled. -/
theorem cancelled_after_completing :
    ∃ c d : Controller (Recorded Fixed), Controller.create Fixed.completing.machine.record = .ok c ∧
      c.start "" = (.ok .success, d) ∧
      let l := turns (arm {} d, d) [.act .checkFinished]
      Completed (arm {} d, d) [.act .checkFinished] ∧ (l.1.tick l.2).1 = .ok (.exit .cancelled) :=
  ⟨{ machine := Fixed.completing.machine.record [⟨.setUp, .ok ()⟩] }, _, rfl, rfl,
    ⟨[], _, [], rfl, trivial, rfl, rfl⟩, rfl⟩

end Scheduler

end Playground
