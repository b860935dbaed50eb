import Playground.Proofs.Scheduler.Accounts
import Playground.Proofs.Scheduler.Steps

/-!
# The end of a run

A program is complete after so many steps and says so, and each of its steps has a status (`Call.Performs`). The loop that drives it
makes one round after the other, a tick and what is done before the next one, until the program is complete or a step has another
status than success. In each round it asks once and steps once, so the ticks and the steps stay with the program
(`Scheduler.Underway`), and it is known which tick is the last one (`Scheduler.run_ends`).
-/

namespace Playground

namespace Call

/-- The guest answers these calls as one whose program is complete after `total` steps, of which `made` are behind it, and whose
`i`-th step has status `status i`. -/
def Performs (total : Nat) (status : Nat → Int32) : Nat → List Call → Prop
  | _, [] => True
  | made, ⟨.isFinished, answer⟩ :: later => answer = .ok (decide (total ≤ made)) ∧ Performs total status made later
  | made, ⟨.step _, answer⟩ :: later => answer = .ok (status (made + 1)) ∧ Performs total status (made + 1) later
  | made, _ :: later => Performs total status made later

/-- The call asks whether the program is complete. -/
def IsQuestion (call : Call) : Prop := call.function = .isFinished

instance : DecidablePred IsQuestion := fun call => inferInstanceAs (Decidable (call.function = .isFinished))

/-- The questions among some calls. -/
def questions (calls : List Call) : Nat := calls.countP (IsQuestion ·)

theorem questions_append (calls calls' : List Call) : questions (calls ++ calls') = questions calls + questions calls' :=
  List.countP_append

end Call

/-! ## Guests that take programs through their steps -/

/-- The guest takes a program through its steps, where `P i` is what holds of the machine once `i` steps are made: the program is
complete after `total` steps, its `i`-th step has status `status i`, and typing makes no difference. -/
structure Guest.Executes {γ : Type} [Guest γ] (P : Nat → Machine γ → Prop) (total : Nat) (status : Nat → Int32)
    (budget : UInt32) : Prop where
  asked : ∀ i m, P i m → ∃ m', Guest.call .isFinished m = (.ok (decide (total ≤ i)), m') ∧ P i m'
  stepped : ∀ i m, P i m → ∃ m', Guest.call (.step budget) m = (.ok (status (i + 1)), m') ∧ P (i + 1) m'
  typed : ∀ i m bytes, P i m → P i { m with bridge := m.bridge.pushInput bytes }

/-- A guest that does all it is asked, and counts the steps that it makes. -/
structure Counting where
  total : Nat
  status : Nat → Int32
  made : Nat := 0

instance Counting.guest : Guest Counting where
  call
    | .isFinished, m => (.ok (decide (m.inner.total ≤ m.inner.made)), m)
    | .step _, m => (.ok (m.inner.status (m.inner.made + 1)), { m with inner := { m.inner with made := m.inner.made + 1 } })
    | e, m => (Fixed.willing.answer e, m)

namespace Counting

variable (total : Nat) (status : Nat → Int32)

/-- The machine of such a guest, with one byte of memory. -/
def machine : Machine Counting := ⟨Memory.zeroed 1, {}, { total, status }⟩

/-- Such a guest takes its program through its steps. -/
theorem executes (budget : UInt32) :
    Guest.Executes (fun i (m : Machine Counting) => m.inner = { total, status, made := i }) total status budget where
  asked i m h := ⟨m, by simp [Guest.call, h], h⟩
  stepped i m h := ⟨_, by simp [Guest.call, h]; rfl, by simp⟩
  typed _ _ _ h := h

end Counting

/-! ## One tick -/

namespace Driven

variable {s s' : Scheduler} {p q : Standing} {result : Except HostError Tick} {new : List Call} {total made : Nat}
  {status : Nat → Int32}

/-- A tick of a program that is complete ends the loop as finished. -/
theorem of_performed (h : Driven s p result s' new q) (hp : Call.Performs total status made new) (hdone : total ≤ made) :
    result = .ok (.exit .finished) ∧ s' = s.counted.ended .finished ∧ new = [⟨.isFinished, .ok true⟩] ∧
      q.state = .stopped := by
  have hyes : ∀ {later : List Call}, Call.Performs total status made (⟨.isFinished, .ok false⟩ :: later) → False :=
    fun hp => of_decide_eq_false (Except.ok.inj hp.1).symm hdone
  cases h with
  | finished => exact ⟨rfl, rfl, rfl, rfl⟩
  | notAsked e => exact nomatch hp.1
  | notStepped e | again | failed _ => exact (hyes hp).elim

/-- A tick of a program that is incomplete and makes its step leaves the program as it was, and another one is wanted. -/
theorem of_progress (h : Driven s p result s' new q) (hp : Call.Performs total status made new) (hmore : made < total)
    (hstatus : status (made + 1) = 0) :
    result = .ok .again ∧ s' = s.counted.stepped ∧ new = [⟨.isFinished, .ok false⟩, ⟨.step s.budget, .ok 0⟩] ∧ q = p := by
  cases h with
  | again => exact ⟨rfl, rfl, rfl, rfl⟩
  | notAsked e => exact nomatch hp.1
  | finished => exact absurd (of_decide_eq_true (Except.ok.inj hp.1).symm) (Nat.not_le.mpr hmore)
  | notStepped e => exact nomatch hp.2.1
  | failed hne => exact absurd ((Except.ok.inj hp.2.1).trans hstatus) hne

/-- A tick of a program that is incomplete and whose step has another status than success ends the loop with that status. -/
theorem of_status (h : Driven s p result s' new q) (hp : Call.Performs total status made new) (hmore : made < total)
    (hstatus : status (made + 1) ≠ 0) :
    result = .ok (.exit (.ofFault (.ofStatus (status (made + 1))))) ∧
      s' = s.counted.stepped.ended (.ofFault (.ofStatus (status (made + 1)))) ∧
      new = [⟨.isFinished, .ok false⟩, ⟨.step s.budget, .ok (status (made + 1))⟩] ∧ q.state = .faulted := by
  cases h with
  | failed _ =>
    rw [← Except.ok.inj hp.2.1]
    exact ⟨rfl, rfl, rfl, rfl⟩
  | notAsked e => exact nomatch hp.1
  | finished => exact absurd (of_decide_eq_true (Except.ok.inj hp.1).symm) (Nat.not_le.mpr hmore)
  | notStepped e => exact nomatch hp.2.1
  | again => exact absurd (Except.ok.inj hp.2.1).symm hstatus

end Driven

namespace Scheduler

variable {γ σ : Type} [Guest γ] {between : Controller (Recorded γ) → σ → Controller (Recorded γ) × σ}

/-! ## Rounds -/

/-- Nothing is done between two ticks but typing. -/
def OnlyTypes (between : Controller γ → σ → Controller γ × σ) : Prop :=
  ∀ c w, ∃ chunks : List (List UInt8), (between c w).1 = chunks.foldl (fun c bytes => (c.pushInput bytes).2) c

omit [Guest γ] in
/-- The callback keeps what typing keeps. -/
theorem OnlyTypes.keeps {between : Controller γ → σ → Controller γ × σ} (h : OnlyTypes between) {P : Controller γ → Prop}
    (hP : ∀ c bytes, P c → P (c.pushInput bytes).2) {c : Controller γ} (hc : P c) (w : σ) : P (between c w).1 := by
  obtain ⟨chunks, hchunks⟩ := h c w
  rw [hchunks]
  clear hchunks
  induction chunks generalizing c with
  | nil => exact hc
  | cons bytes chunks ih => exact ih (hP c bytes hc)

omit [Guest γ] in
/-- Typing is no call, and leaves the controller where it stands. -/
theorem OnlyTypes.goes (h : OnlyTypes between) (c : Controller (Recorded γ)) (w : σ) :
    (between c w).1.calls = c.calls ∧ (between c w).1.standing = c.standing := by
  refine h.keeps (P := fun d => d.calls = c.calls ∧ d.standing = c.standing) ?_ ⟨rfl, rfl⟩ w
  rintro d bytes ⟨hcalls, hstanding⟩
  obtain ⟨hcalls', hstanding'⟩ := d.pushInput_goes bytes
  exact ⟨hcalls'.trans hcalls, hstanding'.trans hstanding⟩

/-- One tick of a loop, and what is done after it. -/
def round (between : Controller γ → σ → Controller γ × σ) (l : Scheduler × Controller γ × σ) :
    Scheduler × Controller γ × σ :=
  ((l.1.tick l.2.1).2.1, between (l.1.tick l.2.1).2.2 l.2.2)

/-- The first `n` ticks of the loop all want another one. -/
def GoesOn (between : Controller γ → σ → Controller γ × σ) (n : Nat) (l : Scheduler × Controller γ × σ) : Prop :=
  ∀ i < n, (((round between)^[i] l).1.tick ((round between)^[i] l).2.1).1 = .ok .again

/-- The callback, and a count of how often it was called. -/
def tallied (between : Controller γ → σ → Controller γ × σ) (c : Controller γ) (w : σ × Nat) : Controller γ × σ × Nat :=
  ((between c w.1).1, (between c w.1).2, w.2 + 1)

/-- How often a run of the loop calls its callback. -/
def yields (between : Controller γ → σ → Controller γ × σ) (fuel : Nat) (s : Scheduler) (c : Controller γ) (w : σ) : Nat :=
  (run (tallied between) fuel s c (w, 0)).2.2.2.2

section GoesOn

variable {between : Controller γ → σ → Controller γ × σ} {n : Nat} {l : Scheduler × Controller γ × σ}

/-- A run whose tick wants another one goes on after the round. -/
theorem run_of_again (h : (l.1.tick l.2.1).1 = .ok .again) (fuel : Nat) :
    run between (fuel + 1) l.1 l.2.1 l.2.2 =
      run between fuel (round between l).1 (round between l).2.1 (round between l).2.2 := by
  rw [run, round]
  generalize l.1.tick l.2.1 = ticked at h ⊢
  obtain ⟨result, s', c'⟩ := ticked
  cases h
  rfl

/-- A run whose first ticks want another one goes on after their rounds. -/
theorem GoesOn.run_eq (h : GoesOn between n l) (fuel : Nat) :
    run between (n + fuel) l.1 l.2.1 l.2.2 =
      run between fuel ((round between)^[n] l).1 ((round between)^[n] l).2.1 ((round between)^[n] l).2.2 := by
  induction n generalizing fuel with
  | zero => rw [Nat.zero_add]; rfl
  | succ n ih =>
    have hlast := h n (Nat.lt_succ_self n)
    rw [Nat.add_assoc, Nat.add_comm 1, ih fun i hi => h i (Nat.lt_succ_of_lt hi), run_of_again hlast,
      Function.iterate_succ_apply']

/-- The count of the callback's calls is that of the rounds. -/
theorem iterate_round_tallied (n : Nat) (l : Scheduler × Controller γ × σ) (tally : Nat) :
    (round (tallied between))^[n] (l.1, l.2.1, l.2.2, tally) =
      (((round between)^[n] l).1, ((round between)^[n] l).2.1, ((round between)^[n] l).2.2, tally + n) := by
  induction n with
  | zero => rfl
  | succ n ih => rw [Function.iterate_succ_apply', Function.iterate_succ_apply', ih]; rfl

/-- A run whose first ticks want another one, and whose next one ends the loop, has called its callback once for each of them. -/
theorem GoesOn.yields_eq (h : GoesOn between n l) {exit : LoopExit}
    (hexit : (((round between)^[n] l).1.tick ((round between)^[n] l).2.1).1 = .ok (.exit exit)) (fuel : Nat) :
    yields between (n + (fuel + 1)) l.1 l.2.1 l.2.2 = n := by
  have htallied : GoesOn (tallied between) n (l.1, l.2.1, l.2.2, 0) := by
    intro i hi
    rw [iterate_round_tallied]
    exact h i hi
  have hrun := htallied.run_eq (fuel + 1)
  rw [iterate_round_tallied, run_of_exit hexit] at hrun
  dsimp only at hrun
  rw [yields, hrun]
  exact Nat.zero_add n

end GoesOn

/-! ## A program that is underway -/

/-- How a loop and its controller are left by a run that ended: the loop is over and has kept its exit, it has counted the ticks and
the steps, and the guest was asked once in each of the ticks and made no more than these steps since it had received `calls`. -/
structure Ended (calls : List Call) (exit : LoopExit) (ticks steps : Nat) (state : RunState) (s : Scheduler)
    (c : Controller (Recorded γ)) : Prop where
  disarmed : s.armed = false
  lastExit_eq : s.lastExit = some exit
  ticks_eq : s.ticks = ticks
  steps_eq : s.steps = steps
  state_eq : c.state = state
  questions_eq : Call.questions c.calls = Call.questions calls + ticks
  made_eq : Call.steps c.calls = Call.steps calls + steps

/-- The loop has made `made` rounds with a program that is complete after `total` steps: the program is running, each round was a
tick and a step, and whatever the guest is still going to be asked in this run, it answers as such a program does. -/
structure Underway (between : Controller (Recorded γ) → σ → Controller (Recorded γ) × σ) (total : Nat) (status : Nat → Int32)
    (calls : List Call) (made : Nat) (l : Scheduler × Controller (Recorded γ) × σ) : Prop where
  bound : Bound (l.1, l.2.1)
  running : l.2.1.state = .running
  ticks_eq : l.1.ticks = made
  steps_eq : l.1.steps = made
  questions_eq : Call.questions l.2.1.calls = Call.questions calls + made
  made_eq : Call.steps l.2.1.calls = Call.steps calls + made
  performs : ∀ fuel new, (run between fuel l.1 l.2.1 l.2.2).2.2.1.calls = l.2.1.calls ++ new →
    Call.Performs total status made new

omit [Guest γ] in
/-- A loop stays bound to its program while the controller stays where it stands. -/
theorem Bound.of_standing {s : Scheduler} {c c' : Controller (Recorded γ)} (h : Bound (s, c)) (hsame : c'.standing = c.standing) :
    Bound (s, c') := by
  obtain ⟨hsound, hgeneration, harmed⟩ := h
  refine ⟨?_, (congrArg Standing.generation hsame).trans hgeneration, fun hrunning => ?_⟩
  · rw [hsame]
    exact hsound
  · exact harmed ((congrArg Standing.state hsame).symm.trans hrunning)

/-- The first calls of a run are those of its tick. -/
theorem OnlyTypes.calls_run_one (h : OnlyTypes between) (s : Scheduler) (c : Controller (Recorded γ)) (w : σ) :
    (run between 1 s c w).2.2.1.calls = (s.tick c).2.2.calls := by
  rw [run]
  generalize s.tick c = ticked
  obtain ⟨result, s', c'⟩ := ticked
  rcases result with e | _ | _ | exit
  · rfl
  · exact (h.goes c' w).1
  · rfl
  · rfl

namespace Underway

variable {total made : Nat} {status : Nat → Int32} {calls : List Call} {l : Scheduler × Controller (Recorded γ) × σ}

/-- The next tick drives the program. -/
theorem driven (h : Underway between total status calls made l) (htypes : OnlyTypes between) :
    ∃ new, (l.1.tick l.2.1).2.2.calls = l.2.1.calls ++ new ∧ Call.Performs total status made new ∧
      Driven l.1 l.2.1.standing (l.1.tick l.2.1).1 (l.1.tick l.2.1).2.1 new (l.1.tick l.2.1).2.2.standing := by
  obtain ⟨new, hnew, hticked⟩ := l.1.tick_goes l.2.1
  refine ⟨new, hnew, h.performs 1 new ?_, hticked.driven (h.bound.drives h.running) (h.bound.sound.active_of_running h.running)⟩
  rw [htypes.calls_run_one, hnew]

/-- A round with a program that makes its step. -/
theorem round (h : Underway between total status calls made l) (htypes : OnlyTypes between) (hmore : made < total)
    (hstatus : status (made + 1) = 0) :
    (l.1.tick l.2.1).1 = .ok .again ∧ Underway between total status calls (made + 1) (round between l) := by
  obtain ⟨new, hnew, hp, hdriven⟩ := h.driven htypes
  obtain ⟨hagain, hloop, rfl, hstands⟩ := hdriven.of_progress hp hmore hstatus
  obtain ⟨hcalls, hstanding⟩ := htypes.goes (l.1.tick l.2.1).2.2 l.2.2
  have hsame : (Scheduler.round between l).2.1.standing = l.2.1.standing := hstanding.trans hstands
  have hleft : (Scheduler.round between l).2.1.calls = l.2.1.calls ++ [⟨.isFinished, .ok false⟩, ⟨.step l.1.budget, .ok 0⟩] :=
    hcalls.trans hnew
  have hnext : (Scheduler.round between l).1 = l.1.counted.stepped := hloop
  refine ⟨hagain, h.bound.tick.of_standing hstanding, ?_, ?_, ?_, ?_, ?_, fun fuel later hlater => ?_⟩
  · exact (congrArg Standing.state hsame).trans h.running
  · rw [hnext, ← h.ticks_eq]
    rfl
  · rw [hnext, ← h.steps_eq]
    rfl
  · rw [hleft, Call.questions_append, h.questions_eq]
    rfl
  · rw [hleft, Call.steps_append, h.made_eq]
    rfl
  · rw [← run_of_again hagain, hleft, List.append_assoc] at hlater
    exact (h.performs (fuel + 1) _ hlater).2.2

/-- Rounds with a program that makes its steps. -/
theorem rounds (h : Underway between total status calls made l) (htypes : OnlyTypes between) {n : Nat} (hn : made + n ≤ total)
    (hstatus : ∀ i, made < i → i ≤ made + n → status i = 0) :
    GoesOn between n l ∧ Underway between total status calls (made + n) ((Scheduler.round between)^[n] l) := by
  induction n with
  | zero => exact ⟨nofun, h⟩
  | succ n ih =>
    obtain ⟨hgoes, hunder⟩ := ih (by omega) fun i hi hle => hstatus i hi (by omega)
    obtain ⟨hagain, hnext⟩ := hunder.round htypes hn (hstatus _ (by omega) (Nat.le_refl _))
    refine ⟨fun i hi => ?_, ?_⟩
    · obtain hlt | rfl := Nat.lt_succ_iff_lt_or_eq.mp hi
      · exact hgoes i hlt
      · exact hagain
    · rw [Function.iterate_succ_apply']
      exact hnext

/-- The tick of a program that is complete. -/
theorem tick_of_complete (h : Underway between total status calls made l) (htypes : OnlyTypes between) (hdone : total ≤ made) :
    (l.1.tick l.2.1).1 = .ok (.exit .finished) ∧
      Ended calls .finished (made + 1) made .stopped (l.1.tick l.2.1).2.1 (l.1.tick l.2.1).2.2 := by
  obtain ⟨new, hnew, hp, hdriven⟩ := h.driven htypes
  obtain ⟨hexit, hloop, rfl, hstopped⟩ := hdriven.of_performed hp hdone
  rw [hloop]
  refine ⟨hexit, rfl, rfl, congrArg (· + 1) h.ticks_eq, h.steps_eq, hstopped, ?_, ?_⟩
  · rw [hnew, Call.questions_append, h.questions_eq]
    rfl
  · rw [hnew, Call.steps_append, h.made_eq]
    rfl

/-- The tick of a program whose next step has another status than success. -/
theorem tick_of_status (h : Underway between total status calls made l) (htypes : OnlyTypes between) (hmore : made < total)
    (hstatus : status (made + 1) ≠ 0) :
    let exit := LoopExit.ofFault (.ofStatus (status (made + 1)))
    (l.1.tick l.2.1).1 = .ok (.exit exit) ∧
      Ended calls exit (made + 1) (made + 1) .faulted (l.1.tick l.2.1).2.1 (l.1.tick l.2.1).2.2 := by
  intro exit
  obtain ⟨new, hnew, hp, hdriven⟩ := h.driven htypes
  obtain ⟨hexit, hloop, rfl, hfaulted⟩ := hdriven.of_status hp hmore hstatus
  rw [hloop]
  refine ⟨hexit, rfl, rfl, congrArg (· + 1) h.ticks_eq, congrArg (· + 1) h.steps_eq, hfaulted, ?_, ?_⟩
  · rw [hnew, Call.questions_append, h.questions_eq]
    rfl
  · rw [hnew, Call.steps_append, h.made_eq]
    rfl

end Underway

/-- A run that goes on for `n` rounds and then ends. -/
theorem GoesOn.run_ended {n : Nat} {l : Scheduler × Controller (Recorded γ) × σ} (h : GoesOn between n l) {calls : List Call}
    {exit : LoopExit} {ticks steps : Nat} {state : RunState}
    (hlast : let last := (round between)^[n] l
      (last.1.tick last.2.1).1 = .ok (.exit exit) ∧
        Ended calls exit ticks steps state (last.1.tick last.2.1).2.1 (last.1.tick last.2.1).2.2)
    {fuel : Nat} (hfuel : n < fuel) :
    ∃ loop left w, run between fuel l.1 l.2.1 l.2.2 = (some (.ok exit), loop, left, w) ∧
      Ended calls exit ticks steps state loop left ∧ yields between fuel l.1 l.2.1 l.2.2 = n := by
  obtain ⟨hexit, hended⟩ := hlast
  obtain ⟨more, rfl⟩ := Nat.exists_eq_add_of_lt hfuel
  have hrun := h.run_eq (more + 1)
  rw [run_of_exit hexit] at hrun
  exact ⟨_, _, _, hrun, hended, h.yields_eq hexit more⟩

/-! ## Runs with a guest that takes its program through its steps -/

section Executes

variable {P : Nat → Machine γ → Prop} {total made : Nat} {status : Nat → Int32} {budget : UInt32} {s : Scheduler}
  {c : Controller (Recorded γ)}

/-- Typing keeps what holds of the machine after some steps. -/
theorem holds_pushInput (hx : Guest.Executes P total status budget) (c : Controller (Recorded γ)) (bytes : List UInt8)
    (hP : P made c.machine.erase) : P made (c.pushInput bytes).2.machine.erase := by
  unfold Controller.pushInput
  split
  · exact hx.typed made _ bytes hP
  · exact hP

/-- A tick that drives the program of such a guest ends the loop, or another one is wanted and one step more is made. -/
theorem tick_of_executes (hx : Guest.Executes P total status s.budget) (hd : s.Drives c.standing) (hactive : c.runActive = true)
    (hP : P made c.machine.erase) :
    (∃ exit new, (s.tick c).1 = .ok (.exit exit) ∧ (s.tick c).2.2.calls = c.calls ++ new ∧ Call.Performs total status made new) ∨
      ∃ r new, s.tick c = (.ok .again, s.counted.stepped, { c with machine := r }) ∧ r.calls = c.calls ++ new ∧
        P (made + 1) r.erase ∧
        ∀ later, Call.Performs total status (made + 1) later → Call.Performs total status made (new ++ later) := by
  obtain ⟨m, hasked, hPm⟩ := hx.asked made _ hP
  obtain ⟨r, hanswer, rfl⟩ := Machine.exists_call hasked
  have hcalls := Machine.calls_of_call hanswer
  by_cases hdone : total ≤ made
  · rw [decide_eq_true hdone] at hanswer
    obtain ⟨hexit, -, hmachine⟩ := tick_of_done hd hactive hanswer
    exact .inl ⟨_, _, hexit, (congrArg Machine.calls hmachine).trans hcalls, rfl, trivial⟩
  rw [decide_eq_false hdone] at hanswer
  obtain ⟨m', hstep, hPm'⟩ := hx.stepped made _ hPm
  obtain ⟨r', hmade, rfl⟩ := Machine.exists_call hstep
  have hcalls' := Machine.calls_of_call hmade
  rw [hcalls, List.append_assoc] at hcalls'
  by_cases hstatus : status (made + 1) = 0
  · have hsuccess := hmade
    rw [hstatus] at hsuccess
    exact .inr ⟨r', _, tick_of_progress hd hactive hanswer hsuccess, hcalls', hPm', fun later hp => ⟨rfl, rfl, hp⟩⟩
  · obtain ⟨hexit, -, hmachine⟩ := tick_of_status hd hactive hanswer hstatus hmade
    exact .inl ⟨_, _, hexit, (congrArg Machine.calls hmachine).trans hcalls', rfl, rfl, trivial⟩

/-- In a run of the loop such a guest answers as one whose program has these steps. -/
theorem performs_of_executes (hx : Guest.Executes P total status budget) (htypes : OnlyTypes between) (hd : s.Drives c.standing)
    (hactive : c.runActive = true) (hbudget : s.budget = budget) (hP : P made c.machine.erase) (w : σ) (fuel : Nat) :
    ∃ new, (run between fuel s c w).2.2.1.calls = c.calls ++ new ∧ Call.Performs total status made new := by
  induction fuel generalizing s c w made with
  | zero => exact ⟨[], (List.append_nil _).symm, trivial⟩
  | succ fuel ih =>
    subst hbudget
    obtain ⟨exit, new, hexit, hcalls, hp⟩ | ⟨r, new, htick, hcalls, hPr, hstep⟩ := tick_of_executes hx hd hactive hP
    · rw [run_of_exit hexit]
      exact ⟨new, hcalls, hp⟩
    · let next : Controller (Recorded γ) := { c with machine := r }
      obtain ⟨htyped, hstanding⟩ := htypes.goes next w
      have hkept : P (made + 1) (between next w).1.machine.erase :=
        htypes.keeps (P := fun d => P (made + 1) d.machine.erase) (holds_pushInput hx) hPr w
      have hdrives : s.counted.stepped.Drives (between next w).1.standing := by
        rw [hstanding]
        exact hd
      have hstillActive := (congrArg Standing.runActive hstanding).trans hactive
      obtain ⟨later, hlater, hp⟩ := ih hdrives hstillActive rfl hkept (between next w).2
      have hleft : (between next w).1.calls = c.calls ++ new := htyped.trans hcalls
      rw [hleft, List.append_assoc] at hlater
      rw [run, htick]
      exact ⟨new ++ later, hlater, hstep later hp⟩

end Executes

/-- The program of a counting guest is started, and the guest takes it through its steps. -/
theorem exists_counting (total : Nat) (status : Nat → Int32) :
    ∃ c d : Controller (Recorded Counting), Controller.create (Counting.machine total status).record = .ok c ∧
      c.start "" = (.ok .success, d) ∧
      ∀ {σ : Type} {between : Controller (Recorded Counting) → σ → Controller (Recorded Counting) × σ},
        OnlyTypes between → ∀ (s : Scheduler) w fuel new,
        (run between fuel (s.arm d) d w).2.2.1.calls = d.calls ++ new → Call.Performs total status 0 new := by
  let c : Controller (Recorded Counting) := { machine := (Counting.machine total status).record [⟨.setUp, .ok ()⟩] }
  refine ⟨c, (c.start "").2, rfl, rfl, fun htypes s w fuel new hnew => ?_⟩
  have hd : (s.arm (c.start "").2).Drives (c.start "").2.standing := ⟨rfl, rfl, rfl⟩
  obtain ⟨made, hmade, hp⟩ := performs_of_executes (Counting.executes total status s.budget) htypes hd rfl rfl rfl w fuel
  rwa [List.append_cancel_left (hnew.symm.trans hmade)]

/-! ## From the start of a program -/

/-- Whatever was done before: a program is started, a loop with any budget is armed for it and run, and nothing is done between two
ticks but typing. In this run the guest answers as one whose program is complete after `total` steps and whose `i`-th step has
status `status i` (as any guest does that takes its program through such steps, `performs_of_executes`). If all steps up to `total`
succeed, the run ends as finished, with the program stopped: `total` steps, one tick and one question more, and `total` calls of the
callback. Otherwise the first status `status j` other than success ends it, with the program faulted: `j` steps, ticks and
questions, and one call of the callback less. -/
theorem run_ends {m : Machine γ} {clear : Bool} {c d : Controller (Recorded γ)} {source : String}
    (h : Controller.create m.record clear = .ok c) (ops : List Operation)
    (hstart : (c.after ops).start source = (.ok .success, d)) (s : Scheduler) (htypes : OnlyTypes between) (w : σ)
    {total : Nat} {status : Nat → Int32}
    (hguest : ∀ fuel new, (run between fuel (s.arm d) d w).2.2.1.calls = d.calls ++ new → Call.Performs total status 0 new) :
    ((∀ i, 1 ≤ i → i ≤ total → status i = 0) → ∀ fuel, total < fuel →
      ∃ loop left w', run between fuel (s.arm d) d w = (some (.ok .finished), loop, left, w') ∧
        Ended d.calls .finished (total + 1) total .stopped loop left ∧ yields between fuel (s.arm d) d w = total) ∧
    (∀ j, 1 ≤ j → j ≤ total → (∀ i, 1 ≤ i → i < j → status i = 0) → status j ≠ 0 → ∀ fuel, j ≤ fuel →
      let exit := LoopExit.ofFault (.ofStatus (status j))
      ∃ loop left w', run between fuel (s.arm d) d w = (some (.ok exit), loop, left, w') ∧
        Ended d.calls exit j j .faulted loop left ∧ yields between fuel (s.arm d) d w = j - 1) := by
  let l := (s.arm d, d, w)
  obtain ⟨hb, hs⟩ := bound_of_start (Controller.sound_after h ops) hstart s
  have hunder : Underway between total status d.calls 0 l := ⟨hb, hs, rfl, rfl, rfl, rfl, hguest⟩
  constructor
  · intro hstatus fuel hfuel
    obtain ⟨hgoes, hdone⟩ := hunder.rounds (n := total) htypes (by omega) fun i hi hle => hstatus i hi (by omega)
    rw [Nat.zero_add] at hdone
    exact hgoes.run_ended (hdone.tick_of_complete htypes (Nat.le_refl total)) hfuel
  · intro j hj hle hstatus hne fuel hfuel exit
    obtain ⟨n, rfl⟩ := Nat.exists_eq_add_of_le' hj
    obtain ⟨hgoes, hlast⟩ := hunder.rounds (n := n) htypes (by omega) fun i hi hle' => hstatus i hi (by omega)
    rw [Nat.zero_add] at hlast
    exact hgoes.run_ended (hlast.tick_of_status htypes hle hne) hfuel

/-- A program of two steps is run until it is complete, and one whose second step panics until then. -/
theorem run_ends_counting :
    let typing : Controller (Recorded Counting) → Unit → Controller (Recorded Counting) × Unit :=
      fun c w => ((c.pushInput [120]).2, w)
    (∃ c d : Controller (Recorded Counting), Controller.create (Counting.machine 2 fun _ => 0).record = .ok c ∧
      c.start "" = (.ok .success, d) ∧ ∃ loop left w, run typing 3 (arm {} d) d () = (some (.ok .finished), loop, left, w) ∧
        Ended d.calls .finished 3 2 .stopped loop left ∧ yields typing 3 (arm {} d) d () = 2) ∧
    (∃ c d : Controller (Recorded Counting),
      Controller.create (Counting.machine 2 fun i => if i = 2 then 4 else 0).record = .ok c ∧
      c.start "" = (.ok .success, d) ∧
      ∃ loop left w, run typing 2 (arm {} d) d () = (some (.ok (.faulted .runtimeFault)), loop, left, w) ∧
        Ended d.calls (.faulted .runtimeFault) 2 2 .faulted loop left ∧ yields typing 2 (arm {} d) d () = 1) := by
  intro typing
  have htypes : OnlyTypes typing := fun _ _ => ⟨[[120]], rfl⟩
  constructor
  · obtain ⟨c, d, h, hstart, hguest⟩ := exists_counting 2 fun _ => 0
    obtain ⟨hcomplete, -⟩ := run_ends h [] hstart {} htypes () (hguest htypes {} ())
    exact ⟨c, d, h, hstart, hcomplete (fun _ _ _ => rfl) 3 (by decide)⟩
  · obtain ⟨c, d, h, hstart, hguest⟩ := exists_counting 2 fun i => if i = 2 then 4 else 0
    obtain ⟨-, hfails⟩ := run_ends h [] hstart {} htypes () (hguest htypes {} ())
    have hpanics := hfails 2 (by decide) (by decide) (fun i _ hi => if_neg (Nat.ne_of_lt hi)) (by decide) 2 (by decide)
    exact ⟨c, d, h, hstart, hpanics⟩

end Scheduler

end Playground
