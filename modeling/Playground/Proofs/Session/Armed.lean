import Playground.Proofs.Scheduler.Termination
import Playground.Proofs.Session.Cancellation
import Playground.Proofs.Session.Loop

/-!
# A loop is armed while it goes on

A tick leaves its loop armed exactly if it wants another one, and the program is then running. Every other tick ends the loop, and until
the loop is armed again its ticks find nothing to do. So neither a run of a loop that is armed nor a session's run ever ticks without a
loop: all ticks of a run but the last want another one, and the last one fails or brings the exit that the run returns
(`Concludes`).
-/

namespace Playground

variable {γ σ ε : Type}

/-- The ways in which a tick brings its loop to an end: it fails, or it brings an exit, which the loop keeps. -/
inductive Concludes (say : LoopExit → ε) :
    Except HostError Tick × Scheduler × Controller γ → Except HostError ε → Prop where
  | failed (e : HostError) (loop : Scheduler) (left : Controller γ) : Concludes say (.error e, loop, left) (.error e)
  | exited {exit : LoopExit} {loop : Scheduler} (left : Controller γ) (h : loop.lastExit = some exit) :
    Concludes say (.ok (.exit exit), loop, left) (.ok (say exit))

/-! ## One tick -/

namespace Ticked

variable {p q : Standing} {new : List Call} {s s' : Scheduler} {result : Except HostError Tick}

/-- The loop is armed exactly if another tick is wanted. -/
theorem armed_iff (h : Ticked s p result s' new q) : s'.armed = true ↔ result = .ok .again := by
  cases h with
  | unarmed h => exact iff_of_false (by simp [h]) nofun
  | again h _ _ _ _ => exact iff_of_true h rfl
  | replaced _ _ | faulted _ _ _ | stopped _ _ _ _ | notAsked _ _ _ _ | finished _ _ _ _ | notStepped _ _ _ _ _
  | failed _ _ _ _ _ _ => exact iff_of_false nofun nofun

/-- An armed loop has something to tick. -/
theorem ne_idle (h : Ticked s p result s' new q) (harmed : s.armed = true) : result ≠ .ok .idle := by
  cases h with
  | unarmed hnot => exact nomatch harmed.symm.trans hnot
  | _ => nofun

/-- A program whose loop goes on is running, and it is the one that the loop was armed for. -/
theorem of_again (h : Ticked s p (.ok .again) s' new q) : q.state = .running ∧ q.generation = s'.generation := by
  cases h with
  | again _ hg hs hc hw =>
    obtain rfl := hc.eq_of_incomplete
    generalize hanswer : Except.ok Outcome.success = answer at hw
    cases hw with
    | worked _ => exact ⟨hs, hg⟩
    | ended _ hstatus => exact absurd (Outcome.ofStatus_eq_success_iff.mp (Except.ok.inj hanswer).symm) hstatus
    | _ => cases hanswer

end Ticked

namespace Scheduler

variable [Guest γ]

/-- A tick goes in one of its ways. -/
theorem exists_ticked (s : Scheduler) (c : Controller γ) :
    ∃ new, Ticked s c.standing (s.tick c).1 (s.tick c).2.1 new (s.tick c).2.2.standing := by
  let r : Controller (Recorded γ) := { c with machine := c.machine.record }
  have hr : r.seen Recorded.inner [] = c := rfl
  obtain ⟨new, -, hticked⟩ := s.tick_goes r
  rw [← hr, seen_tick Recorded.seenThrough]
  exact ⟨new, hticked⟩

/-- An armed loop goes on, or its tick brings it to an end. -/
theorem tick_of_armed {s : Scheduler} (h : s.armed = true) (say : LoopExit → ε) (c : Controller γ) :
    (s.tick c).1 = .ok .again ∧ (s.tick c).2.1.armed = true ∨ ∃ outcome, Concludes say (s.tick c) outcome := by
  obtain ⟨new, hticked⟩ := s.exists_ticked c
  have harmed := hticked.armed_iff
  have hidle := hticked.ne_idle h
  have hlast : ∀ exit, (s.tick c).1 = .ok (.exit exit) → (s.tick c).2.1.lastExit = some exit := fun _ => s.lastExit_tick c
  generalize s.tick c = ticked at harmed hidle hlast ⊢
  obtain ⟨result, loop, left⟩ := ticked
  rcases result with e | _ | _ | exit
  · exact .inr ⟨_, .failed e loop left⟩
  · exact .inl ⟨rfl, harmed.mpr rfl⟩
  · exact absurd rfl hidle
  · exact .inr ⟨_, .exited left (hlast exit rfl)⟩

/-- A loop that is over, and whatever is done with its controller, stays as it is. -/
theorem turns_of_unarmed {s : Scheduler} (h : s.armed = false) (c : Controller γ) (ts : List Turn) :
    (turns (s, c) ts).1 = s := by
  induction ts using List.reverseRecOn with
  | nil => rfl
  | append_singleton ts t ih =>
    rw [turns_concat]
    cases t with
    | act op => exact ih
    | tick =>
      have hidle : (turns (s, c) ts).1.armed = false := by rw [ih, h]
      exact (congrArg (·.2.1) (tick_of_unarmed (turns (s, c) ts).2 hidle)).trans ih

/-! ## A run -/

section Run

variable {between : Controller γ → σ → Controller γ × σ} {n : Nat} {l : Scheduler × Controller γ × σ}

/-- As long as its ticks want another one, an armed loop stays armed. -/
theorem GoesOn.armed (h : GoesOn between n l) (harmed : l.1.armed = true) : ((round between)^[n] l).1.armed = true := by
  cases n with
  | zero => exact harmed
  | succ n =>
    obtain ⟨new, hticked⟩ := exists_ticked ((round between)^[n] l).1 ((round between)^[n] l).2.1
    rw [Function.iterate_succ_apply']
    exact hticked.armed_iff.mpr (h n (Nat.lt_succ_self n))

/-- A tick that brings its loop to an end is the last one of a run, and the run returns what the tick came to. -/
theorem run_of_concludes {outcome : Except HostError LoopExit} (h : Concludes id (l.1.tick l.2.1) outcome) (fuel : Nat) :
    run between (fuel + 1) l.1 l.2.1 l.2.2 =
      (some outcome, (l.1.tick l.2.1).2.1, (l.1.tick l.2.1).2.2, l.2.2) := by
  rw [run]
  generalize l.1.tick l.2.1 = ticked at h ⊢
  cases h with
  | failed e loop left => rfl
  | exited left _ => rfl

/-- All ticks of a run want another one, or all but the last do and the last one brings the loop to an end. -/
theorem run_concludes (harmed : l.1.armed = true) (fuel : Nat) :
    (GoesOn between fuel l ∧ run between fuel l.1 l.2.1 l.2.2 = (none, (round between)^[fuel] l)) ∨
      ∃ n < fuel, GoesOn between n l ∧ ∃ outcome,
        let here := (round between)^[n] l
        let last := here.1.tick here.2.1
        Concludes id last outcome ∧ run between fuel l.1 l.2.1 l.2.2 = (some outcome, last.2.1, last.2.2, here.2.2) := by
  by_cases hall : GoesOn between fuel l
  · exact .inl ⟨hall, hall.run_eq 0⟩
  · -- The first tick that wants no other one comes after a row of those that do.
    unfold GoesOn at hall
    push Not at hall
    classical
    obtain ⟨hlt, hends⟩ := Nat.find_spec hall
    have hgoes : GoesOn between (Nat.find hall) l := by
      intro i hi
      by_contra hnot
      exact Nat.find_min hall hi ⟨hi.trans hlt, hnot⟩
    generalize Nat.find hall = n at hlt hends hgoes
    obtain ⟨hagain, -⟩ | ⟨outcome, hconcludes⟩ := tick_of_armed (hgoes.armed harmed) id ((round between)^[n] l).2.1
    · exact absurd hagain hends
    · refine .inr ⟨n, hlt, hgoes, outcome, hconcludes, ?_⟩
      obtain ⟨more, rfl⟩ : ∃ more, fuel = n + (more + 1) := ⟨fuel - n - 1, by omega⟩
      rw [hgoes.run_eq (more + 1), run_of_concludes hconcludes more]

end Run

end Scheduler

/-! ## A session's run -/

namespace Session

variable [Guest γ] {s s' : Session γ} {l : Listening} {arrivals : Machine γ → σ → List Signal × σ}

/-- A signal leaves the loop alone. -/
theorem scheduler_receive (s : Session γ) (l : Listening) (signal : Signal) : (s.receive l signal).1.scheduler = s.scheduler := by
  cases signal with
  | endOfInput => rfl
  | cancel | chunk | inputFailed =>
    unfold receive
    dsimp only
    split <;> rfl

/-- So do signals in a row. -/
theorem scheduler_receiveAll (s : Session γ) (l : Listening) (signals : List Signal) :
    (s.receiveAll l signals).1.scheduler = s.scheduler := by
  induction signals generalizing s l with
  | nil => rfl
  | cons signal signals ih => exact (ih _ _).trans (s.scheduler_receive l signal)

/-- A session's loop is armed once its program is started. -/
theorem armed_of_begin {source : String} (h : s.begin source = (none, s')) : s'.scheduler.armed = true := by
  unfold begin at h
  generalize s.greet = greeted at h
  obtain ⟨_ | _, g⟩ := greeted
  · cases h
  dsimp only at h
  generalize g.controller.start source = started at h
  obtain ⟨_ | outcome, c⟩ := started
  · cases h
  cases outcome with
  | success =>
    cases h
    rfl
  | _ => cases h

/-- The session at the tick that closes a gap: what arrived in the gap was taken in. -/
def closing (arrivals : Machine γ → σ → List Signal × σ) (s : Session γ) (l : Listening) (w : σ) : Session γ :=
  (s.receiveAll l (arrivals s.controller.machine w).1).1

/-- What arrives in a gap leaves the loop alone. -/
theorem scheduler_closing (s : Session γ) (l : Listening) (w : σ) : (closing arrivals s l w).scheduler = s.scheduler :=
  s.scheduler_receiveAll l _

/-- The session once its loop was ticked. -/
def ticked (s : Session γ) : Session γ :=
  { s with scheduler := (s.scheduler.tick s.controller).2.1, controller := (s.scheduler.tick s.controller).2.2 }

/-- A session's run goes on if its loop does. -/
theorem tick_of_again (h : (s.scheduler.tick s.controller).1 = .ok .again) : s.tick = (none, s.ticked) := by
  unfold tick ticked
  generalize s.scheduler.tick s.controller = made at h ⊢
  obtain ⟨result, loop, left⟩ := made
  cases h
  rfl

/-- A session's run ends with its loop, and returns the exit that the loop has kept. -/
theorem tick_of_concludes {outcome : Except HostError SessionExit}
    (h : Concludes SessionExit.ofLoop (s.scheduler.tick s.controller) outcome) : s.tick = (some outcome, s.ticked) := by
  unfold tick ticked
  generalize s.scheduler.tick s.controller = made at h ⊢
  cases h with
  | failed e loop left => rfl
  | exited left hlast =>
    dsimp only
    rw [hlast]
    rfl

section Gaps

variable {w : σ} {next : Session γ}

/-- A run whose tick wants another one comes to the next gap. -/
theorem gap_of_again (h : (closing arrivals s l w).tick = (none, next)) (n : Nat) :
    gap arrivals (n + 1) s l w =
      gap arrivals n next (s.receiveAll l (arrivals s.controller.machine w).1).2 (arrivals s.controller.machine w).2 := by
  unfold closing at h
  rw [gap]
  dsimp only
  rw [h]

/-- So does the loop of such a run. -/
theorem loop_of_again (h : (closing arrivals s l w).tick = (none, next)) (fuel : Nat) :
    s.loop arrivals (fuel + 1) l w =
      next.loop arrivals fuel (s.receiveAll l (arrivals s.controller.machine w).1).2 (arrivals s.controller.machine w).2 := by
  unfold closing at h
  rw [loop]
  dsimp only
  rw [h]

/-- The tick that is the end of a run is its last one. -/
theorem loop_of_end {result : Except HostError SessionExit} (h : (closing arrivals s l w).tick = (some result, next))
    (fuel : Nat) : s.loop arrivals (fuel + 1) l w = (some result, next, (arrivals s.controller.machine w).2) := by
  unfold closing at h
  rw [loop]
  dsimp only
  rw [h]

end Gaps

/-- All ticks of a session's loop want another one, or all but the last do and the last one brings the loop to an end. -/
theorem loop_concludes (harmed : s.scheduler.armed = true) (fuel : Nat) (l : Listening) (w : σ) :
    (∃ s' l' w', gap arrivals fuel s l w = some (s', l', w') ∧ s.loop arrivals fuel l w = (none, s', w')) ∨
      ∃ n < fuel, ∃ s' l' w', gap arrivals n s l w = some (s', l', w') ∧ ∃ outcome,
        let last := closing arrivals s' l' w'
        Concludes SessionExit.ofLoop (last.scheduler.tick last.controller) outcome ∧
          s.loop arrivals fuel l w = (some outcome, last.ticked, (arrivals s'.controller.machine w').2) := by
  induction fuel generalizing s l w with
  | zero => exact .inl ⟨s, l, w, rfl, rfl⟩
  | succ fuel ih =>
    have hhere : (closing arrivals s l w).scheduler.armed = true := by rw [scheduler_closing, harmed]
    obtain ⟨hagain, hstays⟩ | ⟨outcome, hconcludes⟩ :=
      Scheduler.tick_of_armed hhere SessionExit.ofLoop (closing arrivals s l w).controller
    · have htick := tick_of_again hagain
      have hnext : (closing arrivals s l w).ticked.scheduler.armed = true := hstays
      rw [loop_of_again htick]
      obtain ⟨s', l', w', hgap, hloop⟩ | ⟨n, hlt, s', l', w', hgap, hlast⟩ := ih hnext _ _
      · exact .inl ⟨s', l', w', (gap_of_again htick fuel).trans hgap, hloop⟩
      · exact .inr ⟨n + 1, Nat.succ_lt_succ hlt, s', l', w', (gap_of_again htick n).trans hgap, hlast⟩
    · exact .inr ⟨0, Nat.succ_pos fuel, s, l, w, rfl, outcome, hconcludes, loop_of_end (tick_of_concludes hconcludes) fuel⟩

end Session

/-! ## Every tick, every run -/

namespace Scheduler

variable [Guest γ]

/-- Whatever the guest does and whatever was done before: a tick leaves its loop armed exactly if it wants another one, and then the
program is running that the loop was armed for. After any other tick, whatever is done with the controller, the loop stays as it is,
and its ticks find nothing to do and change nothing, as long as it is not armed again; the exit that a tick brings is kept. So the ticks
of a run that begins with an armed loop all want another one, up to the last, which fails or brings the exit that the run returns, and
the run leaves what that tick leaves, whatever the callback does to the controller. It is the same with a session's run once its
program is started, whatever arrives and when: the exit that it reads off the loop is there, and it is that of its last tick. -/
theorem armed_while_continuing (s : Scheduler) (c : Controller γ) (between : Controller γ → σ → Controller γ × σ)
    (session : Session γ) (source : String) (arrivals : Machine γ → σ → List Signal × σ) (fuel : Nat) (w : σ) :
    let result := (s.tick c).1
    let loop := (s.tick c).2.1
    let left := (s.tick c).2.2
    (loop.armed = true ↔ result = .ok .again) ∧
      (result = .ok .again → left.state = .running ∧ left.generation = loop.generation ∧ loop.generation = s.generation) ∧
      (result ≠ .ok .again → ∀ ts : List Turn,
        let later := Scheduler.turns (loop, left) ts
        later.1 = loop ∧ later.1.tick later.2 = (.ok .idle, later)) ∧
      (∀ exit, result = .ok (.exit exit) → loop.lastExit = some exit) ∧
      (s.armed = true →
        (GoesOn between fuel (s, c, w) ∧ s.run between fuel c w = (none, (round between)^[fuel] (s, c, w))) ∨
          ∃ n < fuel, GoesOn between n (s, c, w) ∧ ∃ outcome,
            let here := (round between)^[n] (s, c, w)
            let last := here.1.tick here.2.1
            Concludes id last outcome ∧ s.run between fuel c w = (some outcome, last.2.1, last.2.2, here.2.2)) ∧
      ∀ begun, session.begin source = (none, begun) →
        (∃ s' l' w', Session.gap arrivals fuel begun {} w = some (s', l', w') ∧
          session.run arrivals fuel source w = (none, s', w')) ∨
          ∃ n < fuel, ∃ s' l' w', Session.gap arrivals n begun {} w = some (s', l', w') ∧ ∃ outcome,
            let last := Session.closing arrivals s' l' w'
            Concludes SessionExit.ofLoop (last.scheduler.tick last.controller) outcome ∧
              session.run arrivals fuel source w = (some outcome, last.ticked, (arrivals s'.controller.machine w').2) := by
  intro result loop left
  obtain ⟨new, hticked⟩ := s.exists_ticked c
  refine ⟨hticked.armed_iff, fun hagain => ?_, fun hends ts => ?_, fun exit => s.lastExit_tick c,
    fun harmed => run_concludes (l := (s, c, w)) harmed fuel, fun begun hbegin => ?_⟩
  · obtain ⟨hrunning, hgeneration⟩ := (hagain ▸ hticked : Ticked s c.standing (.ok .again) loop new left.standing).of_again
    exact ⟨hrunning, hgeneration, hticked.generation_eq⟩
  · have hover : loop.armed = false := Bool.eq_false_iff.mpr fun harmed => hends (hticked.armed_iff.mp harmed)
    have hstays := turns_of_unarmed hover left ts
    exact ⟨hstays, tick_of_unarmed _ (by rw [hstays, hover])⟩
  · have hrun : session.run arrivals fuel source w = begun.loop arrivals fuel {} w := by rw [Session.run, hbegin]
    rw [hrun]
    exact Session.loop_concludes (Session.armed_of_begin hbegin) fuel {} w

/-- A program is stopped after its first tick, by the callback of its loop or by a session's user; the tick that finds it stopped is
the last one, and the loop stays over when the next program is started. -/
theorem armed_while_continuing_willing :
    let stopping : Controller Fixed → Bool → Controller Fixed × Bool := fun c _ => (c.stop, true)
    let arrivals : Machine Fixed → Bool → List Signal × Bool := fun _ stops => (if stops then [.cancel] else [], true)
    ∃ (c : Controller Fixed) (session begun : Session Fixed),
      ((arm {} c).tick c).2.2.state = .running ∧ ((arm {} c).tick c).2.2.generation = 1 ∧
        (turns ((arm {} c.stop).tick c.stop).2 [.tick, .act (.start "")]).1.lastExit = some .cancelled ∧
        (∃ n < 3, GoesOn stopping n (arm {} c, c, false) ∧ ∃ here, here = (round stopping)^[n] (arm {} c, c, false) ∧
          Concludes id (here.1.tick here.2.1) (.ok .cancelled)) ∧
        session.begin "" = (none, begun) ∧
        ∃ n < 3, ∃ s' l' w', Session.gap arrivals n begun {} false = some (s', l', w') ∧
          Concludes SessionExit.ofLoop
            ((Session.closing arrivals s' l' w').scheduler.tick (Session.closing arrivals s' l' w').controller)
            (.ok .cancelled) := by
  intro stopping arrivals
  obtain ⟨c, hc⟩ : ∃ c : Controller Fixed, c = (Controller.start { machine := Fixed.willing.machine } "").2 := ⟨_, rfl⟩
  obtain ⟨session, hsession⟩ : ∃ session : Session Fixed,
      session = { controller := { machine := Fixed.willing.machine }, greeting := false } := ⟨_, rfl⟩
  obtain ⟨begun, hbegin⟩ : ∃ begun, session.begin "" = (none, begun) := ⟨_, by rw [hsession]; rfl⟩
  have hrunEnds : (run stopping 3 (arm {} c) c false).1 = some (.ok .cancelled) := by
    rw [hc]
    rfl
  have hsessionEnds : (session.run arrivals 3 "" false).1 = some (.ok .cancelled) := by
    rw [hsession]
    rfl
  obtain ⟨-, hgoes, -, -, hrun, hsessions⟩ := armed_while_continuing (arm {} c) c stopping session "" arrivals 3 false
  obtain ⟨-, -, hover, hkept, -, -⟩ := armed_while_continuing (arm {} c.stop) c.stop stopping session "" arrivals 3 false
  obtain ⟨hrunning, hgeneration, -⟩ := hgoes (by rw [hc]; rfl)
  refine ⟨c, session, begun, hrunning, by rw [hgeneration, hc]; rfl, ?_, ?_, hbegin, ?_⟩
  · have hexit := hkept .cancelled (by rw [hc]; rfl)
    rw [(hover (by rw [hc]; exact nofun) [.tick, .act (.start "")]).1, hexit]
  · obtain ⟨-, hnone⟩ | ⟨n, hlt, hgoesOn, outcome, hconcludes, hreturned⟩ := hrun rfl
    · exact nomatch hrunEnds.symm.trans (congrArg Prod.fst hnone)
    · cases hrunEnds.symm.trans (congrArg Prod.fst hreturned)
      exact ⟨n, hlt, hgoesOn, _, rfl, hconcludes⟩
  · obtain ⟨s', l', w', -, hnone⟩ | ⟨n, hlt, s', l', w', hgap, outcome, hconcludes, hreturned⟩ := hsessions begun hbegin
    · exact nomatch hsessionEnds.symm.trans (congrArg Prod.fst hnone)
    · cases hsessionEnds.symm.trans (congrArg Prod.fst hreturned)
      exact ⟨n, hlt, s', l', w', hgap, hconcludes⟩

end Scheduler

end Playground
