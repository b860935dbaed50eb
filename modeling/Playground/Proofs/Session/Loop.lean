import Playground.Proofs.Controller.Reach
import Playground.Proofs.Controller.View
import Playground.Proofs.Guest.Fixed
import Playground.Session

/-!
# A session's loop and the scheduler's

A session keeps track of what it still listens to, and has its own way of ticking. It does what the scheduler's loop does with a
callback that takes the signals of each gap in: `Controller.heed` says what a signal does, given those that came before it, and
`Scheduler.between` is the callback. The session's own lines in the journal are all that it adds, so controllers are compared
without their journals (`Controller.unlogged`).
-/

namespace Playground

variable {γ σ : Type}

/-- After this signal nothing typed is read any more. -/
def Signal.endsInput : Signal → Bool
  | .endOfInput | .inputFailed _ => true
  | .cancel | .chunk _ => false

namespace Controller

variable [Guest γ]

/-- Takes a signal in, given those before it: what is typed is pushed unless the input is over, and the request to stop, which
comes once, stops the program. -/
def heed (before : List Signal) (c : Controller γ) : Signal → Controller γ
  | .chunk bytes => if before.any Signal.endsInput then c else (c.pushInput bytes).2
  | .cancel => if .cancel ∈ before then c else c.stop
  | .endOfInput | .inputFailed _ => c

/-- Takes signals in, in order. -/
def heedAll (before : List Signal) (c : Controller γ) : List Signal → Controller γ
  | [] => c
  | signal :: signals => (c.heed before signal).heedAll (before ++ [signal]) signals

end Controller

/-- What a scheduler's loop does between two ticks to follow a session: it takes in the signals that arrived, and keeps all that
did so far. -/
def Scheduler.between [Guest γ] (arrivals : Machine γ → σ → List Signal × σ) (c : Controller γ)
    (past : List Signal × σ) : Controller γ × List Signal × σ :=
  let (signals, w) := arrivals c.machine past.2
  (c.heedAll past.1 signals, past.1 ++ signals, w)

/-! ## One signal, one tick -/

/-- What a run listens to is what the signals so far have left. -/
structure Listening.Follows (l : Listening) (past : List Signal) : Prop where
  input : l.input = !past.any Signal.endsInput
  cancel : l.cancel = decide (.cancel ∉ past)

theorem Listening.follows_nil : Follows {} [] := ⟨rfl, by simp⟩

namespace Controller

variable [Guest γ] {c d : Controller γ}

omit [Guest γ] in
/-- Controllers that differ in nothing but their journals have one machine. -/
theorem machine_eq_of_unlogged (h : c.unlogged = d.unlogged) : c.machine = d.machine := by
  have hmachine : c.unlogged.machine = d.unlogged.machine := congrArg machine h
  exact hmachine

omit [Guest γ] in
/-- What is typed does the same to such controllers. -/
theorem pushInput_congr (h : c.unlogged = d.unlogged) (bytes : List UInt8) :
    (c.pushInput bytes).2.unlogged = (d.pushInput bytes).2.unlogged :=
  (congr_of_unlogged (f := (·.pushInput bytes)) (fun _ c => seen_pushInput c bytes) h).2

/-- So does a stop. -/
theorem stop_congr (h : c.unlogged = d.unlogged) : c.stop.unlogged = d.stop.unlogged :=
  (congr_of_unlogged (f := fun c => ((), c.stop)) (fun _ c => congrArg (Prod.mk ()) (seen_stop (fun _ _ => rfl) c)) h).2

end Controller

namespace Scheduler

/-- A tick does the same to controllers that differ in nothing but their journals. -/
theorem tick_congr [Guest γ] (s : Scheduler) {c d : Controller γ} (h : c.unlogged = d.unlogged) :
    (s.tick c).1 = (s.tick d).1 ∧ (s.tick c).2.1 = (s.tick d).2.1 ∧ (s.tick c).2.2.unlogged = (s.tick d).2.2.unlogged := by
  let answered (c : Controller γ) := (((s.tick c).1, (s.tick c).2.1), (s.tick c).2.2)
  have hseen : ∀ earlier c, answered (c.seen id earlier) = Controller.outcomeSeen id earlier (answered c) := by
    intro earlier c
    simp only [answered]
    rw [seen_tick (fun _ _ => rfl)]
    rfl
  obtain ⟨hanswer, hleft⟩ := Controller.congr_of_unlogged hseen h
  obtain ⟨hresult, hloop⟩ := Prod.mk.inj hanswer
  exact ⟨hresult, hloop, hleft⟩

/-- A loop keeps the exit that it ended with. -/
theorem lastExit_tick [Guest γ] (s : Scheduler) (c : Controller γ) {exit : LoopExit}
    (h : (s.tick c).1 = .ok (.exit exit)) : (s.tick c).2.1.lastExit = some exit := by
  have hleaves := s.tick_leaves c
  generalize s.tick c = ticked at hleaves h ⊢
  cases hleaves with
  | exited _ loop exit' =>
    have hexit : Tick.exit exit' = .exit exit := Except.ok.inj h
    cases hexit
    rfl
  | stayed _ loop hstays => exact absurd h (hstays exit)

end Scheduler

namespace Session

variable [Guest γ] {s : Session γ} {l : Listening} {past : List Signal} {c : Controller γ}

/-- A signal does to a session's controller what the callback lets it do. -/
theorem receive_heed (hl : l.Follows past) (hc : s.controller.unlogged = c.unlogged) (signal : Signal) :
    (s.receive l signal).1.controller.unlogged = (c.heed past signal).unlogged ∧
      (s.receive l signal).1.scheduler = s.scheduler ∧ (s.receive l signal).2.Follows (past ++ [signal]) := by
  obtain ⟨hinput, hcancel⟩ := hl
  cases signal with
  | cancel =>
    unfold receive Controller.heed
    by_cases hasked : .cancel ∈ past
    · simp only [hasked, not_true_eq_false, decide_false] at hcancel
      simp only [if_pos hasked, hcancel]
      exact ⟨hc, rfl, by simpa [Signal.endsInput] using hinput, by simp [hcancel]⟩
    · simp only [hasked, not_false_eq_true, decide_true] at hcancel
      have hnoted : (s.controller.note [.stopRequested]).unlogged = c.unlogged :=
        (s.controller.unlogged_note [.stopRequested]).trans hc
      simp only [if_neg hasked, hcancel]
      exact ⟨Controller.stop_congr hnoted, rfl, by simpa [Signal.endsInput] using hinput, by simp⟩
  | chunk bytes =>
    unfold receive Controller.heed
    cases hover : past.any Signal.endsInput with
    | true =>
      simp only [hover, hinput]
      exact ⟨hc, rfl, by simp [hover, hinput], by simpa using hcancel⟩
    | false =>
      simp only [hover, hinput]
      exact ⟨Controller.pushInput_congr hc bytes, rfl, by simp [hover, hinput, Signal.endsInput], by simpa using hcancel⟩
  | endOfInput => exact ⟨hc, rfl, by simp [receive, Signal.endsInput], by simpa [receive] using hcancel⟩
  | inputFailed reason =>
    unfold receive
    cases hopen : l.input with
    | true => exact ⟨hc, rfl, by simp [Signal.endsInput], by simpa using hcancel⟩
    | false => exact ⟨hc, rfl, by simpa [Signal.endsInput] using hopen, by simpa using hcancel⟩

/-- So do all signals of a gap. -/
theorem receiveAll_heedAll (hl : l.Follows past) (hc : s.controller.unlogged = c.unlogged) (signals : List Signal) :
    (s.receiveAll l signals).1.controller.unlogged = (c.heedAll past signals).unlogged ∧
      (s.receiveAll l signals).1.scheduler = s.scheduler ∧ (s.receiveAll l signals).2.Follows (past ++ signals) := by
  induction signals generalizing s l past c with
  | nil => exact ⟨hc, rfl, (List.append_nil past).symm ▸ hl⟩
  | cons signal signals ih =>
    obtain ⟨hc', hs', hl'⟩ := receive_heed hl hc signal
    obtain ⟨hc'', hs'', hl''⟩ := ih hl' hc'
    rw [List.append_assoc] at hl''
    exact ⟨hc'', hs''.trans hs', hl''⟩

/-- What a tick of the scheduler's loop means to a session. -/
def ending (loop : Scheduler) : Except HostError Tick → Option (Except HostError SessionExit)
  | .error e => some (.error e)
  | .ok .again => none
  | .ok .idle => some (.ok (.ofLoop (loop.lastExit.getD .cancelled)))
  | .ok (.exit exit) => some (.ok (.ofLoop exit))

/-- A session's tick is the scheduler's, and its end is the exit of that tick, although it is read off the loop. -/
theorem tick_ending (hc : s.controller.unlogged = c.unlogged) {result : Except HostError Tick} {loop : Scheduler}
    {c' : Controller γ} (h : s.scheduler.tick c = (result, loop, c')) :
    s.tick.1 = ending loop result ∧ s.tick.2.scheduler = loop ∧ s.tick.2.controller.unlogged = c'.unlogged := by
  obtain ⟨hresult, hloop, hleft⟩ := s.scheduler.tick_congr hc
  have hlast : ∀ exit, (s.scheduler.tick c).1 = .ok (.exit exit) → (s.scheduler.tick c).2.1.lastExit = some exit :=
    fun _ => s.scheduler.lastExit_tick c
  rw [h] at hresult hloop hleft hlast
  unfold tick
  generalize s.scheduler.tick s.controller = ticked at hresult hloop hleft ⊢
  obtain ⟨result', loop', left⟩ := ticked
  cases hresult
  cases hloop
  rcases result with e | _ | _ | exit
  · exact ⟨rfl, rfl, hleft⟩
  · exact ⟨rfl, rfl, hleft⟩
  · exact ⟨rfl, rfl, hleft⟩
  · have hexit : loop.lastExit = some exit := hlast exit rfl
    -- The session looks the exit up in the loop, where the tick has left it.
    dsimp only
    rw [hexit]
    exact ⟨rfl, rfl, hleft⟩

/-! ## The loop -/

/-- A session's run and a run of the scheduler's loop agree: they end alike or both run out of fuel, and where they end they leave
the same loop, the same controller but for the session's lines in the journal, and the same source of signals. -/
structure Agrees (out : Option (Except HostError SessionExit) × Session γ × σ)
    (r : Option (Except HostError LoopExit) × Scheduler × Controller γ × List Signal × σ) : Prop where
  result : out.1 = r.1.map (Except.map SessionExit.ofLoop)
  left : out.1 ≠ none →
    out.2.1.scheduler = r.2.1 ∧ out.2.1.controller.unlogged = r.2.2.1.unlogged ∧ out.2.2 = r.2.2.2.2

/-- A session's loop does what the scheduler's does with the callback that takes its signals in. -/
theorem loop_agrees (arrivals : Machine γ → σ → List Signal × σ) (fuel : Nat) (w : σ) (hl : l.Follows past)
    (hc : s.controller.unlogged = c.unlogged) :
    let heeded := Scheduler.between arrivals c (past, w)
    Agrees (s.loop arrivals fuel l w) (s.scheduler.run (Scheduler.between arrivals) fuel heeded.1 heeded.2) := by
  -- The two runs stay in step a gap apart: the session takes signals in before a tick, the scheduler's loop after one.
  induction fuel generalizing s l past c w with
  | zero => exact ⟨rfl, fun h => absurd rfl h⟩
  | succ fuel ih =>
    intro heeded
    rcases harrivals : arrivals c.machine w with ⟨signals, w'⟩
    have hheeded : heeded = (c.heedAll past signals, past ++ signals, w') := by
      simp only [heeded, Scheduler.between, harrivals]
    obtain ⟨hd, hs, hl'⟩ := receiveAll_heedAll hl hc signals
    unfold loop Scheduler.run
    rw [Controller.machine_eq_of_unlogged hc, harrivals, hheeded, ← hs]
    dsimp only
    generalize s.receiveAll l signals = received at hd hl' ⊢
    obtain ⟨s', l'⟩ := received
    dsimp only at hd hl' ⊢
    rcases hticked : s'.scheduler.tick (c.heedAll past signals) with ⟨result, loop', d⟩
    obtain ⟨hending, hloop, hleft⟩ := tick_ending hd hticked
    rcases htick : s'.tick with ⟨ended, s''⟩
    rw [htick] at hending hloop hleft
    obtain rfl : loop' = s''.scheduler := hloop.symm
    rcases result with e | _ | _ | exit
    · cases hending
      exact ⟨rfl, fun _ => ⟨rfl, hleft, rfl⟩⟩
    · cases hending
      exact ih w' hl' hleft
    · cases hending
      exact ⟨rfl, fun _ => ⟨rfl, hleft, rfl⟩⟩
    · cases hending
      exact ⟨rfl, fun _ => ⟨rfl, hleft, rfl⟩⟩

omit [Guest γ] in
/-- A greeting leaves the loop alone. -/
theorem scheduler_greet (s : Session γ) : s.greet.2.scheduler = s.scheduler := by
  unfold greet
  split
  · dsimp only
    rcases s.controller.machine.bridge.announce Playground.greeting with ⟨_ | _, bridge⟩ <;> rfl
  · rfl

/-- Whatever the guest does, and whatever arrives and when: once a program is started, a session's run is a run of the scheduler's
loop, armed for that program, that takes in the signals of the first gap before it begins and those of every later gap in its
callback. -/
theorem run_agrees (arrivals : Machine γ → σ → List Signal × σ) (fuel : Nat) (s : Session γ) (source : String) (w : σ)
    {g : Session γ} {c : Controller γ} (hgreet : s.greet = (.ok (), g))
    (hstart : g.controller.start source = (.ok .success, c)) :
    let heeded := Scheduler.between arrivals c ([], w)
    Agrees (s.run arrivals fuel source w)
      ((s.scheduler.arm c).run (Scheduler.between arrivals) fuel heeded.1 heeded.2) := by
  have hscheduler : g.scheduler = s.scheduler := by
    rw [← scheduler_greet s, hgreet]
  have hbegin : s.begin source = (none, { g with controller := c, scheduler := s.scheduler.arm c }) := by
    unfold begin
    rw [hgreet]
    dsimp only
    rw [hstart, hscheduler]
  unfold run
  rw [hbegin]
  exact loop_agrees arrivals fuel w Listening.follows_nil rfl

/-- A byte is typed before the first tick and the program is stopped before the second. -/
theorem run_agrees_willing :
    let arrivals : Machine Fixed → Bool → List Signal × Bool :=
      fun _ stopping => (if stopping then [.cancel] else [.chunk [7]], true)
    ∃ s g : Session Fixed, ∃ c : Controller Fixed, s.greet = (.ok (), g) ∧ g.controller.start "" = (.ok .success, c) ∧
      let heeded := Scheduler.between arrivals c ([], false)
      Agrees (s.run arrivals 3 "" false)
          ((s.scheduler.arm c).run (Scheduler.between arrivals) 3 heeded.1 heeded.2) ∧
        (s.run arrivals 3 "" false).1 = some (.ok .cancelled) ∧ heeded.1.machine.bridge.input.toList = [7] := by
  intro arrivals
  let s : Session Fixed := { controller := { machine := Fixed.willing.machine }, greeting := false }
  have hgreet : s.greet = (.ok (), { s with greeted := true }) := rfl
  refine ⟨s, _, _, hgreet, rfl, run_agrees arrivals 3 s "" false hgreet rfl, rfl, rfl⟩

end Session

end Playground
