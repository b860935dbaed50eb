import Playground.Proofs.Controller.Frame
import Playground.Proofs.Controller.Reach
import Playground.Proofs.Guest.Fixed
import Playground.Proofs.Guest.Watch
import Playground.Session

/-!
# The greeting

What happens to the console in the life of a session is a list of `Happening`: the guest is called, the host clears the console, or it
tries to greet. The calls are the guest's own notes, and the console's output side goes from each happening to the next without a gap
(`Machine.Undergoes`), so nothing that the host does to it is left out. As long as a session has not greeted, sources are checked and
greetings fail; the first greeting that succeeds comes before any program is started; none is tried after it, whatever becomes of the
runs (`greets_once_and_first`).
-/

namespace Playground

/-- A call that a guest received, with the console's output side before and after it. -/
structure Glance where
  call : Call
  before : Sink
  after : Sink

/-- Of a call, it is noted where it finds and leaves the console's output side. -/
instance Glance.watch {γ : Type} [Guest γ] : Watch γ Glance :=
  ⟨fun e before result after => [⟨⟨e, result⟩, before.bridge.sink, after.bridge.sink⟩]⟩

/-- The call is one of those that a check of a source makes. -/
def Export.OfCheck : Export → Prop
  | allocate _ | validate _ _ | release _ _ => True
  | setUp | initRun _ _ | deinitRun | isFinished | step _ => False

/-- Something that happens to the console's output side. -/
inductive Happening where
  | call (g : Glance)
  /-- The host asks for the console to be cleared. -/
  | clearing
  /-- The host tries to greet. -/
  | greeting (result : Except ConsoleError Unit)

namespace Happening

/-- What is seen of the call in it. -/
def glance? : Happening → Option Glance
  | .call g => some g
  | .clearing | .greeting _ => none

/-- The host tries to greet. -/
def IsGreeting : Happening → Prop
  | .greeting _ => True
  | .call _ | .clearing => False

/-- The guest is called as in a check of a source. -/
def OfCheck : Happening → Prop
  | .call g => g.call.function.OfCheck
  | .clearing | .greeting _ => False

/-- A check of a source does not greet. -/
theorem OfCheck.not_isGreeting {e : Happening} (h : e.OfCheck) : ¬e.IsGreeting := by
  cases e with
  | call => exact id
  | clearing | greeting => cases h

/-- What may happen while the user has not been greeted: a source is checked, or a greeting fails. -/
def Waits (e : Happening) : Prop := e.OfCheck ∨ ∃ error, e = .greeting (.error error)

/-- What becomes of a sink by it. A call may do anything to one. -/
inductive Turns : Happening → Sink → Sink → Prop where
  | call (g : Glance) : Turns (.call g) g.before g.after
  | clearing (s : Sink) : Turns .clearing s s.clear.2
  | greeting (s : Sink) : Turns (.greeting (s.emit (Text.encode Playground.greeting)).1) s (s.emit (Text.encode Playground.greeting)).2

end Happening

/-- One sink comes from another by what happens, one after the other. -/
inductive Sink.Undergoes : Sink → List Happening → Sink → Prop where
  | nil (s : Sink) : Undergoes s [] s
  | cons {s s' s'' : Sink} {e : Happening} {events : List Happening} (h : e.Turns s s') (rest : Undergoes s' events s'') :
    Undergoes s (e :: events) s''

theorem Sink.Undergoes.append {s s' s'' : Sink} {events events' : List Happening} (h : s.Undergoes events s')
    (h' : s'.Undergoes events' s'') : s.Undergoes (events ++ events') s'' := by
  induction h with
  | nil => exact h'
  | cons hturns _ ih => exact .cons hturns (ih h')

/-! ## What a machine undergoes -/

namespace Machine

variable {γ : Type} {m m' m'' : Machine (Watched γ Glance)} {events events' : List Happening} {P Q : Happening → Prop}

/-- One machine comes from another by what happens: the calls in it are the guest's, and its console goes along without a gap. -/
structure Undergoes (m : Machine (Watched γ Glance)) (events : List Happening) (m' : Machine (Watched γ Glance)) : Prop where
  notes : m'.notes = m.notes ++ events.filterMap Happening.glance?
  sink : m.bridge.sink.Undergoes events m'.bridge.sink

theorem Undergoes.of_same (hnotes : m'.notes = m.notes) (hsink : m'.bridge.sink = m.bridge.sink) : m.Undergoes [] m' :=
  ⟨by simpa using hnotes, hsink ▸ .nil _⟩

theorem Undergoes.trans (h : m.Undergoes events m') (h' : m'.Undergoes events' m'') : m.Undergoes (events ++ events') m'' where
  notes := by rw [h'.notes, h.notes, List.filterMap_append, List.append_assoc]
  sink := h.sink.append h'.sink

/-- A call of the guest happens, with what is seen of it. -/
theorem undergoes_call [Guest γ] (e : Export) (m : Machine (Watched γ Glance)) :
    m.Undergoes [.call ⟨⟨e, (Guest.call e m).1⟩, m.bridge.sink, (Guest.call e m).2.bridge.sink⟩] (Guest.call e m).2 :=
  ⟨notes_call e m, .cons (.call ⟨_, m.bridge.sink, (Guest.call e m).2.bridge.sink⟩) (.nil _)⟩

/-- Clearing the console happens, whether or not it succeeds. -/
theorem undergoes_clearConsole (m : Machine (Watched γ Glance)) :
    m.Undergoes [.clearing] { m with bridge := m.bridge.clearConsole.2 } :=
  ⟨(List.append_nil _).symm, .cons (.clearing m.bridge.sink) (.nil _)⟩

/-- An attempt to greet happens, with what comes of it. -/
theorem undergoes_announce (m : Machine (Watched γ Glance)) :
    m.Undergoes [.greeting (m.bridge.announce greeting).1] { m with bridge := (m.bridge.announce greeting).2 } :=
  ⟨(List.append_nil _).symm, .cons (.greeting m.bridge.sink) (.nil _)⟩

/-- One machine comes from another by happenings of one kind. -/
def UndergoesOnly (P : Happening → Prop) (m m' : Machine (Watched γ Glance)) : Prop :=
  ∃ events, m.Undergoes events m' ∧ ∀ e ∈ events, P e

namespace UndergoesOnly

theorem of_same (hnotes : m'.notes = m.notes) (hsink : m'.bridge.sink = m.bridge.sink) : m.UndergoesOnly P m' :=
  ⟨[], .of_same hnotes hsink, by simp⟩

theorem single {e : Happening} (h : m.Undergoes [e] m') (he : P e) : m.UndergoesOnly P m' := ⟨[e], h, by simpa using he⟩

theorem trans (h : m.UndergoesOnly P m') (h' : m'.UndergoesOnly P m'') : m.UndergoesOnly P m'' := by
  obtain ⟨events, hundergoes, hevents⟩ := h
  obtain ⟨events', hundergoes', hevents'⟩ := h'
  exact ⟨events ++ events', hundergoes.trans hundergoes', List.forall_mem_append.mpr ⟨hevents, hevents'⟩⟩

end UndergoesOnly

variable [Guest γ]

/-- No controller's move is a greeting. -/
theorem Reaches.undergoesOnly (h : m.Reaches m') : m.UndergoesOnly (¬Happening.IsGreeting ·) m' := by
  refine h.rel (fun _ => .of_same rfl rfl) UndergoesOnly.trans fun {m m'} hmove => ?_
  cases hmove with
  | call e => exact .single (undergoes_call e m) nofun
  | memory memory => exact .of_same rfl rfl
  | clear => exact .single (undergoes_clearConsole m) nofun

end Machine

namespace Controller

variable {γ : Type} [Guest γ] (c : Controller (Watched γ Glance))

/-- A start does not greet. -/
theorem undergoesOnly_start (source : String) :
    c.machine.UndergoesOnly (¬Happening.IsGreeting ·) (c.start source).2.machine := by
  have htorn := c.reaches_teardown.machine.undergoesOnly
  rcases h : c.teardown with ⟨e | _, torn⟩
  · rw [h] at htorn
    rw [start_of_teardown_error source h]
    exact htorn
  · rw [h] at htorn
    have hbegun : torn.machine.UndergoesOnly (¬Happening.IsGreeting ·) torn.beginStart.machine := .of_same rfl rfl
    exact htorn.trans (hbegun.trans (reaches_start source h).machine.undergoesOnly)

/-- All that happens in a check of a source are the calls that it makes. -/
theorem undergoesOnly_validate (source : String) :
    c.machine.UndergoesOnly Happening.OfCheck (c.validate source).2.machine := by
  have hcall : ∀ {e : Export}, e.OfCheck → ∀ m : Machine (Watched γ Glance),
      m.UndergoesOnly Happening.OfCheck (Guest.call e m).2 := fun {e} he m => .single (m.undergoes_call e) he
  rw [machine_validate]
  exact Machine.handOff_rel_of_regions (Q := Machine.UndergoesOnly Happening.OfCheck) (fun _ => .of_same rfl rfl) .trans
    (fun size => hcall (e := .allocate size) trivial) (fun ptr size => hcall (e := .release ptr size) trivial)
    (fun _ _ => .of_same rfl rfl) (fun slice => hcall (e := .validate slice.ptr slice.len) trivial) _ _

end Controller

/-! ## Operations of a session that do not greet -/

namespace Session

variable {γ σ : Type} [Guest γ] {s t u : Session (Watched γ Glance)}

/-- One session comes from another without an attempt to greet, and without news of whether the user has been greeted. -/
structure Silent (s t : Session (Watched γ Glance)) : Prop where
  machine : s.controller.machine.UndergoesOnly (¬Happening.IsGreeting ·) t.controller.machine
  greeting : t.greeting = s.greeting
  greeted : t.greeted = s.greeted

namespace Silent

omit [Guest γ] in
theorem refl (s : Session (Watched γ Glance)) : s.Silent s := ⟨.of_same rfl rfl, rfl, rfl⟩

omit [Guest γ] in
theorem trans (h : s.Silent t) (h' : t.Silent u) : s.Silent u :=
  ⟨h.machine.trans h'.machine, h'.greeting.trans h.greeting, h'.greeted.trans h.greeted⟩

/-- Moves of the machine are silent. -/
theorem of_reaches {controller : Controller (Watched γ Glance)} {scheduler : Scheduler}
    (h : s.controller.machine.Reaches controller.machine) : s.Silent { s with controller, scheduler } :=
  ⟨h.undergoesOnly, rfl, rfl⟩

end Silent

/-- A signal is taken in silently. -/
theorem silent_receive (s : Session (Watched γ Glance)) (l : Listening) (signal : Signal) : s.Silent (s.receive l signal).1 := by
  unfold receive
  cases signal with
  | cancel =>
    dsimp only
    split
    · exact .of_reaches (s.controller.note [.stopRequested]).reaches_stop.machine
    · exact .refl s
  | chunk bytes =>
    unfold Controller.pushInput
    dsimp only
    split
    · split
      · exact ⟨.of_same rfl rfl, rfl, rfl⟩
      · exact .refl s
    · exact .refl s
  | endOfInput => exact .refl s
  | inputFailed reason =>
    dsimp only
    split
    · exact .of_reaches (.refl _)
    · exact .refl s

/-- So are signals in a row. -/
theorem silent_receiveAll (s : Session (Watched γ Glance)) (l : Listening) (signals : List Signal) :
    s.Silent (s.receiveAll l signals).1 := by
  induction signals generalizing s l with
  | nil => exact .refl s
  | cons signal signals ih => exact (s.silent_receive l signal).trans (ih _ _)

/-- A tick is silent. -/
theorem silent_tick (s : Session (Watched γ Glance)) : s.Silent s.tick.2 := by
  have hticked := s.scheduler.reaches_tick s.controller
  unfold tick
  generalize s.scheduler.tick s.controller = ticked at hticked ⊢
  obtain ⟨e | _ | _ | _, scheduler, controller⟩ := ticked <;> exact .of_reaches hticked

/-- So is a whole loop. -/
theorem silent_loop (arrivals : Machine (Watched γ Glance) → σ → List Signal × σ) (fuel : Nat)
    (s : Session (Watched γ Glance)) (l : Listening) (w : σ) : s.Silent (s.loop arrivals fuel l w).2.1 := by
  induction fuel generalizing s l w with
  | zero => exact .refl s
  | succ fuel ih =>
    unfold loop
    rcases arrivals s.controller.machine w with ⟨signals, w'⟩
    have hreceived := s.silent_receiveAll l signals
    dsimp only
    generalize s.receiveAll l signals = received at hreceived ⊢
    obtain ⟨s', l'⟩ := received
    have hticked := hreceived.trans s'.silent_tick
    dsimp only
    rcases htick : s'.tick with ⟨_ | result, s''⟩
    · rw [htick] at hticked
      exact hticked.trans (ih s'' l' w')
    · rw [htick] at hticked
      exact hticked

/-- Past its greeting, a run does not greet. -/
theorem silent_run (arrivals : Machine (Watched γ Glance) → σ → List Signal × σ) (fuel : Nat) (source : String) (w : σ)
    (h : s.greet = (.ok (), t)) : t.Silent (s.run arrivals fuel source w).2.1 := by
  have hstart := t.controller.undergoesOnly_start source
  unfold run begin
  rw [h]
  dsimp only
  generalize t.controller.start source = started at hstart ⊢
  obtain ⟨e | outcome, controller⟩ := started
  · exact ⟨hstart, rfl, rfl⟩
  · cases outcome with
    | success =>
      have hbegun : t.Silent { t with controller, scheduler := t.scheduler.arm controller } := ⟨hstart, rfl, rfl⟩
      exact hbegun.trans (silent_loop arrivals fuel _ _ w)
    | _ => exact ⟨hstart, rfl, rfl⟩

end Session

/-! ## How a session greets -/

/-- Where the host's words are not taken, the console counts the attempt, and nothing else comes of it. -/
theorem Bridge.announce_eq_error {b b' : Bridge} {text : String} {e : ConsoleError} (h : b.announce text = (.error e, b')) :
    b' = { b with sink := { b.sink with emitAttempts := b.sink.emitAttempts + 1 } } := by
  unfold announce consoleWrite Sink.emit at h
  dsimp only at h
  split at h
  · cases h
    rfl
  · cases h

namespace Session

/-- The session with another bridge. -/
def withBridge {γ : Type} (s : Session γ) (bridge : Bridge) : Session γ :=
  { s with controller := { s.controller with machine := { s.controller.machine with bridge } } }

section Greet

variable {γ : Type} {s : Session γ} {b : Bridge}

/-- A session that has greeted does not greet again. -/
theorem greet_of_greeted (h : s.greeted = true) : s.greet = (.ok (), s) := by
  have hsame : { s with greeted := true } = s := by rw [← h]
  simp [greet, h, hsame]

/-- A greeting that is heard is the last one. -/
theorem greet_of_announced (hon : s.greeting = true) (hnew : s.greeted = false)
    (h : s.controller.machine.bridge.announce Playground.greeting = (.ok (), b)) :
    s.greet = (.ok (), { s.withBridge b with greeted := true }) := by
  simp [greet, hon, hnew, h, withBridge]

/-- A greeting that fails is the answer, and the session has not greeted. -/
theorem greet_of_unheard {e : ConsoleError} (hon : s.greeting = true) (hnew : s.greeted = false)
    (h : s.controller.machine.bridge.announce Playground.greeting = (.error e, b)) :
    s.greet = (.error (.console e), s.withBridge b) := by
  simp [greet, hon, hnew, h, withBridge]

variable [Guest γ]

/-- A run whose greeting fails is over, and has done nothing else. -/
theorem run_of_unheard {σ : Type} {e : ConsoleError} (hon : s.greeting = true) (hnew : s.greeted = false)
    (h : s.controller.machine.bridge.announce Playground.greeting = (.error e, b))
    (arrivals : Machine γ → σ → List Signal × σ) (fuel : Nat) (source : String) (w : σ) :
    s.run arrivals fuel source w = (some (.error (.console e)), s.withBridge b, w) := by
  simp only [run, begin, greet_of_unheard hon hnew h]

/-- A run whose greeting succeeds goes on as that of a session that has greeted. -/
theorem run_of_announced {σ : Type} (hon : s.greeting = true) (hnew : s.greeted = false)
    (h : s.controller.machine.bridge.announce Playground.greeting = (.ok (), b))
    (arrivals : Machine γ → σ → List Signal × σ) (fuel : Nat) (source : String) (w : σ) :
    s.run arrivals fuel source w = { s.withBridge b with greeted := true }.run arrivals fuel source w := by
  simp only [run, begin, greet_of_announced hon hnew h, greet_of_greeted (s := { s.withBridge b with greeted := true }) rfl]

end Greet

/-! ## The life of a session -/

/-- Something that is asked of a session. -/
inductive Visit (γ : Type) : Type 1 where
  | run {σ : Type} (arrivals : Machine γ → σ → List Signal × σ) (fuel : Nat) (source : String) (w : σ)
  | check (source : String)

/-- What is asked is done, as far as it goes. -/
def visit {γ : Type} [Guest γ] (s : Session γ) : Visit γ → Session γ
  | .run arrivals fuel source w => (s.run arrivals fuel source w).2.1
  | .check source => (s.check source).2

/-- Everything that is asked is done, in order. -/
def visitAll {γ : Type} [Guest γ] (s : Session γ) (visits : List (Visit γ)) : Session γ := visits.foldl visit s

section Life

variable {γ : Type} {s t u : Session (Watched γ Glance)} {events events' : List Happening}

/-- What a session that greets undergoes on its way from one moment to a later one. -/
inductive Ages (s : Session (Watched γ Glance)) (events : List Happening) (t : Session (Watched γ Glance)) : Prop where
  | waiting (hs : s.greeted = false) (ht : t.greeted = false) (hevents : ∀ e ∈ events, e.Waits)
    (hstanding : t.controller.standing = s.controller.standing) (hscheduler : t.scheduler = s.scheduler)
  | greets {before after : List Happening} (hs : s.greeted = false) (ht : t.greeted = true)
    (hevents : events = before ++ .greeting (.ok ()) :: after) (hbefore : ∀ e ∈ before, e.Waits)
    (hafter : ∀ e ∈ after, ¬e.IsGreeting)
  | greeted (hs : s.greeted = true) (ht : t.greeted = true) (hevents : ∀ e ∈ events, ¬e.IsGreeting)

theorem Ages.refl (s : Session (Watched γ Glance)) : s.Ages [] s := by
  cases hgreeted : s.greeted with
  | true => exact .greeted hgreeted hgreeted (by simp)
  | false => exact .waiting hgreeted hgreeted (by simp) rfl rfl

theorem Ages.trans (h : s.Ages events t) (h' : t.Ages events' u) : s.Ages (events ++ events') u := by
  cases h with
  | waiting hs ht hevents hstanding hscheduler =>
    cases h' with
    | waiting _ hu hevents' hstanding' hscheduler' =>
      exact .waiting hs hu (List.forall_mem_append.mpr ⟨hevents, hevents'⟩) (hstanding'.trans hstanding)
        (hscheduler'.trans hscheduler)
    | @greets before after _ hu hevents' hbefore hafter =>
      have hall : events ++ events' = (events ++ before) ++ .greeting (.ok ()) :: after := by rw [hevents', List.append_assoc]
      exact .greets hs hu hall (List.forall_mem_append.mpr ⟨hevents, hbefore⟩) hafter
    | greeted ht' _ _ => exact nomatch ht.symm.trans ht'
  | @greets before after hs ht hevents hbefore hafter =>
    cases h' with
    | waiting ht' _ _ _ _ | greets ht' _ _ _ _ => exact nomatch ht.symm.trans ht'
    | greeted _ hu hevents' =>
      have hall : events ++ events' = before ++ .greeting (.ok ()) :: (after ++ events') := by
        rw [hevents, List.append_assoc, List.cons_append]
      exact .greets hs hu hall hbefore (List.forall_mem_append.mpr ⟨hafter, hevents'⟩)
  | greeted hs ht hevents =>
    cases h' with
    | waiting ht' _ _ _ _ | greets ht' _ _ _ _ => exact nomatch ht.symm.trans ht'
    | greeted _ hu hevents' => exact .greeted hs hu (List.forall_mem_append.mpr ⟨hevents, hevents'⟩)

variable [Guest γ]

/-- One session that greets comes from another, with all that happened. -/
structure Lives (s t : Session (Watched γ Glance)) : Prop where
  greeting : t.greeting = true
  life : ∃ events, s.controller.machine.Undergoes events t.controller.machine ∧ s.Ages events t

/-- A check of a source is part of a session's life. -/
theorem lives_check (hon : s.greeting = true) (source : String) : s.Lives (s.check source).2 := by
  obtain ⟨events, hundergoes, hevents⟩ := s.controller.undergoesOnly_validate source
  refine ⟨hon, events, hundergoes, ?_⟩
  cases hgreeted : s.greeted with
  | true => exact .greeted hgreeted hgreeted fun e he => (hevents e he).not_isGreeting
  | false => exact .waiting hgreeted hgreeted (fun e he => .inl (hevents e he)) (s.controller.standing_validate source) rfl

/-- So is a run. -/
theorem lives_run {σ : Type} (hon : s.greeting = true) (arrivals : Machine (Watched γ Glance) → σ → List Signal × σ)
    (fuel : Nat) (source : String) (w : σ) : s.Lives (s.run arrivals fuel source w).2.1 := by
  cases hgreeted : s.greeted with
  | true =>
    obtain ⟨⟨events, hundergoes, hevents⟩, hgreeting, hleft⟩ := silent_run arrivals fuel source w (greet_of_greeted hgreeted)
    exact ⟨hgreeting.trans hon, events, hundergoes, .greeted hgreeted (hleft.trans hgreeted) hevents⟩
  | false =>
    have hannounced := s.controller.machine.undergoes_announce
    rcases h : s.controller.machine.bridge.announce Playground.greeting with ⟨e | _, b⟩
    · rw [h] at hannounced
      rw [run_of_unheard hon hgreeted h]
      refine ⟨hon, [.greeting (.error e)], hannounced, .waiting hgreeted hgreeted ?_ rfl rfl⟩
      exact List.forall_mem_singleton.mpr (.inr ⟨e, rfl⟩)
    · rw [h] at hannounced
      obtain ⟨⟨events, hundergoes, hevents⟩, hgreeting, hleft⟩ :=
        silent_run arrivals fuel source w (greet_of_announced hon hgreeted h)
      exact ⟨hgreeting.trans hon, .greeting (.ok ()) :: events, hannounced.trans hundergoes,
        .greets hgreeted hleft (List.nil_append _).symm (List.forall_mem_nil _) hevents⟩

/-- Whatever is asked of a session, it lives on. -/
theorem lives_visitAll (hon : s.greeting = true) (visits : List (Visit (Watched γ Glance))) : s.Lives (s.visitAll visits) := by
  induction visits generalizing s with
  | nil => exact ⟨hon, [], .of_same rfl rfl, .refl s⟩
  | cons v visits ih =>
    have hvisit : s.Lives (s.visit v) := by
      cases v with
      | run arrivals fuel source w => exact lives_run hon arrivals fuel source w
      | check source => exact lives_check hon source
    obtain ⟨hon', events, hundergoes, hages⟩ := hvisit
    obtain ⟨hon'', events', hundergoes', hages'⟩ := ih hon'
    exact ⟨hon'', events ++ events', hundergoes.trans hundergoes', hages.trans hages'⟩

/-- Whatever the guest does, whichever attempts to print or to clear fail, and whatever is asked of a session that is to greet: as
long as it has not greeted, sources were checked and greetings failed, nothing else happened to guest and console, and no program was
started. Once it has greeted, just one greeting has succeeded; before it there were only checks and greetings that failed, and after
it no greeting was tried. A run that finds the user not greeted tries to greet. If that fails, it returns the console's error, the
console counts the attempt, and that is all, so that the next run does the same; if it succeeds, the run is one of a session that has
greeted. Such runs do not greet, whatever comes of them, and neither does a check. -/
theorem greets_once_and_first (s : Session (Watched γ Glance)) (hon : s.greeting = true) (hnew : s.greeted = false)
    (visits : List (Visit (Watched γ Glance))) :
    let t := s.visitAll visits
    let bridge := t.controller.machine.bridge
    (∃ events, s.controller.machine.Undergoes events t.controller.machine ∧
      (t.greeted = false →
        (∀ e ∈ events, e.Waits) ∧ t.controller.standing = s.controller.standing ∧ t.scheduler = s.scheduler) ∧
      (t.greeted = true → ∃ before after, events = before ++ .greeting (.ok ()) :: after ∧
        (∀ e ∈ before, e.Waits) ∧ ∀ e ∈ after, ¬e.IsGreeting)) ∧
    (∀ {σ : Type} (arrivals : Machine (Watched γ Glance) → σ → List Signal × σ) fuel source w,
      (t.greeted = false → ∀ e b, bridge.announce Playground.greeting = (.error e, b) →
        t.run arrivals fuel source w = (some (.error (.console e)), t.withBridge b, w) ∧
        b = { bridge with sink := { bridge.sink with emitAttempts := bridge.sink.emitAttempts + 1 } }) ∧
      (t.greeted = false → ∀ b, bridge.announce Playground.greeting = (.ok (), b) →
        t.run arrivals fuel source w = { t.withBridge b with greeted := true }.run arrivals fuel source w ∧
        (t.run arrivals fuel source w).2.1.greeted = true) ∧
      (t.greeted = true →
        t.controller.machine.UndergoesOnly (¬Happening.IsGreeting ·) (t.run arrivals fuel source w).2.1.controller.machine ∧
        (t.run arrivals fuel source w).2.1.greeted = true)) ∧
    ∀ source, t.controller.machine.UndergoesOnly Happening.OfCheck (t.check source).2.controller.machine ∧
      (t.check source).2.greeted = t.greeted := by
  intro t bridge
  obtain ⟨hon', events, hundergoes, hages⟩ := lives_visitAll hon visits
  refine ⟨⟨events, hundergoes, ?_⟩, ?_, fun source => ⟨t.controller.undergoesOnly_validate source, rfl⟩⟩
  · cases hages with
    | waiting _ ht hevents hstanding hscheduler =>
      refine ⟨fun _ => ⟨hevents, hstanding, hscheduler⟩, ?_⟩
      exact fun hgreeted => nomatch ht.symm.trans hgreeted
    | greets _ ht hevents hbefore hafter =>
      refine ⟨?_, fun _ => ⟨_, _, hevents, hbefore, hafter⟩⟩
      exact fun hgreeted => nomatch ht.symm.trans hgreeted
    | greeted hs _ _ => exact nomatch hnew.symm.trans hs
  · intro σ arrivals fuel source w
    refine ⟨?unheard, ?announced, ?greeted⟩
    case unheard =>
      intro hgreeted e b h
      exact ⟨run_of_unheard hon' hgreeted h arrivals fuel source w, Bridge.announce_eq_error h⟩
    case announced =>
      intro hgreeted b h
      exact ⟨run_of_announced hon' hgreeted h arrivals fuel source w,
        (silent_run arrivals fuel source w (greet_of_announced hon' hgreeted h)).greeted⟩
    case greeted =>
      intro hgreeted
      have hsilent := silent_run arrivals fuel source w (greet_of_greeted hgreeted)
      exact ⟨hsilent.machine, hsilent.greeted.trans hgreeted⟩

/-- The first attempt to greet fails, and a source is checked before the next. Of three runs the last two are started. -/
theorem greets_once_and_first_willing :
    let arrivals : Machine (Watched Fixed Glance) → Unit → List Signal × Unit := fun _ silence => ([.cancel], silence)
    ∃ (s : Session (Watched Fixed Glance)) (visits : List (Visit (Watched Fixed Glance))),
      visits = [.run arrivals 1 "" (), .check "", .run arrivals 1 "" (), .run arrivals 1 "" ()] ∧
      s.greeting = true ∧ s.greeted = false ∧
      s.run arrivals 1 "" () =
        (some (.error (.console Sink.closed)), s.withBridge { sink := { Sink.failing [1] [] with emitAttempts := 1 } }, ()) ∧
      (s.visitAll visits).greeted = true ∧ (s.visitAll visits).controller.runs = 2 ∧
      ∃ before after,
        s.controller.machine.Undergoes (before ++ .greeting (.ok ()) :: after) (s.visitAll visits).controller.machine ∧
        (∀ e ∈ before, e.Waits) ∧ ∀ e ∈ after, ¬e.IsGreeting := by
  intro arrivals
  let machine : Machine (Watched Fixed Glance) := ⟨Memory.zeroed 1, { sink := .failing [1] [] }, ⟨.willing, []⟩⟩
  let s : Session (Watched Fixed Glance) := { controller := { machine } }
  let visits : List (Visit (Watched Fixed Glance)) :=
    [.run arrivals 1 "" (), .check "", .run arrivals 1 "" (), .run arrivals 1 "" ()]
  have hunheard : machine.bridge.announce Playground.greeting =
      (.error Sink.closed, { sink := { Sink.failing [1] [] with emitAttempts := 1 } }) := rfl
  have hgreeted : (s.visitAll visits).greeted = true := by decide +kernel
  have hruns : (s.visitAll visits).controller.runs = 2 := by decide +kernel
  obtain ⟨-, hrun, -⟩ := greets_once_and_first s rfl rfl []
  obtain ⟨⟨events, hundergoes, -, hlife⟩, -, -⟩ := greets_once_and_first s rfl rfl visits
  obtain ⟨before, after, rfl, hbefore, hafter⟩ := hlife hgreeted
  have htried := ((hrun arrivals 1 "" ()).1 rfl _ _ hunheard).1
  exact ⟨s, visits, rfl, rfl, rfl, htried, hgreeted, hruns, before, after, hundergoes, hbefore, hafter⟩

end Life

end Session

end Playground
