import Playground.Proofs.Controller.Frame
import Playground.Proofs.Controller.Restart
import Playground.Proofs.Controller.Runs
import Playground.Proofs.Guest.Uses

/-!
# What gets to the console

What happens to a sink is a list of `Showing`: the guest makes a call, in which it prints, or the host clears the console before a
program. Every operation has such a transcript, read off the guest's own notes, and the sink receives just what stands in it
(`Machine.Shows`); the host clears the console in a start whose program was accepted, between the hand-off and all that comes after
it, and prints nothing (`console_written_by_guest`).
-/

namespace Playground

/-- A call that a guest received, with what it printed. -/
structure Utterance where
  call : Call
  printed : List (List UInt8)

/-- Something that happens to a sink. -/
inductive Showing where
  | call (u : Utterance)
  /-- The host asks for the console to be cleared. -/
  | clearing

namespace Showing

/-- What the sink receives by it. -/
def outputs : Showing → List Output
  | .call u => u.printed.map .write
  | .clearing => [.clear]

/-- The call in it. -/
def utterance? : Showing → Option Utterance
  | .call u => some u
  | .clearing => none

end Showing

/-- Of a call, it is noted what it prints. -/
instance WritesConsole.watch {γ : Type} [Guest γ] [WritesConsole γ] : Watch γ Utterance :=
  ⟨fun e before result _ => [⟨⟨e, result⟩, WritesConsole.writes e before⟩]⟩

/-! ## What a machine shows -/

namespace Machine

variable {γ : Type} {m m' m'' : Machine (Watched γ Utterance)} {events events' : List Showing}

/-- One machine comes from another by what is shown: the calls in it are the guest's, and the sink received all of it. -/
structure Shows (m : Machine (Watched γ Utterance)) (events : List Showing) (m' : Machine (Watched γ Utterance)) : Prop where
  notes : m'.notes = m.notes ++ events.filterMap Showing.utterance?
  sink : m'.bridge.sink = m.bridge.sink.receiveAll (events.flatMap Showing.outputs)

theorem Shows.of_same (hnotes : m'.notes = m.notes) (hsink : m'.bridge.sink = m.bridge.sink) : m.Shows [] m' :=
  ⟨hnotes.trans (List.append_nil _).symm, hsink⟩

theorem Shows.trans (h : m.Shows events m') (h' : m'.Shows events' m'') : m.Shows (events ++ events') m'' where
  notes := by rw [h'.notes, h.notes, List.filterMap_append, List.append_assoc]
  sink := by rw [h'.sink, h.sink, List.flatMap_append, Sink.receiveAll_append]

/-- Clearing the console is shown. -/
theorem shows_clearConsole (m : Machine (Watched γ Utterance)) :
    m.Shows [.clearing] { m with bridge := m.bridge.clearConsole.2 } :=
  ⟨(List.append_nil _).symm, rfl⟩

/-- What the guest noted between one moment and a later one. -/
def uttered (m m' : Machine (Watched γ Utterance)) : List Utterance := m'.notes.drop m.notes.length

/-- The calls of the guest between one moment and a later one. -/
def callsTo (m m' : Machine (Watched γ Utterance)) : List Showing := (m.uttered m').map .call

/-- Where nothing was noted, there is no call. -/
theorem uttered_of_same (hnotes : m'.notes = m.notes) : m.uttered m' = [] := by
  rw [uttered, hnotes, List.drop_length]

/-- What was noted in between is what is new. -/
theorem notes_uttered {new : List Utterance} (h : m'.notes = m.notes ++ new) : m.uttered m' = new := by
  rw [uttered, h, List.drop_left]

/-- One machine comes from another by calls of the guest. -/
def Tells (m m' : Machine (Watched γ Utterance)) : Prop := ∃ new : List Utterance, m.Shows (new.map .call) m'

theorem filterMap_utterance? (new : List Utterance) : (new.map Showing.call).filterMap Showing.utterance? = new := by
  rw [List.filterMap_map]
  exact List.filterMap_some

theorem Tells.of_same (hnotes : m'.notes = m.notes) (hsink : m'.bridge.sink = m.bridge.sink) : m.Tells m' :=
  ⟨[], .of_same hnotes hsink⟩

theorem Tells.trans (h : m.Tells m') (h' : m'.Tells m'') : m.Tells m'' := by
  obtain ⟨new, h⟩ := h
  obtain ⟨new', h'⟩ := h'
  refine ⟨new ++ new', ?_⟩
  rw [List.map_append]
  exact h.trans h'

/-- What the guest does in its calls is shown. -/
theorem Tells.shows (h : m.Tells m') : m.Shows (m.callsTo m') m' := by
  obtain ⟨new, h⟩ := h
  have hnotes := h.notes
  rw [filterMap_utterance?] at hnotes
  rw [callsTo, notes_uttered hnotes]
  exact h

variable [Guest γ] [WritesConsole γ]

/-- Of a call, the sink receives what it prints. -/
theorem tells_call (e : Export) (m : Machine (Watched γ Utterance)) : m.Tells (Guest.call e m).2 := by
  refine ⟨[⟨⟨e, (Guest.call e m).1⟩, WritesConsole.writes e m.unwatched⟩], ?_, ?_⟩
  · rw [filterMap_utterance?]
    exact notes_call e m
  · have hsink : (Guest.call e m).2.bridge.sink =
        m.bridge.sink.receiveAll ((WritesConsole.writes e m.unwatched).map .write) := WritesConsole.sink_call e m.unwatched
    rw [hsink]
    simp [Showing.outputs]

/-- Calls about the run are calls of the guest. -/
theorem Works.tells (h : m.Works m') : m.Tells m' :=
  h.rel (fun _ => .of_same rfl rfl) Tells.trans fun {e} _ m => tells_call e m

end Machine

/-! ## What an operation shows -/

/-- The operation does nothing to the sink behind the controller's back. -/
def Operation.KeepsOutput : Operation → Prop
  | .onBridge act => ∀ bridge, (act bridge).sink = bridge.sink
  | _ => True

namespace Controller

variable {γ : Type}

/-- The calls of the guest between one moment and a later one. -/
def callsTo (c d : Controller (Watched γ Utterance)) : List Showing := c.machine.callsTo d.machine

/-- What the host shows once a source was handed over, by the answer: it clears the console for a program that was accepted, if
it is to be cleared. -/
def clearing (clears : Bool) : Except HostError Outcome → List Showing
  | .ok .success => if clears then [.clearing] else []
  | _ => []

/-- A start gets past the end of the old run, and the hand-off of its source ends in success. -/
def HandsOver [Guest γ] (c : Controller γ) (source : String) : Prop :=
  ∃ torn, c.teardown = (.ok (), torn) ∧ (torn.beginStart.callWithSource (.ofText source) initUse).1 = .ok .success

end Controller

section Transcript

variable {γ : Type} [Guest γ] [WritesConsole γ]

/-- What an operation shows. In a start the old run is ended, the source is handed over, and the console may be cleared before
anything else happens; all other operations show what the guest does in its calls. -/
def Operation.transcript (c : Controller (Watched γ Utterance)) : Operation → List Showing
  | .start source =>
    match c.teardown with
    | (.error _, torn) => c.callsTo torn
    | (.ok (), torn) =>
      let given := torn.beginStart.callWithSource (.ofText source) Controller.initUse
      c.callsTo torn ++ (torn.callsTo given.2 ++
        (Controller.clearing torn.clearOnStart given.1 ++ given.2.callsTo (c.start source).2))
  | op => c.callsTo (c.perform op)

namespace Controller

/-- What a list of operations shows. -/
def transcript (c : Controller (Watched γ Utterance)) : List Operation → List Showing
  | [] => []
  | op :: ops => op.transcript c ++ (c.perform op).transcript ops

/-- What comes after a hand-off is a clearing for a program that was accepted, and calls of the guest: none, unless the console
could not be cleared. -/
theorem Proceeds.shows {clears : Bool} {m m' : Machine (Watched γ Utterance)} {handed answer : Except HostError Outcome}
    (h : Proceeds clears m handed answer m') : m.Shows (clearing clears handed ++ m.callsTo m') m' := by
  have hnone : ∀ {m' : Machine (Watched γ Utterance)}, m'.notes = m.notes → m.callsTo m' = [] := by
    intro m' hnotes
    rw [Machine.callsTo, Machine.uttered_of_same hnotes, List.map_nil]
  cases h with
  | refused hrefused =>
    have hclearing : clearing clears handed = [] := by
      rcases handed with e | outcome
      · rfl
      · cases outcome with
        | success => exact absurd rfl hrefused
        | _ => rfl
    rw [hclearing, hnone rfl]
    exact .of_same rfl rfl
  | kept hclears =>
    rw [hnone rfl, hclears]
    exact .of_same rfl rfl
  | @cleared hclears bridge hcleared =>
    have hshows := m.shows_clearConsole
    have hcalls : m.callsTo { m with bridge } = [] := hnone rfl
    rw [hcleared] at hshows
    rw [hcalls, hclears]
    exact hshows
  | @abandoned hclears e bridge hcleared =>
    have hshows := m.shows_clearConsole
    rw [hcleared] at hshows
    have hended := (Machine.tells_call .deinitRun { m with bridge }).shows
    rw [hclears]
    exact hshows.trans hended

/-- Handing a source over is done by calls of the guest. -/
theorem tells_callWithSource (c : Controller (Watched γ Utterance)) (source : String)
    {use : Slice → Machine (Watched γ Utterance) → Except GuestError Int32 × Machine (Watched γ Utterance)}
    (huse : ∀ slice (m : Machine (Watched γ Utterance)), m.Tells (use slice m).2) : c.machine.Tells (c.callWithSource (.ofText source) use).2.machine := by
  rw [machine_callWithSource]
  exact Machine.handOff_rel (Q := Machine.Tells) (fun _ => .of_same rfl rfl) Machine.Tells.trans Machine.tells_call
    (fun _ _ => .of_same rfl rfl) huse _ _

/-- A start shows what stands in its transcript. -/
theorem shows_start (c : Controller (Watched γ Utterance)) (source : String) :
    c.machine.Shows (Operation.transcript c (.start source)) (c.start source).2.machine := by
  have htorn := c.works_teardown.machine.tells.shows
  unfold Operation.transcript
  rcases h : c.teardown with ⟨e | _, torn⟩
  · rw [h] at htorn
    rw [start_of_teardown_error source h]
    exact htorn
  · rw [h] at htorn
    have hgiven : torn.beginStart.machine.Tells (torn.beginStart.callWithSource (.ofText source) initUse).2.machine :=
      torn.beginStart.tells_callWithSource source fun _ _ => Machine.tells_call _ _
    have hproceeds := (start_proceeds h source).shows
    have hbegun : torn.machine.Shows [] torn.beginStart.machine := .of_same rfl rfl
    exact htorn.trans (hbegun.trans (hgiven.shows.trans hproceeds))

/-- An operation shows what stands in its transcript. -/
theorem shows_perform (c : Controller (Watched γ Utterance)) {op : Operation} (hop : op.KeepsOutput) :
    c.machine.Shows (op.transcript c) (c.perform op).machine := by
  cases op with
  | start source => exact c.shows_start source
  | validate source =>
    have htells : c.machine.Tells (c.validate source).2.machine := by
      rw [machine_validate, ← machine_callWithSource]
      exact c.tells_callWithSource source fun _ _ => Machine.tells_call _ _
    exact htells.shows
  | onBridge act => exact Machine.Tells.shows (.of_same rfl (hop _))
  | pushInput bytes =>
    refine Machine.Tells.shows (.of_same ?_ ?_) <;>
    · unfold perform pushInput
      dsimp only
      split <;> rfl
  | stop => exact c.works_stop.machine.tells.shows
  | isFinished => exact c.works_isFinished.machine.tells.shows
  | checkFinished => exact c.works_checkFinished.machine.tells.shows
  | step budget => exact (c.works_step budget).machine.tells.shows
  | tick loop => exact (loop.works_tick c).machine.tells.shows

/-- So does a history. -/
theorem shows_after (c : Controller (Watched γ Utterance)) {ops : List Operation} (hops : ∀ op ∈ ops, op.KeepsOutput) :
    c.machine.Shows (c.transcript ops) (c.after ops).machine := by
  induction ops generalizing c with
  | nil => exact .of_same rfl rfl
  | cons op ops ih =>
    obtain ⟨hop, hops⟩ := List.forall_mem_cons.mp hops
    exact (c.shows_perform hop).trans (ih (c.perform op) hops)

end Controller

end Transcript

/-! ## When the console is cleared -/

namespace Controller

section Answers

variable {γ : Type} [Guest γ] {c torn : Controller γ}

/-- A hand-off does not answer with an error of the console. -/
theorem answerOf_ne_console (result : Except MarshalError Int32) (e : ConsoleError) : answerOf result ≠ .error (.console e) := by
  rcases result with e' | status
  · unfold answerOf
    dsimp only
    split <;> nofun
  · nofun

/-- Whether a program was accepted can be told from what a start answers: the program runs, or the console could not be cleared for
it. -/
theorem Proceeds.accepted_iff {clears : Bool} {m m' : Machine γ} {handed answer : Except HostError Outcome}
    (h : Proceeds clears m handed answer m') (hconsole : ∀ e, handed ≠ .error (.console e)) :
    handed = .ok .success ↔ answer = .ok .success ∨ ∃ e, answer = .error (.console e) := by
  cases h with
  | refused hrefused => simp [hrefused, hconsole]
  | kept _ => simp
  | cleared _ _ => simp
  | abandoned _ _ => simp

/-- A source was handed over in a start exactly if the program runs or the console could not be cleared for it. -/
theorem handsOver_iff (c : Controller γ) (source : String) :
    c.HandsOver source ↔ (c.start source).1 = .ok .success ∨ ∃ e, (c.start source).1 = .error (.console e) := by
  unfold HandsOver
  rcases h : c.teardown with ⟨e | _, torn⟩
  · obtain ⟨e', -, -, -, rfl, -⟩ := teardown_error_cases h
    rw [start_of_teardown_error source h]
    simp
  · have hconsole : ∀ e, (torn.beginStart.callWithSource (.ofText source) initUse).1 ≠ .error (.console e) := by
      intro e
      rw [answer_callWithSource]
      exact answerOf_ne_console _ e
    rw [← (start_proceeds h source).accepted_iff hconsole]
    constructor
    · rintro ⟨_, heq, hgiven⟩
      cases heq
      exact hgiven
    · exact fun hgiven => ⟨torn, rfl, hgiven⟩

end Answers

/-- What is shown by a start whose program was accepted, on a controller that clears the console: the old run is ended, if there was
one; the source is handed over, its run prepared and its region taken back; then the console is cleared; and that is all, unless
it could not be cleared, and the run is ended again. -/
inductive Opening (p : Standing) : Except HostError Outcome → List Showing → Prop where
  | cleared {old given : List Utterance} {size ptr : UInt32} {slice : Slice} (hold : old.map Utterance.call = p.ending)
    (hgiven : given.map Utterance.call = Call.preparing size ptr slice (.ok ())) :
    Opening p (.ok .success) ((old ++ given).map .call ++ [.clearing])
  | abandoned {old given ended : List Utterance} {size ptr : UInt32} {slice : Slice} {result : Except GuestError Unit}
    (hold : old.map Utterance.call = p.ending)
    (hgiven : given.map Utterance.call = Call.preparing size ptr slice (.ok ()))
    (hended : ended.map Utterance.call = [⟨.deinitRun, result⟩]) (e : ConsoleError) :
    Opening p (.error (.console e)) ((old ++ given).map .call ++ .clearing :: ended.map .call)

section Opening

variable {γ : Type} [Guest γ] [WritesConsole γ] {m m' : Machine (Watched γ Utterance)}
  {c torn : Controller (Watched γ Utterance)}

/-- The interpreter with its calls, without what it printed. -/
def recorded (g : Watched γ Utterance) : Recorded γ := ⟨g.inner, g.notes.map Utterance.call⟩

/-- Forgetting what was printed, the guest is one whose calls are written down. -/
theorem seenThrough_recorded : Guest.SeenThrough (recorded : Watched γ Utterance → Recorded γ) := by
  intro e m
  have hnotes := m.notes_call e
  have hcalls : (Guest.call e m).2.notes.map Utterance.call = m.notes.map Utterance.call ++ [⟨e, (Guest.call e m).1⟩] := by
    rw [hnotes, List.map_append]
    rfl
  refine Prod.ext rfl ?_
  change (Guest.call e m).2.unwatched.record (m.notes.map Utterance.call ++ [⟨e, (Guest.call e m).1⟩]) =
    (Guest.call e m).2.unwatched.record ((Guest.call e m).2.notes.map Utterance.call)
  rw [hcalls]

omit [Guest γ] [WritesConsole γ] in
/-- The calls of a row of notes are those that the record gained. -/
theorem map_call_uttered {new : List Call} (h : m.Tells m') (hcalls : (m'.map recorded).calls = (m.map recorded).calls ++ new) :
    (m.uttered m').map Utterance.call = new := by
  obtain ⟨notes, h⟩ := h
  have hnotes := h.notes
  rw [Machine.filterMap_utterance?] at hnotes
  have hgained : m'.notes.map Utterance.call = m.notes.map Utterance.call ++ new := hcalls
  rw [hnotes, List.map_append] at hgained
  rw [Machine.notes_uttered hnotes]
  exact List.append_cancel_left hgained

/-- What ends the old run. -/
theorem call_uttered_teardown (h : c.teardown = (.ok (), torn)) :
    (c.machine.uttered torn.machine).map Utterance.call = c.standing.ending := by
  have htells := c.works_teardown.machine.tells
  obtain ⟨new, hcalls, ht⟩ := (c.seen recorded []).teardown_goes
  rw [seen_teardown seenThrough_recorded, h] at hcalls ht
  rw [h] at htells
  have hending : new = c.standing.ending := ht.eq_ending
  rw [← hending]
  exact map_call_uttered htells hcalls

/-- What prepares the run of a program that is accepted. -/
theorem call_uttered_callWithSource {source : String} (h : (c.callWithSource (.ofText source) initUse).1 = .ok .success) :
    ∃ size ptr slice, (c.machine.uttered (c.callWithSource (.ofText source) initUse).2.machine).map Utterance.call =
      Call.preparing size ptr slice (.ok ()) := by
  have htells : c.machine.Tells (c.callWithSource (.ofText source) initUse).2.machine :=
    c.tells_callWithSource source fun _ _ => Machine.tells_call _ _
  obtain ⟨new, hcalls, hgiven, -⟩ := callWithSource_goes Call.ofInitRun initUse
    (fun slice m => Machine.calls_call (.initRun slice.ptr slice.len) m) (c.seen recorded []) source
  rw [seen_callWithSource seenThrough_recorded fun slice m => seenThrough_recorded (.initRun slice.ptr slice.len) m]
    at hcalls hgiven
  have hsuccess : Submitted Call.ofInitRun source (.ok .success) new := h ▸ hgiven
  obtain ⟨size, ptr, slice, rfl⟩ := hsuccess.eq_preparing
  exact ⟨size, ptr, slice, map_call_uttered htells hcalls⟩

/-- What comes after the hand-off of a program that was accepted. -/
theorem Proceeds.opening {p : Standing} {answer : Except HostError Outcome} {old given : List Utterance} {size ptr : UInt32}
    {slice : Slice} (h : Proceeds true m (.ok .success) answer m') (hold : old.map Utterance.call = p.ending)
    (hgiven : given.map Utterance.call = Call.preparing size ptr slice (.ok ())) :
    Opening p answer ((old ++ given).map .call ++ .clearing :: m.callsTo m') := by
  cases h with
  | refused hrefused => exact absurd rfl hrefused
  | kept hclears => cases hclears
  | @cleared _ bridge _ =>
    have hnone : m.uttered { m with bridge } = [] := Machine.uttered_of_same rfl
    rw [Machine.callsTo, hnone]
    exact .cleared hold hgiven
  | @abandoned _ e bridge _ =>
    have hended : m.uttered (Guest.call .deinitRun { m with bridge }).2 = _ := Machine.notes_uttered (Machine.notes_call _ _)
    rw [Machine.callsTo, hended]
    exact .abandoned hold hgiven rfl e

/-- A start whose program was accepted, on a controller that clears the console. -/
theorem opening_of_handsOver {source : String} (hclears : c.clearOnStart = true) (h : c.HandsOver source) :
    Opening c.standing (c.start source).1 (Operation.transcript c (.start source)) := by
  obtain ⟨torn, htorn, hgiven⟩ := h
  have hold := call_uttered_teardown htorn
  obtain ⟨size, ptr, slice, hprepared⟩ := call_uttered_callWithSource hgiven
  have hclears' : torn.clearOnStart = true := (clearOnStart_of_teardown htorn).trans hclears
  have hproceeds := start_proceeds htorn source
  rw [hgiven, hclears'] at hproceeds
  have hopening := hproceeds.opening hold hprepared
  rw [List.map_append, List.append_assoc] at hopening
  unfold Operation.transcript
  rw [htorn]
  dsimp only
  rw [hgiven, hclears']
  exact hopening

/-- The host clears the console in a start whose program was accepted, if it is to be cleared, and nowhere else. -/
theorem clearing_mem_transcript (c : Controller (Watched γ Utterance)) (op : Operation) :
    .clearing ∈ op.transcript c ↔ ∃ source, op = .start source ∧ c.clearOnStart = true ∧ c.HandsOver source := by
  have hcalls : ∀ d d' : Controller (Watched γ Utterance), .clearing ∉ d.callsTo d' := by
    intro d d' hclearing
    obtain ⟨_, -, hcall⟩ := List.mem_map.mp hclearing
    cases hcall
  have hcleared : ∀ clears answer, .clearing ∈ clearing clears answer ↔ clears = true ∧ answer = .ok .success := by
    intro clears answer
    rcases answer with e | outcome
    · simp [clearing]
    · cases outcome <;> simp [clearing]
  cases op with
  | start source =>
    unfold Operation.transcript HandsOver
    rcases h : c.teardown with ⟨e | _, torn⟩
    · simp [hcalls]
    · simp [hcalls, hcleared, clearOnStart_of_teardown h]
  | _ => simp [Operation.transcript, hcalls]

end Opening

end Controller

/-! ## Only the guest prints -/

namespace Controller

variable {γ : Type} [Guest γ] [WritesConsole γ]

/-- The sink receives what the transcript of a history shows. -/
theorem sink_after (c : Controller γ) {ops : List Operation} (hops : ∀ op ∈ ops, op.KeepsOutput) :
    (c.after ops).machine.bridge.sink =
      c.machine.bridge.sink.receiveAll (((c.noting Utterance).transcript ops).flatMap Showing.outputs) := by
  rw [c.after_eq_noting Utterance ops]
  exact ((c.noting Utterance).shows_after hops).sink

/-- Whatever a guest that only prints to its console does, whatever is done with its controller, and whichever prints and clears
fail: the sink receives what the guest prints in its calls, unchanged and in their order, and what stands between them when the
host clears the console for a program; nothing else. The host does so in a start exactly if the hand-off of its source ends in
success and the console is to be cleared, once, right after the run was prepared and the region taken back, and nothing comes after
it but the end of that run, if the console could not be cleared. So it never does for a start that answers anything but success or
an error of the console. On a console that forgets what was printed when it is cleared there is what was printed with success
since it was last cleared with success; an attempt that fails changes neither that nor what is pending, and moves neither the clock
nor its anchor. -/
theorem console_written_by_guest (c : Controller γ) {ops : List Operation} (hops : ∀ op ∈ ops, op.KeepsOutput) :
    let before := c.machine.bridge.sink
    let d := c.after ops
    let watched := (c.noting Utterance).after ops
    let events := (c.noting Utterance).transcript ops
    d.machine.bridge.sink = before.receiveAll (events.flatMap Showing.outputs) ∧
      events.filterMap Showing.utterance? = watched.machine.notes ∧
      (before.style = .forget →
        d.machine.bridge.sink.contents = screen before.contents (before.taken (events.flatMap Showing.outputs))) ∧
      (∀ op : Operation, .clearing ∈ op.transcript watched ↔
        ∃ source, op = .start source ∧ d.clearOnStart = true ∧ d.HandsOver source) ∧
      (∀ source, d.clearOnStart = true → d.HandsOver source →
        Opening d.standing (d.start source).1 (Operation.transcript watched (.start source))) ∧
      (∀ source, d.HandsOver source ↔
        (d.start source).1 = .ok .success ∨ ∃ e, (d.start source).1 = .error (.console e)) ∧
      (∀ (b b' : Bridge) bytes e, b.consoleWrite bytes = (.error e, b') → b.Unmoved b') ∧
      ∀ (b b' : Bridge) e, b.clearConsole = (.error e, b') → b.Unmoved b' := by
  intro before d watched events
  have hseen : d = watched.seen Watched.inner [] := c.after_eq_noting Utterance ops
  have hshows : (c.noting Utterance).machine.Shows events watched.machine := (c.noting Utterance).shows_after hops
  have hsink : d.machine.bridge.sink = before.receiveAll (events.flatMap Showing.outputs) := c.sink_after hops
  have hanswer : ∀ source, (d.start source).1 = (watched.start source).1 := by
    intro source
    rw [hseen, seen_start Watched.seenThrough]
    rfl
  have hhands : ∀ source, d.HandsOver source ↔ watched.HandsOver source := by
    intro source
    rw [handsOver_iff, handsOver_iff, hanswer]
  have hclears : d.clearOnStart = watched.clearOnStart := by rw [hseen, clearOnStart_seen]
  have hstanding : d.standing = watched.standing := by
    rw [hseen]
    rfl
  refine ⟨hsink, ?_, ?_, ?_, ?_, d.handsOver_iff, ?_, ?_⟩
  · rw [hshows.notes]
    rfl
  · intro hstyle
    rw [hsink, Sink.contents_receiveAll hstyle]
  · intro op
    simp only [clearing_mem_transcript, hclears, hhands]
  · intro source hclear hgiven
    rw [hanswer, hstanding]
    exact opening_of_handsOver (hclears ▸ hclear) ((hhands source).mp hgiven)
  · intro b b' bytes e h
    exact Bridge.unmoved_of_consoleWrite_error h
  · intro b b' e h
    exact Bridge.unmoved_of_clearConsole_error h

/-- A scripted guest prints in every step, and its second print fails. What the first program printed is cleared for the second. -/
theorem console_written_by_guest_scripted :
    ∃ (c : Controller Scripted) (ops : List Operation), (∀ op ∈ ops, op.KeepsOutput) ∧
      c.machine.bridge.sink.style = .forget ∧
      ((c.noting Utterance).transcript ops).flatMap Showing.outputs =
        [.clear, .write [65], .write [65], .clear, .write [65]] ∧
      (c.after ops).machine.bridge.sink.contents = [65] ∧
      (c.after ops).clearOnStart = true ∧ (c.after ops).HandsOver "" ∧
      Opening (c.after ops).standing ((c.after ops).start "").1
        (Operation.transcript ((c.noting Utterance).after ops) (.start "")) := by
  let c : Controller Scripted :=
    { machine := ⟨Memory.zeroed 16, { sink := .failing [2] [] }, { heap := 1, eachStep := [.print [65]] }⟩ }
  let ops : List Operation := [.start "", .step 5, .step 5, .start "", .step 5]
  have hops : ∀ op ∈ ops, op.KeepsOutput := by simp [ops, Operation.KeepsOutput]
  have houtputs : ((c.noting Utterance).transcript ops).flatMap Showing.outputs =
      [.clear, .write [65], .write [65], .clear, .write [65]] := by
    decide +kernel
  have hclears : (c.after ops).clearOnStart = true := by decide +kernel
  have hanswer : ((c.after ops).start "").1 = .ok .success := by decide +kernel
  obtain ⟨-, -, hcontents, -, hopening, hhands, -, -⟩ := c.console_written_by_guest hops
  have hgiven : (c.after ops).HandsOver "" := (hhands "").mpr (.inl hanswer)
  have hshown := hcontents rfl
  rw [houtputs] at hshown
  exact ⟨c, ops, hops, rfl, houtputs, hshown, hclears, hgiven, hopening "" hclears hgiven⟩

end Controller

end Playground
