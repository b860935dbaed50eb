import Playground.Proofs.Outcome
import Playground.Proofs.Controller.Record

/-!
# What each operation does

A controller's `Standing` is what can be asked of it: the phase of its program and what it keeps about it. For each operation
one relation lists the ways it can go, failures included: what it answers, which calls the guest receives and what comes of
them, and where the controller stands afterwards (`HandedOff`, `Submitted`, `TornDown`, `Begun`, `Started`, `Halted`, `Asked`,
`Checked`, `Stepped`). One lemma for each operation says that it goes in one of these ways, over any guest. Invariants are
proved by cases on the relations and never open the operations again.
-/

namespace Playground

/-- Where a controller stands. -/
structure Standing where
  state : RunState
  runActive : Bool
  fault : Option Outcome
  runs : Nat
  generation : Nat

/-- What can be asked of a controller. -/
def Controller.standing {γ : Type} (c : Controller γ) : Standing :=
  ⟨c.state, c.runActive, c.fault, c.runs, c.generation⟩

@[simp] theorem Controller.standing_erase {γ : Type} (c : Controller (Recorded γ)) : c.erase.standing = c.standing := rfl

namespace Call

/-- A call that compiles the text of a slice. -/
def ofValidate (slice : Slice) (result : Except GuestError Int32) : Call := ⟨.validate slice.ptr slice.len, result⟩

/-- A call that prepares the run of a text. -/
def ofInitRun (slice : Slice) (result : Except GuestError Int32) : Call := ⟨.initRun slice.ptr slice.len, result⟩

end Call

/-! ## Handing a payload over -/

/-- The ways in which a hand-off goes, for the call that `call` writes down. -/
inductive HandedOff (call : Slice → Except GuestError Int32 → Call) (payload : List UInt8) :
    Except MarshalError Int32 → List Call → Prop where
  | tooLarge (h : Memory.maxLength < payload.length) : HandedOff call payload (.error (.payloadTooLarge payload.length)) []
  | notAllocated (e : GuestError) :
    HandedOff call payload (.error (.guest e)) [⟨.allocate (Machine.regionSize payload), .error e⟩]
  | noRegion :
    HandedOff call payload (.error (.outOfMemory (Machine.regionSize payload)))
      [⟨.allocate (Machine.regionSize payload), .ok 0⟩]
  | notCopied (ptr : UInt32) (hptr : ptr ≠ 0) (e : BoundsError) (released : Except GuestError Unit) :
    HandedOff call payload (.error (.guest (.bounds e)))
      [⟨.allocate (Machine.regionSize payload), .ok ptr⟩, ⟨.release ptr (Machine.regionSize payload), released⟩]
  | called (ptr : UInt32) (hptr : ptr ≠ 0) (used : Except GuestError Int32) (released : Except GuestError Unit) :
    HandedOff call payload (Machine.settle used released).1
      [⟨.allocate (Machine.regionSize payload), .ok ptr⟩, call ⟨ptr, UInt32.ofNat payload.length⟩ used,
        ⟨.release ptr (Machine.regionSize payload), released⟩]

/-- The ways in which source text is handed over: as its bytes, and a guest without room has given an outcome. -/
inductive Submitted (call : Slice → Except GuestError Int32 → Call) (source : String) :
    Except HostError Outcome → List Call → Prop where
  | answered {status : Int32} {calls : List Call} (h : HandedOff call (Text.encode source) (.ok status) calls) :
    Submitted call source (.ok (.ofStatus status)) calls
  | noRoom {e : MarshalError} {calls : List Call} (h : HandedOff call (Text.encode source) (.error e) calls)
    (he : e.isOutOfMemory = true) : Submitted call source (.ok .outOfMemory) calls
  | failed {e : MarshalError} {calls : List Call} (h : HandedOff call (Text.encode source) (.error e) calls)
    (he : e.isOutOfMemory = false) : Submitted call source (.error (.marshal e)) calls

/-- Source text is handed over by one hand-off of its bytes. -/
theorem Submitted.handedOff {call : Slice → Except GuestError Int32 → Call} {source : String}
    {result : Except HostError Outcome} {given : List Call} (h : Submitted call source result given) :
    ∃ answer, HandedOff call (Text.encode source) answer given := by
  cases h with
  | answered h => exact ⟨_, h⟩
  | noRoom h _ => exact ⟨_, h⟩
  | failed h _ => exact ⟨_, h⟩

/-- A hand-off goes in one of its ways, if the call it is made for adds just itself to the record. -/
theorem Machine.handOff_goes {γ : Type} [Guest γ] (call : Slice → Except GuestError Int32 → Call)
    (use : Slice → Machine (Recorded γ) → Except GuestError Int32 × Machine (Recorded γ))
    (huse : ∀ slice m, (use slice m).2.calls = m.calls ++ [call slice (use slice m).1]) (m : Machine (Recorded γ))
    (payload : List UInt8) :
    ∃ new, (m.handOff payload use).2.1.calls = m.calls ++ new ∧ HandedOff call payload (m.handOff payload use).1 new := by
  rw [handOff_eq]
  by_cases hfit : payload.length ≤ Memory.maxLength
  · simp only [if_pos hfit]
    rcases hallocate : Guest.call (.allocate (regionSize payload)) m with ⟨e | ptr, m₁⟩
    · exact ⟨_, calls_of_call hallocate, .notAllocated e⟩
    have h₁ := calls_of_call hallocate
    by_cases hptr : ptr = 0
    · subst hptr
      exact ⟨_, h₁, .noRegion⟩
    simp only [if_neg hptr, place_eq]
    rcases m₁.memory.copyIn ptr payload with e | memory
    · rcases hrelease : Guest.call (.release ptr (regionSize payload)) m₁ with ⟨released, m₂⟩
      have h₂ := calls_of_call hrelease
      rw [h₁, List.append_assoc] at h₂
      cases released with
      | error e' => exact ⟨_, h₂, .notCopied ptr hptr e _⟩
      | ok _ => exact ⟨_, h₂, .notCopied ptr hptr e _⟩
    · have hused := huse ⟨ptr, UInt32.ofNat payload.length⟩ { m₁ with memory }
      dsimp only
      generalize use ⟨ptr, UInt32.ofNat payload.length⟩ { m₁ with memory } = outcome at hused ⊢
      obtain ⟨used, m₂⟩ := outcome
      have h₂ : m₂.calls = m₁.calls ++ [call ⟨ptr, UInt32.ofNat payload.length⟩ used] := hused
      rcases hrelease : Guest.call (.release ptr (regionSize payload)) m₂ with ⟨released, m₃⟩
      have h₃ := calls_of_call hrelease
      rw [h₂, h₁, List.append_assoc, List.append_assoc] at h₃
      exact ⟨_, h₃, .called ptr hptr used released⟩
  · rw [if_neg hfit]
    exact ⟨[], by simp, .tooLarge (by omega)⟩

/-! ## Starting and stopping -/

namespace Standing

/-- Where a start stands once the old run is gone. -/
def begun (p : Standing) : Standing := { p with generation := p.generation + 1, state := .compiling, fault := none }

/-- A program faulted, and no outcome says why. -/
def faulted (p : Standing) : Standing := { p with state := .faulted }

/-- A program faulted with an outcome. -/
def faultedBy (p : Standing) (outcome : Outcome) : Standing := { p with state := .faulted, fault := some outcome }

/-- A program was started and runs. -/
def launched (p : Standing) : Standing := { p with runActive := true, state := .running, runs := p.runs + 1 }

end Standing

/-- The ways in which an active run is torn down, if there is one. -/
inductive TornDown (p : Standing) : Except HostError Unit → List Call → Standing → Prop where
  | none (h : p.runActive = false) : TornDown p (.ok ()) [] p
  | ended (h : p.runActive = true) : TornDown p (.ok ()) [⟨.deinitRun, .ok ()⟩] { p with runActive := false }
  | failed (h : p.runActive = true) (e : GuestError) :
    TornDown p (.error (.guest e)) [⟨.deinitRun, .error e⟩] { p with runActive := false, state := .faulted }

/-- The ways in which a start goes on once the old run is gone: its source cannot be handed over; the guest refuses the program;
the program runs; or the console cannot be cleared for it, and it is torn down at once. -/
inductive Begun (p : Standing) (source : String) : Except HostError Outcome → List Call → Standing → Prop where
  | failed {e : HostError} {given : List Call} (hg : Submitted Call.ofInitRun source (.error e) given) :
    Begun p source (.error e) given p.begun.faulted
  | refused {outcome : Outcome} {given : List Call} (hg : Submitted Call.ofInitRun source (.ok outcome) given)
    (ho : outcome ≠ .success) : Begun p source (.ok outcome) given (p.begun.faultedBy outcome)
  | launched {given : List Call} (hg : Submitted Call.ofInitRun source (.ok .success) given) :
    Begun p source (.ok .success) given p.begun.launched
  | abandoned {given torn : List Call} {q : Standing} {result : Except HostError Unit}
    (hg : Submitted Call.ofInitRun source (.ok .success) given) (e : ConsoleError)
    (ht : TornDown { p.begun with runActive := true, state := .faulted } result torn q) :
    Begun p source (.error (.console e)) (given ++ torn) q

/-- The ways in which a start goes: the old run cannot be torn down, and that is all; or it is gone, and the start goes on. -/
inductive Started (p : Standing) (source : String) : Except HostError Outcome → List Call → Standing → Prop where
  | held {e : HostError} {torn : List Call} {q : Standing} (ht : TornDown p (.error e) torn q) :
    Started p source (.error e) torn q
  | begun {result : Except HostError Outcome} {torn new : List Call} {q q' : Standing} (ht : TornDown p (.ok ()) torn q)
    (hb : Begun q source result new q') : Started p source result (torn ++ new) q'

/-- The ways in which a stop goes. -/
inductive Halted (p : Standing) : List Call → Standing → Prop where
  | running {result : Except HostError Unit} {torn : List Call} {q : Standing} (h : p.state = .running)
    (ht : TornDown { p with state := .stopped } result torn q) : Halted p torn q
  | faulted {result : Except HostError Unit} {torn : List Call} {q : Standing} (h : p.state = .faulted)
    (ht : TornDown p result torn q) : Halted p torn q
  | idle (hr : p.state ≠ .running) (hf : p.state ≠ .faulted) : Halted p [] p

/-! ## Asking and stepping -/

/-- The ways in which the guest is asked whether the program is complete. -/
inductive Asked (p : Standing) : Except HostError Bool → List Call → Standing → Prop where
  | inactive (h : p.runActive = false) : Asked p (.ok true) [] p
  | answered (h : p.runActive = true) (finished : Bool) : Asked p (.ok finished) [⟨.isFinished, .ok finished⟩] p
  | failed (h : p.runActive = true) (e : GuestError) :
    Asked p (.error (.guest e)) [⟨.isFinished, .error e⟩] p.faulted

/-- The ways in which a program is checked for completion. -/
inductive Checked (p : Standing) : Except HostError Bool → List Call → Standing → Prop where
  | completed {asked : List Call} {q : Standing} (ha : Asked p (.ok true) asked q) (h : q.state = .running) :
    Checked p (.ok true) asked { q with state := .stopped }
  | unchanged {result : Except HostError Bool} {asked : List Call} {q : Standing} (ha : Asked p result asked q)
    (h : result = .ok true → q.state ≠ .running) : Checked p result asked q

/-- The ways in which a step goes. -/
inductive Stepped (p : Standing) (budget : UInt32) : Except HostError Outcome → List Call → Standing → Prop where
  | failed (h : p.state = .running) (e : GuestError) :
    Stepped p budget (.error (.guest e)) [⟨.step budget, .error e⟩] p.faulted
  | worked (h : p.state = .running) : Stepped p budget (.ok .success) [⟨.step budget, .ok 0⟩] p
  | ended (h : p.state = .running) {status : Int32} (hs : status ≠ 0) :
    Stepped p budget (.ok (.ofStatus status)) [⟨.step budget, .ok status⟩] (p.faultedBy (.ofStatus status))
  | stopped (h : p.state = .stopped) : Stepped p budget (.ok .cancelled) [] p
  | refused (hr : p.state ≠ .running) (hs : p.state ≠ .stopped) :
    Stepped p budget (.error (.invalidTransition "step" p.state)) [] p

/-! ## Every operation goes in one of its ways -/

namespace Controller

variable {γ : Type} [Guest γ]

/-- A teardown goes in one of its ways. -/
theorem teardown_goes (c : Controller (Recorded γ)) :
    ∃ new, c.teardown.2.calls = c.calls ++ new ∧ TornDown c.standing c.teardown.1 new c.teardown.2.standing := by
  unfold teardown
  by_cases hactive : c.runActive = true
  · rw [if_pos hactive]
    rcases hcall : Guest.call .deinitRun c.machine with ⟨e | _, m⟩
    · exact ⟨_, Machine.calls_of_call hcall, .failed hactive e⟩
    · exact ⟨_, Machine.calls_of_call hcall, .ended hactive⟩
  · rw [if_neg hactive]
    exact ⟨[], by simp, .none (Bool.eq_false_iff.mpr hactive)⟩

/-- Handing source over leaves the controller where it stands. -/
theorem callWithSource_goes (call : Slice → Except GuestError Int32 → Call)
    (use : Slice → Machine (Recorded γ) → Except GuestError Int32 × Machine (Recorded γ))
    (huse : ∀ slice m, (use slice m).2.calls = m.calls ++ [call slice (use slice m).1]) (c : Controller (Recorded γ))
    (source : String) :
    ∃ new, (c.callWithSource (.ofText source) use).2.calls = c.calls ++ new ∧
      Submitted call source (c.callWithSource (.ofText source) use).1 new ∧
      (c.callWithSource (.ofText source) use).2.standing = c.standing := by
  obtain ⟨new, hcalls, hgoes⟩ := Machine.handOff_goes call use huse c.machine (Text.encode source)
  unfold callWithSource
  rw [Machine.handOffPayload_ofText]
  generalize c.machine.handOff (Text.encode source) use = handed at hcalls hgoes ⊢
  obtain ⟨e | status, m, events⟩ := handed
  · cases hroom : e.isOutOfMemory with
    | true =>
      simp only [hroom, if_true]
      exact ⟨new, hcalls, .noRoom hgoes hroom, rfl⟩
    | false =>
      simp only [hroom]
      exact ⟨new, hcalls, .failed hgoes hroom, rfl⟩
  · exact ⟨new, hcalls, .answered hgoes, rfl⟩

/-- A check of source text leaves the controller where it stands. -/
theorem validate_goes (c : Controller (Recorded γ)) (source : String) :
    ∃ new, (c.validate source).2.calls = c.calls ++ new ∧ Submitted Call.ofValidate source (c.validate source).1 new ∧
      (c.validate source).2.standing = c.standing := by
  obtain ⟨new, hcalls, hgoes, hstanding⟩ := callWithSource_goes Call.ofValidate
    (fun slice m => Guest.call (.validate slice.ptr slice.len) m)
    (fun slice m => Machine.calls_call (.validate slice.ptr slice.len) m) c source
  unfold validate
  generalize c.callWithSource (.ofText source) _ = submitted at hcalls hgoes hstanding ⊢
  obtain ⟨e | outcome, c'⟩ := submitted
  · exact ⟨new, hcalls, hgoes, hstanding⟩
  · cases outcome with
    | success => exact ⟨new, hcalls, hgoes, hstanding⟩
    | _ => exact ⟨new, hcalls, hgoes, hstanding⟩

/-- A start that lost its console tears its run down. -/
theorem abandon_goes (c : Controller (Recorded γ)) (e : ConsoleError) :
    (c.abandon e).1 = .error (.console e) ∧ ∃ new result, (c.abandon e).2.calls = c.calls ++ new ∧
      TornDown { c.standing with state := .faulted } result new (c.abandon e).2.standing := by
  obtain ⟨new, hcalls, hgoes⟩ := teardown_goes { c with state := .faulted }
  unfold abandon
  generalize teardown { c with state := .faulted } = torn at hcalls hgoes ⊢
  obtain ⟨_ | _, c'⟩ := torn
  · exact ⟨rfl, new, _, hcalls, hgoes⟩
  · exact ⟨rfl, new, _, hcalls, hgoes⟩

/-- With a run prepared, a start ends with the program running, or with its console lost and its run torn down. -/
theorem launch_goes (c : Controller (Recorded γ)) :
    (c.launch.1 = .ok .success ∧ c.launch.2.calls = c.calls ∧ c.launch.2.standing = c.standing.launched) ∨
    ∃ e new result, c.launch.1 = .error (.console e) ∧ c.launch.2.calls = c.calls ++ new ∧
      TornDown { c.standing with runActive := true, state := .faulted } result new c.launch.2.standing := by
  unfold launch
  by_cases hclear : c.clearOnStart = true
  · simp only [if_pos hclear]
    rcases c.machine.bridge.clearConsole with ⟨e | _, bridge⟩
    · obtain ⟨hresult, new, result, hcalls, hgoes⟩ :=
        abandon_goes { c with runActive := true, machine := { c.machine with bridge } } e
      exact .inr ⟨e, new, result, hresult, hcalls, hgoes⟩
    · exact .inl ⟨rfl, rfl, rfl⟩
  · simp only [if_neg hclear]
    exact .inl ⟨rfl, rfl, rfl⟩

/-- Without an old run, a start goes on in one of its ways. -/
theorem begin_goes {c c₁ : Controller (Recorded γ)} (source : String) (h : c.teardown = (.ok (), c₁)) :
    ∃ new, (c.start source).2.calls = c₁.calls ++ new ∧
      Begun c₁.standing source (c.start source).1 new (c.start source).2.standing := by
  obtain ⟨given, hgiven, hg, hstanding⟩ := callWithSource_goes Call.ofInitRun
    (fun slice m => Guest.call (.initRun slice.ptr slice.len) m)
    (fun slice m => Machine.calls_call (.initRun slice.ptr slice.len) m) c₁.beginStart source
  have hbegun : c₁.beginStart.standing = c₁.standing.begun := rfl
  have hcalls : c₁.beginStart.calls = c₁.calls := rfl
  rw [hcalls] at hgiven
  rw [hbegun] at hstanding
  unfold start startPayload
  rw [h]
  dsimp only
  generalize c₁.beginStart.callWithSource (.ofText source) _ = submitted at hgiven hg hstanding ⊢
  obtain ⟨e | outcome, c₂⟩ := submitted
  · refine ⟨given, hgiven, ?_⟩
    have hfinal : ({ c₂ with state := .faulted } : Controller _).standing = c₁.standing.begun.faulted :=
      congrArg Standing.faulted hstanding
    exact hfinal ▸ .failed hg
  by_cases ho : outcome = .success
  · subst ho
    obtain ⟨hresult, hlaunch, hfinal⟩ | ⟨e, torn, result, hresult, hlaunch, ht⟩ := c₂.launch_goes
    · refine ⟨given, hlaunch.trans hgiven, ?_⟩
      rw [hresult, hfinal, hstanding]
      exact .launched hg
    · refine ⟨given ++ torn, ?_, ?_⟩
      · rw [hlaunch, hgiven, List.append_assoc]
      · rw [hstanding] at ht
        rw [hresult]
        exact .abandoned hg e ht
  · have hfinal : (({ c₂ with state := .faulted, fault := some outcome } : Controller _).note
        [.compileFailed outcome]).standing = c₁.standing.begun.faultedBy outcome :=
      congrArg (Standing.faultedBy · outcome) hstanding
    cases outcome with
    | success => exact absurd rfl ho
    | _ => exact ⟨given, hgiven, hfinal ▸ .refused hg ho⟩

/-- A start that cannot tear the old run down does no more than that. -/
theorem start_of_teardown_error {c c₁ : Controller γ} {e : HostError} (source : String)
    (h : c.teardown = (.error e, c₁)) : c.start source = (.error e, c₁) := by
  unfold start startPayload
  rw [h]

/-- So does a start. -/
theorem start_goes (c : Controller (Recorded γ)) (source : String) :
    ∃ new, (c.start source).2.calls = c.calls ++ new ∧
      Started c.standing source (c.start source).1 new (c.start source).2.standing := by
  obtain ⟨torn, htorn, ht⟩ := c.teardown_goes
  rcases h : c.teardown with ⟨e | _, c₁⟩
  · rw [h] at htorn ht
    rw [start_of_teardown_error source h]
    exact ⟨torn, htorn, .held ht⟩
  · rw [h] at htorn ht
    obtain ⟨new, hcalls, hb⟩ := begin_goes source h
    exact ⟨torn ++ new, by rw [hcalls, htorn, List.append_assoc], .begun ht hb⟩

/-- So does a stop. -/
theorem stop_goes (c : Controller (Recorded γ)) :
    ∃ new, c.stop.calls = c.calls ++ new ∧ Halted c.standing new c.stop.standing := by
  unfold stop
  cases hs : c.state with
  | running =>
    obtain ⟨torn, hcalls, ht⟩ := teardown_goes { c with state := .stopped }
    dsimp only
    generalize teardown { c with state := .stopped } = tornDown at hcalls ht ⊢
    obtain ⟨_ | _, c'⟩ := tornDown
    · exact ⟨torn, hcalls, .running hs ht⟩
    · exact ⟨torn, hcalls, .running hs ht⟩
  | faulted =>
    obtain ⟨torn, hcalls, ht⟩ := c.teardown_goes
    dsimp only
    generalize c.teardown = tornDown at hcalls ht ⊢
    obtain ⟨_ | _, c'⟩ := tornDown
    · exact ⟨torn, hcalls, .faulted hs ht⟩
    · exact ⟨torn, hcalls, .faulted hs ht⟩
  | idle | compiling | stopped =>
    refine ⟨[], by simp, .idle ?_ ?_⟩ <;> exact fun h => nomatch hs.symm.trans h

/-- So does the question whether the program is complete. -/
theorem isFinished_goes (c : Controller (Recorded γ)) :
    ∃ new, c.isFinished.2.calls = c.calls ++ new ∧ Asked c.standing c.isFinished.1 new c.isFinished.2.standing := by
  unfold isFinished
  by_cases hactive : c.runActive = true
  · rw [if_pos hactive]
    rcases hcall : Guest.call .isFinished c.machine with ⟨e | finished, m⟩
    · exact ⟨_, Machine.calls_of_call hcall, .failed hactive e⟩
    · exact ⟨_, Machine.calls_of_call hcall, .answered hactive finished⟩
  · rw [if_neg hactive]
    exact ⟨[], by simp, .inactive (Bool.eq_false_iff.mpr hactive)⟩

/-- So does the check for completion. -/
theorem checkFinished_goes (c : Controller (Recorded γ)) :
    ∃ new, c.checkFinished.2.calls = c.calls ++ new ∧
      Checked c.standing c.checkFinished.1 new c.checkFinished.2.standing := by
  obtain ⟨asked, hcalls, ha⟩ := c.isFinished_goes
  unfold checkFinished
  generalize c.isFinished = answer at hcalls ha ⊢
  obtain ⟨e | finished, c'⟩ := answer
  · exact ⟨asked, hcalls, .unchanged ha (fun h => nomatch h)⟩
  by_cases hdone : finished = true ∧ c'.state = .running
  · obtain ⟨rfl, hrunning⟩ := hdone
    simp only [hrunning, and_self, if_true]
    exact ⟨asked, hcalls, .completed ha hrunning⟩
  · simp only [if_neg hdone]
    refine ⟨asked, hcalls, .unchanged ha ?_⟩
    intro hfinished hrunning
    exact hdone ⟨Except.ok.inj hfinished, hrunning⟩

/-- So does a step. -/
theorem step_goes (c : Controller (Recorded γ)) (budget : UInt32) :
    ∃ new, (c.step budget).2.calls = c.calls ++ new ∧
      Stepped c.standing budget (c.step budget).1 new (c.step budget).2.standing := by
  unfold step
  split
  next hs =>
    rcases hcall : Guest.call (.step budget) c.machine with ⟨e | status, m⟩
    · exact ⟨_, Machine.calls_of_call hcall, .failed hs e⟩
    have hcalls := Machine.calls_of_call hcall
    by_cases hstatus : status = 0
    · subst hstatus
      exact ⟨_, hcalls, .worked hs⟩
    · have hne : Outcome.ofStatus status ≠ .success := fun h => hstatus (Outcome.ofStatus_eq_success_iff.mp h)
      have hended : Stepped c.standing budget (.ok (.ofStatus status)) [⟨.step budget, .ok status⟩]
        (c.standing.faultedBy (.ofStatus status)) := .ended hs hstatus
      dsimp only
      generalize Outcome.ofStatus status = outcome at hne hended ⊢
      cases outcome with
      | success => exact absurd rfl hne
      | _ => exact ⟨_, hcalls, hended⟩
  next hs => exact ⟨[], by simp, .stopped hs⟩
  next hr hs => exact ⟨[], by simp, .refused hr hs⟩

omit [Guest γ] in
/-- Input changes nothing about where the controller stands, and is no call. -/
theorem pushInput_goes (c : Controller (Recorded γ)) (bytes : List UInt8) :
    (c.pushInput bytes).2.calls = c.calls ∧ (c.pushInput bytes).2.standing = c.standing := by
  unfold pushInput
  split <;> exact ⟨rfl, rfl⟩

end Controller

end Playground
