import Playground.Proofs.Controller.View

/-!
# Starts whose hand-off is known

Where it is known how a source is handed over, it is known how a start on a controller without an active run ends: a program that
does not get to run is answered with the reason (`start_of_refused`), and one that the guest accepts is running, on a console that
was cleared (`start_of_accepted`).
-/

namespace Playground

namespace Controller

variable {γ : Type} [Guest γ] {c : Controller γ} {source : String} {m : Machine γ} {events : List LogEvent}

/-- What the guest is given the source for by a start. -/
abbrev initUse (slice : Slice) (m : Machine γ) : Except GuestError Int32 × Machine γ :=
  Guest.call (.initRun slice.ptr slice.len) m

/-- What the result of a hand-off means to the host. -/
def answerOf : Except MarshalError Int32 → Except HostError Outcome
  | .ok status => .ok (.ofStatus status)
  | .error e => if e.isOutOfMemory then .ok .outOfMemory else .error (.marshal e)

/-- Handing a source over answers what the result means, and changes nothing but the machine and the journal. -/
theorem callWithSource_of_handOff {use : Slice → Machine γ → Except GuestError Int32 × Machine γ}
    {result : Except MarshalError Int32} (h : c.machine.handOff (Text.encode source) use = (result, m, events)) :
    (c.callWithSource (.ofText source) use).1 = answerOf result ∧
      (c.callWithSource (.ofText source) use).2.unlogged = ({ c with machine := m } : Controller γ).unlogged := by
  unfold callWithSource
  rw [Machine.handOffPayload_ofText, h]
  rcases result with e | status
  · cases hroom : e.isOutOfMemory <;> simp only [answerOf, hroom] <;> exact ⟨rfl, rfl⟩
  · exact ⟨rfl, rfl⟩

/-- What a start does once its source was handed over. -/
def startWith (c : Controller γ) : Except HostError Outcome → Except HostError Outcome × Controller γ
  | .error e => (.error e, { c with state := .faulted })
  | .ok .success => c.launch
  | .ok outcome => (.ok outcome, { c with state := .faulted, fault := some outcome }.note [.compileFailed outcome])

/-- With no run active, a start hands its source over and goes on with the answer. -/
theorem start_of_handOff (hinactive : c.runActive = false) {result : Except MarshalError Int32}
    (h : c.beginStart.machine.handOff (Text.encode source) initUse = (result, m, events)) :
    ∃ c' : Controller γ, c.start source = c'.startWith (answerOf result) ∧
      c'.unlogged = ({ c.beginStart with machine := m } : Controller γ).unlogged := by
  obtain ⟨hanswer, hleft⟩ := callWithSource_of_handOff h
  have htorn : c.teardown = (.ok (), c) := by simp [teardown, hinactive]
  refine ⟨(c.beginStart.callWithSource (.ofText source) initUse).2, ?_, hleft⟩
  unfold start startPayload
  rw [htorn, ← hanswer]
  dsimp only
  rcases c.beginStart.callWithSource (.ofText source) _ with ⟨e | outcome, c'⟩
  · rfl
  · cases outcome <;> rfl

/-- A start whose program does not get to run answers why, and leaves no run active. -/
theorem start_of_refused (hinactive : c.runActive = false) {result : Except MarshalError Int32}
    (h : c.beginStart.machine.handOff (Text.encode source) initUse = (result, m, events))
    (hrefused : answerOf result ≠ .ok .success) :
    (c.start source).1 = answerOf result ∧ (c.start source).2.machine = m ∧ (c.start source).2.runActive = false ∧
      (c.start source).2.clearOnStart = c.clearOnStart := by
  obtain ⟨c', hstart, hleft⟩ := start_of_handOff hinactive h
  have hmachine : c'.machine = m := congrArg machine hleft
  have hinactive' : c'.runActive = false := (congrArg runActive hleft).trans hinactive
  have hclear : c'.clearOnStart = c.clearOnStart := (congrArg clearOnStart hleft :)
  rw [hstart]
  rcases hanswer : answerOf result with e | outcome
  · exact ⟨rfl, hmachine, hinactive', hclear⟩
  · cases outcome with
    | success => exact absurd hanswer hrefused
    | _ => exact ⟨rfl, hmachine, hinactive', hclear⟩

/-- With a console that can be cleared, a prepared run is launched. -/
theorem launch_of_cleared (hclear : c.clearOnStart = true) {bridge : Bridge}
    (hcleared : c.machine.bridge.clearConsole = (.ok (), bridge)) :
    ∃ d, c.launch = (.ok .success, d) ∧ d.machine = { c.machine with bridge } ∧ d.state = .running ∧ d.runActive = true ∧
      d.fault = c.fault := by
  refine ⟨(launched { c with runActive := true, machine := { c.machine with bridge } }).2, ?_, rfl, rfl, rfl, rfl⟩
  simp only [launch, if_pos hclear, hcleared]
  rfl

/-- A start whose program the guest accepts, with a console that can be cleared. -/
theorem start_of_accepted (hinactive : c.runActive = false) (hclear : c.clearOnStart = true) {bridge : Bridge}
    (h : c.beginStart.machine.handOff (Text.encode source) initUse = (.ok 0, m, events))
    (hcleared : m.bridge.clearConsole = (.ok (), bridge)) :
    ∃ d, c.start source = (.ok .success, d) ∧ d.machine = { m with bridge } ∧ d.state = .running ∧ d.runActive = true ∧
      d.fault = none := by
  obtain ⟨c', hstart, hleft⟩ := start_of_handOff hinactive h
  have hmachine : c'.machine = m := congrArg machine hleft
  have hclear' : c'.clearOnStart = true := (congrArg clearOnStart hleft).trans hclear
  have hfault : c'.fault = none := congrArg fault hleft
  subst hmachine
  rw [hstart, ← hfault]
  exact launch_of_cleared hclear' hcleared

end Controller

end Playground
