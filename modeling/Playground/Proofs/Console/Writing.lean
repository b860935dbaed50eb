import Playground.Proofs.Console.Reading

/-!
# Writing to the console

What a sink receives are outputs: bytes to print, and requests to be cleared, and it may fail any of them. On a sink that forgets
what was printed when it is cleared, `screen` reads the contents off the outputs that were taken (`contents_receiveAll`).
`WritesConsole` is for interpreters that do nothing else to the sink but print. It follows from `UsesConsole`, as `ReadsConsole` does,
which tells all that a call does to the console: the interpreters of this library read from it, print to it and let time pass.
-/

namespace Playground

/-- Something that a sink receives. -/
inductive Output where
  | write (bytes : List UInt8)
  | clear
  deriving DecidableEq, Repr

namespace Sink

/-- What comes of an output, and the sink afterwards. -/
def receive (s : Sink) : Output → Except ConsoleError Unit × Sink
  | .write bytes => s.emit bytes
  | .clear => s.clear

/-- The sink after outputs, received in order. -/
def receiveAll (s : Sink) (outputs : List Output) : Sink := outputs.foldl (fun s output => (s.receive output).2) s

/-- Those of the outputs that the sink takes. -/
def taken (s : Sink) : List Output → List Output
  | [] => []
  | output :: outputs =>
    match s.receive output with
    | (.ok (), s) => output :: s.taken outputs
    | (.error _, s) => s.taken outputs

@[simp] theorem receiveAll_nil (s : Sink) : s.receiveAll [] = s := rfl

theorem receiveAll_append (s : Sink) (outputs outputs' : List Output) :
    s.receiveAll (outputs ++ outputs') = (s.receiveAll outputs).receiveAll outputs' :=
  List.foldl_append

/-- What a sink is like does not change. -/
theorem style_receive (s : Sink) (output : Output) : (s.receive output).2.style = s.style := by
  cases output with
  | write bytes =>
    unfold receive emit
    dsimp only
    split <;> rfl
  | clear =>
    unfold receive clear
    dsimp only
    split <;> rfl

/-- An output that is not taken leaves the contents as they are. -/
theorem contents_receive_of_error {s s' : Sink} {output : Output} {e : ConsoleError}
    (h : s.receive output = (.error e, s')) : s'.contents = s.contents := by
  cases output with
  | write bytes =>
    unfold receive emit at h
    dsimp only at h
    split at h <;> cases h
    rfl
  | clear =>
    unfold receive clear at h
    dsimp only at h
    split at h <;> cases h
    rfl

end Sink

/-- What there is to see after one more output that was taken. -/
def Output.paint (shown : List UInt8) : Output → List UInt8
  | .write bytes => shown ++ bytes
  | .clear => []

/-- What there is to see after outputs that were taken: what was printed since the last of them that cleared the console. -/
def screen (shown : List UInt8) (outputs : List Output) : List UInt8 := outputs.foldl Output.paint shown

namespace Sink

/-- An output that a forgetful sink takes shows. -/
theorem contents_receive_of_ok {s s' : Sink} (hstyle : s.style = .forget) {output : Output}
    (h : s.receive output = (.ok (), s')) : s'.contents = output.paint s.contents := by
  cases output with
  | write bytes =>
    unfold receive emit at h
    dsimp only at h
    split at h <;> cases h
    simp [contents, Output.paint]
  | clear =>
    unfold receive clear at h
    dsimp only at h
    split at h <;> cases h
    simp [contents, Output.paint, hstyle]

/-- The contents of a forgetful sink are what the outputs that it took show. -/
theorem contents_receiveAll {s : Sink} (hstyle : s.style = .forget) (outputs : List Output) :
    (s.receiveAll outputs).contents = screen s.contents (s.taken outputs) := by
  induction outputs generalizing s with
  | nil => rfl
  | cons output outputs ih =>
    have hstyle' : (s.receive output).2.style = .forget := (s.style_receive output).trans hstyle
    have hrest := ih hstyle'
    unfold taken
    change ((s.receive output).2.receiveAll outputs).contents = _
    rw [hrest]
    rcases h : s.receive output with ⟨e | _, s'⟩
    · rw [contents_receive_of_error h]
    · rw [contents_receive_of_ok hstyle h]
      rfl

end Sink

/-! ## A console that takes everything -/

namespace Sink

/-- The sink never fails, and forgets what was printed when it is cleared. -/
structure Steady (s : Sink) : Prop where
  emits : ∀ attempt, s.emitError attempt = none
  clears : ∀ attempt, s.clearError attempt = none
  style : s.style = .forget

/-- A sink with nothing said about its answers is steady. -/
theorem steady_default : ({} : Sink).Steady := ⟨fun _ => rfl, fun _ => rfl, rfl⟩

variable {s : Sink}

/-- A steady sink takes what is printed. -/
theorem Steady.emit (h : s.Steady) (bytes : List UInt8) :
    ∃ s' : Sink, s.emit bytes = (.ok (), s') ∧ s'.Steady ∧ s'.contents = s.contents ++ bytes := by
  refine ⟨{ s with emitAttempts := s.emitAttempts + 1, chunks := bytes :: s.chunks, writes := s.writes + 1 }, ?_, { h with }, ?_⟩
  · simp [Sink.emit, h.emits]
  · simp [contents]

/-- A steady sink is empty once it was cleared. -/
theorem Steady.clear (h : s.Steady) : ∃ s' : Sink, s.clear = (.ok (), s') ∧ s'.Steady ∧ s'.contents = [] := by
  refine ⟨{ s with clearAttempts := s.clearAttempts + 1, chunks := [], clears := s.clears + 1 }, ?_, { h with }, rfl⟩
  simp [Sink.clear, h.clears, h.style]

/-- A steady sink stays one, whatever it receives. -/
theorem Steady.receive (h : s.Steady) (output : Output) : (s.receive output).2.Steady := by
  cases output with
  | write bytes =>
    obtain ⟨s', hemit, hsteady, -⟩ := h.emit bytes
    rw [Sink.receive, hemit]
    exact hsteady
  | clear =>
    obtain ⟨s', hclear, hsteady, -⟩ := h.clear
    rw [Sink.receive, hclear]
    exact hsteady

/-- It stays one through a whole row of outputs. -/
theorem Steady.receiveAll (h : s.Steady) (outputs : List Output) : (s.receiveAll outputs).Steady := by
  induction outputs generalizing s with
  | nil => exact h
  | cons output outputs ih => exact ih (h.receive output)

end Sink

namespace Bridge

/-- A console that takes everything can be cleared. -/
theorem exists_cleared {b : Bridge} (h : b.sink.Steady) :
    ∃ sink, b.clearConsole = (.ok (), { b with sink }) ∧ sink.Steady ∧ sink.contents = [] := by
  obtain ⟨sink, hclear, hsteady, hcontents⟩ := h.clear
  refine ⟨sink, ?_, hsteady, hcontents⟩
  simp only [clearConsole, hclear]

/-! ## A failed attempt -/

/-- A bridge is like another in what is on the console, what is pending, and the time that the guest is told. -/
structure Unmoved (b b' : Bridge) : Prop where
  contents : b'.sink.contents = b.sink.contents
  input : b'.input = b.input
  clock : b'.clock = b.clock
  anchor : b'.anchor = b.anchor

variable {b b' : Bridge} {e : ConsoleError}

/-- A print that fails moves nothing. -/
theorem unmoved_of_consoleWrite_error {bytes : List UInt8} (h : b.consoleWrite bytes = (.error e, b')) : b.Unmoved b' := by
  unfold consoleWrite at h
  rcases hemit : b.sink.receive (.write bytes) with ⟨result, sink⟩
  rw [show b.sink.emit bytes = (result, sink) from hemit] at h
  cases h
  exact ⟨Sink.contents_receive_of_error hemit, rfl, rfl, rfl⟩

/-- An attempt to clear the console that fails moves nothing. -/
theorem unmoved_of_clearConsole_error (h : b.clearConsole = (.error e, b')) : b.Unmoved b' := by
  unfold clearConsole at h
  rcases hclear : b.sink.receive .clear with ⟨result, sink⟩
  rw [show b.sink.clear = (result, sink) from hclear] at h
  cases h
  exact ⟨Sink.contents_receive_of_error hclear, rfl, rfl, rfl⟩

end Bridge

/-! ## Guests that only write -/

/-- Interpreters that do nothing to the sink but print. -/
class WritesConsole (γ : Type) [Guest γ] where
  /-- What a call prints, in order, the attempts that fail included. -/
  writes : Export → Machine γ → List (List UInt8)
  /-- A call does to the sink what its prints do. -/
  sink_call : ∀ e (m : Machine γ), (Guest.call e m).2.bridge.sink = m.bridge.sink.receiveAll ((writes e m).map .write)

/-- Something that an interpreter does to the console. -/
inductive ConsoleUse where
  | read (room : Nat)
  | write (bytes : List UInt8)
  /-- Time passes. -/
  | wait (d : Duration)
  deriving DecidableEq, Repr

/-- The room that a use offers to pending input, if it is a read. -/
def ConsoleUse.room? : ConsoleUse → Option Nat
  | .read room => some room
  | .write _ | .wait _ => none

/-- What a use prints. -/
def ConsoleUse.written? : ConsoleUse → Option (List UInt8)
  | .write bytes => some bytes
  | .read _ | .wait _ => none

namespace Bridge

/-- The bridge after a use. -/
def use (b : Bridge) : ConsoleUse → Bridge
  | .read room => (b.consoleRead room).2
  | .write bytes => (b.consoleWrite bytes).2
  | .wait d => b.advance d

/-- The bridge after uses, made in order. -/
def useAll (b : Bridge) (uses : List ConsoleUse) : Bridge := uses.foldl use b

@[simp] theorem useAll_nil (b : Bridge) : b.useAll [] = b := rfl

theorem useAll_append (b : Bridge) (uses uses' : List ConsoleUse) : b.useAll (uses ++ uses') = (b.useAll uses).useAll uses' :=
  List.foldl_append

/-- Of all uses, pending input is read by the reads. -/
theorem input_useAll (b : Bridge) (uses : List ConsoleUse) :
    (b.useAll uses).input = b.input.drainAll (uses.filterMap ConsoleUse.room?) := by
  induction uses generalizing b with
  | nil => rfl
  | cons use uses ih =>
    refine (ih (b.use use)).trans ?_
    cases use with
    | read room => rfl
    | write bytes => rfl
    | wait d => rfl

/-- Of all uses, the sink receives what they print. -/
theorem sink_useAll (b : Bridge) (uses : List ConsoleUse) :
    (b.useAll uses).sink = b.sink.receiveAll ((uses.filterMap ConsoleUse.written?).map .write) := by
  induction uses generalizing b with
  | nil => rfl
  | cons use uses ih =>
    refine (ih (b.use use)).trans ?_
    cases use with
    | write bytes => rfl
    | read room => rfl
    | wait d => rfl

end Bridge

/-- Interpreters that do nothing to the console but read, print and let time pass. -/
class UsesConsole (γ : Type) [Guest γ] where
  /-- What a call does to the console, in order. -/
  uses : Export → Machine γ → List ConsoleUse
  /-- A call does to the console what its uses do. -/
  bridge_call : ∀ e (m : Machine γ), (Guest.call e m).2.bridge = m.bridge.useAll (uses e m)

/-- Of what they do to the console, only their reads get at pending input. -/
instance UsesConsole.readsConsole {γ : Type} [Guest γ] [UsesConsole γ] : ReadsConsole γ where
  rooms e m := (UsesConsole.uses e m).filterMap ConsoleUse.room?
  input_call e m := by rw [UsesConsole.bridge_call e m, Bridge.input_useAll]

/-- Of what they do to the console, only their prints get to the sink. -/
instance UsesConsole.writesConsole {γ : Type} [Guest γ] [UsesConsole γ] : WritesConsole γ where
  writes e m := (UsesConsole.uses e m).filterMap ConsoleUse.written?
  sink_call e m := by rw [UsesConsole.bridge_call e m, Bridge.sink_useAll]

namespace Machine

variable {γ : Type}

/-- The read import as a use: none where it fails. -/
def usesRead (m : Machine γ) (ptr room : UInt32) : List ConsoleUse :=
  if m.memory.InBounds ptr room.toNat then [.read room.toNat] else []

/-- The write import as a use: none where the range is not in memory. -/
def usesWrite (m : Machine γ) (ptr len : UInt32) : List ConsoleUse :=
  match m.memory.copyOut ptr len with
  | .error _ => []
  | .ok bytes => [.write bytes]

/-- A read import does what it is as a use. -/
theorem bridge_readConsole (m : Machine γ) (ptr room : UInt32) :
    (m.readConsole ptr room).2.bridge = m.bridge.useAll (m.usesRead ptr room) := by
  unfold readConsole usesRead
  split <;> rfl

/-- So does a write import. -/
theorem bridge_writeConsole (m : Machine γ) (ptr len : UInt32) :
    (m.writeConsole ptr len).2.bridge = m.bridge.useAll (m.usesWrite ptr len) := by
  unfold writeConsole usesWrite
  rcases m.memory.copyOut ptr len with e | bytes
  · rfl
  · change _ = (m.bridge.consoleWrite bytes).2
    dsimp only
    rcases m.bridge.consoleWrite bytes with ⟨_ | _, bridge⟩ <;> rfl

end Machine

end Playground
