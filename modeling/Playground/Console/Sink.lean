import Playground.Text.Utf8

/-!
# Console output

A sink receives what the guest prints. It keeps what was emitted since it was last cleared and counts the attempts that
succeeded. Any attempt may fail, and then changes nothing else: attempts are numbered from one, emits and clears apart, and what
becomes of each of them is the sink's own affair. A sink is known by its answers, so there is one for every course of answers.
-/

namespace Playground

/-- A console that did not take what it was given, in its own words. -/
structure ConsoleError where
  message : String
  deriving DecidableEq, Repr

/-- How a console is cleared. -/
inductive ClearStyle where
  /-- What was printed is forgotten. -/
  | forget
  /-- A control sequence is printed: erase the screen, cursor home. -/
  | erase
  deriving DecidableEq, Repr

/-- A console's output side. `chunks` holds what was emitted since the last clear, newest first. -/
structure Sink where
  style : ClearStyle := .forget
  /-- The error of each attempt to emit, if it fails. -/
  emitError : Nat → Option ConsoleError := fun _ => none
  /-- The error of each attempt to clear, if it fails. -/
  clearError : Nat → Option ConsoleError := fun _ => none
  emitAttempts : Nat := 0
  clearAttempts : Nat := 0
  chunks : List (List UInt8) := []
  writes : Nat := 0
  clears : Nat := 0

namespace Sink

/-- Erase the screen, cursor home. -/
def eraseSequence : List UInt8 := [0x1B, 0x5B, 0x32, 0x4A, 0x1B, 0x5B, 0x48]

/-- Everything emitted since the last clear, in order. -/
def contents (s : Sink) : List UInt8 := s.chunks.reverse.flatten

/-- The contents as text. They are decoded as a whole, so it does not matter in which pieces they came. -/
def text (s : Sink) : String := Text.decodeLossy s.contents

/-- Forwards bytes as they are. -/
def emit (s : Sink) (bytes : List UInt8) : Except ConsoleError Unit × Sink :=
  let s := { s with emitAttempts := s.emitAttempts + 1 }
  match s.emitError s.emitAttempts with
  | some error => (.error error, s)
  | none => (.ok (), { s with chunks := bytes :: s.chunks, writes := s.writes + 1 })

/-- Clears the console before a program runs. -/
def clear (s : Sink) : Except ConsoleError Unit × Sink :=
  let s := { s with clearAttempts := s.clearAttempts + 1 }
  match s.clearError s.clearAttempts with
  | some error => (.error error, s)
  | none =>
    let chunks := match s.style with
      | .forget => []
      | .erase => eraseSequence :: s.chunks
    (.ok (), { s with chunks, clears := s.clears + 1 })

/-! ## Sinks that fail on purpose -/

/-- The error of an emit that fails on purpose. -/
def closed : ConsoleError := ⟨"pipe closed"⟩

/-- The error of a clear that fails on purpose. -/
def refused : ConsoleError := ⟨"reset refused"⟩

/-- A sink that fails in the attempts whose numbers are listed. -/
def failing (emits clears : List Nat) : Sink where
  emitError attempt := if attempt ∈ emits then some closed else none
  clearError attempt := if attempt ∈ clears then some refused else none

end Sink

end Playground
