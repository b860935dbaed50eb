import Playground.Clock
import Playground.Console.Queue
import Playground.Console.Sink
import Playground.Text.Utf8

/-!
# The console bridge

The host's side of the guest's console: pending input, output, and the clock with the anchor of the current run. The host pushes
input and moves the anchor between guest calls; the guest reads, writes and asks the time during them.
-/

namespace Playground

/-- The host's side of the guest's console. -/
structure Bridge where
  input : Queue := {}
  sink : Sink := {}
  clock : Clock := {}
  anchor : TimeAnchor := {}

namespace Bridge

/-- A bridge over a sink and a clock, anchored at the clock's present reading. -/
def create (sink : Sink) (clock : Clock) : Bridge := { sink, clock, anchor := ⟨clock.now⟩ }

/-- Keeps what was typed for the guest to read. -/
def pushInput (b : Bridge) (bytes : List UInt8) : Bridge := { b with input := b.input.push bytes }

/-- Hands the guest up to `room` bytes of pending input. -/
def consoleRead (b : Bridge) (room : Nat) : List UInt8 × Bridge :=
  let (taken, input) := b.input.drain room
  (taken, { b with input })

/-- Forwards the guest's output as it is. -/
def consoleWrite (b : Bridge) (bytes : List UInt8) : Except ConsoleError Unit × Bridge :=
  let (result, sink) := b.sink.emit bytes
  (result, { b with sink })

/-- Prints text of the host's own. -/
def announce (b : Bridge) (text : String) : Except ConsoleError Unit × Bridge := b.consoleWrite (Text.encode text)

/-- Clears the console. -/
def clearConsole (b : Bridge) : Except ConsoleError Unit × Bridge :=
  let (result, sink) := b.sink.clear
  (result, { b with sink })

/-- Drops pending input. -/
def clearInput (b : Bridge) : Bridge := { b with input := b.input.clear }

/-- Milliseconds since the current run was anchored. -/
def elapsedMillis (b : Bridge) : UInt32 := b.anchor.elapsedMillis b.clock.now

/-- Anchors guest time at the present reading. -/
def resetAnchor (b : Bridge) : Bridge := { b with anchor := ⟨b.clock.now⟩ }

/-- Lets time pass. -/
def advance (b : Bridge) (d : Duration) : Bridge := { b with clock := b.clock.advance d }

end Bridge

end Playground
