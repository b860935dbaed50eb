/-!
# Guest time

Time is measured in spans since some fixed origin; only differences matter. A program sees the whole milliseconds since its
run was anchored: the difference of two readings is taken first and truncated afterwards, it stops at zero when the clock ran
backwards, and it stops at the greatest 32-bit value.
-/

namespace Playground

/-- A span of time, to the nanosecond. -/
structure Duration where
  nanoseconds : Nat
  deriving DecidableEq, Repr

namespace Duration

/-- A span given as seconds and nanoseconds. -/
def ofParts (seconds nanoseconds : Nat) : Duration := ⟨seconds * 1000000000 + nanoseconds⟩

/-- A span of whole milliseconds. -/
def ofMillis (millis : Nat) : Duration := ⟨millis * 1000000⟩

/-- The whole milliseconds of a span. -/
def wholeMillis (d : Duration) : Nat := d.nanoseconds / 1000000

end Duration

/-- A clock that is moved by hand; it counts milliseconds in 64 bits and wraps around. -/
structure Clock where
  millis : UInt64 := 0
  deriving DecidableEq, Repr

namespace Clock

/-- The reading of the clock. -/
def now (c : Clock) : Duration := .ofMillis c.millis.toNat

/-- Moves the clock on by the whole milliseconds of a span, at most `2 ^ 64 - 1` of them. -/
def advance (c : Clock) (d : Duration) : Clock := ⟨c.millis + UInt64.ofNat (min d.wholeMillis (UInt64.size - 1))⟩

end Clock

/-- The moment at which a run began. -/
structure TimeAnchor where
  start : Duration := ⟨0⟩
  deriving DecidableEq, Repr

namespace TimeAnchor

/-- The greatest number of milliseconds that a guest can be told. -/
def maxMillis : Nat := UInt32.size - 1

/-- Whole milliseconds between the anchor and a reading. -/
def elapsedMillis (a : TimeAnchor) (reading : Duration) : UInt32 :=
  UInt32.ofNat (min (Duration.wholeMillis ⟨reading.nanoseconds - a.start.nanoseconds⟩) maxMillis)

end TimeAnchor

end Playground
