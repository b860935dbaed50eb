import Playground.Proofs.Console.Writing
import Playground.Proofs.Controller.Lockstep

/-!
# Consoles that go on alike

`Bridge.Lockstep` is for relations between bridges along which reads and prints go alike, for as long as the clocks do not wrap
around. Equal bridges go on alike, and so do bridges whose runs were anchored at different times, as long ago as each other
(`lockstep_shifted`).
-/

namespace Playground

namespace Bridge

/-- Related bridges answer reads and prints alike, and stay related, whatever is done with both; and there is the same to see of
them. The number is a time in milliseconds, for which at least they do so. -/
structure Lockstep (B : Nat → Bridge → Bridge → Prop) : Prop where
  read : ∀ {n b b'} room, B n b b' →
    (b.consoleRead room).1 = (b'.consoleRead room).1 ∧ B n (b.consoleRead room).2 (b'.consoleRead room).2
  write : ∀ {n b b'} bytes, B n b b' →
    (b.consoleWrite bytes).1 = (b'.consoleWrite bytes).1 ∧ B n (b.consoleWrite bytes).2 (b'.consoleWrite bytes).2
  typed : ∀ {n b b'} bytes, B n b b' → B n (b.pushInput bytes) (b'.pushInput bytes)
  passed : ∀ {n b b'} (d : Duration), B (n + d.counted) b b' → B n (b.advance d) (b'.advance d)
  visible : ∀ {n b b'}, B n b b' → b.visible = b'.visible

theorem lockstep_eq : Lockstep fun _ b b' => b = b' where
  read := by rintro n b _ room rfl; exact ⟨rfl, rfl⟩
  write := by rintro n b _ bytes rfl; exact ⟨rfl, rfl⟩
  typed := by rintro n b _ bytes rfl; rfl
  passed := by rintro n b _ d rfl; rfl
  visible := by rintro n b _ rfl; rfl

end Bridge

/-! ## Time since the anchor -/

/-- A clock whose run was anchored so many milliseconds ago, and which counts so many more before it wraps around. -/
structure Clock.Anchored (ago left : Nat) (clock : Clock) (anchor : TimeAnchor) : Prop where
  past : ago ≤ clock.millis.toNat
  start : anchor.start = .ofMillis (clock.millis.toNat - ago)
  left : clock.millis.toNat + left < UInt64.size

namespace Clock.Anchored

variable {ago left : Nat} {clock : Clock} {anchor : TimeAnchor}

/-- The guest is told how long ago it was. -/
theorem elapsedMillis_eq (h : clock.Anchored ago left anchor) :
    anchor.elapsedMillis clock.now = UInt32.ofNat (min ago TimeAnchor.maxMillis) := by
  have hpast := h.past
  have hspan : Duration.wholeMillis ⟨clock.now.nanoseconds - anchor.start.nanoseconds⟩ = ago := by
    rw [h.start]
    unfold Duration.wholeMillis Clock.now Duration.ofMillis
    dsimp only
    omega
  rw [TimeAnchor.elapsedMillis, hspan]

/-- Time passes since then. -/
theorem advance (d : Duration) (h : clock.Anchored ago (left + d.counted) anchor) :
    (clock.advance d).Anchored (ago + d.counted) left anchor := by
  have hpast := h.past
  have hleft := h.left
  have hsize : UInt64.size = 18446744073709551616 := rfl
  have hcounted : d.counted < UInt64.size := by omega
  have hclock : (clock.advance d).millis.toNat = clock.millis.toNat + d.counted := by
    have hmoved : (clock.advance d).millis = clock.millis + UInt64.ofNat d.counted := rfl
    rw [hmoved, UInt64.toNat_add, UInt64.toNat_ofNat_of_lt' hcounted]
    omega
  constructor
  · omega
  · rw [h.start, hclock]
    congr 1
    omega
  · omega

/-- A run that was just anchored. -/
theorem now (hleft : clock.millis.toNat + left < UInt64.size) : clock.Anchored 0 left ⟨clock.now⟩ :=
  ⟨Nat.zero_le _, rfl, hleft⟩

end Clock.Anchored

namespace Bridge

/-! ## Bridges at different times -/

/-- There is the same on two consoles that take everything, the same is pending, and the runs were anchored as long ago as each
other. -/
structure Shifted (left : Nat) (b b' : Bridge) : Prop where
  pending : b.input.toList = b'.input.toList
  steady : b.sink.Steady
  steady' : b'.sink.Steady
  contents : b.sink.contents = b'.sink.contents
  anchored : ∃ ago, b.clock.Anchored ago left b.anchor ∧ b'.clock.Anchored ago left b'.anchor

variable {left : Nat} {b b' : Bridge}

/-- Both read the same. -/
theorem Shifted.consoleRead (h : Shifted left b b') (room : Nat) :
    (b.consoleRead room).1 = (b'.consoleRead room).1 ∧ Shifted left (b.consoleRead room).2 (b'.consoleRead room).2 := by
  obtain ⟨hpending, hsteady, hsteady', hcontents, hanchored⟩ := h
  unfold Bridge.consoleRead
  refine ⟨?_, ?_, hsteady, hsteady', hcontents, hanchored⟩
  · simp [hpending]
  · simp [hpending]

/-- Both print the same. -/
theorem Shifted.consoleWrite (h : Shifted left b b') (bytes : List UInt8) :
    (b.consoleWrite bytes).1 = (b'.consoleWrite bytes).1 ∧ Shifted left (b.consoleWrite bytes).2 (b'.consoleWrite bytes).2 := by
  obtain ⟨sink, hemit, hsteady, hcontents⟩ := h.steady.emit bytes
  obtain ⟨sink', hemit', hsteady', hcontents'⟩ := h.steady'.emit bytes
  have hsame : sink.contents = sink'.contents := by rw [hcontents, hcontents', h.contents]
  unfold Bridge.consoleWrite
  rw [hemit, hemit']
  exact ⟨rfl, h.pending, hsteady, hsteady', hsame, h.anchored⟩

/-- Bridges whose runs were anchored at different times go on alike. -/
theorem lockstep_shifted : Lockstep Shifted where
  read room h := h.consoleRead room
  write bytes h := h.consoleWrite bytes
  typed bytes h := by
    refine ⟨?_, h.steady, h.steady', h.contents, h.anchored⟩
    simp [Bridge.pushInput, h.pending]
  passed d h := by
    obtain ⟨ago, hb, hb'⟩ := h.anchored
    exact ⟨h.pending, h.steady, h.steady', h.contents, ago + d.counted, hb.advance d, hb'.advance d⟩
  visible h := by
    obtain ⟨ago, hb, hb'⟩ := h.anchored
    unfold Bridge.visible Bridge.elapsedMillis
    rw [h.contents, h.pending, hb.elapsedMillis_eq, hb'.elapsedMillis_eq]

end Bridge

end Playground
