import Playground.Proofs.Console.Reading

/-!
# What happens to pending input

Pending input is dropped, added to at its back, or taken from at its front: that is `Traffic`. `Ledger` keeps, since it was last
dropped, what was added and what was taken. Along traffic that leads from what is pending before it to what is pending after it
(`Traffic.Flows`) the ledger stays balanced: what was taken and what is pending are, one after the other, what was added.
-/

namespace Playground

/-- Something that happens to pending input. -/
inductive Traffic where
  /-- What was pending was dropped. A start does so, once it found the old run gone or ended it. -/
  | begun
  /-- Bytes were typed, and kept. -/
  | typed (bytes : List UInt8)
  /-- The guest read. -/
  | read (reading : Reading)
  deriving DecidableEq, Repr

/-! ## Keeping accounts -/

/-- What was read and what was typed since pending input was last dropped. -/
structure Ledger where
  taken : List UInt8 := []
  typed : List UInt8 := []
  deriving DecidableEq, Repr

namespace Ledger

/-- The ledger with one more entry; where pending input is dropped, a new one begins. -/
def enter (l : Ledger) : Traffic → Ledger
  | .begun => {}
  | .typed bytes => { l with typed := l.typed ++ bytes }
  | .read reading => { l with taken := l.taken ++ reading.taken }

/-- The ledger of all that happened. -/
def ofTraffic (events : List Traffic) : Ledger := events.foldl enter {}

/-- What was read and what is pending are, one after the other, what was typed. -/
def Balanced (l : Ledger) (pending : List UInt8) : Prop := l.taken ++ pending = l.typed

end Ledger

namespace Traffic

/-- Traffic leads from what is pending before it to what is pending after it. -/
inductive Flows : List UInt8 → List Traffic → List UInt8 → Prop where
  | nil (pending : List UInt8) : Flows pending [] pending
  | begun {pending pending' : List UInt8} {events : List Traffic} (h : Flows [] events pending') :
    Flows pending (.begun :: events) pending'
  | typed {pending bytes pending' : List UInt8} {events : List Traffic} (h : Flows (pending ++ bytes) events pending') :
    Flows pending (.typed bytes :: events) pending'
  | read {taken left pending' : List UInt8} {events : List Traffic} (h : Flows left events pending') :
    Flows (taken ++ left) (.read ⟨taken, left⟩ :: events) pending'

variable {pending pending' pending'' : List UInt8} {events events' : List Traffic}

theorem Flows.append (h : Flows pending events pending') (h' : Flows pending' events' pending'') :
    Flows pending (events ++ events') pending'' := by
  induction h with
  | nil _ => exact h'
  | begun _ ih => exact .begun (ih h')
  | typed _ ih => exact .typed (ih h')
  | read _ ih => exact .read (ih h')

/-- Traffic can be halted at any moment. -/
theorem Flows.split (h : Flows pending (events ++ events') pending'') :
    ∃ pending', Flows pending events pending' ∧ Flows pending' events' pending'' := by
  induction events generalizing pending with
  | nil => exact ⟨pending, .nil pending, h⟩
  | cons event events ih =>
    cases h with
    | begun h =>
      obtain ⟨pending', hbefore, hafter⟩ := ih h
      exact ⟨pending', .begun hbefore, hafter⟩
    | typed h =>
      obtain ⟨pending', hbefore, hafter⟩ := ih h
      exact ⟨pending', .typed hbefore, hafter⟩
    | read h =>
      obtain ⟨pending', hbefore, hafter⟩ := ih h
      exact ⟨pending', .read hbefore, hafter⟩

/-- Along traffic, a ledger stays balanced, and where pending input is dropped it becomes so. -/
theorem Flows.balanced (h : Flows pending events pending') {l : Ledger} (hl : l.Balanced pending ∨ .begun ∈ events) :
    (events.foldl Ledger.enter l).Balanced pending' := by
  -- What is typed comes last on both sides, what is read only moves from what is pending to what was read.
  induction h generalizing l with
  | nil _ =>
    obtain hl | hl := hl
    · exact hl
    · cases hl
  | begun _ ih => exact ih (.inl rfl)
  | typed _ ih =>
    obtain hl | hl := hl
    · exact ih (.inl (by rw [Ledger.Balanced] at hl ⊢; rw [Ledger.enter, ← hl, List.append_assoc]))
    · exact ih (.inr (by simpa using hl))
  | read _ ih =>
    obtain hl | hl := hl
    · exact ih (.inl (by rw [Ledger.Balanced] at hl ⊢; rw [Ledger.enter, ← hl, List.append_assoc]))
    · exact ih (.inr (by simpa using hl))

/-- Reads lead from what waits in a queue to what waits behind them. -/
theorem flows_readings (q : Queue) (rooms : List Nat) :
    Flows q.toList ((q.readings rooms).map .read) (q.drainAll rooms).toList := by
  induction rooms generalizing q with
  | nil => exact .nil _
  | cons room rooms ih =>
    rw [← q.toList_drain room]
    exact .read (ih _)

end Traffic

end Playground
