import Playground.Proofs.Guest.Record
import Playground.Proofs.Controller.View

/-!
# Controllers over a recorded guest

A controller does the same over a recorded guest as over the guest alone: `erase` forgets the record, and it goes through every
operation (`erase_perform`) and every history (`erase_after`). What is proved of a recorded controller and does not speak of
the record holds of the controller over the guest alone.
-/

namespace Playground

namespace Controller

variable {γ : Type}

/-- The controller over the guest alone. -/
def erase (c : Controller (Recorded γ)) : Controller γ :=
  { machine := c.machine.erase
    state := c.state
    runActive := c.runActive
    fault := c.fault
    runs := c.runs
    generation := c.generation
    clearOnStart := c.clearOnStart
    journal := c.journal }

/-- The calls that the controller's guest received. -/
def calls (c : Controller (Recorded γ)) : List Call := c.machine.calls

variable [Guest γ]

/-- A controller that was created has a recorded counterpart, whose record holds the set-up alone. -/
theorem exists_create_record {m : Machine γ} {clear : Bool} {c : Controller γ} (h : create m clear = .ok c) :
    ∃ r : Controller (Recorded γ), create m.record clear = .ok r ∧ r.erase = c := by
  obtain ⟨m', hcall, rfl⟩ := create_eq_ok_iff.mp h
  have hrecord : Guest.call .setUp m = Prod.map id Machine.erase (Guest.call .setUp m.record) :=
    Machine.erase_call .setUp m.record
  rcases hcalled : Guest.call .setUp m.record with ⟨result, r⟩
  rw [hcall, hcalled] at hrecord
  obtain ⟨rfl, rfl⟩ := Prod.mk.inj hrecord
  exact ⟨_, create_eq_ok_iff.mpr ⟨r, hcalled, rfl⟩, rfl⟩

/-- An operation does to the controller over the guest alone what it does to the recorded one. -/
theorem erase_perform (c : Controller (Recorded γ)) (op : Operation) : (c.perform op).erase = c.erase.perform op :=
  (seen_perform Recorded.seenThrough [] c op).symm

/-- So does every history. -/
theorem erase_after (c : Controller (Recorded γ)) (ops : List Operation) : (c.after ops).erase = c.erase.after ops :=
  (seen_after Recorded.seenThrough [] c ops).symm

end Controller

end Playground
