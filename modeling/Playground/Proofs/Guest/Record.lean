import Playground.Proofs.Guest.View

/-!
# A guest whose calls are written down

`Recorded γ` is the interpreter `γ` with a record: the calls it received and what came of each, oldest first. The record sits
beside the interpreter, which never sees it, so a guest does the same with and without one (`Recorded.seenThrough`). What is
stated about the calls of a guest is stated about the record.
-/

namespace Playground

/-- A call that a guest received, with what came of it. -/
structure Call where
  function : Export
  result : Except GuestError function.Reply

/-- An interpreter with the calls it received, oldest first. -/
structure Recorded (γ : Type) where
  inner : γ
  calls : List Call

namespace Machine

variable {γ α : Type}

/-- The machine with a record. -/
def record (m : Machine γ) (calls : List Call := []) : Machine (Recorded γ) := ⟨m.memory, m.bridge, ⟨m.inner, calls⟩⟩

/-- The machine without its record. -/
def erase (m : Machine (Recorded γ)) : Machine γ := ⟨m.memory, m.bridge, m.inner.inner⟩

/-- The calls that the guest received. -/
def calls (m : Machine (Recorded γ)) : List Call := m.inner.calls

end Machine

/-- A call goes to the interpreter and is then added to the record. -/
instance Recorded.guest {γ : Type} [Guest γ] : Guest (Recorded γ) where
  call e m :=
    let (result, next) := Guest.call e m.erase
    (result, next.record (m.calls ++ [⟨e, result⟩]))

/-- The record is never seen by the interpreter. -/
theorem Recorded.seenThrough {γ : Type} [Guest γ] : Guest.SeenThrough (Recorded.inner : Recorded γ → γ) := fun _ _ => rfl

namespace Machine

variable {γ α : Type} [Guest γ]

/-- A call does to the interpreter what it does to one without a record. -/
theorem erase_call (e : Export) (m : Machine (Recorded γ)) :
    Guest.call e m.erase = Prod.map id erase (Guest.call e m) := rfl

/-- A call adds itself to the record. -/
theorem calls_call (e : Export) (m : Machine (Recorded γ)) :
    (Guest.call e m).2.calls = m.calls ++ [⟨e, (Guest.call e m).1⟩] := rfl

/-- A call is recorded behind the calls before it, with its result. -/
theorem calls_of_call {e : Export} {m m' : Machine (Recorded γ)} {result : Except GuestError e.Reply}
    (h : Guest.call e m = (result, m')) : m'.calls = m.calls ++ [⟨e, result⟩] := by
  have hcall := calls_call e m
  rw [h] at hcall
  exact hcall

/-- A call of a machine with a record is the call of the machine alone, and one call more. -/
theorem call_record {e : Export} {m m' : Machine γ} {result : Except GuestError e.Reply}
    (h : Guest.call e m = (result, m')) (calls : List Call) :
    Guest.call e (m.record calls) = (result, m'.record (calls ++ [⟨e, result⟩])) := by
  have hcall : Guest.call e (m.record calls) =
      ((Guest.call e m).1, (Guest.call e m).2.record (calls ++ [⟨e, (Guest.call e m).1⟩])) := rfl
  rw [hcall, h]

/-- So it is for a call that was answered and that the next question is asked of. -/
theorem exists_call {e : Export} {r : Machine (Recorded γ)} {m : Machine γ} {result : Except GuestError e.Reply}
    (h : Guest.call e r.erase = (result, m)) : ∃ r', Guest.call e r = (result, r') ∧ r'.erase = m := by
  have hcall : Guest.call e r = (result, m.record (r.calls ++ [⟨e, result⟩])) := call_record h r.calls
  exact ⟨_, hcall, rfl⟩

end Machine

end Playground
