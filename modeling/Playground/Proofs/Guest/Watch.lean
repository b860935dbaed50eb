import Playground.Proofs.Guest.View

/-!
# A guest that is watched

`Watched γ ν` is the interpreter `γ` with notes of type `ν` beside it, oldest first. An instance of `Watch` lays down what is
noted of a call. The interpreter never sees the notes (`Watched.seenThrough`), so a watched guest does what the guest alone does.
-/

namespace Playground

/-- What is noted of a call, given the machine it finds, its result, and the machine it leaves. -/
class Watch (γ ν : Type) where
  observe : (e : Export) → (before : Machine γ) → Except GuestError e.Reply → (after : Machine γ) → List ν

/-- An interpreter with notes beside it, oldest first. -/
structure Watched (γ ν : Type) where
  inner : γ
  notes : List ν

variable {γ ν : Type}

namespace Machine

/-- The machine with notes. -/
def watch (m : Machine γ) (notes : List ν := []) : Machine (Watched γ ν) := ⟨m.memory, m.bridge, ⟨m.inner, notes⟩⟩

/-- The machine without its notes. -/
def unwatched (m : Machine (Watched γ ν)) : Machine γ := m.map Watched.inner

/-- What was noted. -/
def notes (m : Machine (Watched γ ν)) : List ν := m.inner.notes

@[simp] theorem unwatched_watch (m : Machine γ) (notes : List ν) : (m.watch notes).unwatched = m := rfl

@[simp] theorem notes_watch (m : Machine γ) (notes : List ν) : (m.watch notes).notes = notes := rfl

end Machine

variable [Guest γ] [Watch γ ν]

/-- A call goes to the interpreter, and then what there is to note of it is noted. -/
instance Watched.guest : Guest (Watched γ ν) where
  call e m :=
    let (result, after) := Guest.call e m.unwatched
    (result, after.watch (m.notes ++ Watch.observe e m.unwatched result after))

/-- The notes are never seen by the interpreter. -/
theorem Watched.seenThrough : Guest.SeenThrough (Watched.inner : Watched γ ν → γ) := fun _ _ => rfl

/-- A call adds what there is to note of it. -/
theorem Machine.notes_call (e : Export) (m : Machine (Watched γ ν)) :
    (Guest.call e m).2.notes =
      m.notes ++ Watch.observe e m.unwatched (Guest.call e m).1 (Guest.call e m).2.unwatched := rfl

/-- A call of a machine with notes is the call of the machine alone, with more notes. -/
theorem Machine.call_watch (e : Export) (m : Machine γ) (notes : List ν) :
    Guest.call e (m.watch notes) =
      ((Guest.call e m).1, (Guest.call e m).2.watch (notes ++ Watch.observe e m (Guest.call e m).1 (Guest.call e m).2)) := rfl

end Playground
