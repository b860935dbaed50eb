import Playground.HandOff

/-!
# One guest seen through another

A view turns the state of one interpreter into that of another, and `Machine.map` applies it to a machine, whose memory and
console stay. When every call looks the same through the view (`Guest.SeenThrough`), so does all that is built from calls: here
a hand-off (`map_handOff`), and for a controller every operation and every history. An interpreter with something written down
beside it is seen through the view that forgets what was written.
-/

namespace Playground

variable {γ δ α : Type}

/-- The machine with its interpreter seen through a view. -/
def Machine.map (view : γ → δ) (m : Machine γ) : Machine δ := ⟨m.memory, m.bridge, view m.inner⟩

/-- Every call of one interpreter is, through the view, that call of the other. -/
def Guest.SeenThrough (view : γ → δ) [Guest γ] [Guest δ] : Prop :=
  ∀ (e : Export) (m : Machine γ), Guest.call e (m.map view) = Prod.map id (Machine.map view) (Guest.call e m)

namespace Machine

variable {view : γ → δ}

@[simp] theorem map_id (m : Machine γ) : m.map id = m := rfl

@[simp] theorem memory_map (view : γ → δ) (m : Machine γ) : (m.map view).memory = m.memory := rfl

@[simp] theorem bridge_map (view : γ → δ) (m : Machine γ) : (m.map view).bridge = m.bridge := rfl

/-- Placing a payload looks the same through a view, if the call it is placed for does. -/
theorem map_place {use : Slice → Machine γ → Except GuestError α × Machine γ}
    {use' : Slice → Machine δ → Except GuestError α × Machine δ}
    (h : ∀ slice m, use' slice (m.map view) = Prod.map id (map view) (use slice m)) (m : Machine γ) (ptr : UInt32)
    (payload : List UInt8) : (m.map view).place ptr payload use' = Prod.map id (map view) (m.place ptr payload use) := by
  rw [place_eq, place_eq]
  rw [memory_map]
  cases m.memory.copyIn ptr payload with
  | error e => rfl
  | ok memory => exact h _ { m with memory }

/-- A hand-off looks the same through a view, if the call it is made for does. -/
theorem map_handOff [Guest γ] [Guest δ] (hview : Guest.SeenThrough view)
    {use : Slice → Machine γ → Except GuestError α × Machine γ}
    {use' : Slice → Machine δ → Except GuestError α × Machine δ}
    (h : ∀ slice m, use' slice (m.map view) = Prod.map id (map view) (use slice m)) (m : Machine γ)
    (payload : List UInt8) :
    (m.map view).handOff payload use' = Prod.map id (Prod.map (map view) id) (m.handOff payload use) := by
  rw [handOff_eq, handOff_eq]
  by_cases hfit : payload.length ≤ Memory.maxLength
  · simp only [hfit, if_true, hview _ _]
    rcases Guest.call (.allocate (regionSize payload)) m with ⟨_ | ptr, m₁⟩
    · rfl
    · by_cases hptr : ptr = 0
      · simp only [Prod.map, id, hptr, if_true]
      · simp only [Prod.map, id, hptr, if_false, map_place h, hview _ _]
  · simp only [hfit, if_false]
    rfl

end Machine

end Playground
