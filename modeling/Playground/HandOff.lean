import Playground.Guest
import Playground.Journal

/-!
# Handing a payload to the guest

A payload is placed in a region from the guest's own allocator, a call is given its place, and the region is released again.
Once there is a region it is released exactly once, whether the copy failed, the call failed, or nothing did; where there is
none, neither copy, call nor release happens. Of two errors the earlier one is returned, and the release's is noted in the
log. How long a payload is is known before its bytes are, and the bytes are made only once there is a place for them.
-/

namespace Playground

/-- Where a payload lies in guest memory during a call. -/
structure Slice where
  ptr : UInt32
  len : UInt32
  deriving DecidableEq, Repr

/-- Bytes to be handed over, which are made when they are asked for. -/
structure Payload where
  length : Nat
  bytes : Unit → List UInt8
  length_bytes : (bytes ()).length = length

namespace Payload

/-- Bytes that are there already. -/
def ofList (bytes : List UInt8) : Payload := ⟨bytes.length, fun _ => bytes, rfl⟩

@[simp] theorem length_ofList (bytes : List UInt8) : (ofList bytes).length = bytes.length := rfl

@[simp] theorem bytes_ofList (bytes : List UInt8) (u : Unit) : (ofList bytes).bytes u = bytes := rfl

/-- The bytes of a text. -/
def ofText (text : String) : Payload := ⟨text.utf8ByteSize, fun _ => Text.encode text, Text.length_encode text⟩

/-- A payload is its bytes, whenever they are made. -/
theorem ofList_bytes (p : Payload) : ofList (p.bytes ()) = p := by
  obtain ⟨length, bytes, rfl⟩ := p
  rfl

/-- A text is its bytes. -/
theorem ofText_eq (text : String) : ofText text = ofList (Text.encode text) := (ofList_bytes (ofText text)).symm

end Payload

namespace Machine

variable {γ α : Type}

/-- Copies a payload to `ptr` and, when it fits there, makes the call with its place. -/
def placePayload (m : Machine γ) (ptr : UInt32) (p : Payload)
    (use : Slice → Machine γ → Except GuestError α × Machine γ) : Except GuestError α × Machine γ :=
  if p.length ≤ Memory.maxLength ∧ m.memory.InBounds ptr p.length then
    use ⟨ptr, UInt32.ofNat p.length⟩ { m with memory := m.memory.poke ptr.toNat (p.bytes ()) }
  else (.error (.bounds (m.memory.outOfBounds ptr p.length)), m)

/-- The size of the region for a payload: an empty one still occupies a byte, so that the guest gets a valid pointer. -/
def regionFor (length : Nat) : UInt32 := UInt32.ofNat (max length 1)

/-- The result of a hand-off from the result of the call and that of the release, and what is to be noted. -/
def settle : Except GuestError α → Except GuestError Unit → Except MarshalError α × List LogEvent
  | .ok value, .ok () => (.ok value, [])
  | .ok _, .error e => (.error (.guest e), [])
  | .error e, .ok () => (.error (.guest e), [])
  | .error e, .error released => (.error (.guest e), [.releaseFailed released])

/-- Hands a payload to a guest call: allocate, copy, call, release. -/
def handOffPayload [Guest γ] (m : Machine γ) (p : Payload)
    (use : Slice → Machine γ → Except GuestError α × Machine γ) :
    Except MarshalError α × Machine γ × List LogEvent :=
  if p.length ≤ Memory.maxLength then
    let size := regionFor p.length
    match Guest.call (.allocate size) m with
    | (.error e, m) => (.error (.guest e), m, [])
    | (.ok ptr, m) =>
      if ptr = 0 then (.error (.outOfMemory size), m, [])
      else
        let (used, m) := m.placePayload ptr p use
        let (released, m) := Guest.call (.release ptr size) m
        let (result, events) := settle used released
        (result, m, events)
  else (.error (.payloadTooLarge p.length), m, [])

/-! ## Bytes that are there already -/

/-- The size of the region for bytes. -/
def regionSize (payload : List UInt8) : UInt32 := regionFor payload.length

/-- Copies bytes to `ptr` and, when they fit there, makes the call with their place. -/
def place (m : Machine γ) (ptr : UInt32) (payload : List UInt8)
    (use : Slice → Machine γ → Except GuestError α × Machine γ) : Except GuestError α × Machine γ :=
  m.placePayload ptr (.ofList payload) use

/-- Hands bytes to a guest call. -/
def handOff [Guest γ] (m : Machine γ) (payload : List UInt8)
    (use : Slice → Machine γ → Except GuestError α × Machine γ) :
    Except MarshalError α × Machine γ × List LogEvent :=
  m.handOffPayload (.ofList payload) use

/-- Placing a payload copies it in and uses it; it does neither if it does not fit. -/
theorem place_eq (m : Machine γ) (ptr : UInt32) (payload : List UInt8)
    (use : Slice → Machine γ → Except GuestError α × Machine γ) :
    m.place ptr payload use =
      match m.memory.copyIn ptr payload with
      | .error e => (.error (.bounds e), m)
      | .ok memory => use ⟨ptr, UInt32.ofNat payload.length⟩ { m with memory } := by
  rw [Memory.copyIn_eq_ite]
  unfold place placePayload
  by_cases hfit : payload.length ≤ Memory.maxLength ∧ m.memory.InBounds ptr payload.length
  · simp only [Payload.length_ofList, Payload.bytes_ofList, hfit, and_self, if_true]
  · simp only [Payload.length_ofList, hfit, if_false]

/-- What a hand-off does: it gets a region, places the payload in it, and releases it, whatever came of that. -/
theorem handOff_eq [Guest γ] (m : Machine γ) (payload : List UInt8)
    (use : Slice → Machine γ → Except GuestError α × Machine γ) :
    m.handOff payload use =
      if payload.length ≤ Memory.maxLength then
        match Guest.call (.allocate (regionSize payload)) m with
        | (.error e, m) => (.error (.guest e), m, [])
        | (.ok ptr, m) =>
          if ptr = 0 then (.error (.outOfMemory (regionSize payload)), m, [])
          else
            let (used, m) := m.place ptr payload use
            let (released, m) := Guest.call (.release ptr (regionSize payload)) m
            let (result, events) := settle used released
            (result, m, events)
      else (.error (.payloadTooLarge payload.length), m, []) := by
  unfold handOff handOffPayload place regionSize
  simp only [Payload.length_ofList]
  by_cases hfit : payload.length ≤ Memory.maxLength
  · simp only [hfit, if_true]
    rcases Guest.call (.allocate (regionFor payload.length)) m with ⟨e | ptr, m⟩
    · rfl
    · rfl
  · simp only [hfit, if_false]

/-- A text is handed over as its bytes. -/
theorem handOffPayload_ofText [Guest γ] (m : Machine γ) (text : String)
    (use : Slice → Machine γ → Except GuestError α × Machine γ) :
    m.handOffPayload (.ofText text) use = m.handOff (Text.encode text) use := by
  rw [Payload.ofText_eq]
  rfl

end Machine

end Playground
