/-!
# Linear memory

The guest's memory is one array of bytes, addressed by 32-bit pointers. Every access names a pointer and a length; the range
is in bounds when their sum, taken without wrapping around, is at most the size. An access out of bounds changes nothing and
says which range failed.
-/

namespace Playground

/-- A range that does not fit in linear memory. -/
structure BoundsError where
  ptr : UInt32
  len : UInt32
  memorySize : Nat
  deriving DecidableEq, Repr

/-- The range in hexadecimal start and decimal length, then the size. -/
def BoundsError.message (e : BoundsError) : String :=
  "guest range 0x" ++ String.ofList (Nat.toDigits 16 e.ptr.toNat) ++ "+" ++ toString e.len.toNat ++
    " exceeds linear memory of " ++ toString e.memorySize ++ " bytes"

/-- The guest's linear memory. -/
structure Memory where
  bytes : ByteArray

namespace Memory

/-- Memory of `size` zero bytes. -/
def zeroed (size : Nat) : Memory := ⟨⟨Array.replicate size 0⟩⟩

/-- Memory that holds exactly these bytes. -/
def ofList (bytes : List UInt8) : Memory := ⟨⟨bytes.toArray⟩⟩

/-- The content, first byte first. -/
def toList (m : Memory) : List UInt8 := m.bytes.data.toList

/-- The number of bytes. -/
def size (m : Memory) : Nat := m.bytes.size

/-- The byte at an address; zero beyond the end. -/
def byte (m : Memory) (address : Nat) : UInt8 := if h : address < m.bytes.size then m.bytes[address] else 0

/-- Writes bytes from an address on; what would lie beyond the end is not written. -/
def poke (m : Memory) (address : Nat) : List UInt8 → Memory
  | [] => m
  | b :: bs => poke ⟨m.bytes.set! address b⟩ (address + 1) bs

/-- The bytes of `len` addresses from `start` on; fewer when memory ends before. -/
def peek (m : Memory) (start len : Nat) : List UInt8 :=
  (m.bytes.extract start (start + len)).data.toList

/-- A range is in bounds when its end, computed without wrapping around, is at most the size. -/
abbrev InBounds (m : Memory) (ptr : UInt32) (len : Nat) : Prop := ptr.toNat + len ≤ m.size

/-- The longest length a range can have. -/
def maxLength : Nat := UInt32.size - 1

/-- The error for a range; a length over the address space is reported as the longest one. -/
def outOfBounds (m : Memory) (ptr : UInt32) (len : Nat) : BoundsError :=
  ⟨ptr, UInt32.ofNat (min len maxLength), m.size⟩

/-- Lends a range to be read: its bytes. -/
def region (m : Memory) (ptr len : UInt32) : Except BoundsError (List UInt8) :=
  if m.InBounds ptr len.toNat then .ok (m.peek ptr.toNat len.toNat)
  else .error (m.outOfBounds ptr len.toNat)

/-- The bytes of a range in bounds, as many as its length says. -/
def held (m : Memory) {ptr : UInt32} {len : Nat} (h : m.InBounds ptr len) : Vector UInt8 len :=
  ⟨(m.bytes.extract ptr.toNat (ptr.toNat + len)).data, by
    have hend : ptr.toNat + len ≤ m.bytes.size := h
    change (m.bytes.extract ptr.toNat (ptr.toNat + len)).size = len
    rw [ByteArray.size_extract]
    omega⟩

/-- Lends a range to be changed: what is made of its bytes takes their place. A range neither grows nor shrinks. -/
def regionMut (m : Memory) (ptr len : UInt32) (change : Vector UInt8 len.toNat → Vector UInt8 len.toNat) :
    Except BoundsError Memory :=
  if h : m.InBounds ptr len.toNat then .ok (m.poke ptr.toNat (change (m.held h)).toList)
  else .error (m.outOfBounds ptr len.toNat)

/-- Copies a range out. -/
def copyOut (m : Memory) (ptr len : UInt32) : Except BoundsError (List UInt8) := m.region ptr len

/-- A length that a range can have is kept by a word. -/
theorem toNat_ofNat_length {length : Nat} (h : length ≤ maxLength) : (UInt32.ofNat length).toNat = length :=
  UInt32.toNat_ofNat_of_lt' (Nat.lt_of_le_of_lt h (by decide))

/-- Copies bytes in at a pointer. -/
def copyIn (m : Memory) (ptr : UInt32) (payload : List UInt8) : Except BoundsError Memory :=
  if h : payload.length ≤ maxLength then
    m.regionMut ptr (UInt32.ofNat payload.length) fun _ => ⟨payload.toArray, (toNat_ofNat_length h).symm⟩
  else .error (m.outOfBounds ptr payload.length)

/-- Sets every byte of a range to the same value. -/
def fill (m : Memory) (ptr len : UInt32) (value : UInt8) : Except BoundsError Memory :=
  m.regionMut ptr len fun _ => Vector.replicate len.toNat value

/-- Changes the size, keeping what still fits and filling with zeros. -/
def resize (m : Memory) (size : Nat) : Memory :=
  ⟨m.bytes.extract 0 size ++ (zeroed (size - m.size)).bytes⟩

/-- The little-endian 32-bit word at an address. -/
def word (m : Memory) (address : Nat) : UInt32 :=
  (m.byte address).toUInt32 ||| (m.byte (address + 1)).toUInt32 <<< 8 |||
    (m.byte (address + 2)).toUInt32 <<< 16 ||| (m.byte (address + 3)).toUInt32 <<< 24

/-- Stores a word, little-endian. -/
def setWord (m : Memory) (address : Nat) (value : UInt32) : Memory :=
  m.poke address [value.toUInt8, (value >>> 8).toUInt8, (value >>> 16).toUInt8, (value >>> 24).toUInt8]

@[simp] theorem size_ofList (bytes : List UInt8) : (ofList bytes).size = bytes.length := by
  exact List.size_toArray

@[simp] theorem toList_ofList (bytes : List UInt8) : (ofList bytes).toList = bytes := by
  simp [toList, ofList]

/-- Writing never changes the size. -/
@[simp] theorem size_poke (m : Memory) (address : Nat) (payload : List UInt8) :
    (m.poke address payload).size = m.size := by
  induction payload generalizing m address with
  | nil => rfl
  | cons b bs ih =>
    rw [poke, ih]
    exact Array.size_setIfInBounds

/-- Bytes are copied in exactly where a range of their number is in bounds. -/
theorem copyIn_eq_ite (m : Memory) (ptr : UInt32) (payload : List UInt8) :
    m.copyIn ptr payload =
      if payload.length ≤ maxLength ∧ m.InBounds ptr payload.length then .ok (m.poke ptr.toNat payload)
      else .error (m.outOfBounds ptr payload.length) := by
  unfold copyIn regionMut
  by_cases hfit : payload.length ≤ maxLength
  · have hlength := toNat_ofNat_length hfit
    by_cases hin : m.InBounds ptr payload.length
    · rw [dif_pos hfit, dif_pos (hlength.symm ▸ hin), if_pos ⟨hfit, hin⟩, Vector.toList_mk, List.toList_toArray]
    · rw [dif_pos hfit, dif_neg (hlength.symm ▸ hin), if_neg fun h => hin h.2, hlength]
  · rw [dif_neg hfit, if_neg fun h => hfit h.1]

end Memory

end Playground
