/-!
# Bytes of text

Console output is bytes and is shown as text. `Decoder` reads one byte at a time: it keeps what it has of an unfinished
character and lets go of it as soon as the next byte cannot belong to it, so each maximal ill-formed beginning of a sequence
counts once. `decode?` asks for well-formed text, `decodeLossy` puts one replacement character for each ill-formed beginning.
Because the decoder is a fold, it does not matter how the bytes were cut into pieces.
-/

namespace Playground.Text

/-- The bytes of a text. -/
def encode (text : String) : List UInt8 := text.toList.flatMap String.utf8EncodeChar

/-- How many bytes a text has is known without making them. -/
theorem length_encode (text : String) : (encode text).length = text.utf8ByteSize := by
  have hbytes : (encode text).toByteArray = text.toByteArray := String.utf8Encode_toList
  rw [String.utf8ByteSize, ← hbytes, List.size_toByteArray]

/-- A character that still lacks bytes: the value so far, the least and greatest byte that may come next, and how many more
are to come after it. -/
structure Unfinished where
  value : Nat
  least : UInt8
  greatest : UInt8
  after : Nat

/-- What a first byte announces. -/
inductive Lead where
  | char (c : Char)
  | opens (rest : Unfinished)
  | stray

/-- The meaning of a byte that begins a character. The bounds on the second byte leave out overlong forms, surrogates and
values beyond the last code point. -/
def lead (b : UInt8) : Lead :=
  if b < 0x80 then .char (Char.ofNat b.toNat)
  else if b < 0xC2 then .stray
  else if b < 0xE0 then .opens ⟨b.toNat - 0xC0, 0x80, 0xBF, 0⟩
  else if b = 0xE0 then .opens ⟨0, 0xA0, 0xBF, 1⟩
  else if b = 0xED then .opens ⟨0xD, 0x80, 0x9F, 1⟩
  else if b < 0xF0 then .opens ⟨b.toNat - 0xE0, 0x80, 0xBF, 1⟩
  else if b = 0xF0 then .opens ⟨0, 0x90, 0xBF, 2⟩
  else if b < 0xF4 then .opens ⟨b.toNat - 0xF0, 0x80, 0xBF, 2⟩
  else if b = 0xF4 then .opens ⟨4, 0x80, 0x8F, 2⟩
  else .stray

/-- A decoder between two bytes: the units read so far, newest first (`none` for an ill-formed beginning), and the character
that it is in the middle of. -/
structure Decoder where
  units : List (Option Char)
  pending : Option Unfinished

namespace Decoder

/-- Nothing read yet. -/
def start : Decoder := ⟨[], none⟩

/-- Reads a byte that begins a character. -/
def opening (units : List (Option Char)) (b : UInt8) : Decoder :=
  match lead b with
  | .char c => ⟨some c :: units, none⟩
  | .opens rest => ⟨units, some rest⟩
  | .stray => ⟨none :: units, none⟩

/-- Reads one byte. -/
def feed (d : Decoder) (b : UInt8) : Decoder :=
  match d.pending with
  | none => opening d.units b
  | some u =>
    if u.least ≤ b ∧ b ≤ u.greatest then
      let value := u.value * 64 + (b.toNat - 0x80)
      match u.after with
      | 0 => ⟨some (Char.ofNat value) :: d.units, none⟩
      | n + 1 => ⟨d.units, some ⟨value, 0x80, 0xBF, n⟩⟩
    else opening (none :: d.units) b

/-- The units in order, once the bytes have ended. -/
def finish (d : Decoder) : List (Option Char) :=
  match d.pending with
  | none => d.units.reverse
  | some _ => (none :: d.units).reverse

end Decoder

/-- The units of a byte string. -/
def units (bytes : List UInt8) : List (Option Char) := (bytes.foldl Decoder.feed Decoder.start).finish

/-- The text of well-formed bytes. -/
def decode? (bytes : List UInt8) : Option String :=
  let us := units bytes
  if us.all Option.isSome then some (String.ofList (us.filterMap id)) else none

/-- The text of any bytes, one replacement character for each ill-formed beginning. -/
def decodeLossy (bytes : List UInt8) : String :=
  String.ofList ((units bytes).map fun u => u.getD '\uFFFD')

end Playground.Text
