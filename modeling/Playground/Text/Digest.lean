/-!
# Short forms of byte strings

Logs name byte strings by a short form: up to 128 bytes in hexadecimal, anything longer by its length and a 64-bit hash. The
hash starts from a fixed offset and, for each byte, mixes the byte in and multiplies by a fixed prime (FNV-1a).
-/

namespace Playground.Text

/-- A digit below sixteen, in lower case. -/
def hexDigit (n : Nat) : Char := Nat.digitChar n

/-- Two hexadecimal digits for each byte. -/
def hex (bytes : List UInt8) : String :=
  String.ofList (bytes.flatMap fun b => [hexDigit (b.toNat / 16), hexDigit (b.toNat % 16)])

/-- The 64-bit FNV-1a hash. -/
def fnv1a (bytes : List UInt8) : UInt64 :=
  bytes.foldl (fun h b => (h ^^^ b.toUInt64) * 0x100000001b3) 0xcbf29ce484222325

/-- Sixteen hexadecimal digits of a 64-bit value. -/
def hex64 (n : UInt64) : String :=
  hex ((List.range 8).map fun i => (n >>> (UInt64.ofNat (8 * (7 - i)))).toUInt8)

/-- The length and hash of a byte string. -/
def digest (bytes : List UInt8) : String := "#" ++ toString bytes.length ++ ":" ++ hex64 (fnv1a bytes)

/-- The longest byte string that is written out. -/
def shortLimit : Nat := 128

/-- The short form of a byte string. -/
def short (bytes : List UInt8) : String :=
  if bytes.length ≤ shortLimit then hex bytes else digest bytes

end Playground.Text
