import Playground.Toml.Quoted

/-!
# Numbers

Whole numbers are decimal with an optional sign, or hexadecimal, octal or binary after `0x`, `0o`, `0b`; a single underscore
may stand between two digits, and a decimal number of several digits does not begin with zero. They must fit in 64 bits with
sign. Other numbers have a fraction, an exponent or both, or are `inf` or `nan`; their value does not matter to a
configuration, but one that is too large to be told from infinity is refused.
-/

namespace Playground.Toml

/-- A decimal digit. -/
def isDigit (c : Char) : Bool := '0' ≤ c && c ≤ '9'

/-- Digits and underscores, in which each underscore stands between two digits. -/
def wellSpaced : List Char → Bool
  | [] | ['_'] => false
  | [_] => true
  | '_' :: _ => false
  | _ :: '_' :: s => wellSpaced s
  | _ :: s => wellSpaced s

/-- One or more digits. -/
def someDigits (isDigit : Char → Bool) : Reader (List Char) := fun s =>
  let belongs := fun c => isDigit c || c == '_'
  let run := s.takeWhile belongs
  if wellSpaced run then some (run.filter (· != '_'), s.dropWhile belongs) else none

/-- The number that a digit stands for. -/
def digitValue (c : Char) : Nat := (Quoted.hexValue? c).getD 0

/-- The number that digits write in a base. -/
def numberOf (base : Nat) (digits : List Char) : Nat := digits.foldl (fun n c => n * base + digitValue c) 0

/-- The number that digits write in a base, or the limit if it is not below that. It never computes with large numbers. -/
def numberUpTo (limit base : Nat) (digits : List Char) : Nat :=
  digits.foldl (fun n c => min limit (n * base + digitValue c)) 0

/-- What is cut off at the limit is the number itself. -/
theorem numberUpTo_eq_min {limit base : Nat} (h : 0 < base) (digits : List Char) :
    numberUpTo limit base digits = min limit (numberOf base digits) := by
  suffices ∀ n, digits.foldl (fun n c => min limit (n * base + digitValue c)) (min limit n) =
      min limit (digits.foldl (fun n c => n * base + digitValue c) n) by
    simpa [numberUpTo, numberOf] using this 0
  induction digits with
  | nil => exact fun _ => rfl
  | cons c digits ih =>
    intro n
    have hc : min limit (min limit n * base + digitValue c) = min limit (n * base + digitValue c) := by
      rcases Nat.le_total limit n with hn | hn
      · have := Nat.le_mul_of_pos_right limit h
        have := Nat.mul_le_mul_right base hn
        rw [Nat.min_eq_left hn]
        omega
      · rw [Nat.min_eq_right hn]
    simp only [List.foldl_cons, hc, ih]

/-- An optional sign: is it a minus? -/
def sign : List Char → Bool × List Char
  | '+' :: s => (false, s)
  | '-' :: s => (true, s)
  | s => (false, s)

/-- The digits of a decimal number: zero alone, or digits that do not begin with zero. -/
def decimalDigits : Reader (List Char)
  | '0' :: rest => some (['0'], rest)
  | s => someDigits isDigit s

/-- A whole number that fits in 64 bits with sign. -/
def bounded (n : Int) : Option Int := if -9223372036854775808 ≤ n ∧ n < 9223372036854775808 then some n else none

/-- The size of the whole number that digits write, where that can fit in 64 bits. -/
def magnitude (base : Nat) (digits : List Char) : Int := numberUpTo UInt64.size base digits

/-- A whole number in another base, after its marker. -/
def based (base : Nat) : Reader Int := fun s =>
  let isDigit := fun c => (Quoted.hexValue? c).any (· < base)
  match someDigits isDigit s with
  | some (digits, rest) => (bounded (magnitude base digits)).map fun n => (n, rest)
  | none => none

/-- A whole number. -/
def integer : Reader Int
  | '0' :: 'x' :: s => based 16 s
  | '0' :: 'o' :: s => based 8 s
  | '0' :: 'b' :: s => based 2 s
  | s =>
    let (negative, s) := sign s
    match decimalDigits s with
    | some (digits, rest) =>
      let n := magnitude 10 digits
      (bounded (if negative then -n else n)).map fun n => (n, rest)
    | none => none

/-- The least number that rounds to infinity: half a unit above the greatest finite double. -/
def infiniteFrom : Nat := ((1 <<< 54) - 1) <<< 970

/-- The number of decimal digits of `infiniteFrom`. -/
def infinitePlaces : Nat := 309

/-- The number that digits write, times a power of ten, rounds to infinity. With as many places before the point as the least
such number has, which is whole, its whole part decides; else their count does. -/
def isInfinite (digits : List Char) (exponent : Int) : Bool :=
  let digits := digits.dropWhile (· == '0')
  let places : Int := digits.length + exponent
  if digits.isEmpty then false
  else if places = infinitePlaces then
    infiniteFrom ≤ numberOf 10 ((digits.take infinitePlaces).rightpad infinitePlaces '0')
  else infinitePlaces < places

/-- The number of an exponent. Digits behind one that has come to 65536 are passed over. -/
def exponentOf (digits : List Char) : Nat :=
  digits.foldl (fun n c => if n < 0x10000 then n * 10 + digitValue c else n) 0

/-- An exponent, if there is one. -/
def exponent? (s : List Char) : Option (Option Int × List Char) :=
  match s with
  | c :: rest =>
    if c = 'e' ∨ c = 'E' then
      let (negative, rest) := sign rest
      match someDigits isDigit rest with
      | some (digits, rest) =>
        let n : Int := exponentOf digits
        some (some (if negative then -n else n), rest)
      | none => none
    else some (none, s)
  | [] => some (none, [])

/-- A fraction, if there is one. -/
def fraction? (s : List Char) : Option (Option (List Char) × List Char) :=
  match s with
  | '.' :: rest => (someDigits isDigit rest).map fun (digits, rest) => (some digits, rest)
  | s => some (none, s)

/-- A number with a fraction or an exponent. -/
def decimal (negative : Bool) (s : List Char) : Option (List Char) := do
  let (whole, s) ← decimalDigits s
  let (fraction, s) ← fraction? s
  let (exponent, s) ← exponent? s
  if fraction.isNone ∧ exponent.isNone then failure
  let places := fraction.getD []
  if !negative ∧ isInfinite (whole ++ places) (exponent.getD 0 - places.length) then failure
  return s

/-- What is left after a number that is not whole. -/
def float? (s : List Char) : Option (List Char) :=
  let (negative, s) := sign s
  match s with
  | 'i' :: 'n' :: 'f' :: rest => some rest
  | 'n' :: 'a' :: 'n' :: rest => some rest
  | s => decimal negative s

end Playground.Toml
