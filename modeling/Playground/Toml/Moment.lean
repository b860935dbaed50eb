import Playground.Toml.Number

/-!
# Dates and times

A date, a time of day, or both with a `T` or a blank between them and perhaps a time zone after them. Their parts are in
range, months have their days, and leap years their 29th of February; a second may be the 60th.
-/

namespace Playground.Toml

/-- A number of exactly so many digits, within bounds. -/
def fixed (width least greatest : Nat) : Reader Nat := fun s =>
  let digits := s.take width
  let n := numberOf 10 digits
  if digits.length = width ∧ digits.all isDigit ∧ least ≤ n ∧ n ≤ greatest then some (n, s.drop width) else none

/-- What is left after a character that must stand here. -/
def expect (c : Char) : List Char → Option (List Char)
  | d :: s => if d = c then some s else none
  | [] => none

/-- The days of a month. -/
def daysOf (year month : Nat) : Nat :=
  if month = 2 then
    if year % 4 = 0 ∧ (year % 100 ≠ 0 ∨ year % 400 = 0) then 29 else 28
  else if month = 4 ∨ month = 6 ∨ month = 9 ∨ month = 11 then 30
  else 31

/-- What is left after a date. -/
def date? (s : List Char) : Option (List Char) := do
  let (year, s) ← fixed 4 0 9999 s
  let s ← expect '-' s
  let (month, s) ← fixed 2 1 12 s
  let s ← expect '-' s
  let (_, s) ← fixed 2 1 (daysOf year month) s
  return s

/-- What is left after a fraction of a second, if there is one. -/
def skipFraction (s : List Char) : List Char :=
  match s with
  | '.' :: d :: rest => if isDigit d then rest.dropWhile isDigit else s
  | _ => s

/-- What is left after a time of day. -/
def time? (s : List Char) : Option (List Char) := do
  let (_, s) ← fixed 2 0 23 s
  let s ← expect ':' s
  let (_, s) ← fixed 2 0 59 s
  let s ← expect ':' s
  let (_, s) ← fixed 2 0 60 s
  return skipFraction s

/-- What is left after hours and minutes. -/
def hoursMinutes? (s : List Char) : Option (List Char) := do
  let (_, s) ← fixed 2 0 23 s
  let s ← expect ':' s
  let (_, s) ← fixed 2 0 59 s
  return s

/-- What is left after a time zone, if there is one. -/
def skipZone (s : List Char) : List Char :=
  match s with
  | 'Z' :: rest | 'z' :: rest => rest
  | '+' :: rest | '-' :: rest => (hoursMinutes? rest).getD s
  | _ => s

/-- What is left after the time that may follow a date. -/
def skipTime (s : List Char) : List Char :=
  match s with
  | c :: rest =>
    if c = 'T' ∨ c = 't' ∨ c = ' ' then
      match time? rest with
      | some rest => skipZone rest
      | none => s
    else s
  | [] => []

/-- What is left after a date, a time, or both. -/
def moment? (s : List Char) : Option (List Char) :=
  match date? s with
  | some s => some (skipTime s)
  | none => time? s

end Playground.Toml
