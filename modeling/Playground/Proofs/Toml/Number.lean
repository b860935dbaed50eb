import Playground.Toml.Document
import Playground.Proofs.Toml.Quoted

/-!
# Whole numbers are read back

The decimal digits of a number, at the end of their line, are read as that number and as nothing else, if it fits into 64 bits with a
sign (`numeral_toDigits`): they are no date and no time, since a digit or the line's end stands where these have a dash or a colon,
and no other number, since neither a point nor an exponent follows.
-/

namespace Playground.Toml

/-! ## Digits -/

/-- A number is written with digits. -/
theorem isDigit_of_mem_toDigits {n : Nat} {c : Char} (h : c ∈ Nat.toDigits 10 n) : isDigit c = true := by
  have hdigit := Nat.isDigit_of_mem_toDigits (by decide) (by decide) h
  simpa [isDigit, Char.isDigit, Char.le_def] using hdigit

/-- The value of a digit is how far it is from zero. -/
theorem digitValue_of_isDigit {c : Char} (h : isDigit c = true) : digitValue c = c.toNat - '0'.toNat := by
  simp only [isDigit, Bool.and_eq_true, decide_eq_true_eq] at h
  simp [digitValue, Quoted.hexValue?, h]

/-- The digits of a number write that number. -/
theorem numberOf_toDigits (n : Nat) : numberOf 10 (Nat.toDigits 10 n) = n := by
  have hsame : ∀ (digits : List Char), (∀ c ∈ digits, isDigit c = true) → ∀ start,
      digits.foldl (fun n c => n * 10 + digitValue c) start = Nat.ofDigitChars 10 digits start := by
    intro digits hdigits
    induction digits with
    | nil => exact fun _ => rfl
    | cons c digits ih =>
      intro start
      have hc := digitValue_of_isDigit (hdigits c List.mem_cons_self)
      have hrest := ih (fun d hd => hdigits d (List.mem_cons_of_mem c hd))
      simp only [Nat.ofDigitChars] at hrest
      simp only [Nat.ofDigitChars, List.foldl_cons, hrest, hc, Nat.mul_comm]
  rw [numberOf, hsame _ (fun c hc => isDigit_of_mem_toDigits hc)]
  exact Nat.ofDigitChars_toDigits (by decide) (by decide)

/-- Below the limit of 64 bits with a sign, digits write the number itself. -/
theorem magnitude_toDigits {n : Nat} (hn : n < 9223372036854775808) : magnitude 10 (Nat.toDigits 10 n) = n := by
  have hlimit : n ≤ UInt64.size := Nat.le_trans (Nat.le_of_lt hn) (by decide)
  rw [magnitude, numberUpTo_eq_min (by decide), numberOf_toDigits, Nat.min_eq_right hlimit]

theorem toDigits_ne_nil (n : Nat) : Nat.toDigits 10 n ≠ [] := List.ne_nil_of_length_pos Nat.length_toDigits_pos

/-- No number but zero begins with the digit zero. -/
theorem head?_toDigits {n : Nat} (hn : n ≠ 0) : (Nat.toDigits 10 n).head? ≠ some '0' := by
  induction n using Nat.strongRecOn with
  | ind n ih =>
    by_cases hlt : n < 10
    · rw [Nat.toDigits_of_lt_base hlt]
      intro h
      have hdigit : Nat.digitChar n = '0' := by simpa using h
      have hvalue := numberOf_toDigits n
      rw [Nat.toDigits_of_lt_base hlt, hdigit] at hvalue
      exact hn hvalue.symm
    · have hfirst := ih (n / 10) (by omega) (by omega)
      obtain ⟨c, digits, hdigits⟩ := List.exists_cons_of_ne_nil (toDigits_ne_nil (n / 10))
      rw [Nat.toDigits_eq_if (by decide), if_neg hlt, hdigits]
      rw [hdigits] at hfirst
      exact hfirst

/-- Digits have no underscores to space. -/
theorem wellSpaced_of_digits {digits : List Char} (hdigits : ∀ c ∈ digits, isDigit c = true) (hne : digits ≠ []) :
    wellSpaced digits = true := by
  have hunderscore : isDigit '_' = false := rfl
  fun_induction wellSpaced digits <;> simp_all

/-- Digits are read up to the end of their line. -/
theorem someDigits_append {digits : List Char} (hdigits : ∀ c ∈ digits, isDigit c = true) (hne : digits ≠ [])
    (rest : List Char) : someDigits isDigit (digits ++ '\n' :: rest) = some (digits, '\n' :: rest) := by
  have hbelongs : ∀ c ∈ digits, (isDigit c || c == '_') = true := by
    intro c hc
    rw [hdigits c hc, Bool.true_or]
  have hkept : digits.filter (· != '_') = digits := by
    rw [List.filter_eq_self]
    intro c hc
    rw [bne_iff_ne]
    rintro rfl
    cases hdigits '_' hc
  obtain ⟨htaken, hleft⟩ := run_append hbelongs (c := '\n') rfl rest
  simp only [someDigits, htaken, hleft, wellSpaced_of_digits hdigits hne, if_true, hkept]

/-- The digits of a number are those of a decimal number. -/
theorem decimalDigits_toDigits (n : Nat) (rest : List Char) :
    decimalDigits (Nat.toDigits 10 n ++ '\n' :: rest) = some (Nat.toDigits 10 n, '\n' :: rest) := by
  by_cases hn : n = 0
  · rw [hn]
    rfl
  · have hfirst := head?_toDigits hn
    have hdigits := someDigits_append (fun _ hc => isDigit_of_mem_toDigits hc) (toDigits_ne_nil n) rest
    obtain ⟨c, digits, hcons⟩ := List.exists_cons_of_ne_nil (toDigits_ne_nil n)
    rw [hcons] at hfirst hdigits ⊢
    rw [List.cons_append] at hdigits ⊢
    unfold decimalDigits
    split
    next heq => exact absurd (congrArg some (List.cons.inj heq).1) hfirst
    next => exact hdigits

/-! ## A line of digits -/

/-- Digits, perhaps none, and the end of their line. -/
inductive DigitsLeft : List Char → Prop
  | stop (rest : List Char) : DigitsLeft ('\n' :: rest)
  | digit {c : Char} {s : List Char} (hc : isDigit c = true) (h : DigitsLeft s) : DigitsLeft (c :: s)

namespace DigitsLeft

variable {s rest : List Char} {c : Char}

/-- Digits in front of the end of their line. -/
theorem of_append {digits : List Char} (hdigits : ∀ c ∈ digits, isDigit c = true) (rest : List Char) :
    DigitsLeft (digits ++ '\n' :: rest) := by
  induction digits with
  | nil => exact .stop rest
  | cons c digits ih =>
    exact .digit (hdigits c List.mem_cons_self) (ih fun d hd => hdigits d (List.mem_cons_of_mem c hd))

/-- Nothing else stands at the front. -/
theorem front (h : DigitsLeft (c :: s)) : c = '\n' ∨ isDigit c = true ∧ DigitsLeft s := by
  cases h with
  | stop => exact .inl rfl
  | digit hc h => exact .inr ⟨hc, h⟩

/-- A number of a fixed width takes digits only. -/
theorem fixed {width least greatest n : Nat} (h : DigitsLeft s) (hread : fixed width least greatest s = some (n, rest)) :
    DigitsLeft rest := by
  have hdrop : ∀ width {s}, DigitsLeft s → (s.take width).length = width → (s.take width).all isDigit = true →
      DigitsLeft (s.drop width) := by
    intro width
    induction width with
    | zero => exact fun h _ _ => h
    | succ width ih =>
      intro s h hlength hall
      cases h with
      | stop rest => cases hall
      | digit hc h =>
        simp only [List.take_succ_cons, List.length_cons, Nat.add_right_cancel_iff, List.all_cons, hc,
          Bool.true_and] at hlength hall
        exact ih h hlength hall
  unfold Toml.fixed at hread
  dsimp only at hread
  split at hread
  next hfits =>
    cases hread
    exact hdrop width h hfits.1 hfits.2.1
  next => cases hread

/-- No character stands there but digits and the line's end. -/
theorem expect_eq_none (h : DigitsLeft s) (hdigit : isDigit c = false) (hline : c ≠ '\n') : expect c s = none := by
  cases h with
  | stop rest => rw [expect, if_neg (Ne.symm hline)]
  | @digit d s hd h =>
    have hne : d ≠ c := fun heq => Bool.false_ne_true (hdigit.symm.trans (heq ▸ hd))
    rw [expect, if_neg hne]

/-- Not a date: there is no dash. -/
theorem date?_eq_none (h : DigitsLeft s) : date? s = none := by
  unfold date?
  cases hyear : Toml.fixed 4 0 9999 s with
  | none => rfl
  | some year =>
    have hdash := (h.fixed hyear).expect_eq_none (c := '-') rfl (by decide)
    simp only [Option.bind_eq_bind, Option.bind_some, hdash, Option.bind_none]

/-- Not a time: there is no colon. -/
theorem time?_eq_none (h : DigitsLeft s) : time? s = none := by
  unfold time?
  cases hhour : Toml.fixed 2 0 23 s with
  | none => rfl
  | some hour =>
    have hcolon := (h.fixed hhour).expect_eq_none (c := ':') rfl (by decide)
    simp only [Option.bind_eq_bind, Option.bind_some, hcolon, Option.bind_none]

/-- Neither a date nor a time. -/
theorem moment?_eq_none (h : DigitsLeft s) : moment? s = none := by
  rw [moment?, h.date?_eq_none]
  exact h.time?_eq_none

/-- No sign. -/
theorem sign_eq (h : DigitsLeft s) : sign s = (false, s) := by
  unfold sign
  split
  next => obtain heq | ⟨hc, -⟩ := h.front <;> contradiction
  next => obtain heq | ⟨hc, -⟩ := h.front <;> contradiction
  next => rfl

end DigitsLeft

/-- A number without a fraction or an exponent is whole. -/
theorem float?_toDigits (n : Nat) (rest : List Char) : float? (Nat.toDigits 10 n ++ '\n' :: rest) = none := by
  have hleft : DigitsLeft (Nat.toDigits 10 n ++ '\n' :: rest) := .of_append (fun _ hc => isDigit_of_mem_toDigits hc) rest
  have hdecimal : decimal false (Nat.toDigits 10 n ++ '\n' :: rest) = none := by
    have hfraction : fraction? ('\n' :: rest) = some (none, '\n' :: rest) := rfl
    have hexponent : exponent? ('\n' :: rest) = some (none, '\n' :: rest) := rfl
    simp only [decimal, decimalDigits_toDigits, hfraction, hexponent, Option.bind_eq_bind, Option.bind_some]
    rfl
  simp only [float?, hleft.sign_eq]
  split
  next heq => obtain hc | ⟨hc, -⟩ := (heq ▸ hleft).front <;> contradiction
  next heq => obtain hc | ⟨hc, -⟩ := (heq ▸ hleft).front <;> contradiction
  next => exact hdecimal

/-- The digits of a number that fits are read as an integer. -/
theorem integer_toDigits {n : Nat} (hn : n < 9223372036854775808) (rest : List Char) :
    integer (Nat.toDigits 10 n ++ '\n' :: rest) = some ((n : Int), '\n' :: rest) := by
  have hleft : DigitsLeft (Nat.toDigits 10 n ++ '\n' :: rest) := .of_append (fun _ hc => isDigit_of_mem_toDigits hc) rest
  have hmarker : ∀ {c s}, Nat.toDigits 10 n ++ '\n' :: rest = '0' :: c :: s → c = '\n' ∨ isDigit c = true := by
    intro c s heq
    obtain hzero | ⟨-, hleft⟩ := (heq ▸ hleft).front
    · cases hzero
    · exact hleft.front.imp_right And.left
  have hbounded : bounded (n : Int) = some (n : Int) := if_pos ⟨by omega, by omega⟩
  unfold integer
  split
  next heq => exact absurd (hmarker heq) (by decide)
  next heq => exact absurd (hmarker heq) (by decide)
  next heq => exact absurd (hmarker heq) (by decide)
  next =>
    simp only [hleft.sign_eq, decimalDigits_toDigits, magnitude_toDigits hn, Bool.false_eq_true, if_false, hbounded,
      Option.map_some]

/-- The digits of a number are read as that number. -/
theorem numeral_toDigits {n : Nat} (hn : n < 9223372036854775808) (rest : List Char) :
    numeral (Nat.toDigits 10 n ++ '\n' :: rest) = some (.integer n, '\n' :: rest) := by
  have hleft : DigitsLeft (Nat.toDigits 10 n ++ '\n' :: rest) := .of_append (fun _ hc => isDigit_of_mem_toDigits hc) rest
  simp only [numeral, hleft.moment?_eq_none, float?_toDigits, integer_toDigits hn, Option.map_some]

end Playground.Toml
