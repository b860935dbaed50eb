import Mathlib.Tactic.IntervalCases
import Playground.Toml.Quoted

/-!
# Quoted text is read back

What `write` puts between quotes, `read` takes out again (`read_write`), whatever the text is and whatever follows, as long as that
is no quote. On one line, quotes, backslashes and line feeds are escaped, or the text has none. On several lines, `Spells` relates
what is written to what is meant: no quote stands behind two others, so the three that close the text are the first in a row.
-/

namespace Playground.Toml

/-- A run of characters of one kind ends at the first character that is not of that kind. -/
theorem run_append {belongs : Char → Bool} {run : List Char} (hrun : ∀ c ∈ run, belongs c = true) {c : Char}
    (hc : belongs c = false) (rest : List Char) :
    (run ++ c :: rest).takeWhile belongs = run ∧ (run ++ c :: rest).dropWhile belongs = c :: rest := by
  have hnot : ¬belongs c = true := Bool.eq_false_iff.mp hc
  constructor
  · rw [List.takeWhile_append_of_pos hrun, List.takeWhile_cons_of_neg hnot, List.append_nil]
  · rw [List.dropWhile_append_of_pos hrun, List.dropWhile_cons_of_neg hnot]

end Playground.Toml

namespace Playground.Toml.Quoted

/-! ## Escapes -/

/-- A hexadecimal digit is read as the number it was written for. -/
theorem hexValue?_upperDigit {n : Nat} (h : n < 16) : hexValue? (escapeOf.upperDigit n) = some n := by
  interval_cases n <;> rfl

/-- Four hexadecimal digits are read as the character that they were written for. -/
theorem codePoint_upperDigit {c : Char} (hc : c.toNat < 256) (rest : List Char) :
    codePoint 4 ('0' :: '0' :: escapeOf.upperDigit (c.toNat / 16) :: escapeOf.upperDigit (c.toNat % 16) :: rest) =
      some (c, rest) := by
  have hnumber : hexNumber? ['0', '0', escapeOf.upperDigit (c.toNat / 16), escapeOf.upperDigit (c.toNat % 16)] =
      some c.toNat := by
    have hzero : hexValue? '0' = some 0 := rfl
    have hhigh := hexValue?_upperDigit (n := c.toNat / 16) (by omega)
    have hlow := hexValue?_upperDigit (n := c.toNat % 16) (by omega)
    simp [hexNumber?, List.foldlM, hzero, hhigh, hlow]
    omega
  have hvalid : c.toNat.isValidChar := c.valid
  have hchar : Char.ofNatAux c.toNat hvalid = c := by
    have hofNat : Char.ofNat c.toNat = Char.ofNatAux c.toNat hvalid := by rw [Char.ofNat, dif_pos hvalid]
    exact hofNat.symm.trans (Char.ofNat_toNat c)
  unfold codePoint
  dsimp only [List.take_succ_cons, List.take_zero, List.length_cons, List.length_nil]
  rw [if_pos rfl, hnumber]
  dsimp only
  rw [dif_pos hvalid, hchar]
  rfl

/-- An escape begins with a backslash, is read as the character that it was written for, and joins no lines. -/
theorem escapeOf_spells {c : Char} (hc : c.toNat < 256) :
    ∃ spelling, escapeOf c = '\\' :: spelling ∧
      ∀ rest, escape (spelling ++ rest) = some (c, rest) ∧ joinLines? (spelling ++ rest) = none := by
  by_cases hletter : c ∈ escapes.map Prod.snd
  · simp only [escapes, List.map_cons, List.map_nil, List.mem_cons, List.not_mem_nil, or_false] at hletter
    rcases hletter with rfl | rfl | rfl | rfl | rfl | rfl | rfl <;> exact ⟨_, rfl, fun _ => ⟨rfl, rfl⟩⟩
  · have hnone : escapes.find? (·.2 == c) = none := by
      rw [List.find?_eq_none]
      intro entry hentry heq
      exact hletter (List.mem_map.mpr ⟨entry, hentry, by simpa using heq⟩)
    exact ⟨['u', '0', '0', escapeOf.upperDigit (c.toNat / 16), escapeOf.upperDigit (c.toNat % 16)],
      by rw [escapeOf, hnone], fun rest => ⟨codePoint_upperDigit hc rest, rfl⟩⟩

/-- Every control character has an escape. -/
theorem toNat_lt_of_isControl {c : Char} (h : isControl c = true) : c.toNat < 256 := by
  simp only [isControl, isPrintable, Bool.and_eq_true, Bool.not_eq_true', Bool.or_eq_false_iff,
    Bool.and_eq_false_iff, decide_eq_false_iff_not, bne_eq_false_iff_eq] at h
  omega

/-- A character that is no control character, or a line feed, is printable. -/
theorem isPrintable_of_not_isControl {c : Char} (h : isControl c = false) (hc : c ≠ '\n') : isPrintable c = true := by
  simpa [isControl, hc] using h

/-- Where escapes may be, a character is written in one of three ways: as a quote that may stand for itself, as another character
that may, or as an escape. -/
theorem escapeOne_cases (several : Bool) (run : Nat) (c : Char) :
    (c = '"' ∧ several = true ∧ run < 2 ∧ escapeOne several run c = ([c], run + 1)) ∨
      (c ≠ '"' ∧ c ≠ '\\' ∧ (isPrintable c = true ∨ several = true ∧ c = '\n') ∧ escapeOne several run c = ([c], 0)) ∨
      (c.toNat < 256 ∧ escapeOne several run c = (escapeOf c, 0)) := by
  unfold escapeOne
  split
  next hquote =>
    subst hquote
    split
    next h => exact .inl ⟨rfl, h.1, h.2, rfl⟩
    next => exact .inr (.inr ⟨by decide, rfl⟩)
  next hquote =>
    split
    next h => exact .inr (.inl ⟨hquote, by rw [h.2]; decide, .inr h, rfl⟩)
    next hbreak =>
      split
      next h =>
        refine .inr (.inr ⟨?_, rfl⟩)
        rcases h with h | rfl | rfl | rfl
        · exact toNat_lt_of_isControl h
        all_goals decide
      next h =>
        simp only [not_or, Bool.not_eq_true] at h
        exact .inr (.inl ⟨hquote, h.2.2.1, .inl (isPrintable_of_not_isControl h.1 h.2.2.2), rfl⟩)

theorem escapeFrom_eq (several : Bool) (written : List Char) (run : Nat) (s : List Char) :
    escapeFrom several written run s = written.reverse ++ escapeFrom several [] run s := by
  induction s generalizing written run with
  | nil => simp [escapeFrom]
  | cons c s ih =>
    simp only [escapeFrom]
    rw [ih, ih ((escapeOne several run c).1.reverse ++ [])]
    simp

/-- Text with escapes is written one character after the other. -/
theorem escapeFrom_cons (several : Bool) (run : Nat) (c : Char) (s : List Char) :
    escapeFrom several [] run (c :: s) =
      (escapeOne several run c).1 ++ escapeFrom several [] (escapeOne several run c).2 s := by
  simp only [escapeFrom]
  rw [escapeFrom_eq several ((escapeOne several run c).1.reverse ++ [])]
  simp

/-- No character is written as nothing. -/
theorem length_le_escapeFrom (several : Bool) (run : Nat) (s : List Char) :
    s.length ≤ (escapeFrom several [] run s).length := by
  induction s generalizing run with
  | nil => exact Nat.zero_le _
  | cons c s ih =>
    have hone : 1 ≤ (escapeOne several run c).1.length := by
      obtain ⟨-, -, -, hone⟩ | ⟨-, -, -, hone⟩ | ⟨hc, hone⟩ := escapeOne_cases several run c
      · simp [hone]
      · simp [hone]
      · obtain ⟨spelling, hspelling, -⟩ := escapeOf_spells hc
        simp [hone, hspelling]
    have hrest := ih (escapeOne several run c).2
    rw [escapeFrom_cons, List.length_append, List.length_cons]
    omega

/-! ## One line -/

/-- What is written with escapes on one line is read back, up to the closing quote. -/
theorem basicLine_escapeFrom {s rounds : List Char} (hrounds : s.length < rounds.length) (run : Nat) (taken rest : List Char) :
    basicLine rounds taken (escapeFrom false [] run s ++ '"' :: rest) = some (taken.reverse ++ s, rest) := by
  induction s generalizing rounds run taken with
  | nil =>
    cases rounds with
    | nil => simp at hrounds
    | cons _ rounds => simp [escapeFrom, basicLine]
  | cons c s ih =>
    cases rounds with
    | nil => simp at hrounds
    | cons _ rounds =>
      have hrest := fun run => ih (Nat.lt_of_succ_lt_succ hrounds) run (c :: taken)
      simp only [List.reverse_cons, List.append_assoc, List.singleton_append] at hrest
      rw [escapeFrom_cons]
      obtain ⟨-, hseveral, -⟩ | ⟨hquote, hslash, hprint, hone⟩ | ⟨hc, hone⟩ := escapeOne_cases false run c
      · cases hseveral
      · have hprint : isPrintable c = true := by simpa using hprint
        rw [hone, List.append_assoc, List.singleton_append, basicLine]
        · rw [if_pos hprint, hrest]
        · exact hquote
        · exact hslash
      · obtain ⟨spelling, hspelling, hread⟩ := escapeOf_spells hc
        rw [hone, hspelling, List.append_assoc, List.cons_append, basicLine, (hread _).1]
        exact hrest 0

/-! ## Several lines -/

/-- What is written on several lines, behind `run` quotes in a row, and what is meant: a quote stands for itself with less than two
before it; a line feed and what is printable stand for themselves, but for a backslash where escapes may be; and an escape stands
for its character. -/
inductive Spells (quote : Char) (escaped : Bool) : Nat → List Char → List Char → Prop where
  | nil (run : Nat) : Spells quote escaped run [] []
  | quote {run : Nat} {written meant : List Char} (hrun : run < 2) (h : Spells quote escaped (run + 1) written meant) :
    Spells quote escaped run (quote :: written) (quote :: meant)
  | plain {run : Nat} {c : Char} {written meant : List Char} (hquote : c ≠ quote) (hslash : escaped = true → c ≠ '\\')
    (hprint : isPrintable c = true ∨ c = '\n') (h : Spells quote escaped 0 written meant) :
    Spells quote escaped run (c :: written) (c :: meant)
  | escape {run : Nat} {c : Char} {written meant : List Char} (hescaped : escaped = true) (hc : c.toNat < 256)
    (h : Spells quote escaped 0 written meant) : Spells quote escaped run (escapeOf c ++ written) (c :: meant)

/-- The characters that can be put around a text. -/
def IsQuote (c : Char) : Prop := c = '"' ∨ c = '\''

section Closing

variable {quote x : Char} {taken rest : List Char} {k : Nat}

/-- Three quotes behind at most two others close a text, to which the others belong. -/
theorem closing_replicate (hk : k ≤ 2) (hrest : rest.head? ≠ some quote) :
    closing quote taken (List.replicate k quote ++ quote :: quote :: quote :: rest) =
      some (taken.reverse ++ List.replicate k quote, rest) := by
  have hnext : ∀ c s, rest = c :: s → c ≠ quote := by
    rintro c s rfl rfl
    exact hrest rfl
  interval_cases k
  all_goals
    rcases rest with _ | ⟨c, _ | ⟨d, rest⟩⟩
    · simp [closing, List.replicate]
    · simp [closing, List.replicate, hnext c _ rfl]
    · simp [closing, List.replicate, hnext c _ rfl]

/-- At most two quotes in a row close no text. -/
theorem closing_of_ne (hk : k ≤ 2) (hx : x ≠ quote) : closing quote taken (List.replicate k quote ++ x :: rest) = none := by
  interval_cases k
  all_goals
    rcases rest with _ | ⟨c, _ | ⟨d, rest⟩⟩ <;> simp [closing, List.replicate, hx]

end Closing

section Rounds

variable {quote c : Char} {escaped : Bool} {rounds taken s : List Char}

/-- A text ends where it is closed. -/
theorem manyLines_of_closing {result : List Char × List Char} (round : Char) (h : closing quote taken s = some result) :
    manyLines quote escaped (round :: rounds) taken s = some result := by
  cases s <;> simp only [manyLines, h]

/-- No line ends with a printable character. -/
theorem newline?_of_isPrintable (h : isPrintable c = true) : newline? (c :: s) = none := by
  unfold newline?
  split
  next heq => simp_all [isPrintable]
  next heq => simp_all [isPrintable]
  next => rfl

/-- A line feed within the text stands for itself. -/
theorem manyLines_break (round : Char) (h : closing quote taken ('\n' :: s) = none) :
    manyLines quote escaped (round :: rounds) taken ('\n' :: s) = manyLines quote escaped rounds ('\n' :: taken) s := by
  simp only [manyLines, h, newline?]

/-- So does a printable character that begins no escape. -/
theorem manyLines_plain (round : Char) (h : closing quote taken (c :: s) = none) (hslash : escaped = true → c ≠ '\\')
    (hprint : isPrintable c = true) :
    manyLines quote escaped (round :: rounds) taken (c :: s) = manyLines quote escaped rounds (c :: taken) s := by
  have hnoEscape : ¬(escaped = true ∧ c = '\\') := fun h => hslash h.1 h.2
  simp only [manyLines, h, newline?_of_isPrintable hprint, if_neg hnoEscape, if_pos hprint]

/-- An escape stands for its character. -/
theorem manyLines_escape (round : Char) (h : closing quote taken ('\\' :: s) = none) (hescaped : escaped = true)
    {rest : List Char} (hjoin : joinLines? s = none) (hread : escape s = some (c, rest)) :
    manyLines quote escaped (round :: rounds) taken ('\\' :: s) = manyLines quote escaped rounds (c :: taken) rest := by
  have hnewline : newline? ('\\' :: s) = none := rfl
  simp only [manyLines, h, hnewline, hescaped, and_self, if_true, hjoin, hread]

end Rounds

namespace Spells

variable {quote : Char} {escaped : Bool} {run : Nat} {written meant : List Char}

/-- What is written is no shorter than what is meant. -/
theorem length_le (h : Spells quote escaped run written meant) : meant.length ≤ written.length := by
  induction h with
  | nil _ => exact Nat.le_refl 0
  | quote _ _ ih => exact Nat.succ_le_succ ih
  | plain _ _ _ _ ih => exact Nat.succ_le_succ ih
  | escape _ hc _ ih =>
    obtain ⟨spelling, hspelling, -⟩ := escapeOf_spells hc
    simp only [hspelling, List.cons_append, List.length_cons, List.length_append]
    omega

/-- What is written is nothing but quotes, which are then meant, or something else comes behind the quotes it begins with. -/
theorem cases_quotes (h : Spells quote escaped run written meant) (hquote : IsQuote quote) :
    ∃ k, k ≤ 2 - run ∧ ((written = List.replicate k quote ∧ meant = List.replicate k quote) ∨
      ∃ x rest, x ≠ quote ∧ written = List.replicate k quote ++ x :: rest) := by
  induction h with
  | nil _ => exact ⟨0, Nat.zero_le _, .inl ⟨rfl, rfl⟩⟩
  | quote hrun _ ih =>
    obtain ⟨k, hk, ⟨rfl, rfl⟩ | ⟨x, rest, hx, rfl⟩⟩ := ih
    · exact ⟨k + 1, by omega, .inl ⟨rfl, rfl⟩⟩
    · exact ⟨k + 1, by omega, .inr ⟨x, rest, hx, rfl⟩⟩
  | plain hc _ _ _ _ => exact ⟨0, Nat.zero_le _, .inr ⟨_, _, hc, rfl⟩⟩
  | escape _ hc _ _ =>
    obtain ⟨spelling, hspelling, -⟩ := escapeOf_spells hc
    refine ⟨0, Nat.zero_le _, .inr ⟨'\\', _, ?_, by rw [hspelling]; rfl⟩⟩
    rcases hquote with rfl | rfl <;> decide

/-- A text is closed by the three quotes behind what is left of it, or there is more to read first. -/
theorem closing_cases (h : Spells quote escaped run written meant) (hquote : IsQuote quote) (taken : List Char)
    {rest : List Char} (hrest : rest.head? ≠ some quote) :
    closing quote taken (written ++ quote :: quote :: quote :: rest) = some (taken.reverse ++ meant, rest) ∨
      (written ≠ [] ∧ closing quote taken (written ++ quote :: quote :: quote :: rest) = none) := by
  obtain ⟨k, hk, ⟨rfl, rfl⟩ | ⟨x, after, hx, rfl⟩⟩ := h.cases_quotes hquote
  · exact .inl (closing_replicate (by omega) hrest)
  · refine .inr ⟨by simp, ?_⟩
    rw [List.append_assoc, List.cons_append]
    exact closing_of_ne (by omega) hx

/-- What is meant is read back, up to the three quotes that close the text. -/
theorem read_back (h : Spells quote escaped run written meant) (hquote : IsQuote quote) {rounds : List Char}
    (hrounds : meant.length < rounds.length) (taken : List Char) {rest : List Char} (hrest : rest.head? ≠ some quote) :
    manyLines quote escaped rounds taken (written ++ quote :: quote :: quote :: rest) =
      some (taken.reverse ++ meant, rest) := by
  induction h generalizing rounds taken with
  | nil run =>
    obtain ⟨round, rounds, rfl⟩ := List.exists_cons_of_length_pos (Nat.zero_lt_of_lt hrounds)
    have hspells : Spells quote escaped run [] [] := .nil run
    obtain hclosed | ⟨hne, -⟩ := hspells.closing_cases hquote taken hrest
    · exact manyLines_of_closing round hclosed
    · exact absurd rfl hne
  | quote hrun h ih =>
    obtain ⟨round, rounds, rfl⟩ := List.exists_cons_of_length_pos (Nat.zero_lt_of_lt hrounds)
    obtain hclosed | ⟨-, hopen⟩ := (Spells.quote hrun h).closing_cases hquote taken hrest
    · exact manyLines_of_closing round hclosed
    · have hplain : isPrintable quote = true ∧ quote ≠ '\\' := by
        rcases hquote with rfl | rfl <;> decide
      rw [List.cons_append] at hopen ⊢
      rw [manyLines_plain round hopen (fun _ => hplain.2) hplain.1,
        ih (Nat.lt_of_succ_lt_succ hrounds)]
      simp
  | @plain run c written meant hc hslash hprint h ih =>
    obtain ⟨round, rounds, rfl⟩ := List.exists_cons_of_length_pos (Nat.zero_lt_of_lt hrounds)
    have hspells : Spells quote escaped run (c :: written) (c :: meant) := .plain hc hslash hprint h
    obtain hclosed | ⟨-, hopen⟩ := hspells.closing_cases hquote taken hrest
    · exact manyLines_of_closing round hclosed
    · have hrest := ih (Nat.lt_of_succ_lt_succ hrounds) (c :: taken)
      simp only [List.reverse_cons, List.append_assoc, List.singleton_append] at hrest
      rw [List.cons_append] at hopen ⊢
      obtain hprint | rfl := hprint
      · rw [manyLines_plain round hopen hslash hprint, hrest]
      · rw [manyLines_break round hopen, hrest]
  | @escape run c written meant hescaped hc h ih =>
    obtain ⟨round, rounds, rfl⟩ := List.exists_cons_of_length_pos (Nat.zero_lt_of_lt hrounds)
    have hspells : Spells quote escaped run (escapeOf c ++ written) (c :: meant) := .escape hescaped hc h
    obtain hclosed | ⟨-, hopen⟩ := hspells.closing_cases hquote taken hrest
    · exact manyLines_of_closing round hclosed
    · obtain ⟨spelling, hspelling, hread⟩ := escapeOf_spells hc
      rw [hspelling, List.append_assoc, List.cons_append] at hopen ⊢
      rw [manyLines_escape round hopen hescaped (hread _).2 (hread _).1, ih (Nat.lt_of_succ_lt_succ hrounds)]
      simp

/-- What is written begins with a line end only where a line feed is meant. -/
theorem newline?_eq_none (h : Spells quote escaped run written meant) (hquote : IsQuote quote) (hmeant : '\n' ∉ meant)
    (rest : List Char) : newline? (written ++ quote :: rest) = none := by
  have hprint : isPrintable quote = true := by
    rcases hquote with rfl | rfl <;> decide
  cases h with
  | nil _ => exact newline?_of_isPrintable hprint
  | quote _ _ => exact newline?_of_isPrintable hprint
  | plain _ _ hc _ =>
    obtain hc | rfl := hc
    · exact newline?_of_isPrintable hc
    · exact absurd List.mem_cons_self hmeant
  | escape _ hc _ =>
    obtain ⟨spelling, hspelling, -⟩ := escapeOf_spells hc
    rw [hspelling]
    rfl

end Spells

/-- What is written with escapes on several lines. -/
theorem spells_escapeFrom (run : Nat) (s : List Char) : Spells '"' true run (escapeFrom true [] run s) s := by
  induction s generalizing run with
  | nil => exact .nil run
  | cons c s ih =>
    rw [escapeFrom_cons]
    obtain ⟨rfl, -, hrun, hone⟩ | ⟨hquote, hslash, hprint, hone⟩ | ⟨hc, hone⟩ := escapeOne_cases true run c
    · rw [hone]
      exact .quote hrun (ih (run + 1))
    · rw [hone]
      exact .plain hquote (fun _ => hslash) (hprint.imp_right And.right) (ih 0)
    · rw [hone]
      exact .escape rfl hc (ih 0)

/-- The longest run of a quote and the one that has not ended yet, with one more character. -/
def countRun (quote : Char) (counts : Nat × Nat) (c : Char) : Nat × Nat :=
  let run := if c = quote then counts.2 + 1 else 0
  (max counts.1 run, run)

/-- The longest run of a quote gets no shorter with more text. -/
theorem le_foldl_countRun (quote : Char) (s : List Char) (counts : Nat × Nat) :
    counts.1 ≤ (s.foldl (countRun quote) counts).1 := by
  induction s generalizing counts with
  | nil => exact Nat.le_refl _
  | cons c s ih => exact Nat.le_trans (Nat.le_max_left _ _) (ih (countRun quote counts c))

/-- A text that has no three quotes in a row and no control character stands for itself. -/
theorem spells_self {quote : Char} {s : List Char} (hcontrol : ∀ c ∈ s, isControl c = false) {counts : Nat × Nat}
    (h : (s.foldl (countRun quote) counts).1 ≤ 2) : Spells quote false counts.2 s s := by
  induction s generalizing counts with
  | nil => exact .nil _
  | cons c s ih =>
    have hs := ih (fun d hd => hcontrol d (List.mem_cons_of_mem c hd)) h
    have hcount : (countRun quote counts c).1 ≤ 2 := Nat.le_trans (le_foldl_countRun quote s _) h
    by_cases hc : c = quote
    · subst hc
      simp only [countRun, if_true] at hs hcount
      exact .quote (by omega) hs
    · simp only [countRun, if_neg hc] at hs
      refine .plain hc nofun ?_ hs
      by_cases hbreak : c = '\n'
      · exact .inr hbreak
      · exact .inl (isPrintable_of_not_isControl (hcontrol c List.mem_cons_self) hbreak)

/-! ## Reading what was written -/

/-- Text between three quotes is read back; a line break before it belongs to the quotes. -/
theorem lines_spells {quote : Char} {escaped : Bool} {written s : List Char} (h : Spells quote escaped 0 written s)
    (hquote : IsQuote quote) {rest : List Char} (hrest : rest.head? ≠ some quote) :
    lines quote escaped ((if s.contains '\n' then ['\n'] else []) ++ written ++ quote :: quote :: quote :: rest) =
      some (s, rest) := by
  have hlength := h.length_le
  have hrounds : s.length < (rounds (written ++ quote :: quote :: quote :: rest)).length := by
    simp only [rounds, List.length_cons, List.length_append]
    omega
  have hread := h.read_back hquote hrounds [] hrest
  unfold lines
  by_cases hbreak : s.contains '\n' = true
  · rw [if_pos hbreak]
    exact hread
  · have hnewline := h.newline?_eq_none hquote (by simpa using hbreak) (quote :: quote :: rest)
    rw [if_neg hbreak, List.nil_append, hnewline]
    exact hread

/-- A form without escapes is chosen only for a text that needs none in it. -/
theorem formOf_cases (s : List Char) :
    (formOf s = .basic ∨ formOf s = .basicLines) ∨
      (formOf s = .literal ∧ (∀ c ∈ s, isControl c = false) ∧ '\'' ∉ s ∧ '\n' ∉ s) ∨
      (formOf s = .literalLines ∧ (∀ c ∈ s, isControl c = false) ∧ longestRun '\'' s ≤ 2) := by
  unfold formOf
  dsimp only
  split
  next => exact .inl (.inl rfl)
  next =>
    split
    next hform =>
      simp only [Bool.and_eq_true, Bool.not_eq_true', List.any_eq_false, Bool.not_eq_true, List.contains_eq_mem,
        decide_eq_false_iff_not] at hform
      exact .inr (.inl ⟨rfl, hform.1.1, hform.1.2, hform.2⟩)
    next =>
      split
      next => exact .inl (.inr rfl)
      next =>
        split
        next hform =>
          simp only [Bool.and_eq_true, Bool.not_eq_true', List.any_eq_false, Bool.not_eq_true, decide_eq_true_eq] at hform
          exact .inr (.inr ⟨rfl, hform⟩)
        next => split <;> simp

/-- A literal text on one line is one without quotes, line feeds and control characters. -/
theorem inside_of_formOf {s : List Char} (h : formOf s = .literal) :
    s ≠ [] ∧ ∀ c ∈ s, (isPrintable c && c != '\'') = true := by
  obtain (hbasic | hlines) | ⟨-, hcontrol, hquote, hbreak⟩ | ⟨hlines, -⟩ := formOf_cases s
  · exact nomatch h.symm.trans hbasic
  · exact nomatch h.symm.trans hlines
  · refine ⟨?_, ?_⟩
    · rintro rfl
      cases h
    · intro c hc
      have hprint := isPrintable_of_not_isControl (hcontrol c hc) fun h => hbreak (h ▸ hc)
      have hne : c ≠ '\'' := fun h => hquote (h ▸ hc)
      simp [hprint, hne]
  · exact nomatch h.symm.trans hlines

/-- A literal text on several lines has no control characters and no three quotes in a row. -/
theorem spells_of_formOf {s : List Char} (h : formOf s = .literalLines) : Spells '\'' false 0 s s := by
  obtain (hbasic | hlines) | ⟨hliteral, -⟩ | ⟨-, hcontrol, hrun⟩ := formOf_cases s
  · exact nomatch h.symm.trans hbasic
  · exact nomatch h.symm.trans hlines
  · exact nomatch h.symm.trans hliteral
  · exact @spells_self '\'' s hcontrol (0, 0) hrun

/-- Text in one form of one line is not taken for text on several. -/
theorem read_eq_readLine {quote : Char} {s : List Char} (hquote : IsQuote quote) (h : s.take 2 ≠ [quote, quote]) :
    read (quote :: s) = readLine (quote :: s) := by
  unfold read
  split
  next heq =>
    obtain ⟨rfl, rfl⟩ := List.cons.inj heq
    exact absurd rfl h
  next heq =>
    obtain ⟨rfl, rfl⟩ := List.cons.inj heq
    exact absurd rfl h
  next => rfl

/-- Where quotes are escaped, no text begins with one. -/
theorem take_escapeFrom (s : List Char) {rest : List Char} (hrest : rest.head? ≠ some '"') :
    (escapeFrom false [] 0 s ++ '"' :: rest).take 2 ≠ ['"', '"'] := by
  cases s with
  | nil =>
    cases rest with
    | nil => nofun
    | cons d rest =>
      intro h
      simp [escapeFrom] at h
      exact hrest (congrArg some h)
  | cons c s =>
    rw [escapeFrom_cons]
    obtain ⟨-, hseveral, -⟩ | ⟨hquote, -, -, hone⟩ | ⟨hc, hone⟩ := escapeOne_cases false 0 c
    · cases hseveral
    · rw [hone]
      intro h
      exact hquote (List.head_eq_of_cons_eq h)
    · obtain ⟨spelling, hspelling, -⟩ := escapeOf_spells hc
      rw [hone, hspelling]
      intro h
      exact absurd (List.head_eq_of_cons_eq h) (by decide)

/-- A literal text on one line is read back. -/
theorem read_literal {s : List Char} (h : formOf s = .literal) (rest : List Char) :
    read ('\'' :: s ++ ['\''] ++ rest) = some (s, rest) := by
  obtain ⟨hne, hinside⟩ := inside_of_formOf h
  have htake : (s ++ '\'' :: rest).take 2 ≠ ['\'', '\''] := by
    obtain ⟨c, s, rfl⟩ := List.exists_cons_of_ne_nil hne
    intro heq
    have hc := hinside c List.mem_cons_self
    rw [List.head_eq_of_cons_eq heq] at hc
    cases hc
  obtain ⟨htaken, hleft⟩ := run_append hinside (c := '\'') rfl rest
  rw [List.append_assoc, List.cons_append, List.singleton_append, read_eq_readLine (.inr rfl) htake, readLine, literalLine]
  simp only [htaken, hleft]

/-- Three quotes open a text on several lines. -/
theorem read_of_threeQuotes {quote : Char} {opening body rest : List Char} {escaped : Bool}
    (hquote : quote = '"' ∧ escaped = true ∨ quote = '\'' ∧ escaped = false) {result : Option (List Char × List Char)}
    (h : lines quote escaped (opening ++ body ++ quote :: quote :: quote :: rest) = result) :
    read ([quote, quote, quote] ++ opening ++ body ++ [quote, quote, quote] ++ rest) = result := by
  have hwritten : [quote, quote, quote] ++ opening ++ body ++ [quote, quote, quote] ++ rest =
      quote :: quote :: quote :: (opening ++ body ++ quote :: quote :: quote :: rest) := by simp
  rw [hwritten, ← h]
  rcases hquote with ⟨rfl, rfl⟩ | ⟨rfl, rfl⟩ <;> rfl

/-- Whatever was written is read back, if no quote follows. -/
theorem read_write (s : List Char) {rest : List Char} (hrest : ∀ c, IsQuote c → rest.head? ≠ some c) :
    read (write s ++ rest) = some (s, rest) := by
  unfold write
  cases hform : formOf s with
  | basic =>
    have htake := take_escapeFrom s (hrest '"' (.inl rfl))
    have hlength := length_le_escapeFrom false 0 s
    have hrounds : s.length < (rounds (escapeFrom false [] 0 s ++ '"' :: rest)).length := by
      simp only [rounds, List.length_cons, List.length_append]
      omega
    simp only [escapeAll, List.append_assoc, List.cons_append, List.nil_append]
    rw [read_eq_readLine (.inl rfl) htake, readLine, basicLine_escapeFrom hrounds]
    rfl
  | literal => exact read_literal hform rest
  | basicLines =>
    exact read_of_threeQuotes (.inl ⟨rfl, rfl⟩) (lines_spells (spells_escapeFrom 0 s) (.inl rfl) (hrest '"' (.inl rfl)))
  | literalLines =>
    exact read_of_threeQuotes (.inr ⟨rfl, rfl⟩) (lines_spells (spells_of_formOf hform) (.inr rfl) (hrest '\'' (.inr rfl)))

end Playground.Toml.Quoted
