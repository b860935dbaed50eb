import Playground.Text.Digest
import Playground.Toml.Blank

/-!
# Quoted text

Text is written between quotes in one of four forms: one line or several, with escapes (`"`) or exactly as it is (`'`).
`read` reads each of them, `write` chooses the first form that fits. Several lines are opened and closed by three quotes in a
row, of which a line break after the opening ones is left out, and one or two quotes may stand inside, also just before the
closing three.
-/

namespace Playground.Toml.Quoted

/-- The letters of the short escapes, each with what it stands for. -/
def escapes : List (Char × Char) :=
  [('b', '\x08'), ('t', '\t'), ('n', '\n'), ('f', '\x0C'), ('r', '\r'), ('"', '"'), ('\\', '\\')]

/-- The value of a hexadecimal digit. -/
def hexValue? (c : Char) : Option Nat :=
  if '0' ≤ c ∧ c ≤ '9' then some (c.toNat - 0x30)
  else if 'a' ≤ c ∧ c ≤ 'f' then some (c.toNat - 0x57)
  else if 'A' ≤ c ∧ c ≤ 'F' then some (c.toNat - 0x37)
  else none

/-- The number that hexadecimal digits write. -/
def hexNumber? (digits : List Char) : Option Nat :=
  digits.foldlM (fun n c => (hexValue? c).map (n * 16 + ·)) 0

/-- A code point in a fixed number of hexadecimal digits; it must be that of a character. -/
def codePoint (width : Nat) : Reader Char := fun s =>
  let digits := s.take width
  if digits.length = width then
    match hexNumber? digits with
    | some n => if h : n.isValidChar then some (Char.ofNatAux n h, s.drop width) else none
    | none => none
  else none

/-- An escape, after its backslash. -/
def escape : Reader Char
  | [] => none
  | 'u' :: s => codePoint 4 s
  | 'U' :: s => codePoint 8 s
  | c :: s => (escapes.lookup c).map fun meant => (meant, s)

/-! ## Reading -/

/-- One line with escapes, after its quote. `taken` is what has been read, newest first. -/
def basicLine : List Char → List Char → Reader (List Char)
  | [], _, _ => none
  | _ :: rounds, taken, s =>
    match s with
    | '"' :: s => some (taken.reverse, s)
    | '\\' :: s =>
      match escape s with
      | some (c, s) => basicLine rounds (c :: taken) s
      | none => none
    | c :: s => if isPrintable c then basicLine rounds (c :: taken) s else none
    | [] => none

/-- One line as it is, after its quote. -/
def literalLine : Reader (List Char) := fun s =>
  let inside := fun c => isPrintable c && c != '\''
  match s.dropWhile inside with
  | '\'' :: rest => some (s.takeWhile inside, rest)
  | _ => none

/-- The end of several lines: three quotes, before which one or two more belong to the text. -/
def closing (quote : Char) (taken : List Char) : List Char → Option (List Char × List Char)
  | a :: b :: c :: s =>
    if a = quote ∧ b = quote ∧ c = quote then
      match s with
      | d :: e :: s =>
        if d = quote ∧ e = quote then some ((quote :: quote :: taken).reverse, s)
        else if d = quote then some ((quote :: taken).reverse, e :: s)
        else some (taken.reverse, d :: e :: s)
      | [d] => if d = quote then some ((quote :: taken).reverse, []) else some (taken.reverse, [d])
      | [] => some (taken.reverse, [])
    else none
  | _ => none

/-- What is left after a backslash that ends its line: the blanks, the line end, and all blanks and line ends that follow. -/
def joinLines? (s : List Char) : Option (List Char) :=
  (newline? (skipSpaces s)).map skipEmpty
where
  /-- Leaves out blanks and line ends. -/
  skipEmpty : List Char → List Char
    | '\n' :: s => skipEmpty s
    | '\r' :: '\n' :: s => skipEmpty s
    | c :: s => if isSpace c then skipEmpty s else c :: s
    | [] => []

/-- Several lines, after the opening quotes. -/
def manyLines (quote : Char) (escaped : Bool) : List Char → List Char → Reader (List Char)
  | [], _, _ => none
  | _ :: rounds, taken, s =>
    match closing quote taken s with
    | some result => some result
    | none =>
      match newline? s with
      | some s => manyLines quote escaped rounds ('\n' :: taken) s
      | none =>
        match s with
        | [] => none
        | c :: rest =>
          if escaped ∧ c = '\\' then
            match joinLines? rest with
            | some rest => manyLines quote escaped rounds taken rest
            | none =>
              match escape rest with
              | some (c, rest) => manyLines quote escaped rounds (c :: taken) rest
              | none => none
          else if isPrintable c then manyLines quote escaped rounds (c :: taken) rest
          else none

/-- Several lines, after the opening quotes; a line break right there is left out. -/
def lines (quote : Char) (escaped : Bool) : Reader (List Char) := fun s =>
  let s := (newline? s).getD s
  manyLines quote escaped (rounds s) [] s

/-- Quoted text on one line. -/
def readLine : Reader (List Char)
  | '"' :: s => basicLine (rounds s) [] s
  | '\'' :: s => literalLine s
  | _ => none

/-- Quoted text in any form. -/
def read : Reader (List Char)
  | '"' :: '"' :: '"' :: s => lines '"' true s
  | '\'' :: '\'' :: '\'' :: s => lines '\'' false s
  | s => readLine s

/-! ## Writing -/

/-- A character that only an escape can write: a control character other than the tab and the line feed. -/
def isControl (c : Char) : Bool := !isPrintable c && c != '\n'

/-- The longest run of a character. -/
def longestRun (quote : Char) (s : List Char) : Nat :=
  (s.foldl (fun (longest, run) c =>
    let run := if c = quote then run + 1 else 0
    (max longest run, run)) (0, 0)).1

/-- The escape of a character that has to be escaped: a letter, or four hexadecimal digits. -/
def escapeOf (c : Char) : List Char :=
  match escapes.find? (·.2 == c) with
  | some (letter, _) => ['\\', letter]
  | none => '\\' :: 'u' :: '0' :: '0' :: [upperDigit (c.toNat / 16), upperDigit (c.toNat % 16)]
where
  /-- A hexadecimal digit in upper case. -/
  upperDigit (n : Nat) : Char := (Text.hexDigit n).toUpper

/-- A character as it is written where escapes may be, after `run` quotes since the last other character or escape, and the
number of them after it. On several lines, a line feed stands for itself and so do two quotes in a row. -/
def escapeOne (several : Bool) (run : Nat) (c : Char) : List Char × Nat :=
  if c = '"' then if several ∧ run < 2 then ([c], run + 1) else (escapeOf c, 0)
  else if several ∧ c = '\n' then ([c], 0)
  else if isControl c ∨ c = '\t' ∨ c = '\\' ∨ c = '\n' then (escapeOf c, 0)
  else ([c], 0)

/-- Text with escapes. `written` is what has been written, newest first. -/
def escapeFrom (several : Bool) : List Char → Nat → List Char → List Char
  | written, _, [] => written.reverse
  | written, run, c :: s =>
    let (text, run) := escapeOne several run c
    escapeFrom several (text.reverse ++ written) run s

/-- Text with escapes. -/
def escapeAll (several : Bool) (s : List Char) : List Char := escapeFrom several [] 0 s

/-- The four forms. -/
inductive Form where
  | basic
  | literal
  | basicLines
  | literalLines
  deriving DecidableEq, Repr

/-- The first form that writes a text without an escape of more than a tab; where none does, one with escapes. -/
def formOf (s : List Char) : Form :=
  let control := s.any isControl
  let several := s.contains '\n'
  if !control && !s.contains '\\' && !s.contains '"' && !several then .basic
  else if !control && !s.contains '\'' && !several then .literal
  else if !control && !s.contains '\\' && longestRun '"' s ≤ 2 then .basicLines
  else if !control && longestRun '\'' s ≤ 2 then .literalLines
  else if several then .basicLines
  else .basic

/-- Text between quotes. -/
def write (s : List Char) : List Char :=
  let opening : List Char := if s.contains '\n' then ['\n'] else []
  match formOf s with
  | .basic => '"' :: escapeAll false s ++ ['"']
  | .literal => '\'' :: s ++ ['\'']
  | .basicLines => ['"', '"', '"'] ++ opening ++ escapeAll true s ++ ['"', '"', '"']
  | .literalLines => ['\'', '\'', '\''] ++ opening ++ s ++ ['\'', '\'', '\'']

end Playground.Toml.Quoted
