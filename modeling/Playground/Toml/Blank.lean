/-!
# Blanks, line ends and comments

What stands between the parts of a configuration document. A line ends with a line feed, alone or after a carriage return; a
carriage return elsewhere is an error. A comment runs to the end of its line and holds no control character but the tab.
-/

namespace Playground.Toml

/-- Reads something off the front of a text: what it was and what is left. -/
abbrev Reader (α : Type) := List Char → Option (α × List Char)

/-- A space or a tab. -/
def isSpace (c : Char) : Bool := c == ' ' || c == '\t'

/-- A character that may stand in a text without an escape: the tab, and all that are not control characters. -/
def isPrintable (c : Char) : Bool := c == '\t' || (0x20 ≤ c.toNat && c.toNat != 0x7F)

/-- Leaves out spaces and tabs. -/
def skipSpaces (s : List Char) : List Char := s.dropWhile isSpace

/-- What is left after a line end, if the text begins with one. -/
def newline? : List Char → Option (List Char)
  | '\n' :: rest => some rest
  | '\r' :: '\n' :: rest => some rest
  | _ => none

/-- Leaves out a comment, up to the end of its line. -/
def skipComment : List Char → List Char
  | '#' :: rest => rest.dropWhile isPrintable
  | s => s

/-- What is left of a line: blanks, a comment, and its end or the end of the document. -/
def lineEnd? (s : List Char) : Option (List Char) :=
  match skipComment (skipSpaces s) with
  | [] => some []
  | s => newline? s

/-- Leaves out blanks, comments and line ends; each comment must have a line end. The truth value says that a comment has
begun. -/
def skipLines : Bool → List Char → Option (List Char)
  | _, '\n' :: s => skipLines false s
  | _, '\r' :: '\n' :: s => skipLines false s
  | true, c :: s => if isPrintable c then skipLines true s else none
  | true, [] => none
  | false, '#' :: s => skipLines true s
  | false, '\r' :: _ => none
  | false, c :: s => if isSpace c then skipLines false s else some (c :: s)
  | false, [] => some []

/-- Leaves out all blanks, comments and line ends at the front. -/
def skipBlank (s : List Char) : Option (List Char) := skipLines false s

/-- A bound on the rounds of a loop that reads something off a text in each of them: one round for each character, and one for
the end. -/
def rounds (s : List Char) : List Char := ' ' :: s

end Playground.Toml
