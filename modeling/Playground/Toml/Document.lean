import Playground.Toml.Draft
import Playground.Toml.Moment

/-!
# Configuration documents

A document is a sequence of lines: blank ones, comments, pairs of a key and a value, and headers, below which the pairs
belong to the table that the header names. `parse?` reads a document to its table, or refuses it. Arrays and inline tables
may be nested in each other `maxDepth` deep, and a dotted key may have as many parts.
-/

namespace Playground.Toml

/-- How deep values may be nested. -/
def maxDepth : Nat := 79

/-- A character of a key without quotes. -/
def isBare (c : Char) : Bool :=
  isDigit c || ('a' ≤ c && c ≤ 'z') || ('A' ≤ c && c ≤ 'Z') || c == '_' || c == '-'

/-- One part of a key, quoted or not. -/
def keyPart : Reader String := fun s =>
  match s.takeWhile isBare with
  | [] => (Quoted.readLine s).map fun (text, rest) => (String.ofList text, rest)
  | name => some (String.ofList name, s.dropWhile isBare)

/-- The parts of a key, at most so many, with dots and perhaps blanks between them. -/
def keyParts : Nat → Reader (List String)
  | 0, _ => none
  | most + 1, s =>
    match keyPart (skipSpaces s) with
    | none => none
    | some (part, s) =>
      match skipSpaces s with
      | '.' :: s => (keyParts most s).map fun (parts, s) => (part :: parts, s)
      | s => some ([part], s)

/-- A key: the names on the way and the last name. -/
def key : Reader (List String × String) := fun s =>
  match keyParts maxDepth s with
  | none => none
  | some (parts, s) => parts.getLast?.map fun last => ((parts.dropLast, last), s)

/-- A key, an equals sign and a value. -/
def pair (value : Reader Value) : Reader Pair := fun s => do
  let ((path, key), s) ← key s
  let s ← expect '=' s
  let (value, s) ← value (skipSpaces s)
  return (⟨path, key, value⟩, skipSpaces s)

/-- The elements of an array, after its bracket; a comma may follow the last one. `taken` is what has been read, newest
first. -/
def elements (value : Reader Value) : List Char → List Value → Reader (List Value)
  | [], _, _ => none
  | _ :: rounds, taken, s =>
    match skipBlank s with
    | none => none
    | some (']' :: s) => some (taken.reverse, s)
    | some s =>
      match value s with
      | none => none
      | some (v, s) =>
        match skipBlank s with
        | some (',' :: s) => elements value rounds (v :: taken) s
        | some (']' :: s) => some ((v :: taken).reverse, s)
        | _ => none

/-- The pairs of an inline table, from its first one on; no comma follows the last one. `taken` is what has been read, newest
first. -/
def pairs (value : Reader Value) : List Char → List Pair → Reader (List Pair)
  | [], _, _ => none
  | _ :: rounds, taken, s =>
    match pair value s with
    | some (p, ',' :: s) => pairs value rounds (p :: taken) s
    | some (p, '}' :: s) => some ((p :: taken).reverse, s)
    | _ => none

/-- An inline table, after its brace. -/
def inlineTable (value : Reader Value) : Reader Value := fun s =>
  match skipSpaces s with
  | '}' :: s => some (.table [], s)
  | s =>
    match pairs value (rounds s) [] s with
    | none => none
    | some (ps, s) => (Draft.putAll [] ps).map fun draft => (.table draft.close, s)

/-- A number, a date or a time. -/
def numeral : Reader Value := fun s =>
  match moment? s with
  | some rest => some (.moment, rest)
  | none =>
    match float? s with
    | some rest => some (.float, rest)
    | none => (integer s).map fun (n, rest) => (.integer n, rest)

/-- A value, whose elements are read by `nested`, if it may have any. -/
def valueWith (nested : Option (Reader Value)) : Reader Value
  | [] => none
  | '"' :: s => (Quoted.read ('"' :: s)).map fun (text, rest) => (.string (String.ofList text), rest)
  | '\'' :: s => (Quoted.read ('\'' :: s)).map fun (text, rest) => (.string (String.ofList text), rest)
  | '[' :: s => nested.bind fun value => (elements value (rounds s) [] s).map fun (vs, rest) => (.array vs, rest)
  | '{' :: s => nested.bind fun value => inlineTable value s
  | 't' :: 'r' :: 'u' :: 'e' :: s => some (.boolean true, s)
  | 'f' :: 'a' :: 'l' :: 's' :: 'e' :: s => some (.boolean false, s)
  | s => numeral s

/-- A value nested at most so deep. -/
def value : Nat → Reader Value
  | 0 => valueWith none
  | depth + 1 => valueWith (some (value depth))

/-- A line that says something. -/
inductive Line where
  | pair (p : Pair)
  /-- A header: the names on the way, the last name, and whether it opens an element of an array of tables. -/
  | header (path : List String) (key : String) (element : Bool)

/-- The inside of a header, up to its brackets and the end of its line. -/
def header (element : Bool) : Reader Line := fun s => do
  let ((path, key), s) ← key s
  let s ← expect ']' s
  let s ← if element then expect ']' s else some s
  let s ← lineEnd? s
  return (.header path key element, s)

/-- A line that says something, with its end. -/
def line : Reader Line
  | '[' :: '[' :: s => header true s
  | '[' :: s => header false s
  | s => do
    let (p, s) ← pair (value maxDepth) s
    let s ← lineEnd? s
    return (.pair p, s)

/-- One line, without the blanks before it: what it says, if it says something. -/
def anyLine : Reader (Option Line)
  | '#' :: s => (lineEnd? ('#' :: s)).map fun rest => (none, rest)
  | '\n' :: s => some (none, s)
  | '\r' :: s => (newline? ('\r' :: s)).map fun rest => (none, rest)
  | s => (line s).map fun (l, rest) => (some l, rest)

/-- The lines of a document that say something. `taken` is what has been read, newest first. -/
def lines : List Char → List Line → List Char → Option (List Line)
  | [], _, _ => none
  | _ :: rounds, taken, s =>
    match skipSpaces s with
    | [] => some taken.reverse
    | s =>
      match anyLine s with
      | none => none
      | some (l, rest) => lines rounds (l.toList ++ taken) rest

/-- A header with the pairs below it. -/
structure Section where
  path : List String
  key : String
  element : Bool
  pairs : List Pair

/-- The pairs before the first header, and each header with the pairs below it. -/
def sections (ls : List Line) : List Pair × List Section :=
  ls.foldr (fun l (ps, ss) =>
    match l with
    | .pair p => (p :: ps, ss)
    | .header path key element => ([], ⟨path, key, element, ps⟩ :: ss)) ([], [])

/-- Adds a section to a document. -/
def Draft.add (draft : Draft) (s : Section) : Option Draft :=
  if s.element then openElement draft s.path s.key s.pairs else openTable draft s.path s.key s.pairs

/-- The document that lines make. -/
def assemble (ls : List Line) : Option Draft := do
  let (ps, ss) := sections ls
  let root ← Draft.putAll [] ps
  ss.foldlM Draft.add root

/-- A document without the mark that may stand before it. -/
def skipMark : List Char → List Char
  | '\uFEFF' :: s => s
  | s => s

/-- The table of a document, if it is one. -/
def parse? (text : String) : Option Entries :=
  let s := skipMark text.toList
  ((lines (rounds s) [] s).bind assemble).map Draft.close

end Playground.Toml
