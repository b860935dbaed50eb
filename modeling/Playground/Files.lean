import Playground.Text.Utf8

/-!
# Files

All that the playground asks of a file system is to read whole files by path, and whether a path leads to something. `Files` is
the answer to every such question at once; an answer that is an error says why there is nothing to read. A path that leads to
something leads to a file or to a directory, whether or not it can be read as text. A system may also refuse to say where a path
leads, so the two questions are answered apart.
-/

namespace Playground

/-- Why a file cannot be read. -/
inductive FileError where
  /-- The path leads nowhere. -/
  | notFound
  /-- The path leads through something that is not a directory. -/
  | notDirectory
  | isDirectory
  | nameTooLong
  /-- The path has a character that no name may have. -/
  | nulInName
  /-- The file is there, but it is not text. -/
  | invalidText
  /-- The system gives another reason. -/
  | refused (reason : String)
  deriving DecidableEq, Repr

/-- The system's words for a failure. -/
def FileError.message : FileError → String
  | notFound => "No such file or directory (os error 2)"
  | notDirectory => "Not a directory (os error 20)"
  | isDirectory => "Is a directory (os error 21)"
  | nameTooLong => "File name too long (os error 36)"
  | nulInName => "file name contained an unexpected NUL byte"
  | invalidText => "stream did not contain valid UTF-8"
  | refused reason => reason

/-- A failure that leaves no doubt that the path leads nowhere. -/
def FileError.isAbsence : FileError → Bool
  | notFound | notDirectory | nameTooLong | nulInName => true
  | isDirectory | invalidText | refused _ => false

/-- What reading yields at every path, and which paths lead to something: where the system does not say so itself, those that can
be read and those that fail for another reason than leading nowhere. -/
structure Files where
  read : String → Except FileError (List UInt8)
  has : String → Bool := fun path =>
    match read path with
    | .ok _ => true
    | .error error => !error.isAbsence

namespace Files

/-- Reads a file as text. -/
def readText (files : Files) (path : String) : Except FileError String :=
  match files.read path with
  | .error error => .error error
  | .ok bytes =>
    match Text.decode? bytes with
    | some text => .ok text
    | none => .error .invalidText

/-- Files that have all been read beforehand. -/
def ofList (known : List (String × Except FileError (List UInt8))) : Files where
  read path := (known.lookup path).getD (.error .notFound)

end Files

end Playground
