import Playground.Files
import Playground.Path

/-!
# File trees

A file tree that is held in memory. It is given by what stands at some places, each place by its names from the root on; a
place above one of these is a directory. A path is followed name by name, from the root or from a directory that it is seen
from. Every name, also an empty one or a dot, asks for a directory to be looked up in, so a slash behind a file's name leads
nowhere.
-/

namespace Playground

/-- What stands at a place. -/
inductive Node where
  | directory
  | file (content : List UInt8)
  deriving DecidableEq, Repr

/-- A file tree. -/
structure Tree where
  nodes : List (List String × Node)

namespace Tree

/-- What stands at a place. -/
def node? (t : Tree) (place : List String) : Option Node :=
  match t.nodes.lookup place with
  | some node => some node
  | none => if place.isEmpty || t.nodes.any (fun n => place.isPrefixOf n.1) then some .directory else none

/-- Follows one name from a place. -/
def follow (t : Tree) (place : List String) (name : String) : Except FileError (List String) :=
  match t.node? place with
  | none => .error .notFound
  | some (.file _) => .error .notDirectory
  | some .directory =>
    if name = "" ∨ name = "." then .ok place
    else if name = ".." then .ok place.dropLast
    else if Path.longestName < name.utf8ByteSize then .error .nameTooLong
    else .ok (place ++ [name])

/-- The place to which a path leads, as seen from a directory. -/
def resolve (t : Tree) (directory : List String) (path : String) : Except FileError (List String) :=
  if path.toList.contains '\x00' then .error .nulInName
  else if path.isEmpty then .error .notFound
  else if Path.lengthLimit ≤ path.utf8ByteSize then .error .nameTooLong
  else (Path.names path).foldlM t.follow (if Path.isAbsolute path then [] else directory)

/-- Reads the file to which a path leads. -/
def read (t : Tree) (directory : List String) (path : String) : Except FileError (List UInt8) :=
  match t.resolve directory path with
  | .error error => .error error
  | .ok place =>
    match t.node? place with
    | none => .error .notFound
    | some .directory => .error .isDirectory
    | some (.file content) => .ok content

/-- The files of a tree, as seen from a directory. -/
def files (t : Tree) (directory : List String) : Files where
  read := t.read directory

end Tree

end Playground
