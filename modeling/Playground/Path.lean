/-!
# Paths

A path is a text whose names are separated by slashes. `join` leads from a directory to what a path means inside it; a path
that begins with a slash means the same everywhere. A file whose name is no text has no path here.
-/

namespace Playground.Path

/-- A path that does not depend on a directory. -/
def isAbsolute (path : String) : Bool := path.toList.head? == some '/'

/-- A path, as seen from a directory: one slash stands between the two, unless the directory ends in one already or is empty. -/
def join (directory path : String) : String :=
  if isAbsolute path then path
  else if directory.isEmpty || directory.toList.getLast? == some '/' then directory ++ path
  else directory ++ "/" ++ path

/-- The names of a path, and what stands between two slashes in a row, or after the last one, as an empty name. -/
def names (path : String) : List String := path.splitOn "/"

/-- What a path says: whether it depends on a directory, and its names. An empty name says nothing, and neither does a dot,
but for one at the beginning. -/
def meaning (path : String) : Bool × List String :=
  let said := (names path).filter fun name => name != "" && name != "."
  (isAbsolute path, if (names path).head? = some "." then "." :: said else said)

/-- Two spellings of one path. -/
def same (a b : String) : Bool := meaning a == meaning b

/-- No path is as long as this, in bytes. -/
def lengthLimit : Nat := 4096

/-- The most bytes that a name may have. -/
def longestName : Nat := 255

end Playground.Path
