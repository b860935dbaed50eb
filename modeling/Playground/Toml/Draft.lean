import Playground.Toml.Value

/-!
# Documents that are being read

While a document is read, its tables are still open. Tables come about in three ways, and how a table came about decides who
may still add to it: a header may complete a table that was only named on the way to another one, and a dotted key may add to
what dotted keys have made. What stands behind an equals sign is closed, a table in braces too. `put` adds a value under a
dotted key, `openTable` and `openElement` add what stands below a header; each refuses what would define a name twice.
`close` forgets how the tables came about.
-/

namespace Playground.Toml

/-- How an open table came about. -/
inductive Origin where
  /-- Named by a header of its own. -/
  | header
  /-- Named on the way to another table's header. -/
  | parent
  /-- Named by a dotted key. -/
  | dotted
  deriving DecidableEq, Repr

/-- What stands under a name so far. -/
inductive Node where
  | closed (value : Value)
  | table (origin : Origin) (nodes : List (String × Node))
  /-- An array of tables, one header each; the last one may still grow. The earlier ones stand newest first. -/
  | tables (earlier : List (List (String × Node))) (last : List (String × Node))

/-- A table that is being read, in the order in which its names were added. -/
abbrev Draft := List (String × Node)

/-- A value under a dotted key: the names on the way, the last name, the value. -/
structure Pair where
  path : List String
  key : String
  value : Value

namespace Draft

/-- Puts another node in the place of the one under a key. -/
def replace (draft : Draft) (key : String) (node : Node) : Draft :=
  draft.map fun entry => if entry.1 = key then (key, node) else entry

/-- Adds a value under a dotted key. The names on the way must be new or lead through tables that may still be added to, the
last of them through one that dotted keys have made. -/
def put : List String → String → Value → Draft → Option Draft
  | [], key, value, draft =>
    if (draft.lookup key).isSome then none else some (draft ++ [(key, .closed value)])
  | name :: path, key, value, draft =>
    match draft.lookup name with
    | none => (put path key value []).map fun inner => draft ++ [(name, .table .dotted inner)]
    | some (.table .dotted inner) =>
      (put path key value inner).map fun inner => replace draft name (.table .dotted inner)
    | some (.table .parent inner) =>
      if path.isEmpty then none
      else (put path key value inner).map fun inner => replace draft name (.table .parent inner)
    | some (.tables earlier last) =>
      if path.isEmpty then none
      else (put path key value last).map fun last => replace draft name (.tables earlier last)
    | some _ => none

/-- Adds pairs in order. -/
def putAll (draft : Draft) (pairs : List Pair) : Option Draft :=
  pairs.foldlM (fun draft p => put p.path p.key p.value draft) draft

/-- Changes the table at a path; tables that are missing on the way are made. In an array of tables the way leads through the
last one. -/
def change (f : Draft → Option Draft) : List String → Draft → Option Draft
  | [], draft => f draft
  | name :: path, draft =>
    match draft.lookup name with
    | none => (change f path []).map fun inner => draft ++ [(name, .table .parent inner)]
    | some (.closed _) => none
    | some (.table origin inner) => (change f path inner).map fun inner => replace draft name (.table origin inner)
    | some (.tables earlier last) => (change f path last).map fun last => replace draft name (.tables earlier last)

/-- Adds the table of a header with the pairs below it. The name must be new, or named only on the way to another header. -/
def openTable (draft : Draft) (path : List String) (key : String) (pairs : List Pair) : Option Draft :=
  change (fun draft =>
    match draft.lookup key with
    | none => (putAll [] pairs).map fun inner => draft ++ [(key, .table .header inner)]
    | some (.table .parent inner) => (putAll inner pairs).map fun inner => replace draft key (.table .header inner)
    | some _ => none) path draft

/-- Adds an element to an array of tables, with the pairs below its header. -/
def openElement (draft : Draft) (path : List String) (key : String) (pairs : List Pair) : Option Draft :=
  change (fun draft =>
    match draft.lookup key with
    | none => (putAll [] pairs).map fun inner => draft ++ [(key, .tables [] inner)]
    | some (.tables earlier last) =>
      (putAll [] pairs).map fun inner => replace draft key (.tables (last :: earlier) inner)
    | some _ => none) path draft

end Draft

mutual

/-- The value that a node has come to. -/
def Node.close : Node → Value
  | .closed value => value
  | .table _ nodes => .table (Draft.close nodes)
  | .tables earlier last => .array (Draft.closeAll [.table (Draft.close last)] earlier)

/-- The table that has been read. -/
def Draft.close : Draft → Entries
  | [] => []
  | (name, node) :: nodes => (name, node.close) :: Draft.close nodes

/-- The tables of an array before those that are closed already; they stand newest first. -/
def Draft.closeAll : List Value → List Draft → List Value
  | closed, [] => closed
  | closed, draft :: earlier => Draft.closeAll (.table (Draft.close draft) :: closed) earlier

end

end Playground.Toml
