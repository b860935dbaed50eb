import Playground.Toml.Codec
import Playground.Toml.Document

/-!
# Written documents

A page is a document in one fixed layout: one block for each table, each a header and below it a line for each value that is no
table itself, with a blank line between two blocks; the tables in a table follow it. Names are written without quotes. Not every
document has a page: values stand below headers only, and are texts, truth values, and numbers from zero up that fit into 64
bits with a sign.
-/

namespace Playground.Toml

/-- A header and the pairs below it. -/
structure Block where
  path : List String
  pairs : Entries

/-- The written form of a value on a line of its own. -/
def Value.write? : Value → Option (List Char)
  | .string t => some (Quoted.write t.toList)
  | .integer n => if 0 ≤ n ∧ n < 9223372036854775808 then some (Nat.toDigits 10 n.toNat) else none
  | .boolean true => some ['t', 'r', 'u', 'e']
  | .boolean false => some ['f', 'a', 'l', 's', 'e']
  | _ => none

/-- One pair on its line. -/
def writePair? (p : String × Value) : Option (List Char) :=
  p.2.write?.map fun value => p.1.toList ++ [' ', '=', ' '] ++ value ++ ['\n']

/-- A header on its line. -/
def writeHeader (path : List String) : List Char :=
  '[' :: ['.'].intercalate (path.map String.toList) ++ [']', '\n']

/-- The written form of a block, if every value has one. -/
def Block.write? (b : Block) : Option (List Char) :=
  (b.pairs.mapM writePair?).map fun lines => writeHeader b.path ++ lines.flatten

/-- A page. -/
def writePage? (blocks : List Block) : Option String :=
  (blocks.mapM Block.write?).map fun texts => String.ofList (['\n'].intercalate texts)

/-! ## The layout of a document -/

/-- A block inside a table with this name. -/
def Block.under (name : String) (b : Block) : Block := { b with path := name :: b.path }

/-- A name that is written without quotes. -/
def IsBareName (name : String) : Prop := name.toList ≠ [] ∧ name.toList.all isBare = true

instance (name : String) : Decidable (IsBareName name) :=
  inferInstanceAs (Decidable (name.toList ≠ [] ∧ name.toList.all isBare = true))

namespace Entries

/-- The values that are no tables. -/
def own (entries : Entries) : Entries := entries.filter fun entry => entry.2.entries?.isNone

/-- The tables in a table. -/
def tables (entries : Entries) : List (String × Entries) :=
  entries.filterMap fun entry => entry.2.entries?.map fun inner => (entry.1, inner)

/-- The names of a table can stand on a page: they need no quotes, and none stands twice. -/
def Named (entries : Entries) : Prop :=
  (entries.map Prod.fst).Nodup ∧ ∀ name ∈ entries.map Prod.fst, IsBareName name

instance (entries : Entries) : Decidable entries.Named :=
  inferInstanceAs (Decidable ((entries.map Prod.fst).Nodup ∧ ∀ name ∈ entries.map Prod.fst, IsBareName name))

/-- The names of a table and of the tables in it can stand on a page, and there are at most so many levels of them. -/
def Plain : Nat → Entries → Prop
  | 0, _ => False
  | levels + 1, entries => entries.Named ∧ ∀ table ∈ entries.tables, Plain levels table.2

/-- Whether a table can stand on a page is found out level by level. -/
def decidePlain : (levels : Nat) → (entries : Entries) → Decidable (Plain levels entries)
  | 0, _ => inferInstanceAs (Decidable False)
  | levels + 1, entries =>
    have : DecidablePred fun table : String × Entries => Plain levels table.2 := fun table => decidePlain levels table.2
    inferInstanceAs (Decidable (entries.Named ∧ ∀ table ∈ entries.tables, Plain levels table.2))

instance (levels : Nat) (entries : Entries) : Decidable (Plain levels entries) := decidePlain levels entries

/-- The blocks of the tables in a table, so many levels of them. -/
def blocks : Nat → Entries → List Block
  | 0, _ => []
  | levels + 1, entries => entries.tables.flatMap fun table =>
    ⟨[table.1], table.2.own⟩ :: (blocks levels table.2).map (Block.under table.1)

end Entries

/-- The page of a document, if it has one. No header has more names than can be read. -/
def print? (document : Entries) : Option String :=
  if document.own.isEmpty = true ∧ document.Plain (maxDepth + 1) then writePage? (document.blocks (maxDepth + 1)) else none

/-- Pages and their reader. -/
def Codec.builtIn : Codec where
  parse? := Toml.parse?
  print? := Toml.print?

end Playground.Toml
