/-!
# Values of a configuration document

A document is a table of named values. How its text looks, in which of several ways a table was written or a number spelt, is
not part of it.
-/

namespace Playground.Toml

/-- A value. Of numbers with a fraction and of dates and times nothing is kept but that they are there. -/
inductive Value where
  | string (text : String)
  | integer (n : Int)
  | float
  | boolean (b : Bool)
  | moment
  | array (elements : List Value)
  | table (entries : List (String × Value))

/-- The entries of a table, in the order in which they were written. -/
abbrev Entries := List (String × Value)

/-- The entries of a value that is a table. -/
def Value.entries? : Value → Option Entries
  | .table entries => some entries
  | _ => none

end Playground.Toml
