import Playground.Toml.Value

/-!
# Reading and writing documents

The text of a document is read and written by a codec. What a configuration says does not depend on which one it is, as long as
`GivesBack` holds of it: a text that it has written for a document is read as that document.
-/

namespace Playground.Toml

/-- Two values say the same. Tables say the same if the same stands under each name, in whatever order. -/
inductive Value.Same : Value → Value → Prop
  | refl (v : Value) : Same v v
  | array {vs ws : List Value} (hlength : vs.length = ws.length)
      (heach : ∀ (i : Nat) v w, vs[i]? = some v → ws[i]? = some w → Same v w) : Same (.array vs) (.array ws)
  | table {a b : Entries} (hnames : ∀ name, a.lookup name = none ↔ b.lookup name = none)
      (heach : ∀ name v w, a.lookup name = some v → b.lookup name = some w → Same v w) : Same (.table a) (.table b)

/-- Two documents say the same. -/
def Entries.Same (a b : Entries) : Prop := Value.Same (.table a) (.table b)

/-- A reader and a writer of documents. A text need not be a document, and not every document has to have a text. -/
structure Codec where
  parse? : String → Option Entries
  print? : Entries → Option String

/-- What is written for a document is read as that document. -/
def Codec.GivesBack (codec : Codec) : Prop :=
  ∀ document text, codec.print? document = some text → ∃ read, codec.parse? text = some read ∧ read.Same document

end Playground.Toml
