/-!
# Columns of text

A text in a column is filled up with blanks to the column's width, counted in characters; one that is wider stays as it is.
-/

namespace Playground.Text

/-- The blanks that a text lacks. -/
def filling (width : Nat) (text : String) : String := String.ofList (List.replicate (width - text.length) ' ')

/-- A text at the right edge of its column. -/
def alignRight (width : Nat) (text : String) : String := filling width text ++ text

/-- A text at the left edge of its column. -/
def alignLeft (width : Nat) (text : String) : String := text ++ filling width text

end Playground.Text
