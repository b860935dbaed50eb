import Playground.Session

/-!
# A console known beforehand

A feed says what will be typed and when, with time counted in steps of the guest. Between two ticks it delivers the request
to stop, if that is due, and then every read that is due, in order; an item that is not due yet holds back those behind it. A
read delivers at most 256 bytes. An item without bytes is the end of input, and so is the end of the items.
-/

namespace Playground

/-- What one item of a feed delivers. -/
inductive FeedContent where
  | bytes (bytes : List UInt8)
  | failure (reason : String)
  deriving DecidableEq, Repr

/-- Something that is typed once the guest has made `after` steps. -/
structure FeedItem where
  after : Nat := 0
  content : FeedContent
  deriving DecidableEq, Repr

/-- What is still to be typed, and when the program is to be stopped. -/
structure Feed where
  cancelAfter : Option Nat := none
  items : List FeedItem := []
  deriving DecidableEq, Repr

namespace Feed

/-- The most bytes that one read delivers. -/
def readSize : Nat := 256

/-- Cuts bytes into reads; `fuel` bounds their number. -/
def reads : Nat → List UInt8 → List Signal
  | 0, _ => []
  | _, [] => []
  | fuel + 1, bytes => .chunk (bytes.take readSize) :: reads fuel (bytes.drop readSize)

/-- The signals of one item. -/
def signals : FeedContent → List Signal
  | .bytes [] => [.endOfInput]
  | .bytes bytes => reads bytes.length bytes
  | .failure reason => [.inputFailed reason]

/-- The signals that are due once the guest has made a number of steps, and what is left of the feed. -/
def due (f : Feed) (steps : Nat) : List Signal × Feed :=
  let isDue := fun item : FeedItem => item.after ≤ steps
  let cancelled := f.cancelAfter.any (· ≤ steps)
  let typed := (f.items.takeWhile isDue).flatMap fun item => signals item.content
  let items := f.items.dropWhile isDue
  ((if cancelled then [.cancel] else []) ++ typed ++ (if items.isEmpty then [.endOfInput] else []),
    { cancelAfter := if cancelled then none else f.cancelAfter, items })

end Feed

end Playground
