/-!
# Pending console input

What was typed and not read by the guest yet. Pushes go to the back, reads take from the front; a read never waits and never
loses a byte that it did not hand out. `toList` is what waits, next byte first; a queue keeps it in two parts, so that neither
a push nor a read walks through all of it.
-/

namespace Playground

/-- Pending console input. -/
structure Queue where
  /-- What is read first, next byte first. -/
  front : List UInt8 := []
  /-- What was pushed behind it, the newest push first. -/
  back : List (List UInt8) := []
  deriving DecidableEq, Repr

namespace Queue

/-- Everything that waits, next byte first. -/
def toList (q : Queue) : List UInt8 := q.front ++ q.back.reverse.flatten

/-- The number of bytes that wait. -/
def length (q : Queue) : Nat := q.toList.length

/-- Nothing waits. -/
def isEmpty (q : Queue) : Bool := q.toList.isEmpty

/-- Appends bytes in order. -/
def push (q : Queue) (bytes : List UInt8) : Queue := { q with back := bytes :: q.back }

/-- Moves everything to the front, unless there is enough for a read already. -/
def gather (q : Queue) (room : Nat) : Queue :=
  if (q.front.take room).length = room then q else { front := q.toList }

/-- Takes up to `room` bytes from the front. -/
def drain (q : Queue) (room : Nat) : List UInt8 × Queue :=
  let q := q.gather room
  (q.front.take room, { q with front := q.front.drop room })

/-- What comes of a drain into a destination. -/
structure Drained where
  /-- The number of bytes that were handed out. -/
  count : Nat
  /-- The destination afterwards. -/
  dest : List UInt8
  /-- The queue afterwards. -/
  queue : Queue

/-- Drains into a destination: as many of its leading bytes as there is input for are replaced, the rest stays. -/
def drainInto (q : Queue) (dest : List UInt8) : Drained :=
  let (taken, queue) := q.drain dest.length
  { count := taken.length, dest := taken ++ dest.drop taken.length, queue }

/-- Drops everything that waits. -/
def clear (_ : Queue) : Queue := {}

@[simp] theorem toList_push (q : Queue) (bytes : List UInt8) : (q.push bytes).toList = q.toList ++ bytes := by
  simp [toList, push]

@[simp] theorem toList_clear (q : Queue) : q.clear.toList = [] := rfl

/-- Moving bytes to the front changes nothing about what waits. -/
@[simp] theorem toList_gather (q : Queue) (room : Nat) : (q.gather room).toList = q.toList := by
  unfold gather
  split <;> simp [toList]

/-- A read hands out the first bytes that wait. -/
@[simp] theorem fst_drain (q : Queue) (room : Nat) : (q.drain room).1 = q.toList.take room := by
  unfold drain gather
  split
  next h =>
    have : room ≤ q.front.length := by
      rw [List.length_take] at h
      omega
    simp [toList, List.take_append_of_le_length this]
  next => simp

/-- A read leaves all other bytes waiting. -/
@[simp] theorem toList_snd_drain (q : Queue) (room : Nat) : (q.drain room).2.toList = q.toList.drop room := by
  unfold drain gather
  split
  next h =>
    have : room ≤ q.front.length := by
      rw [List.length_take] at h
      omega
    simp [toList, List.drop_append_of_le_length this]
  next => simp [toList]

end Queue

end Playground
