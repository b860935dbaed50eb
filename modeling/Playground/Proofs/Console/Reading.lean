import Playground.Guest

/-!
# Reading the console

A guest gets at pending input by the read import alone: each read takes bytes from the front of the queue and leaves the others
waiting. `ReadsConsole` is for interpreters that do nothing else to the queue: it tells the reads that a call makes, by the room
that each of them offers, and their effect on the queue is all that the call does to it.
-/

namespace Playground

/-- What a read handed out, and what it left waiting. -/
structure Reading where
  taken : List UInt8
  left : List UInt8
  deriving DecidableEq, Repr

namespace Queue

/-- The queue after reads, each with some room. -/
def drainAll (q : Queue) : List Nat → Queue
  | [] => q
  | room :: rooms => (q.drain room).2.drainAll rooms

/-- What each of those reads did. -/
def readings (q : Queue) : List Nat → List Reading
  | [] => []
  | room :: rooms => ⟨(q.drain room).1, (q.drain room).2.toList⟩ :: (q.drain room).2.readings rooms

@[simp] theorem drainAll_nil (q : Queue) : q.drainAll [] = q := rfl

@[simp] theorem drainAll_append (q : Queue) (rooms rooms' : List Nat) :
    q.drainAll (rooms ++ rooms') = (q.drainAll rooms).drainAll rooms' := by
  induction rooms generalizing q with
  | nil => rfl
  | cons room rooms ih => exact ih _

/-- A read hands out what comes first, and what it leaves comes behind that. -/
theorem toList_drain (q : Queue) (room : Nat) : (q.drain room).1 ++ (q.drain room).2.toList = q.toList := by
  rw [fst_drain, toList_snd_drain, List.take_append_drop]

end Queue

/-- Interpreters that do nothing to pending input but read it. -/
class ReadsConsole (γ : Type) [Guest γ] where
  /-- The room that each read of a call offers, in order. -/
  rooms : Export → Machine γ → List Nat
  /-- A call does to pending input what its reads do. -/
  input_call : ∀ e (m : Machine γ), (Guest.call e m).2.bridge.input = m.bridge.input.drainAll (rooms e m)

end Playground
