import Playground.Guest

/-!
# Guests with fixed answers

A guest that gives each export one answer, whenever it is asked, and leaves the machine alone. Such guests are small enough to
follow by hand, and show what can happen.
-/

namespace Playground

/-- A guest that answers each export in the same way every time. -/
structure Fixed where
  answer : (e : Export) → Except GuestError e.Reply

instance Fixed.guest : Guest Fixed := ⟨fun e m => (m.inner.answer e, m)⟩

namespace Fixed

/-- A guest that does all it is asked: it has room at address 1, accepts every program, and no program is ever complete. -/
def willing : Fixed where
  answer
    | .setUp | .release _ _ | .deinitRun => .ok ()
    | .allocate _ => .ok 1
    | .validate _ _ | .initRun _ _ | .step _ => .ok 0
    | .isFinished => .ok false

/-- A guest that does all it is asked, except that it takes no region back. -/
def grasping : Fixed where
  answer
    | .release _ _ => .error (.trap "free" none)
    | e => willing.answer e

/-- A guest that does all it is asked, except that it ends no run. -/
def clinging : Fixed where
  answer
    | .deinitRun => .error (.trap "deinitInterpreter" none)
    | e => willing.answer e

/-- A guest that does all it is asked, and whose steps return a status. -/
def stepping (status : Int32) : Fixed where
  answer
    | .step _ => .ok status
    | e => willing.answer e

/-- A guest that does all it is asked, except that it fails in every step. -/
def tripping : Fixed where
  answer
    | .step _ => .error (.trap "stepInterpreter" none)
    | e => willing.answer e

/-- A guest whose steps return a status and that ends no run. -/
def sticking (status : Int32) : Fixed where
  answer
    | .deinitRun => .error (.trap "deinitInterpreter" none)
    | e => (stepping status).answer e

/-- A guest that does all it is asked, and whose programs are complete as soon as they are started. -/
def completing : Fixed where
  answer
    | .isFinished => .ok true
    | e => willing.answer e

/-- The machine of a guest, with one byte of memory. -/
def machine (guest : Fixed) : Machine Fixed := ⟨Memory.zeroed 1, {}, guest⟩

end Fixed

end Playground
