import Playground.Proofs.Console.Traffic

/-!
# A queue loses nothing

Whatever is done to a queue, in whatever order: what was handed out since it was last cleared and what still waits are, one after
the other, what was pushed since then. A drain hands out as much as there is and as the destination has room for (`Fills`), and
drains that each have room for a byte come to the end of the queue, in no more rounds than there are bytes.
-/

namespace Playground

namespace Queue

/-- Something that is done to a queue. -/
inductive Action where
  | push (bytes : List UInt8)
  | drainInto (dest : List UInt8)
  | clear
  deriving DecidableEq, Repr

/-- The bytes that a drain handed out: the leading ones of the destination, as many as it tells. -/
def Drained.handed (d : Drained) : List UInt8 := d.dest.take d.count

/-- The queue that an action leaves. -/
def perform (q : Queue) : Action → Queue
  | .push bytes => q.push bytes
  | .drainInto dest => (q.drainInto dest).queue
  | .clear => q.clear

/-- What an action comes to, for those who keep accounts. -/
def event (q : Queue) : Action → Traffic
  | .push bytes => .typed bytes
  | .drainInto dest => .read ⟨(q.drainInto dest).handed, (q.drainInto dest).queue.toList⟩
  | .clear => .begun

/-- The queue that a list of actions leaves, done in order. -/
def after (q : Queue) (actions : List Action) : Queue := actions.foldl perform q

/-- What those actions come to. -/
def events (q : Queue) : List Action → List Traffic
  | [] => []
  | action :: actions => q.event action :: (q.perform action).events actions

/-! ## One drain -/

/-- What a drain into a destination has to come to: as many bytes as there are and as there is room for go to the beginning of the
destination, from the front of the queue, and nothing else changes. -/
structure Fills (q : Queue) (dest : List UInt8) (d : Drained) : Prop where
  count : d.count = min q.length dest.length
  length : d.dest.length = dest.length
  filled : d.dest.take d.count = q.toList.take d.count
  untouched : d.dest.drop d.count = dest.drop d.count
  left : d.queue.toList = q.toList.drop d.count

/-- A drain comes to what it has to. -/
theorem fills_drainInto (q : Queue) (dest : List UInt8) : q.Fills dest (q.drainInto dest) := by
  have hcount : (q.drainInto dest).count = min q.length dest.length := by
    simp [drainInto, length, Nat.min_comm]
  have hdest : (q.drainInto dest).dest = q.toList.take dest.length ++ dest.drop (q.drainInto dest).count := by
    simp [drainInto]
  have htaken : (q.toList.take dest.length).length = (q.drainInto dest).count := by
    rw [hcount, List.length_take, Nat.min_comm, length]
  have hleft : (q.drainInto dest).queue.toList = q.toList.drop dest.length := toList_snd_drain q dest.length
  -- It makes no difference whether bytes are counted by the room for them or by how many there were.
  have hsame : min dest.length q.toList.length = min (q.drainInto dest).count q.toList.length := by
    rw [hcount, length]
    omega
  refine ⟨hcount, ?_, ?_, ?_, ?_⟩
  · rw [hdest, List.length_append, htaken, List.length_drop, hcount]
    omega
  · rw [hdest, List.take_left' htaken]
    exact List.take_eq_take_iff.mpr hsame
  · rw [hdest, List.drop_left' htaken]
  · rw [hleft]
    exact List.drop_eq_drop_iff.mpr hsame

/-- A drain hands out what comes first, and what it leaves comes behind that. -/
theorem handed_drainInto (q : Queue) (dest : List UInt8) :
    (q.drainInto dest).handed ++ (q.drainInto dest).queue.toList = q.toList := by
  have h := q.fills_drainInto dest
  rw [Drained.handed, h.filled, h.left, List.take_append_drop]

/-- A drain with room for a byte makes the queue shorter, as long as there is something in it. -/
theorem length_drainInto_le (q : Queue) {dest : List UInt8} (hdest : dest ≠ []) :
    (q.drainInto dest).queue.length ≤ q.length - 1 := by
  have h := q.fills_drainInto dest
  have hroom := List.length_pos_iff.mpr hdest
  have hleft : (q.drainInto dest).queue.length = q.length - (q.drainInto dest).count := by
    rw [length, h.left, List.length_drop, length]
  have hcount := h.count
  omega

/-! ## Any number of actions -/

/-- An action leads from what waits before it to what waits after it. -/
theorem flows_event (q : Queue) (action : Action) :
    Traffic.Flows q.toList [q.event action] (q.perform action).toList := by
  cases action with
  | push bytes =>
    rw [perform, toList_push]
    exact .typed (.nil _)
  | drainInto dest =>
    rw [← q.handed_drainInto dest]
    exact .read (.nil _)
  | clear => exact .begun (.nil _)

/-- Actions lead from what waits before them to what waits after them. -/
theorem flows_events (q : Queue) (actions : List Action) :
    Traffic.Flows q.toList (q.events actions) (q.after actions).toList := by
  induction actions generalizing q with
  | nil => exact .nil _
  | cons action actions ih => exact (q.flows_event action).append (ih (q.perform action))

/-- Drains alone hand out, one after the other, what was there at first, up to what is left. -/
theorem taken_events_drainInto (q : Queue) (dests : List (List UInt8)) :
    (Ledger.ofTraffic (q.events (dests.map .drainInto))).taken ++ (q.after (dests.map .drainInto)).toList = q.toList := by
  suffices ∀ l : Ledger, ((q.events (dests.map .drainInto)).foldl Ledger.enter l).taken ++
      (q.after (dests.map .drainInto)).toList = l.taken ++ q.toList from this {}
  induction dests generalizing q with
  | nil => exact fun _ => rfl
  | cons dest dests ih =>
    intro l
    have hrest := ih (q.drainInto dest).queue (l.enter (q.event (.drainInto dest)))
    have hentered : (l.enter (q.event (.drainInto dest))).taken = l.taken ++ (q.drainInto dest).handed := rfl
    rw [hentered, List.append_assoc, handed_drainInto] at hrest
    exact hrest

/-- Drains with room for a byte each come to the end of the queue in as many rounds as there are bytes. -/
theorem after_drainInto_eq_nil (q : Queue) {dests : List (List UInt8)} (hdests : ∀ dest ∈ dests, dest ≠ [])
    (hlength : q.length ≤ dests.length) : (q.after (dests.map .drainInto)).toList = [] := by
  induction dests generalizing q with
  | nil => exact List.length_eq_zero_iff.mp (Nat.le_zero.mp hlength)
  | cons dest dests ih =>
    have hshorter := q.length_drainInto_le (hdests dest List.mem_cons_self)
    rw [List.length_cons] at hlength
    exact ih (q.drainInto dest).queue (fun d hd => hdests d (List.mem_cons_of_mem dest hd)) (by omega)

/-- Whatever was done to a new queue: what was handed out since it was last cleared and what waits are, one after the other, what
was pushed since then, and the length and the test for emptiness go by that; every drain fills its destination with what it tells;
and drains with room for a byte each hand out all that waits, once, in no more rounds than there are bytes. -/
theorem conserved (actions : List Action) :
    let q := ({} : Queue).after actions
    let ledger := Ledger.ofTraffic (({} : Queue).events actions)
    ledger.taken ++ q.toList = ledger.typed ∧
      (q.length = q.toList.length ∧ ledger.taken.length + q.length = ledger.typed.length) ∧
      ((q.isEmpty = true ↔ q.toList = []) ∧ (q.isEmpty = true ↔ ledger.taken = ledger.typed)) ∧
      (∀ dest, q.Fills dest (q.drainInto dest)) ∧
      ∀ dests : List (List UInt8), (∀ dest ∈ dests, dest ≠ []) → q.length ≤ dests.length →
        (q.after (dests.map .drainInto)).isEmpty = true ∧
          (Ledger.ofTraffic (q.events (dests.map .drainInto))).taken = q.toList := by
  intro q ledger
  have hbalanced : ledger.taken ++ q.toList = ledger.typed :=
    (flows_events {} actions).balanced (.inl (rfl : Ledger.Balanced {} []))
  have hempty : q.isEmpty = true ↔ q.toList = [] := List.isEmpty_iff
  refine ⟨hbalanced, ⟨rfl, ?_⟩, ⟨hempty, ?_⟩, q.fills_drainInto, ?_⟩
  · rw [← hbalanced, List.length_append, length]
  · rw [hempty, ← hbalanced, List.self_eq_append_right]
  · intro dests hdests hlength
    have hnil := q.after_drainInto_eq_nil hdests hlength
    have htaken := q.taken_events_drainInto dests
    rw [hnil, List.append_nil] at htaken
    exact ⟨List.isEmpty_iff.mpr hnil, htaken⟩

/-- Three bytes are pushed behind a clear and one is handed out; two drains hand out the others. -/
theorem conserved_after_clear :
    let q := ({} : Queue).after [.push [9, 9], .clear, .push [1, 2, 3], .drainInto [0], .drainInto []]
    (∀ dest ∈ [[(0 : UInt8)], [0, 0, 0]], dest ≠ []) ∧ q.length ≤ 2 ∧ q.toList = [2, 3] ∧
      (q.after [.drainInto [0], .drainInto [0, 0, 0]]).isEmpty = true ∧
      (Ledger.ofTraffic (q.events [.drainInto [0], .drainInto [0, 0, 0]])).taken = [2, 3] := by
  intro q
  have hroom : ∀ dest ∈ [[(0 : UInt8)], [0, 0, 0]], dest ≠ [] := by decide
  have hlength : q.length ≤ 2 := by decide
  obtain ⟨-, -, -, -, hdrained⟩ :=
    conserved [.push [9, 9], .clear, .push [1, 2, 3], .drainInto [0], .drainInto []]
  obtain ⟨hempty, htaken⟩ := hdrained [[0], [0, 0, 0]] hroom hlength
  exact ⟨hroom, hlength, rfl, hempty, htaken⟩

end Queue

end Playground
