import Playground.Proofs.Console.Traffic
import Playground.Proofs.Controller.Reach
import Playground.Proofs.Controller.View
import Playground.Proofs.Guest.Uses
import Playground.Proofs.Scheduler.Binding

/-!
# Input from a start to the next

A start drops pending input, what is typed is added to it, and a guest that only reads takes from its front. Every operation is
such traffic, and leads from what is pending before it to what is pending after it; so the ledger since the last start is balanced:
what was read and what is pending are, one after the other, what was typed.
-/

namespace Playground

/-! ## The reads of a watched guest -/

variable {γ : Type} [Guest γ] [ReadsConsole γ]

/-- Of a call, its reads are noted. -/
instance ReadsConsole.watch : Watch γ Reading :=
  ⟨fun e before _ _ => before.bridge.input.readings (ReadsConsole.rooms e before)⟩

/-- One machine comes from another, and what happened to pending input are the reads that were noted. -/
def Machine.Reads (m m' : Machine (Watched γ Reading)) : Prop :=
  ∃ new, m'.notes = m.notes ++ new ∧ Traffic.Flows m.bridge.input.toList (new.map .read) m'.bridge.input.toList

namespace Machine

omit [Guest γ] [ReadsConsole γ] in
theorem Reads.of_same {m m' : Machine (Watched γ Reading)} (hnotes : m'.notes = m.notes)
    (hinput : m'.bridge.input = m.bridge.input) : m.Reads m' :=
  ⟨[], by rw [hnotes, List.append_nil], hinput ▸ .nil _⟩

omit [Guest γ] [ReadsConsole γ] in
theorem Reads.trans {m m' m'' : Machine (Watched γ Reading)} (h : m.Reads m') (h' : m'.Reads m'') : m.Reads m'' := by
  obtain ⟨new, hnotes, hflows⟩ := h
  obtain ⟨new', hnotes', hflows'⟩ := h'
  refine ⟨new ++ new', by rw [hnotes', hnotes, List.append_assoc], ?_⟩
  rw [List.map_append]
  exact hflows.append hflows'

/-- All that a controller does to a machine by moves is to let the guest read. -/
theorem Reaches.reads {m m' : Machine (Watched γ Reading)} (h : m.Reaches m') : m.Reads m' := by
  refine h.rel (fun m => .of_same rfl rfl) Reads.trans fun {m m'} hmove => ?_
  cases hmove with
  | call e =>
    refine ⟨_, notes_call e m, ?_⟩
    have hinput : (Guest.call e m).2.bridge.input = m.bridge.input.drainAll (ReadsConsole.rooms e m.unwatched) :=
      ReadsConsole.input_call e m.unwatched
    rw [hinput]
    exact Traffic.flows_readings _ _
  | memory memory => exact .of_same rfl rfl
  | clear => exact .of_same rfl rfl

end Machine

/-! ## The traffic of a history -/

/-- The operation does nothing to pending input behind the controller's back. -/
def Operation.KeepsInput : Operation → Prop
  | .onBridge act => ∀ bridge, (act bridge).input = bridge.input
  | _ => True

namespace Controller

/-- What is pending. -/
def pending {γ : Type} (c : Controller γ) : List UInt8 := c.machine.bridge.input.toList

/-- The reads between one moment and a later one. -/
def readsTo {γ : Type} (c d : Controller (Watched γ Reading)) : List Traffic :=
  (d.machine.notes.drop c.machine.notes.length).map .read

end Controller

/-- What an operation does to pending input. A start lets the guest read while the old run ends, drops what is left when it got
past that, and lets the guest read on. -/
def Operation.traffic (c : Controller (Watched γ Reading)) : Operation → List Traffic
  | .start source =>
    match c.teardown with
    | (.error _, torn) => c.readsTo torn
    | (.ok (), torn) => c.readsTo torn ++ .begun :: torn.readsTo (c.start source).2
  | .pushInput bytes => if (c.pushInput bytes).1 then [.typed bytes] else []
  | op => c.readsTo (c.perform op)

namespace Controller

/-- What a list of operations does to pending input. -/
def traffic (c : Controller (Watched γ Reading)) : List Operation → List Traffic
  | [] => []
  | op :: ops => op.traffic c ++ (c.perform op).traffic ops

variable {c d : Controller (Watched γ Reading)}

omit [Guest γ] [ReadsConsole γ] in
/-- What happened to pending input between two moments are the reads in between. -/
theorem flows_readsTo (h : c.machine.Reads d.machine) : Traffic.Flows c.pending (c.readsTo d) d.pending := by
  obtain ⟨new, hnotes, hflows⟩ := h
  have hreads : c.readsTo d = new.map .read := by
    rw [readsTo, hnotes, List.drop_left]
  rw [hreads]
  exact hflows

/-- A start drops what is pending once the old run is gone, and before and after that it is read. -/
theorem flows_start (c : Controller (Watched γ Reading)) (source : String) :
    Traffic.Flows c.pending (Operation.traffic c (.start source)) (c.start source).2.pending := by
  have htorn := flows_readsTo c.reaches_teardown.machine.reads
  unfold Operation.traffic
  rcases h : c.teardown with ⟨e | _, torn⟩
  · rw [h] at htorn
    rw [start_of_teardown_error source h]
    exact htorn
  · rw [h] at htorn
    -- What was noted while the old run ended comes before the drop, all that is noted later behind it.
    exact htorn.append (.begun (flows_readsTo (c := torn.beginStart) (reaches_start source h).machine.reads))

omit [Guest γ] [ReadsConsole γ] in
/-- What is typed is added, if it is taken. -/
theorem flows_pushInput (c : Controller (Watched γ Reading)) (bytes : List UInt8) :
    Traffic.Flows c.pending (if (c.pushInput bytes).1 then [.typed bytes] else []) (c.pushInput bytes).2.pending := by
  unfold pushInput
  by_cases hs : c.state = .running
  · have hpushed : (c.machine.bridge.pushInput bytes).input.toList = c.pending ++ bytes := Queue.toList_push _ _
    simp only [if_pos hs]
    exact .typed (hpushed ▸ Traffic.Flows.nil _)
  · simp only [if_neg hs]
    exact .nil _

/-- What happens to pending input in an operation is the traffic of it. -/
theorem flows_perform (c : Controller (Watched γ Reading)) {op : Operation} (hop : op.KeepsInput) :
    Traffic.Flows c.pending (op.traffic c) (c.perform op).pending := by
  cases op with
  | start source => exact c.flows_start source
  | pushInput bytes => exact c.flows_pushInput bytes
  | onBridge act =>
    have hsame : (c.perform (.onBridge act)).machine.bridge.input = c.machine.bridge.input := hop _
    exact flows_readsTo (.of_same rfl hsame)
  | validate source => exact flows_readsTo (c.reaches_validate source).machine.reads
  | stop => exact flows_readsTo c.reaches_stop.machine.reads
  | isFinished => exact flows_readsTo c.reaches_isFinished.machine.reads
  | checkFinished => exact flows_readsTo c.reaches_checkFinished.machine.reads
  | step budget => exact flows_readsTo (c.reaches_step budget).machine.reads
  | tick loop => exact flows_readsTo (loop.reaches_tick c).reads

/-- The traffic of a history leads from what is pending before it to what is pending after it. -/
theorem flows_after (c : Controller (Watched γ Reading)) {ops : List Operation} (hops : ∀ op ∈ ops, op.KeepsInput) :
    Traffic.Flows c.pending (c.traffic ops) (c.after ops).pending := by
  induction ops generalizing c with
  | nil => exact .nil _
  | cons op ops ih =>
    obtain ⟨hop, hops⟩ := List.forall_mem_cons.mp hops
    exact (c.flows_perform hop).append (ih (c.perform op) hops)

/-- An operation begins a program exactly if it is a start that gets past the end of the old run. -/
theorem begun_mem_traffic (c : Controller (Watched γ Reading)) (op : Operation) :
    .begun ∈ op.traffic c ↔ (∃ source, op = .start source) ∧ c.teardown.1 = .ok () := by
  have hreads : ∀ d : Controller (Watched γ Reading), .begun ∉ c.readsTo d := by
    intro d hbegun
    obtain ⟨_, -, hread⟩ := List.mem_map.mp hbegun
    cases hread
  cases op with
  | start source =>
    unfold Operation.traffic
    rcases c.teardown with ⟨e | _, torn⟩
    · simp [hreads]
    · simp
  | pushInput bytes =>
    simp only [Operation.traffic]
    split <;> simp
  | _ => simp [Operation.traffic, hreads]

/-- A history begins a program exactly if one of its starts does. -/
theorem begun_mem_traffic_iff (c : Controller (Watched γ Reading)) (ops : List Operation) :
    .begun ∈ c.traffic ops ↔ c.Restarted ops := by
  induction ops generalizing c with
  | nil => simp [traffic, Restarted]
  | cons op ops ih => rw [traffic, List.mem_append, begun_mem_traffic, ih, restarted_cons]

/-! ## Watching changes nothing -/

/-- The same is pending while the guest is watched. -/
theorem pending_after_noting (c : Controller γ) (ops : List Operation) :
    ((c.noting Reading).after ops).pending = (c.after ops).pending := by
  rw [c.after_eq_noting Reading ops]
  rfl

/-- The same starts get past the end of the old run while the guest is watched. -/
theorem restarted_noting (c : Controller γ) (ops : List Operation) : (c.noting Reading).Restarted ops ↔ c.Restarted ops :=
  (restarted_seen Watched.seenThrough [] (c.noting Reading) ops).symm

/-! ## From a start to the next -/

omit [Guest γ] [ReadsConsole γ] in
/-- What is typed is taken exactly while a program runs. -/
theorem pushInput_taken_iff (c : Controller γ) (bytes : List UInt8) : (c.pushInput bytes).1 = true ↔ c.state = .running := by
  unfold pushInput
  by_cases hs : c.state = .running <;> simp [hs]

/-- Whatever a guest that only reads its input does, and whatever is done with its controller: what is typed is taken exactly
while a program runs, and from the last start that got past the end of the old run, what the guest has read and what is pending
are, one after the other, what was typed. It is so after every operation and at every read, those of a start and of the end of a
run included. -/
theorem input_isolated (c : Controller γ) {ops : List Operation} (hops : ∀ op ∈ ops, op.KeepsInput) :
    let events := (c.noting Reading).traffic ops
    (∀ bytes, ((c.after ops).pushInput bytes).1 = true ↔ (c.after ops).state = .running) ∧
      (c.Restarted ops → (Ledger.ofTraffic events).taken ++ (c.after ops).pending = (Ledger.ofTraffic events).typed) ∧
      ∀ before reading later, events = before ++ .read reading :: later → .begun ∈ before →
        (Ledger.ofTraffic before).taken ++ reading.taken ++ reading.left = (Ledger.ofTraffic before).typed := by
  intro events
  have hflows : Traffic.Flows (c.noting Reading).pending events ((c.noting Reading).after ops).pending :=
    (c.noting Reading).flows_after hops
  refine ⟨(c.after ops).pushInput_taken_iff, ?_, ?_⟩
  · intro hrestarted
    have hbegun : .begun ∈ events :=
      ((c.noting Reading).begun_mem_traffic_iff ops).mpr ((c.restarted_noting ops).mpr hrestarted)
    rw [← pending_after_noting]
    exact hflows.balanced (.inr hbegun)
  · intro before reading later hevents hbegun
    rw [hevents] at hflows
    obtain ⟨pending, hbefore, hread⟩ := hflows.split
    have hbalanced : (Ledger.ofTraffic before).Balanced pending := hbefore.balanced (.inr hbegun)
    cases hread with
    | read _ =>
      rw [List.append_assoc]
      exact hbalanced

/-- A scripted guest reads two bytes in every step. Of three that are typed it leaves one, which the next program does not get. -/
theorem input_isolated_scripted :
    ∃ (c : Controller Scripted) (ops : List Operation), (∀ op ∈ ops, op.KeepsInput) ∧
      (c.noting Reading).traffic ops =
        [.begun, .typed [1, 2, 3], .read ⟨[1, 2], [3]⟩, .begun, .typed [4, 5, 6], .read ⟨[4, 5], [6]⟩] ∧
      [4, 5] ++ (c.after ops).pending = [4, 5, 6] := by
  let c : Controller Scripted := { machine := ⟨Memory.zeroed 16, {}, { heap := 1, eachStep := [.read 0 2] }⟩ }
  let ops : List Operation :=
    [.start "", .pushInput [1, 2, 3], .step 5, .start "", .pushInput [4, 5, 6], .step 5]
  have hops : ∀ op ∈ ops, op.KeepsInput := by simp [ops, Operation.KeepsInput]
  have hevents : (c.noting Reading).traffic ops =
      [.begun, .typed [1, 2, 3], .read ⟨[1, 2], [3]⟩, .begun, .typed [4, 5, 6], .read ⟨[4, 5], [6]⟩] := by
    decide +kernel
  obtain ⟨-, hlaw, -⟩ := c.input_isolated hops
  have hbalanced := hlaw ⟨[], "", ops.tail, rfl, rfl⟩
  rw [hevents] at hbalanced
  exact ⟨c, ops, hops, hevents, hbalanced⟩

end Controller

end Playground
