import Playground.Proofs.Controller.Postconditions
import Playground.Proofs.Scheduler.Binding

/-!
# The starts that are counted

A controller keeps two counts, of programs that were started and of attempts to start one. `Controller.attempts` tells what came of
each start of a history: whether the old run was gone by then, and what was answered. The count of programs is that of the starts that
were answered with success. The count of attempts misses a start whose old run could not be torn down, and no other
(`starts_counted`).
-/

namespace Playground

/-- A start, by what came of it. -/
structure Attempt where
  /-- What came of the end of the old run. -/
  ended : Except HostError Unit
  answer : Except HostError Outcome

namespace Attempt

/-- The old run was gone, or it was ended. -/
def GotThrough (a : Attempt) : Bool := decide (a.ended = .ok ())

/-- The program was started. -/
def Succeeded (a : Attempt) : Bool := decide (a.answer = .ok .success)

end Attempt

namespace Operation

/-- The operation is a start. -/
def isStart : Operation → Bool
  | .start _ => true
  | _ => false

/-- What comes of the start, if the operation is one. -/
def attempt {γ : Type} [Guest γ] (c : Controller γ) : Operation → List Attempt
  | .start source => [⟨c.teardown.1, (c.start source).1⟩]
  | _ => []

end Operation

/-- What comes of the starts of a history, in order. -/
def Controller.attempts {γ : Type} [Guest γ] (c : Controller γ) : List Operation → List Attempt
  | [] => []
  | op :: ops => op.attempt c ++ (c.perform op).attempts ops

/-! ## Operations other than starts -/

variable {p q : Standing} {new : List Call}

/-- A stop starts no program. -/
theorem Halted.runs_eq (h : Halted p new q) : q.runs = p.runs := by
  cases h with
  | running _ ht => exact ht.frame.2.2.1
  | faulted _ ht => exact ht.frame.2.2.1
  | idle _ _ => rfl

/-- Nor does the check for completion. -/
theorem Checked.runs_eq {result : Except HostError Bool} (h : Checked p result new q) : q.runs = p.runs := by
  cases h with
  | completed ha _ => cases ha <;> rfl
  | unchanged ha _ => cases ha <;> rfl

/-- Nor does a step. -/
theorem Stepped.runs_eq {budget : UInt32} {result : Except HostError Outcome} (h : Stepped p budget result new q) :
    q.runs = p.runs := by
  cases h <;> rfl

/-- Nor does a tick. -/
theorem Ticked.runs_eq {s s' : Scheduler} {result : Except HostError Tick} (h : Ticked s p result s' new q) :
    q.runs = p.runs := by
  cases h with
  | unarmed _ | replaced _ _ | faulted _ _ _ | stopped _ _ _ _ => rfl
  | notAsked _ _ _ hc | finished _ _ _ hc => exact hc.runs_eq
  | notStepped _ _ _ hc hw | again _ _ _ hc hw | failed _ _ _ hc hw _ => exact hw.runs_eq.trans hc.runs_eq

/-- Nothing but a start counts a program as started. -/
theorem Operation.Goes.runs_eq {op : Operation} (h : op.Goes p new q) (hop : ∀ source, op ≠ .start source) :
    q.runs = p.runs := by
  cases h with
  | start _ => exact absurd rfl (hop _)
  | stop h => exact h.runs_eq
  | isFinished h => cases h <;> rfl
  | checkFinished h => exact h.runs_eq
  | step h => exact h.runs_eq
  | tick h => exact h.runs_eq
  | validate _ | pushInput _ | onBridge _ => rfl

/-! ## Along a history -/

namespace Controller

variable {γ : Type} [Guest γ]

/-- What comes of a start does not hang on its calls being written down. -/
theorem attempt_erase (r : Controller (Recorded γ)) (op : Operation) : op.attempt r.erase = op.attempt r := by
  cases op with
  | start source =>
    have hseen : r.erase = r.seen Recorded.inner [] := rfl
    rw [hseen, Operation.attempt, Operation.attempt, seen_teardown Recorded.seenThrough, seen_start Recorded.seenThrough]
    rfl
  | _ => rfl

/-- An operation counts a program for a start that succeeds, and an attempt for one that gets through. -/
theorem counts_perform_recorded (r : Controller (Recorded γ)) (op : Operation) :
    (r.perform op).runs = r.runs + (op.attempt r).countP Attempt.Succeeded ∧
      (r.perform op).generation = r.generation + (op.attempt r).countP Attempt.GotThrough := by
  by_cases hop : ∃ source, op = .start source
  · obtain ⟨source, rfl⟩ := hop
    let a : Attempt := ⟨r.teardown.1, (r.start source).1⟩
    have hruns : (r.start source).2.standing.runs = r.standing.runs + [a].countP Attempt.Succeeded := by
      obtain ⟨-, hanswer, hl⟩ | ⟨-, hanswer, hf, -⟩ | ⟨e, -, hanswer, hf, -⟩ := r.start_ends source
      · simpa [a, Attempt.Succeeded, hanswer] using hl.runs
      · simpa [a, Attempt.Succeeded, hanswer] using hf.runs
      · simpa [a, Attempt.Succeeded, hanswer] using hf.runs
    have hgeneration : (r.start source).2.generation = r.generation + [a].countP Attempt.GotThrough := by
      obtain ⟨hended, hg⟩ | ⟨hended, hg, -⟩ := r.start_counts source
      · simpa [a, Attempt.GotThrough, hended] using hg
      · simpa [a, Attempt.GotThrough, hended] using hg
    exact ⟨hruns, hgeneration⟩
  · have hother : ∀ source, op ≠ .start source := not_exists.mp hop
    have hnone : op.attempt r = [] := by
      cases op with
      | start source => exact absurd rfl (hother source)
      | _ => rfl
    obtain ⟨new, -, hgoes⟩ := r.perform_goes op
    rw [hnone]
    exact ⟨hgoes.runs_eq hother, (hgoes.stays hother).generation_eq⟩

/-- An operation counts the start that it makes, if it makes one: as a run if it succeeded, as a generation if it got through. -/
theorem counts_perform (c : Controller γ) (op : Operation) :
    (c.perform op).runs = c.runs + (op.attempt c).countP Attempt.Succeeded ∧
      (c.perform op).generation = c.generation + (op.attempt c).countP Attempt.GotThrough := by
  let r : Controller (Recorded γ) := { c with machine := c.machine.record }
  have hr : r.erase = c := rfl
  have hcounts := r.counts_perform_recorded op
  rw [← attempt_erase, hr] at hcounts
  have hleft : c.perform op = (r.perform op).erase := (r.erase_perform op).symm
  rw [hleft]
  exact hcounts

/-- A history counts its starts: as runs those that succeeded, as generations those that got through. -/
theorem counts_after (c : Controller γ) (ops : List Operation) :
    (c.after ops).runs = c.runs + (c.attempts ops).countP Attempt.Succeeded ∧
      (c.after ops).generation = c.generation + (c.attempts ops).countP Attempt.GotThrough := by
  induction ops generalizing c with
  | nil => exact ⟨rfl, rfl⟩
  | cons op ops ih =>
    obtain ⟨hruns, hgeneration⟩ := ih (c.perform op)
    obtain ⟨hruns', hgeneration'⟩ := c.counts_perform op
    simp only [after_cons, attempts, List.countP_append]
    omega

/-- Every start of a history is an attempt. -/
theorem length_attempts (c : Controller γ) (ops : List Operation) :
    (c.attempts ops).length = ops.countP Operation.isStart := by
  induction ops generalizing c with
  | nil => rfl
  | cons op ops ih =>
    rw [attempts, List.length_append, ih, List.countP_cons, Nat.add_comm]
    cases op <;> rfl

/-- Whatever the guest does and whatever is done with its controller: programs are counted as started exactly for the starts that were
answered with success, and attempts for the starts whose old run was gone or was ended. So the count of attempts is that of all
starts exactly if none of them failed at the end of the old run. -/
theorem starts_counted {m : Machine γ} {clear : Bool} {c : Controller γ} (h : create m clear = .ok c) (ops : List Operation) :
    let d := c.after ops
    let attempts := c.attempts ops
    attempts.length = ops.countP Operation.isStart ∧
      d.runs = attempts.countP Attempt.Succeeded ∧
      d.generation = attempts.countP Attempt.GotThrough ∧
      (d.generation = ops.countP Operation.isStart ↔ ∀ a ∈ attempts, a.GotThrough = true) := by
  intro d attempts
  obtain ⟨m', -, rfl⟩ := create_eq_ok_iff.mp h
  let fresh : Controller γ := { machine := m', clearOnStart := clear }
  obtain ⟨hruns, hgeneration⟩ := fresh.counts_after ops
  have hlength : attempts.length = ops.countP Operation.isStart := fresh.length_attempts ops
  have hcount : d.generation = attempts.countP Attempt.GotThrough := hgeneration.trans (Nat.zero_add _)
  refine ⟨hlength, hruns.trans (Nat.zero_add _), hcount, ?_⟩
  rw [hcount, ← hlength]
  exact List.countP_eq_length

/-- Three starts for a guest that ends no run: the first program runs, the second start cannot end it, and the third finds no run. -/
theorem starts_counted_clinging :
    ∃ c : Controller Fixed, create Fixed.clinging.machine = .ok c ∧
      let d := c.after [.start "", .start "", .start ""]
      d.generation = 2 ∧ d.runs = 2 ∧ ¬∀ a ∈ c.attempts [.start "", .start "", .start ""], a.GotThrough = true := by
  have h : create Fixed.clinging.machine = .ok { machine := Fixed.clinging.machine } := rfl
  obtain ⟨-, hruns, hgeneration, hall⟩ := starts_counted h [.start "", .start "", .start ""]
  refine ⟨_, h, hgeneration, hruns, fun hthrough => ?_⟩
  exact absurd (hall.mpr hthrough) (by rw [hgeneration]; decide)

/-- The second of two starts cannot end the old run, and is not counted. -/
theorem start_not_counted :
    ∃ c : Controller Fixed, create Fixed.clinging.machine = .ok c ∧
      (c.after [.start "", .start ""]).generation ≠ [Operation.start "", .start ""].countP Operation.isStart :=
  ⟨{ machine := Fixed.clinging.machine }, rfl, by decide⟩

end Controller

end Playground
