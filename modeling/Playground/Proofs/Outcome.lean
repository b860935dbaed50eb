import Playground.Exit

/-!
# What a status means

A status and its meaning determine each other, but there are more outcomes than statuses: the host makes up cancellations, and
`Outcome.unknown` has room for a status that the table knows under another name. `Outcome.Reportable` leaves both out, and what
remains is what a guest can report (`Outcome.exists_ofStatus_iff`). There `Outcome.code?` is the inverse of `Outcome.ofStatus`
(`Outcome.ofStatus_eq_iff`), so that a question about a status becomes one about the outcome.

`LoopExit.ofFault` sorts the outcomes that end a loop. It agrees with `Outcome.isAlarm` on every outcome but success, which ends
none.
-/

namespace Playground

/-! ## Statuses and their meanings -/

namespace Outcome

/-- A guest can report the outcome: it was not made up by the host, and a status kept as unknown is none of the table. -/
def Reportable : Outcome → Prop
  | cancelled => False
  | unknown status => status < 0 ∨ 6 < status
  | _ => True

/-- Said by what is left out: the host's own outcome, and the statuses that have outcomes of their own. -/
theorem reportable_iff {o : Outcome} :
    o.Reportable ↔ o ≠ .cancelled ∧ ∀ status, 0 ≤ status → status ≤ 6 → o ≠ .unknown status := by
  cases o with
  | unknown status =>
    simp only [Reportable, ne_eq, unknown.injEq]
    grind
  | _ => simp [Reportable]

/-- No two statuses mean the same: each is read back from its meaning. -/
theorem ofStatus_injective : Function.Injective ofStatus := by
  intro status status' h
  have hcode : some status = some status' := by rw [← code?_ofStatus status, h, code?_ofStatus]
  exact Option.some.inj hcode

/-- A status that is none of the table is kept. -/
theorem ofStatus_of_outside {status : Int32} (h : status < 0 ∨ 6 < status) : ofStatus status = unknown status := by
  unfold ofStatus
  grind

/-- What a status means is reportable. -/
theorem reportable_ofStatus (status : Int32) : (ofStatus status).Reportable := by
  by_cases h : status < 0 ∨ 6 < status
  · rw [ofStatus_of_outside h]
    exact h
  · have htable : status = 0 ∨ status = 1 ∨ status = 2 ∨ status = 3 ∨ status = 4 ∨ status = 5 ∨ status = 6 := by grind
    rcases htable with rfl | rfl | rfl | rfl | rfl | rfl | rfl <;> trivial

/-- Of a reportable outcome the code is the one status that means it. -/
theorem ofStatus_eq_iff {o : Outcome} (ho : o.Reportable) {status : Int32} :
    ofStatus status = o ↔ o.code? = some status := by
  constructor
  · rintro rfl
    exact code?_ofStatus status
  · intro hcode
    cases o with
    | cancelled => cases hcode
    | unknown kept =>
      cases hcode
      exact ofStatus_of_outside ho
    | _ =>
      cases hcode
      rfl

/-- A reportable outcome has a code. -/
theorem exists_code? {o : Outcome} (ho : o.Reportable) : ∃ status, o.code? = some status := by
  cases o with
  | cancelled => exact ho.elim
  | _ => exact ⟨_, rfl⟩

/-- The meanings of the statuses are the reportable outcomes. -/
theorem exists_ofStatus_iff {o : Outcome} : (∃ status, ofStatus status = o) ↔ o.Reportable := by
  constructor
  · rintro ⟨status, rfl⟩
    exact reportable_ofStatus status
  · intro ho
    obtain ⟨status, hcode⟩ := exists_code? ho
    exact ⟨status, (ofStatus_eq_iff ho).mpr hcode⟩

/-- Success is the meaning of status 0 alone. -/
theorem ofStatus_eq_success_iff {status : Int32} : ofStatus status = .success ↔ status = 0 := by
  rw [ofStatus_eq_iff (o := .success) trivial, code?, Option.some.injEq, eq_comm]

/-- A panic is the meaning of status 4 alone. -/
theorem ofStatus_eq_runtimeFault_iff {status : Int32} : ofStatus status = .runtimeFault ↔ status = 4 := by
  rw [ofStatus_eq_iff (o := .runtimeFault) trivial, code?, Option.some.injEq, eq_comm]

/-- No status means a cancellation. -/
theorem ofStatus_ne_cancelled (status : Int32) : ofStatus status ≠ .cancelled := by
  intro h
  exact exists_ofStatus_iff.mp ⟨status, h⟩

/-- An outcome that can fault a program is a panic or an alarm. -/
theorem eq_runtimeFault_or_isAlarm {o : Outcome} (hs : o ≠ .success) (hc : o ≠ .cancelled) :
    o = .runtimeFault ∨ o.isAlarm = true := by
  cases o with
  | success => exact absurd rfl hs
  | cancelled => exact absurd rfl hc
  | runtimeFault => exact .inl rfl
  | _ => exact .inr rfl

/-- Statuses other than success and a panic mean alarms. -/
theorem isAlarm_ofStatus {status : Int32} (hs : status ≠ 0) (hp : status ≠ 4) : (ofStatus status).isAlarm = true := by
  obtain h | h := eq_runtimeFault_or_isAlarm (fun h => hs (ofStatus_eq_success_iff.mp h)) (ofStatus_ne_cancelled status)
  · exact absurd (ofStatus_eq_runtimeFault_iff.mp h) hp
  · exact h

end Outcome

/-! ## Outcomes and the ends of loops -/

namespace LoopExit

/-- Apart from success, a loop is ended with an alarm by just the outcomes that are alarms. -/
theorem ofFault_eq_alarm_iff {o p : Outcome} (ho : o ≠ .success) : ofFault o = .alarm p ↔ o.isAlarm = true ∧ o = p := by
  cases o with
  | success => exact absurd rfl ho
  | _ => simp [ofFault, Outcome.isAlarm]

/-- Outcomes that fault a program, other than a panic, are alarms. -/
theorem ofFault_of_isAlarm {o : Outcome} (h : o.isAlarm = true) : ofFault o = .alarm o := by
  have ho : o ≠ .success := by
    rintro rfl
    cases h
  exact (ofFault_eq_alarm_iff ho).mpr ⟨h, rfl⟩

/-- A loop is ended as faulted by a panic alone. -/
theorem ofFault_eq_faulted_iff {o p : Outcome} : ofFault o = .faulted p ↔ o = .runtimeFault ∧ o = p := by
  cases o <;> simp [ofFault]

/-- No outcome but a cancellation ends a loop as cancelled. -/
theorem ofFault_ne_cancelled {o : Outcome} (h : o ≠ .cancelled) : ofFault o ≠ .cancelled := by
  cases o with
  | cancelled => exact absurd rfl h
  | _ => nofun

end LoopExit

/-! ## The tables agree -/

namespace Outcome

/-- Nothing is lost between a status and its meaning. Each status is read back, so no two mean the same; the outcomes that some
status means are all but the cancellation and the known statuses in the guise of unknown ones, and each of them is the meaning
of its own code. A status other than success ends a loop with an alarm when its meaning is one, and as faulted when it is 4. -/
theorem ofStatus_faithful :
    (∀ status, (ofStatus status).code? = some status) ∧
    Function.Injective ofStatus ∧
    (∀ o, (∃ status, ofStatus status = o) ↔ o ≠ .cancelled ∧ ∀ n, 0 ≤ n → n ≤ 6 → o ≠ .unknown n) ∧
    (∀ o, o ≠ .cancelled → (∀ n, 0 ≤ n → n ≤ 6 → o ≠ .unknown n) →
      ∃ status, o.code? = some status ∧ ofStatus status = o) ∧
    ∀ status, status ≠ 0 →
      ((∃ o, LoopExit.ofFault (ofStatus status) = .alarm o) ↔ (ofStatus status).isAlarm = true) ∧
      ((∃ o, LoopExit.ofFault (ofStatus status) = .faulted o) ↔ status = 4) := by
  refine ⟨code?_ofStatus, ofStatus_injective, fun o => ?image, fun o hc hn => ?inverse, fun status hs => ⟨?alarm, ?faulted⟩⟩
  case image => rw [exists_ofStatus_iff, reportable_iff]
  case inverse =>
    have ho : o.Reportable := reportable_iff.mpr ⟨hc, hn⟩
    obtain ⟨status, hcode⟩ := exists_code? ho
    exact ⟨status, hcode, (ofStatus_eq_iff ho).mpr hcode⟩
  case alarm =>
    have hne : ofStatus status ≠ .success := fun h => hs (ofStatus_eq_success_iff.mp h)
    simp only [LoopExit.ofFault_eq_alarm_iff hne, exists_and_left, exists_eq', and_true]
  case faulted =>
    simp only [LoopExit.ofFault_eq_faulted_iff, exists_and_left, exists_eq', and_true, ofStatus_eq_runtimeFault_iff]

/-- A negative status is kept, stands for itself, and ends a loop with an alarm. -/
theorem ofStatus_faithful_negative :
    unknown (-1) ≠ .cancelled ∧ (∀ n : Int32, 0 ≤ n → n ≤ 6 → unknown (-1) ≠ .unknown n) ∧
    (∃ status, (unknown (-1)).code? = some status ∧ ofStatus status = unknown (-1)) ∧
    (-1 : Int32) ≠ 0 ∧
    ((∃ o, LoopExit.ofFault (ofStatus (-1)) = .alarm o) ↔ (ofStatus (-1)).isAlarm = true) ∧
    ((∃ o, LoopExit.ofFault (ofStatus (-1)) = .faulted o) ↔ (-1 : Int32) = 4) := by
  obtain ⟨-, -, -, hinverse, hends⟩ := ofStatus_faithful
  have hcancelled : unknown (-1) ≠ .cancelled := by decide
  have htable : ∀ n : Int32, 0 ≤ n → n ≤ 6 → unknown (-1) ≠ .unknown n := by
    intro n hn _ h
    rw [← unknown.inj h] at hn
    exact absurd hn (by decide)
  exact ⟨hcancelled, htable, hinverse (unknown (-1)) hcancelled htable, by decide, hends (-1) (by decide)⟩

end Outcome

end Playground
