import Playground.Proofs.Controller.Soundness
import Playground.Proofs.Guest.Runs

/-!
# The active run and the run in the guest

The controller keeps its own account of the run in the guest: a run is active from a successful start to its teardown.
`Tracked` relates that account to the guest's calls. Whatever happens, an active run is open in the guest, and calls about a run
are made only then. The converse, that a run open in the guest is active, holds as long as no region was kept back right after
its program was accepted (`Kept`): the controller takes such a start for failed, and the guest's run for none.
-/

namespace Playground

/-! ## What a hand-off leaves in the guest -/

namespace Call

/-- The calls of a hand-off whose program is accepted. -/
def preparing (size ptr : UInt32) (slice : Slice) (released : Except GuestError Unit) : List Call :=
  [⟨.allocate size, .ok ptr⟩, ofInitRun slice (.ok 0), ⟨.release ptr size, released⟩]

end Call

/-- Handing text over to be compiled and forgotten concerns no run. -/
theorem HandedOff.neutral_ofValidate {payload : List UInt8} {result : Except MarshalError Int32} {new : List Call}
    (h : HandedOff Call.ofValidate payload result new) : Neutral new ∧ ∀ call ∈ new, ¬call.PreparesRun := by
  cases h <;>
    exact ⟨⟨by simp [Call.OpensRun, Call.ofValidate], by simp [Call.NeedsRun, Call.IsStep, Call.ofValidate],
      by simp [Call.KeepsRegion]⟩, by simp [Call.PreparesRun, Call.ofValidate]⟩

/-- A check of a text concerns no run and prepares none. -/
theorem Submitted.neutral_ofValidate {source : String} {result : Except HostError Outcome} {given : List Call}
    (h : Submitted Call.ofValidate source result given) : Neutral given ∧ ∀ call ∈ given, ¬call.PreparesRun := by
  obtain ⟨_, h⟩ := h.handedOff
  exact h.neutral_ofValidate

/-- Handing a program over to be run concerns no run, unless it is accepted. -/
theorem HandedOff.cases_ofInitRun {payload : List UInt8} {result : Except MarshalError Int32} {new : List Call}
    (h : HandedOff Call.ofInitRun payload result new) :
    (Neutral new ∧ result ≠ .ok 0) ∨
      ∃ size ptr slice released, new = Call.preparing size ptr slice released ∧
        result = (Machine.settle (.ok 0) released).1 := by
  cases h with
  | called ptr hptr used released =>
    by_cases hused : used = .ok 0
    · subst hused
      exact .inr ⟨_, _, _, released, rfl, rfl⟩
    · have hopens : ∀ slice, ¬(Call.ofInitRun slice used).OpensRun := by
        intro slice hopen
        cases used with
        | error e => exact hopen
        | ok status => exact hused (congrArg _ hopen)
      refine .inl ⟨⟨?_, by simp [Call.NeedsRun, Call.IsStep, Call.ofInitRun], by simp [Call.KeepsRegion]⟩, ?_⟩
      · simpa [Call.OpensRun] using hopens _
      · intro hresult
        rcases used with e | status
        · cases released <;> cases hresult
        · cases released with
          | error e => cases hresult
          | ok _ => exact hused (congrArg _ (Except.ok.inj hresult))
  | _ =>
    exact .inl ⟨⟨by simp [Call.OpensRun], by simp [Call.NeedsRun, Call.IsStep], by simp [Call.KeepsRegion]⟩, nofun⟩

/-- A submitted program is refused in one way or another and the guest prepares no run, or it is accepted, or the guest prepares
its run and keeps its region, which counts as a failure. -/
theorem Submitted.cases_ofInitRun {source : String} {result : Except HostError Outcome} {given : List Call}
    (h : Submitted Call.ofInitRun source result given) :
    (Neutral given ∧ result ≠ .ok .success) ∨
      (∃ size ptr slice, given = Call.preparing size ptr slice (.ok ()) ∧ result = .ok .success) ∨
      ∃ size ptr slice e, given = Call.preparing size ptr slice (.error e) ∧ result = .error (.marshal (.guest e)) := by
  cases h with
  | @answered status _ h =>
    obtain ⟨hneutral, hne⟩ | ⟨size, ptr, slice, released, rfl, hresult⟩ := h.cases_ofInitRun
    · exact .inl ⟨hneutral, fun h => hne (congrArg _ (Outcome.ofStatus_eq_success_iff.mp (Except.ok.inj h)))⟩
    · cases released with
      | error e => cases hresult
      | ok _ =>
        cases hresult
        exact .inr (.inl ⟨size, ptr, slice, rfl, rfl⟩)
  | noRoom h he =>
    obtain ⟨hneutral, -⟩ | ⟨size, ptr, slice, released, rfl, hresult⟩ := h.cases_ofInitRun
    · exact .inl ⟨hneutral, nofun⟩
    · cases released with
      | error e =>
        cases hresult
        cases he
      | ok _ => cases hresult
  | failed h he =>
    obtain ⟨hneutral, -⟩ | ⟨size, ptr, slice, released, rfl, hresult⟩ := h.cases_ofInitRun
    · exact .inl ⟨hneutral, nofun⟩
    · cases released with
      | error e =>
        cases hresult
        exact .inr (.inr ⟨size, ptr, slice, e, rfl, rfl⟩)
      | ok _ => cases hresult

/-- A program is accepted by the calls of its preparation, and its region is taken back. -/
theorem Submitted.eq_preparing {source : String} {given : List Call}
    (h : Submitted Call.ofInitRun source (.ok .success) given) :
    ∃ size ptr slice, given = Call.preparing size ptr slice (.ok ()) := by
  obtain ⟨-, hresult⟩ | ⟨size, ptr, slice, hgiven, -⟩ | ⟨_, _, _, _, -, hresult⟩ := h.cases_ofInitRun
  · exact absurd rfl hresult
  · exact ⟨size, ptr, slice, hgiven⟩
  · cases hresult

/-- A program that is refused leaves no run. -/
theorem Submitted.neutral_of_ne_success {source : String} {outcome : Outcome} {given : List Call}
    (h : Submitted Call.ofInitRun source (.ok outcome) given) (ho : outcome ≠ .success) : Neutral given := by
  obtain ⟨hneutral, -⟩ | ⟨_, _, _, -, hresult⟩ | ⟨_, _, _, _, -, hresult⟩ := h.cases_ofInitRun
  · exact hneutral
  · exact absurd (Except.ok.inj hresult) ho
  · cases hresult

/-- A program that could not be handed over leaves no run, unless only its region was kept back. -/
theorem Submitted.neutral_or_eq_preparing {source : String} {e : HostError} {given : List Call}
    (h : Submitted Call.ofInitRun source (.error e) given) :
    Neutral given ∨ ∃ size ptr slice e', given = Call.preparing size ptr slice (.error e') := by
  obtain ⟨hneutral, -⟩ | ⟨_, _, _, -, hresult⟩ | ⟨size, ptr, slice, e', hgiven, -⟩ := h.cases_ofInitRun
  · exact .inl hneutral
  · cases hresult
  · exact .inr ⟨size, ptr, slice, e', hgiven⟩

section Preparing

variable {calls : List Call} {size ptr : UInt32} {slice : Slice} {released : Except GuestError Unit}

/-- The calls of an accepted program, one after the other. -/
theorem append_preparing (calls : List Call) (size ptr : UInt32) (slice : Slice) (released : Except GuestError Unit) :
    calls ++ Call.preparing size ptr slice released =
      calls ++ [⟨.allocate size, .ok ptr⟩] ++ [Call.ofInitRun slice (.ok 0)] ++ [⟨.release ptr size, released⟩] := by
  simp [Call.preparing]

/-- An accepted program leaves a run open. -/
theorem runOpen_preparing : RunOpen (calls ++ Call.preparing size ptr slice released) := by
  rw [append_preparing, runOpen_concat, runOpen_concat]
  exact .inr ⟨.inl rfl, nofun⟩

/-- An accepted program leaves the order of the calls as good as it was. -/
theorem orderly_preparing : Orderly (calls ++ Call.preparing size ptr slice released) ↔ Orderly calls := by
  rw [append_preparing, Orderly, throughout_concat, throughout_concat, throughout_concat]
  simp [Call.NeedsRun, Call.IsStep, Call.ofInitRun]

/-- A program may be prepared only while no run is open. -/
theorem paired_preparing :
    Paired (calls ++ Call.preparing size ptr slice released) ↔ Paired calls ∧ ¬RunOpen calls := by
  rw [append_preparing, Paired, throughout_concat, throughout_concat, throughout_concat]
  simp [Call.PreparesRun, Call.ofInitRun, runOpen_concat, Call.OpensRun, Call.EndsRun]

/-- The run of an accepted program is kept exactly if its region was taken back. -/
theorem kept_preparing :
    Kept (calls ++ Call.preparing size ptr slice released) ↔ Kept calls ∧ released = .ok () := by
  rw [append_preparing, Kept, throughout_concat, throughout_concat, throughout_concat]
  cases released <;> simp [Call.KeepsRegion, Call.ofInitRun, Call.OpensRun]

end Preparing

/-! ## The controller's account -/

/-- How the controller's account of an active run goes together with the guest's calls. -/
structure Tracked (active : Bool) (calls : List Call) : Prop where
  orderly : Orderly calls
  open_of_active : active = true → RunOpen calls
  paired : Kept calls → Paired calls
  active_of_open : Kept calls → RunOpen calls → active = true

namespace Tracked

variable {active : Bool} {calls new : List Call}

/-- Calls that concern no run change nothing. -/
theorem append_neutral (h : Tracked active calls) (hn : Neutral new)
    (hp : ∀ call ∈ new, call.PreparesRun → active = false) : Tracked active (calls ++ new) where
  orderly := hn.orderly_append.mpr h.orderly
  open_of_active ha := hn.runOpen_append.mpr (h.open_of_active ha)
  paired hk := by
    have hkept := hn.kept_append.mp hk
    refine (hn.paired_append fun call hcall hprepares hopen => ?_).mpr (h.paired hkept)
    exact nomatch (hp call hcall hprepares).symm.trans (h.active_of_open hkept hopen)
  active_of_open hk hopen := h.active_of_open (hn.kept_append.mp hk) (hn.runOpen_append.mp hopen)

/-- A run is prepared while none is active, and is active if the region was taken back. -/
theorem append_preparing {size ptr : UInt32} {slice : Slice} {released : Except GuestError Unit} {active' : Bool}
    (h : Tracked active calls) (hinactive : active = false) (hactive' : released = .ok () → active' = true) :
    Tracked active' (calls ++ Call.preparing size ptr slice released) where
  orderly := orderly_preparing.mpr h.orderly
  open_of_active _ := runOpen_preparing
  paired hk := by
    obtain ⟨hkept, -⟩ := kept_preparing.mp hk
    refine paired_preparing.mpr ⟨h.paired hkept, fun hopen => ?_⟩
    exact nomatch hinactive.symm.trans (h.active_of_open hkept hopen)
  active_of_open hk _ := hactive' (kept_preparing.mp hk).2

/-- A call about an active run leaves it active, unless it ends it. -/
theorem concat_of_needsRun {call : Call} {active' : Bool} (h : Tracked active calls) (hactive : active = true)
    (hneeds : call.NeedsRun) (hactive' : active' = true ↔ ¬call.EndsRun) : Tracked active' (calls ++ [call]) := by
  obtain ⟨hopens, hprepares, hkeeps⟩ := Call.not_of_needsRun hneeds
  have hopen := h.open_of_active hactive
  have hkept : Kept (calls ++ [call]) ↔ Kept calls := by
    rw [Kept, throughout_concat]
    exact and_iff_left fun hk => absurd hk hkeeps
  refine ⟨?_, ?_, ?_, ?_⟩
  · rw [Orderly, throughout_concat]
    exact ⟨h.orderly, fun _ => hopen⟩
  · intro ha
    exact runOpen_concat.mpr (.inr ⟨hopen, hactive'.mp ha⟩)
  · intro hk
    rw [Paired, throughout_concat]
    exact ⟨h.paired (hkept.mp hk), fun hp => absurd hp hprepares⟩
  · intro _ hopen'
    obtain hopens' | ⟨-, hends⟩ := runOpen_concat.mp hopen'
    · exact absurd hopens' hopens
    · exact hactive'.mpr hends

end Tracked

variable {p q : Standing} {calls new : List Call}

/-- A teardown keeps the account right: it ends the run that was active. -/
theorem TornDown.tracked {result : Except HostError Unit} (h : TornDown p result new q)
    (ht : Tracked p.runActive calls) : Tracked q.runActive (calls ++ new) := by
  cases h with
  | none _ => exact (List.append_nil calls).symm ▸ ht
  | ended hactive => exact ht.concat_of_needsRun hactive (.inr (.inr rfl)) ⟨nofun, fun h => absurd rfl h⟩
  | failed hactive e => exact ht.concat_of_needsRun hactive (.inr (.inr rfl)) ⟨nofun, fun h => absurd rfl h⟩

/-- So does a start once the old run is gone. -/
theorem Begun.tracked {source : String} {result : Except HostError Outcome} (h : Begun p source result new q)
    (hinactive : p.runActive = false) (ht : Tracked p.runActive calls) : Tracked q.runActive (calls ++ new) := by
  cases h with
  | failed hg =>
    obtain hneutral | ⟨size, ptr, slice, e, rfl⟩ := hg.neutral_or_eq_preparing
    · exact ht.append_neutral hneutral fun _ _ _ => hinactive
    · exact ht.append_preparing hinactive nofun
  | refused hg ho => exact ht.append_neutral (hg.neutral_of_ne_success ho) fun _ _ _ => hinactive
  | launched hg =>
    obtain ⟨size, ptr, slice, rfl⟩ := hg.eq_preparing
    exact ht.append_preparing hinactive fun _ => rfl
  | abandoned hg e htorn =>
    obtain ⟨size, ptr, slice, rfl⟩ := hg.eq_preparing
    rw [← List.append_assoc]
    exact htorn.tracked (ht.append_preparing hinactive fun _ => rfl)

/-- So does a whole start. -/
theorem Started.tracked {source : String} {result : Except HostError Outcome} (h : Started p source result new q)
    (ht : Tracked p.runActive calls) : Tracked q.runActive (calls ++ new) := by
  cases h with
  | held htorn => exact htorn.tracked ht
  | begun htorn hb =>
    rw [← List.append_assoc]
    exact hb.tracked htorn.frame.1 (htorn.tracked ht)

/-- So does a stop. -/
theorem Halted.tracked (h : Halted p new q) (ht : Tracked p.runActive calls) : Tracked q.runActive (calls ++ new) := by
  cases h with
  | running _ htorn => exact htorn.tracked ht
  | faulted _ htorn => exact htorn.tracked ht
  | idle _ _ => exact (List.append_nil calls).symm ▸ ht

/-- So does the question whether the program is complete. -/
theorem Asked.tracked {result : Except HostError Bool} (h : Asked p result new q) (ht : Tracked p.runActive calls) :
    Tracked q.runActive (calls ++ new) := by
  cases h with
  | inactive _ => exact (List.append_nil calls).symm ▸ ht
  | answered hactive finished => exact ht.concat_of_needsRun hactive (.inr (.inl rfl)) ⟨fun _ => nofun, fun _ => hactive⟩
  | failed hactive e => exact ht.concat_of_needsRun hactive (.inr (.inl rfl)) ⟨fun _ => nofun, fun _ => hactive⟩

/-- So does the check for completion. -/
theorem Checked.tracked {result : Except HostError Bool} (h : Checked p result new q) (ht : Tracked p.runActive calls) :
    Tracked q.runActive (calls ++ new) := by
  cases h with
  | completed ha _ => exact ha.tracked ht
  | unchanged ha _ => exact ha.tracked ht

/-- A step is about an active run, since a running program has one. -/
theorem Stepped.tracked {budget : UInt32} {result : Except HostError Outcome} (h : Stepped p budget result new q)
    (hp : p.Sound) (ht : Tracked p.runActive calls) : Tracked q.runActive (calls ++ new) := by
  cases h with
  | failed hs e =>
    have hactive := hp.active_of_running hs
    exact ht.concat_of_needsRun hactive (.inl trivial) ⟨fun _ => nofun, fun _ => hactive⟩
  | worked hs =>
    have hactive := hp.active_of_running hs
    exact ht.concat_of_needsRun hactive (.inl trivial) ⟨fun _ => nofun, fun _ => hactive⟩
  | ended hs _ =>
    have hactive := hp.active_of_running hs
    exact ht.concat_of_needsRun hactive (.inl trivial) ⟨fun _ => nofun, fun _ => hactive⟩
  | stopped _ => exact (List.append_nil calls).symm ▸ ht
  | refused _ _ => exact (List.append_nil calls).symm ▸ ht

/-- So does a tick: a check, and then a step. -/
theorem Ticked.tracked {s s' : Scheduler} {result : Except HostError Tick} (h : Ticked s p result s' new q)
    (hp : p.Sound) (ht : Tracked p.runActive calls) : Tracked q.runActive (calls ++ new) := by
  cases h with
  | unarmed _ => exact (List.append_nil calls).symm ▸ ht
  | replaced _ _ => exact (List.append_nil calls).symm ▸ ht
  | faulted _ _ _ => exact (List.append_nil calls).symm ▸ ht
  | stopped _ _ _ _ => exact (List.append_nil calls).symm ▸ ht
  | notAsked _ _ _ hc => exact hc.tracked ht
  | finished _ _ _ hc => exact hc.tracked ht
  | notStepped _ _ _ hc hw => exact List.append_assoc calls _ _ ▸ hw.tracked (hc.sound hp) (hc.tracked ht)
  | again _ _ _ hc hw => exact List.append_assoc calls _ _ ▸ hw.tracked (hc.sound hp) (hc.tracked ht)
  | failed _ _ _ hc hw _ => exact List.append_assoc calls _ _ ▸ hw.tracked (hc.sound hp) (hc.tracked ht)

/-- Every operation, however it goes, keeps the account right. -/
theorem Operation.Goes.tracked {op : Operation} (h : op.Goes p new q) (hp : p.Sound) (ht : Tracked p.runActive calls) :
    Tracked q.runActive (calls ++ new) := by
  cases h with
  | validate h =>
    obtain ⟨hneutral, hprepares⟩ := h.neutral_ofValidate
    exact ht.append_neutral hneutral (fun call hcall hp => absurd hp (hprepares call hcall))
  | start h => exact h.tracked ht
  | stop h => exact h.tracked ht
  | isFinished h => exact h.tracked ht
  | checkFinished h => exact h.tracked ht
  | step h => exact h.tracked hp ht
  | tick h => exact h.tracked hp ht
  | pushInput _ => exact (List.append_nil calls).symm ▸ ht
  | onBridge _ => exact (List.append_nil calls).symm ▸ ht

/-! ## Which calls are made -/

/-- The only call of a teardown ends the run. -/
theorem TornDown.function_eq {result : Except HostError Unit} (h : TornDown p result new q) :
    ∀ call ∈ new, call.function = .deinitRun := by
  cases h <;> simp

/-- So does the only call of a stop. -/
theorem Halted.function_eq (h : Halted p new q) : ∀ call ∈ new, call.function = .deinitRun := by
  cases h with
  | running _ ht => exact ht.function_eq
  | faulted _ ht => exact ht.function_eq
  | idle _ _ => simp

/-- The only call of the question whether the program is complete is that question. -/
theorem Asked.function_eq {result : Except HostError Bool} (h : Asked p result new q) :
    ∀ call ∈ new, call.function = .isFinished := by
  cases h <;> simp

/-- So it is with the check for completion. -/
theorem Checked.function_eq {result : Except HostError Bool} (h : Checked p result new q) :
    ∀ call ∈ new, call.function = .isFinished := by
  cases h with
  | completed ha _ => exact ha.function_eq
  | unchanged ha _ => exact ha.function_eq

/-- The only call of a step is one. -/
theorem Stepped.isStep {budget : UInt32} {result : Except HostError Outcome} (h : Stepped p budget result new q) :
    ∀ call ∈ new, call.IsStep := by
  cases h <;> simp [Call.IsStep]

/-- A tick asks about the run and steps it. -/
theorem Ticked.needsRun {s s' : Scheduler} {result : Except HostError Tick} (h : Ticked s p result s' new q) :
    ∀ call ∈ new, call.NeedsRun := by
  have hasked : ∀ {result asked q}, Checked p result asked q → ∀ call ∈ asked, call.NeedsRun :=
    fun hc call hcall => .inr (.inl (hc.function_eq call hcall))
  have hworked : ∀ {r result work q}, Stepped r s.budget result work q → ∀ call ∈ work, call.NeedsRun :=
    fun hw call hcall => .inl (hw.isStep call hcall)
  cases h with
  | notAsked _ _ _ hc => exact hasked hc
  | finished _ _ _ hc => exact hasked hc
  | notStepped _ _ _ hc hw => exact List.forall_mem_append.mpr ⟨hasked hc, hworked hw⟩
  | again _ _ _ hc hw => exact List.forall_mem_append.mpr ⟨hasked hc, hworked hw⟩
  | failed _ _ _ hc hw _ => exact List.forall_mem_append.mpr ⟨hasked hc, hworked hw⟩
  | unarmed _ | replaced _ _ | faulted _ _ _ | stopped _ _ _ _ => simp

/-- An operation hands source text over, to be checked or started, or it makes calls about the run and no others. -/
theorem Operation.Goes.cases_source {op : Operation} (h : op.Goes p new q) :
    (∃ source result, op = .validate source ∧ Submitted Call.ofValidate source result new) ∨
      (∃ source result, op = .start source ∧ Started p source result new q) ∨ ∀ call ∈ new, call.NeedsRun := by
  cases h with
  | validate h => exact .inl ⟨_, _, rfl, h⟩
  | start h => exact .inr (.inl ⟨_, _, rfl, h⟩)
  | stop h => exact .inr (.inr fun call hcall => .inr (.inr (h.function_eq call hcall)))
  | isFinished h => exact .inr (.inr fun call hcall => .inr (.inl (h.function_eq call hcall)))
  | checkFinished h => exact .inr (.inr fun call hcall => .inr (.inl (h.function_eq call hcall)))
  | step h => exact .inr (.inr fun call hcall => .inl (h.isStep call hcall))
  | tick h => exact .inr (.inr h.needsRun)
  | pushInput _ => exact .inr (.inr (by simp))
  | onBridge _ => exact .inr (.inr (by simp))

/-! ## Kept regions -/

/-- Calls about a run keep no region. -/
theorem kept_append_of_needsRun (h : ∀ call ∈ new, call.NeedsRun) : Kept (calls ++ new) ↔ Kept calls :=
  throughout_append fun call hcall _ hkeeps => absurd hkeeps (Call.not_of_needsRun (h call hcall)).2.2

/-- A teardown keeps no region. -/
theorem TornDown.kept_append {result : Except HostError Unit} (h : TornDown p result new q) :
    Kept (calls ++ new) ↔ Kept calls :=
  kept_append_of_needsRun fun call hcall => .inr (.inr (h.function_eq call hcall))

/-- A start whose region is kept back once its program was accepted leaves a run open in the guest that is not active. -/
theorem Begun.kept {source : String} {result : Except HostError Outcome} (h : Begun p source result new q)
    (hinactive : p.runActive = false) (hk : Kept calls) (hopen : RunOpen (calls ++ new) → q.runActive = true) :
    Kept (calls ++ new) := by
  cases h with
  | failed hg =>
    obtain hneutral | ⟨size, ptr, slice, e, rfl⟩ := hg.neutral_or_eq_preparing
    · exact hneutral.kept_append.mpr hk
    · exact nomatch hinactive.symm.trans (hopen runOpen_preparing)
  | refused hg ho => exact (hg.neutral_of_ne_success ho).kept_append.mpr hk
  | launched hg =>
    obtain ⟨size, ptr, slice, rfl⟩ := hg.eq_preparing
    exact kept_preparing.mpr ⟨hk, rfl⟩
  | abandoned hg e ht =>
    obtain ⟨size, ptr, slice, rfl⟩ := hg.eq_preparing
    rw [← List.append_assoc, ht.kept_append]
    exact kept_preparing.mpr ⟨hk, rfl⟩

/-- An operation keeps no region back right after its program was accepted, if an open run is active afterwards. -/
theorem Operation.Goes.kept {op : Operation} (h : op.Goes p new q) (hk : Kept calls)
    (hopen : RunOpen (calls ++ new) → q.runActive = true) : Kept (calls ++ new) := by
  obtain ⟨_, _, -, h⟩ | ⟨_, _, -, h⟩ | hneeds := h.cases_source
  · exact h.neutral_ofValidate.1.kept_append.mpr hk
  · cases h with
    | held ht => exact ht.kept_append.mpr hk
    | begun ht hb =>
      rw [← List.append_assoc] at hopen ⊢
      exact hb.kept ht.frame.1 (ht.kept_append.mpr hk) hopen
  · exact (kept_append_of_needsRun hneeds).mpr hk

/-! ## Every history -/

namespace Controller

variable {γ : Type} [Guest γ] {m : Machine γ} {clear : Bool} {c : Controller (Recorded γ)}

/-- A controller that was just created has set its guest up, and no more. -/
theorem calls_create (h : create m.record clear = .ok c) : c.calls = [⟨.setUp, .ok ()⟩] := by
  obtain ⟨m', hcall, rfl⟩ := create_eq_ok_iff.mp h
  exact Machine.calls_of_call hcall

/-- The account of a controller that was just created is right. -/
theorem tracked_create (h : create m.record clear = .ok c) : Tracked c.runActive c.calls := by
  have hinactive : c.runActive = false := by
    obtain ⟨m', -, rfl⟩ := create_eq_ok_iff.mp h
    rfl
  have hclosed : ¬RunOpen c.calls := by
    rw [calls_create h, ← List.nil_append [_], runOpen_concat]
    exact fun hopen => hopen.elim id fun hopen => not_runOpen_nil hopen.1
  have halone : ∀ rule, rule [] ⟨.setUp, .ok ()⟩ → Throughout rule c.calls := by
    intro rule hrule
    rw [calls_create h, ← List.nil_append [_], throughout_concat]
    exact ⟨throughout_nil, hrule⟩
  refine ⟨halone _ ?_, ?_, fun _ => halone _ nofun, fun _ hopen => absurd hopen hclosed⟩
  · rintro (hneeds | hneeds | hneeds) <;> cases hneeds
  · intro hactive
    exact nomatch hinactive.symm.trans hactive

/-- Every operation of a sound controller keeps its account right. -/
theorem tracked_perform (hs : c.standing.Sound) (h : Tracked c.runActive c.calls) (op : Operation) :
    Tracked (c.perform op).runActive (c.perform op).calls := by
  obtain ⟨new, hcalls, hgoes⟩ := c.perform_goes op
  rw [hcalls]
  exact hgoes.tracked hs h

/-- Whatever the guest does and whatever is done with a controller, its account is right between two operations. -/
theorem tracked_after (h : create m.record clear = .ok c) (ops : List Operation) :
    Tracked (c.after ops).runActive (c.after ops).calls := by
  have hboth := after_induction (P := fun c => c.standing.Sound ∧ Tracked c.runActive c.calls)
    (fun c op hc => ⟨sound_perform hc.1 op, tracked_perform hc.1 hc.2 op⟩) ⟨sound_create h, tracked_create h⟩ ops
  exact hboth.2

/-- No region was kept back right after its program was accepted, if an open run has been active after every operation. -/
theorem kept_after (h : create m.record clear = .ok c) {ops : List Operation}
    (hopen : ∀ earlier, earlier <+: ops → RunOpen (c.after earlier).calls → (c.after earlier).runActive = true) :
    Kept (c.after ops).calls := by
  induction ops using List.reverseRecOn with
  | nil =>
    rw [after_nil, calls_create h, ← List.nil_append [_], Kept, throughout_concat]
    exact ⟨throughout_nil, fun hkeeps => False.elim hkeeps⟩
  | append_singleton ops op ih =>
    have hk := ih (fun earlier hearlier => hopen earlier (hearlier.trans (List.prefix_append ops [op])))
    have hlast := hopen (ops ++ [op]) (List.prefix_refl _)
    obtain ⟨new, hcalls, hgoes⟩ := (c.after ops).perform_goes op
    rw [after_concat, hcalls] at hlast ⊢
    exact hgoes.kept hk hlast

/-- At every moment of a history no run was prepared while one was open and the active run is the open one, exactly as long as
the guest keeps no region back right after it accepted the program in it. -/
theorem paired_iff_kept (h : create m.record clear = .ok c) (ops : List Operation) :
    (∀ earlier, earlier <+: ops → Paired (c.after earlier).calls ∧
        ((c.after earlier).runActive = true ↔ RunOpen (c.after earlier).calls)) ↔
      Kept (c.after ops).calls := by
  constructor
  · intro hall
    exact kept_after h (fun earlier hearlier => (hall earlier hearlier).2.mpr)
  · rintro hk earlier ⟨later, rfl⟩
    have ht := tracked_after h earlier
    obtain ⟨new, hcalls⟩ := (c.after earlier).exists_calls_after later
    rw [after_append, hcalls] at hk
    have hearlier := Throughout.of_append hk
    exact ⟨ht.paired hearlier, ht.open_of_active, ht.active_of_open hearlier⟩

/-- Two programs one after the other, for a guest that takes its regions back. -/
theorem paired_after_willing :
    ∃ c : Controller (Recorded Fixed), create Fixed.willing.machine.record = .ok c ∧
      Kept (c.after [.start "", .start ""]).calls ∧ Paired (c.after [.start "", .start ""]).calls := by
  have h : create Fixed.willing.machine.record = .ok { machine := Fixed.willing.machine.record [⟨.setUp, .ok ()⟩] } := rfl
  refine ⟨_, h, ?_⟩
  have hkept : Kept (Controller.after { machine := Fixed.willing.machine.record [⟨.setUp, .ok ()⟩] }
      [.start "", .start ""]).calls := by
    have hcalls : (Controller.after { machine := Fixed.willing.machine.record [⟨.setUp, .ok ()⟩] }
        [.start "", .start ""]).calls = [] ++ [⟨.setUp, .ok ()⟩, ⟨.allocate 1, .ok 1⟩, ⟨.initRun 1 0, .ok 0⟩,
          ⟨.release 1 1, .ok ()⟩, ⟨.deinitRun, .ok ()⟩, ⟨.allocate 1, .ok 1⟩, ⟨.initRun 1 0, .ok 0⟩,
          ⟨.release 1 1, .ok ()⟩] := rfl
    rw [hcalls]
    exact (throughout_append (by simp [Call.KeepsRegion])).mpr throughout_nil
  exact ⟨hkept, ((paired_iff_kept h [.start "", .start ""]).mpr hkept _ (List.prefix_refl _)).1⟩

/-- A guest accepts a program and keeps its region. Its run is open and counts as inactive, and the next start prepares another
run without ending it. -/
theorem not_paired_after_grasping :
    ∃ c : Controller (Recorded Fixed), create Fixed.grasping.machine.record = .ok c ∧
      ¬((c.after [.start ""]).runActive = true ↔ RunOpen (c.after [.start ""]).calls) ∧
      ¬Paired (c.after [.start "", .start ""]).calls := by
  let opened : List Call := [⟨.setUp, .ok ()⟩, ⟨.allocate 1, .ok 1⟩, ⟨.initRun 1 0, .ok 0⟩,
    ⟨.release 1 1, .error (.trap "free" none)⟩]
  have hopen : RunOpen opened :=
    ⟨[⟨.setUp, .ok ()⟩, ⟨.allocate 1, .ok 1⟩], _, [⟨.release 1 1, .error (.trap "free" none)⟩], rfl, rfl,
      by simp [Call.EndsRun]⟩
  refine ⟨{ machine := Fixed.grasping.machine.record [⟨.setUp, .ok ()⟩] }, rfl, fun hactive => ?_, fun hpaired => ?_⟩
  · have hinactive : false = true := hactive.mpr hopen
    exact nomatch hinactive
  · have hclosed : ¬RunOpen (opened ++ [⟨.allocate 1, .ok 1⟩]) :=
      hpaired (opened ++ [⟨.allocate 1, .ok 1⟩]) ⟨.initRun 1 0, .ok 0⟩ _ rfl trivial
    exact hclosed (runOpen_concat.mpr (.inr ⟨hopen, nofun⟩))

end Controller

end Playground
