import Mathlib.Data.List.Induction
import Playground.Proofs.Guest.Record

/-!
# The runs in a record

An `initRun` that returns status 0 opens a run inside the guest, and the next `deinitRun` ends it, whether or not it succeeds.
`RunOpen` says that a record ends with a run open, and `Throughout` that every call of a record keeps a rule about the calls
before it. Three rules are of interest: calls about a run are made while one is open (`Orderly`), no run is prepared while one
is open (`Paired`), and no region is kept back right after its program was accepted (`Kept`).
-/

namespace Playground

namespace Call

/-- The call opens a run. -/
def OpensRun : Call → Prop
  | ⟨.initRun _ _, .ok status⟩ => status = 0
  | _ => False

/-- The call ends a run, and if it fails, that is no reason to make it again. -/
def EndsRun (call : Call) : Prop := call.function = .deinitRun

/-- The call asks for a run to be prepared. -/
def PreparesRun : Call → Prop
  | ⟨.initRun _ _, _⟩ => True
  | _ => False

/-- The call is a step. -/
def IsStep : Call → Prop
  | ⟨.step _, _⟩ => True
  | _ => False

/-- The call is about a run. -/
def NeedsRun (call : Call) : Prop := call.IsStep ∨ call.function = .isFinished ∨ call.function = .deinitRun

/-- The call should have taken a region back, and failed. -/
def KeepsRegion : Call → Prop
  | ⟨.release _ _, .error _⟩ => True
  | _ => False

/-- A call about a run prepares none and takes no region back. -/
theorem not_of_needsRun {call : Call} (h : call.NeedsRun) : ¬call.OpensRun ∧ ¬call.PreparesRun ∧ ¬call.KeepsRegion := by
  obtain ⟨function, result⟩ := call
  obtain h | h | h := h
  · cases function with
    | step budget => exact ⟨id, id, id⟩
    | _ => exact h.elim
  · cases h
    exact ⟨id, id, id⟩
  · cases h
    exact ⟨id, id, id⟩

end Call

/-- A run was opened and not ended since. -/
def RunOpen (calls : List Call) : Prop :=
  ∃ before opening after, calls = before ++ opening :: after ∧ opening.OpensRun ∧ ∀ call ∈ after, ¬call.EndsRun

/-- Each call goes by a rule about the calls before it. -/
def Throughout (rule : List Call → Call → Prop) (calls : List Call) : Prop :=
  ∀ before call after, calls = before ++ call :: after → rule before call

/-- Every call about a run is made while a run is open. -/
def Orderly : List Call → Prop := Throughout fun before call => call.NeedsRun → RunOpen before

/-- No run is prepared while a run is open. -/
def Paired : List Call → Prop := Throughout fun before call => call.PreparesRun → ¬RunOpen before

/-- No region is kept back right after a run was opened. -/
def Kept : List Call → Prop := Throughout fun before call => call.KeepsRegion → ∀ last ∈ before.getLast?, ¬last.OpensRun

/-! ## One more call -/

/-- A list that ends with one more element is cut in two at that element or before it. -/
theorem concat_eq_append_cons {α : Type} {xs before after : List α} {x y : α} :
    xs ++ [x] = before ++ y :: after ↔
      (after = [] ∧ xs = before ∧ x = y) ∨ ∃ rest, after = rest ++ [x] ∧ xs = before ++ y :: rest := by
  constructor
  · intro h
    rcases List.eq_nil_or_concat after with rfl | ⟨rest, z, rfl⟩
    · obtain ⟨rfl, hx⟩ := List.append_inj' h rfl
      exact .inl ⟨rfl, rfl, List.head_eq_of_cons_eq hx⟩
    · have hcons : before ++ y :: (rest ++ [z]) = (before ++ y :: rest) ++ [z] := by simp
      rw [List.concat_eq_append, hcons] at h
      obtain ⟨rfl, hx⟩ := List.append_inj' h rfl
      obtain rfl := List.head_eq_of_cons_eq hx
      exact .inr ⟨rest, List.concat_eq_append, rfl⟩
  · rintro (⟨rfl, rfl, rfl⟩ | ⟨rest, rfl, rfl⟩)
    · rfl
    · simp

theorem not_runOpen_nil : ¬RunOpen [] := by
  rintro ⟨before, opening, after, h, -, -⟩
  simp at h

/-- A run is open after a call that opens one, and stays open at any call but one that ends it. -/
theorem runOpen_concat {calls : List Call} {call : Call} :
    RunOpen (calls ++ [call]) ↔ call.OpensRun ∨ RunOpen calls ∧ ¬call.EndsRun := by
  constructor
  · rintro ⟨before, opening, after, h, hopen, hends⟩
    obtain ⟨rfl, rfl, rfl⟩ | ⟨rest, rfl, rfl⟩ := concat_eq_append_cons.mp h
    · exact .inl hopen
    · refine .inr ⟨⟨before, opening, rest, rfl, hopen, fun c hc => hends c (by simp [hc])⟩, hends call (by simp)⟩
  · rintro (hopen | ⟨⟨before, opening, after, rfl, hopen, hends⟩, hcall⟩)
    · exact ⟨calls, call, [], rfl, hopen, by simp⟩
    · refine ⟨before, opening, after ++ [call], by simp, hopen, ?_⟩
      intro c hc
      rcases List.mem_append.mp hc with hc | hc
      · exact hends c hc
      · exact List.mem_singleton.mp hc ▸ hcall

/-- A run that is open after a call that ends one was opened since. -/
theorem exists_opensRun_of_runOpen {before between : List Call} {ending : Call} (hends : ending.EndsRun)
    (h : RunOpen (before ++ ending :: between)) : ∃ call ∈ between, call.OpensRun := by
  induction between using List.reverseRecOn with
  | nil =>
    obtain hopens | ⟨-, hnot⟩ := runOpen_concat.mp h
    · exact absurd hopens (Call.not_of_needsRun (.inr (.inr hends))).1
    · exact absurd hends hnot
  | append_singleton between call ih =>
    rw [← List.cons_append, ← List.append_assoc] at h
    obtain hopens | ⟨hopen, -⟩ := runOpen_concat.mp h
    · exact ⟨call, by simp, hopens⟩
    · obtain ⟨opening, hmem, hopens⟩ := ih hopen
      exact ⟨opening, List.mem_append_left _ hmem, hopens⟩

section Throughout

variable {rule : List Call → Call → Prop}

theorem throughout_nil : Throughout rule [] := by
  intro before call after h
  simp at h

/-- Calls that go by a rule went by it at first. -/
theorem Throughout.of_append {calls new : List Call} (h : Throughout rule (calls ++ new)) : Throughout rule calls := by
  intro before call after hx
  exact h before call (after ++ new) (by simp [hx])

/-- Calls go by a rule if all but the last do and the last one does after them. -/
theorem throughout_concat {calls : List Call} {call : Call} :
    Throughout rule (calls ++ [call]) ↔ Throughout rule calls ∧ rule calls call := by
  constructor
  · exact fun h => ⟨h.of_append, h calls call [] rfl⟩
  · rintro ⟨h, hcall⟩ before x after hx
    obtain ⟨rfl, rfl, rfl⟩ | ⟨rest, rfl, rfl⟩ := concat_eq_append_cons.mp hx
    · exact hcall
    · exact h before x rest rfl

/-- Calls that a rule does not speak about go by it. -/
theorem throughout_append {calls new : List Call} (h : ∀ call ∈ new, ∀ before, rule before call) :
    Throughout rule (calls ++ new) ↔ Throughout rule calls := by
  induction new using List.reverseRecOn with
  | nil => rw [List.append_nil]
  | append_singleton new call ih =>
    have ih := ih (fun c hc => h c (List.mem_append_left _ hc))
    rw [← List.append_assoc, throughout_concat, ih]
    exact and_iff_left (h call (by simp) _)

end Throughout

/-! ## Calls that concern no run -/

/-- Calls that open no run and are about none, and that do not begin with a region kept back. -/
structure Neutral (new : List Call) : Prop where
  opens : ∀ call ∈ new, ¬call.OpensRun
  needs : ∀ call ∈ new, ¬call.NeedsRun
  head : ∀ first ∈ new.head?, ¬first.KeepsRegion

namespace Neutral

variable {calls new : List Call}

/-- Calls before the last one concern no run either. -/
theorem of_concat (h : Neutral (new ++ [call])) : Neutral new where
  opens c hc := h.opens c (List.mem_append_left _ hc)
  needs c hc := h.needs c (List.mem_append_left _ hc)
  head c hc := h.head c (by
    cases new with
    | nil => cases hc
    | cons first rest => exact hc)

/-- Calls that concern no run open none and end none. -/
theorem runOpen_append (h : Neutral new) : RunOpen (calls ++ new) ↔ RunOpen calls := by
  induction new using List.reverseRecOn with
  | nil => rw [List.append_nil]
  | append_singleton new call ih =>
    have hopens := h.opens call (by simp)
    have hends : ¬call.EndsRun := fun hends => h.needs call (by simp) (.inr (.inr hends))
    rw [← List.append_assoc, runOpen_concat, ih h.of_concat]
    simp only [hopens, hends, false_or, not_false_eq_true, and_true]

/-- Calls that concern no run leave the order of the calls as good as it was. -/
theorem orderly_append (h : Neutral new) : Orderly (calls ++ new) ↔ Orderly calls :=
  throughout_append fun call hcall _ hneeds => absurd hneeds (h.needs call hcall)

/-- Calls that concern no run may prepare one in vain, where none is open. -/
theorem paired_append (h : Neutral new) (hclosed : ∀ call ∈ new, call.PreparesRun → ¬RunOpen calls) :
    Paired (calls ++ new) ↔ Paired calls := by
  induction new using List.reverseRecOn with
  | nil => rw [List.append_nil]
  | append_singleton new call ih =>
    have ih := ih h.of_concat (fun c hc => hclosed c (List.mem_append_left _ hc))
    rw [← List.append_assoc, Paired, throughout_concat]
    refine ⟨fun hall => ih.mp hall.1, fun hall => ⟨ih.mpr hall, fun hprepares => ?_⟩⟩
    rw [h.of_concat.runOpen_append]
    exact hclosed call (by simp) hprepares

/-- Calls that concern no run keep no region back right after one was opened. -/
theorem kept_append (h : Neutral new) : Kept (calls ++ new) ↔ Kept calls := by
  induction new using List.reverseRecOn with
  | nil => rw [List.append_nil]
  | append_singleton new call ih =>
    rw [← List.append_assoc, Kept, throughout_concat]
    refine ⟨fun hall => (ih h.of_concat).mp hall.1, fun hall => ⟨(ih h.of_concat).mpr hall, fun hkeeps last hlast => ?_⟩⟩
    rcases List.eq_nil_or_concat new with rfl | ⟨rest, c, rfl⟩
    · exact absurd hkeeps (h.head call (by simp))
    · rw [List.concat_eq_append, ← List.append_assoc, List.getLast?_concat] at hlast
      obtain rfl := Option.mem_some.mp hlast
      exact h.opens c (by simp)

end Neutral

end Playground
