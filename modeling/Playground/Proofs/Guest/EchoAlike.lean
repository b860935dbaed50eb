import Playground.Proofs.Console.Alike
import Playground.Proofs.Guest.EchoHeap

/-!
# Echo interpreters that go on alike

What a step does depends on the run, the console and the words that are printed. It does not depend on the rest of memory, nor on
how much of the heap is taken: whole interpreters that know the same about their runs, over consoles that go on alike, go on alike
(`lockstep`), and their steps keep the same times and budgets (`lockstep_watched`).
-/

namespace Playground

/-- A step does the same to consoles that go on alike. -/
theorem Bridge.Lockstep.spoken {B : Nat → Bridge → Bridge → Prop} (hB : Bridge.Lockstep B) {n : Nat} {b b' : Bridge}
    (h : B n b b') (words : List UInt8) :
    (Echo.spoken b words).1 = (Echo.spoken b' words).1 ∧ B n (Echo.spoken b words).2 (Echo.spoken b' words).2 := by
  have hechoed : (Echo.echoed b).1 = (Echo.echoed b').1 ∧ B n (Echo.echoed b).2 (Echo.echoed b').2 := by
    obtain ⟨htyped, hread⟩ := hB.read 64 h
    unfold Echo.echoed
    rw [← htyped]
    by_cases hnone : (b.consoleRead 64).1 = []
    · rw [if_pos hnone, if_pos hnone]
      exact ⟨rfl, hread⟩
    · rw [if_neg hnone, if_neg hnone]
      exact hB.write _ hread
  obtain ⟨hresult, hafter⟩ := hechoed
  unfold Echo.spoken
  generalize Echo.echoed b = first at hresult hafter ⊢
  generalize Echo.echoed b' = first' at hresult hafter ⊢
  obtain ⟨result, b⟩ := first
  obtain ⟨_, b'⟩ := first'
  cases hresult
  rcases result with e | _
  · exact ⟨rfl, hafter⟩
  · exact hB.write words hafter

namespace Echo

/-- Whole interpreters that know the same about their runs, over related consoles. -/
structure Alike (B : Bridge → Bridge → Prop) (m m' : Machine Echo) : Prop where
  whole : Whole m
  whole' : Whole m'
  progress : m.inner.progress = m'.inner.progress
  bridge : B m.bridge m'.bridge

variable {B : Nat → Bridge → Bridge → Prop} {n : Nat} {m m' : Machine Echo}

/-- What a call about the run returns and leaves of the interpreter's state depends on what the interpreter knows about the run. -/
theorem Alike.call (hB : Bridge.Lockstep B) (h : Alike (B n) m m') {e : Export} (he : e.AboutRun) :
    (Guest.call e m).1 = (Guest.call e m').1 ∧ Alike (B n) (Guest.call e m).2 (Guest.call e m').2 := by
  have hleft := h.whole.call he
  have hright := h.whole'.call he
  have hprogress := h.progress
  simp only [Echo.progress, Progress.mk.injEq] at hprogress
  obtain ⟨hactive, hsteps, hlimit, hpanicAt⟩ := hprogress
  cases e with
  | deinitRun =>
    rw [call_deinitRun h.whole.toBuilt, call_deinitRun h.whole'.toBuilt] at *
    refine ⟨rfl, hleft, hright, ?_, h.bridge⟩
    simp only [Echo.progress, hsteps, hlimit, hpanicAt]
  | isFinished =>
    rw [call_isFinished h.whole.toBuilt, call_isFinished h.whole'.toBuilt, hactive, hlimit, hsteps]
    exact ⟨rfl, h⟩
  | step budget =>
    have hpanics : panics m.inner = panics m'.inner := by rw [panics, panics, hsteps, hpanicAt]
    have hwords : words m.memory (panics m.inner) = words m'.memory (panics m'.inner) := by
      rw [h.whole.worded.words_eq, h.whole'.worded.words_eq, hpanics]
    obtain ⟨hprinted, hbridge⟩ := hB.spoken h.bridge (words m.memory (panics m.inner))
    rw [call_step_eq h.whole.toBuilt] at hleft ⊢
    rw [call_step_eq h.whole'.toBuilt, ← hwords] at hright ⊢
    refine ⟨?_, hleft, hright, ?_, hbridge⟩
    · unfold stepReply
      dsimp only
      rw [hprinted, hpanics, h.whole.names, h.whole'.names]
    · simp only [Echo.progress, hactive, hsteps, hlimit, hpanicAt]
  | _ => exact absurd he id

/-- Interpreters that are alike go on alike. -/
theorem lockstep (hB : Bridge.Lockstep B) : Lockstep fun n => Alike (B n) where
  call _ _ _ _ he h := h.call hB he
  typed bytes h := ⟨h.whole.with_bridge _, h.whole'.with_bridge _, h.progress, hB.typed bytes h.bridge⟩
  passed d h := ⟨h.whole.with_bridge _, h.whole'.with_bridge _, h.progress, hB.passed d h.bridge⟩
  visible h := hB.visible h.bridge

/-! ## Times and budgets -/

/-- The words that a step leaves in memory: the time, and its budget. -/
structure StepWords where
  millis : UInt32
  budget : UInt32
  deriving DecidableEq, Repr

/-- Of a step, the words are noted that it leaves in memory. -/
instance watchSteps : Watch Echo StepWords :=
  ⟨fun e _ _ after => match e with
    | .step _ => [⟨after.memory.word 8, after.memory.word 12⟩]
    | _ => []⟩

/-- Interpreters that are alike go on alike, and their steps leave the same words. -/
theorem lockstep_watched (hB : Bridge.Lockstep B) :
    Lockstep fun n (m m' : Machine (Watched Echo StepWords)) =>
      Alike (B n) m.unwatched m'.unwatched ∧ m.notes = m'.notes := by
  refine (lockstep hB).watched ?_
  intro n m m' e he h
  cases e with
  | step budget =>
    obtain ⟨htime, hbudget, -⟩ := word_steppedMemory h.whole.toBuilt budget
    obtain ⟨htime', hbudget', -⟩ := word_steppedMemory h.whole'.toBuilt budget
    have hmillis : m.millis = m'.millis := congrArg Visible.elapsed (hB.visible h.bridge)
    rw [call_step_eq h.whole.toBuilt, call_step_eq h.whole'.toBuilt]
    simp only [Watch.observe, htime, hbudget, htime', hbudget', hmillis]
  | _ => rfl

end Echo

end Playground
