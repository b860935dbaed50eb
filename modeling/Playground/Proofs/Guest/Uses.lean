import Playground.Guest.Echo
import Playground.Guest.Scripted
import Playground.Proofs.Console.Writing
import Playground.Proofs.Guest.Fixed

/-!
# What guests do to the console

The guests of this library do nothing to the console but read, print and let time pass. A guest with fixed answers does nothing to
it at all, a scripted one does what its actions say, and an echo interpreter reads and prints in its steps.
-/

namespace Playground

instance Fixed.usesConsole : UsesConsole Fixed where
  uses _ _ := []
  bridge_call _ _ := rfl

/-! ## Scripted guests -/

namespace Scripted

/-- What an action does to the console: an echo prints what it read, if it read anything. -/
def actUses (name : String) (m : Machine Scripted) : Action → List ConsoleUse
  | .read ptr room => m.usesRead ptr room
  | .echo ptr room =>
    m.usesRead ptr room ++
      match readAction name m ptr room with
      | (.error _, _) => []
      | (.ok n, m) => if n = 0 then [] else m.usesWrite ptr n
  | .write ptr len => m.usesWrite ptr len
  | .print bytes => [.write bytes]
  | .advance d => [.wait d]
  | .poke _ _ | .millis | .resize _ => []

/-- What actions do to the console, up to the first that fails. -/
def actAllUses (name : String) (m : Machine Scripted) : List Action → List ConsoleUse
  | [] => []
  | a :: rest =>
    actUses name m a ++
      match act name m a with
      | (.error _, _) => []
      | (.ok (), m) => actAllUses name m rest

/-- What the next entry of a role does to the console. -/
def enactUses (m : Machine Scripted) (role : Role) : List ConsoleUse :=
  let (entry, script) := m.inner.script.next role
  let m := { m with inner := { m.inner with script } }
  let plain : Entry := { actions := if role = .step then m.inner.eachStep else [] }
  actAllUses role.usualName m (entry.getD plain).actions

/-- What a call does to the console: nothing, where a call that compiles finds no source. -/
def callUses : Export → Machine Scripted → List ConsoleUse
  | .setUp, m => enactUses m .setUp
  | .allocate _, m => enactUses m .allocate
  | .release _ _, m => enactUses m .release
  | .validate ptr len, m => compileUses m .validate ptr len
  | .initRun ptr len, m => compileUses m .initRun ptr len
  | .deinitRun, m => enactUses m .deinitRun
  | .isFinished, m => enactUses m .isFinished
  | .step _, m =>
    enactUses { m with inner := { m.inner with stepsDone := m.inner.stepsDone + 1, stepCalls := m.inner.stepCalls + 1 } } .step
where
  compileUses (m : Machine Scripted) (role : Role) (ptr len : UInt32) : List ConsoleUse :=
    match m.memory.copyOut ptr len with
    | .error _ => []
    | .ok _ => enactUses m role

variable (m : Machine Scripted)

/-- An action that reads does one read to the console. -/
theorem bridge_readAction (name : String) (ptr room : UInt32) :
    (readAction name m ptr room).2.bridge = m.bridge.useAll (m.usesRead ptr room) := by
  have hread := m.bridge_readConsole ptr room
  unfold readAction
  generalize m.readConsole ptr room = done at hread ⊢
  obtain ⟨_ | n, m'⟩ := done <;> exact hread

/-- An action that writes does one write to the console. -/
theorem bridge_writeAction (name : String) (ptr len : UInt32) :
    (writeAction name m ptr len).2.bridge = m.bridge.useAll (m.usesWrite ptr len) := by
  have hwrite := m.bridge_writeConsole ptr len
  unfold writeAction
  generalize m.writeConsole ptr len = done at hwrite ⊢
  obtain ⟨_ | _, m'⟩ := done <;> exact hwrite

/-- An action does to the console what it uses it for. -/
theorem bridge_act (name : String) (a : Action) :
    (act name m a).2.bridge = m.bridge.useAll (actUses name m a) := by
  cases a with
  | read ptr room =>
    have hread := bridge_readAction m name ptr room
    dsimp only [act, actUses]
    generalize readAction name m ptr room = done at hread ⊢
    obtain ⟨_ | n, m'⟩ := done <;> exact hread
  | echo ptr room =>
    have hread := bridge_readAction m name ptr room
    dsimp only [act, actUses]
    rw [Bridge.useAll_append, ← hread]
    generalize readAction name m ptr room = done
    obtain ⟨_ | n, m'⟩ := done
    · rfl
    · dsimp only
      split
      · rfl
      · exact bridge_writeAction m' name ptr n
  | write ptr len => exact bridge_writeAction m name ptr len
  | print bytes =>
    change _ = (m.bridge.consoleWrite bytes).2
    dsimp only [act]
    rcases m.bridge.consoleWrite bytes with ⟨_ | _, bridge⟩ <;> rfl
  | poke ptr bytes =>
    dsimp only [act]
    rcases m.memory.copyIn ptr bytes with _ | memory <;> rfl
  | millis => rfl
  | advance d => rfl
  | resize size => rfl

/-- So do actions in a row. -/
theorem bridge_actAll (name : String) (actions : List Action) :
    (actAll name m actions).2.bridge = m.bridge.useAll (actAllUses name m actions) := by
  induction actions generalizing m with
  | nil => rfl
  | cons a rest ih =>
    have hact := bridge_act m name a
    unfold actAll actAllUses
    rw [Bridge.useAll_append, ← hact]
    rcases act name m a with ⟨_ | _, m'⟩
    · rfl
    · exact ih m'

/-- So does the entry of a role. -/
theorem bridge_enact (role : Role) : (enact m role).2.bridge = m.bridge.useAll (enactUses m role) := by
  unfold enact enactUses
  rcases m.inner.script.next role with ⟨entry, script⟩
  let plain : Entry := { actions := if role = .step then m.inner.eachStep else [] }
  have hacts := bridge_actAll { m with inner := { m.inner with script } } role.usualName (entry.getD plain).actions
  dsimp only at hacts ⊢
  rw [← hacts]
  rcases actAll _ _ _ with ⟨_ | _, m'⟩ <;> rfl

/-- What a call does once its entry is used up leaves the console alone. -/
theorem bridge_quietCall (role : Role) (line : String) {after : Machine Scripted → Machine Scripted}
    (hafter : ∀ m, (after m).bridge = m.bridge) :
    (quietCall m role line after).2.bridge = m.bridge.useAll (enactUses m role) := by
  have hentry := bridge_enact m role
  unfold quietCall
  generalize enact m role = done at hentry ⊢
  obtain ⟨_ | _, m'⟩ := done
  · exact hentry
  · exact (hafter m').trans hentry

/-- A call that compiles uses the console as its entry does, if what comes afterwards is nothing to the console. -/
theorem bridge_compileCall (role : Role) (word : String) (ptr len : UInt32)
    {after : Int32 → Machine Scripted → Machine Scripted} (hafter : ∀ status m, (after status m).bridge = m.bridge) :
    (compileCall m role word ptr len after).2.bridge = m.bridge.useAll (callUses.compileUses m role ptr len) := by
  have hentry := bridge_enact m role
  unfold compileCall callUses.compileUses
  rcases m.memory.copyOut ptr len with e | source
  · rfl
  · dsimp only
    generalize enact m role = done at hentry ⊢
    obtain ⟨_ | value, m'⟩ := done
    · exact hentry
    · exact (hafter _ m').trans hentry

/-- A call that allocates uses the console as its entry does. -/
theorem bridge_allocateCall (size : UInt32) :
    (allocateCall m size).2.bridge = m.bridge.useAll (enactUses m .allocate) := by
  have hentry := bridge_enact m .allocate
  unfold allocateCall
  generalize enact m .allocate = done at hentry ⊢
  obtain ⟨_ | _ | value, m'⟩ := done
  · exact hentry
  · dsimp only [bump]
    split <;> exact hentry
  · exact hentry

/-- So does the question whether the program is complete. -/
theorem bridge_finishedCall : (finishedCall m).2.bridge = m.bridge.useAll (enactUses m .isFinished) := by
  have hentry := bridge_enact m .isFinished
  unfold finishedCall
  generalize enact m .isFinished = done at hentry ⊢
  obtain ⟨_ | value, m'⟩ := done <;> exact hentry

/-- So does a step. -/
theorem bridge_stepCall (budget : UInt32) :
    (stepCall m budget).2.bridge = m.bridge.useAll (callUses (.step budget) m) := by
  have hentry := bridge_enact
    { m with inner := { m.inner with stepsDone := m.inner.stepsDone + 1, stepCalls := m.inner.stepCalls + 1 } } .step
  unfold stepCall callUses
  dsimp only
  generalize enact _ .step = done at hentry ⊢
  obtain ⟨_ | value, m'⟩ := done <;> exact hentry

/-- Taking a source is nothing to the console. -/
theorem bridge_prepare (status : Int32) : (prepare status m).bridge = m.bridge := by
  unfold prepare
  split <;> rfl

end Scripted

instance Scripted.usesConsole : UsesConsole Scripted where
  uses := Scripted.callUses
  bridge_call e m := by
    cases e with
    | setUp => exact Scripted.bridge_quietCall m .setUp _ fun _ => rfl
    | allocate size => exact Scripted.bridge_allocateCall m size
    | release ptr size => exact Scripted.bridge_quietCall m .release _ fun _ => rfl
    | validate ptr len => exact Scripted.bridge_compileCall m .validate _ ptr len fun _ _ => rfl
    | initRun ptr len => exact Scripted.bridge_compileCall m .initRun _ ptr len fun status m => Scripted.bridge_prepare m status
    | deinitRun => exact Scripted.bridge_quietCall m .deinitRun _ fun _ => rfl
    | isFinished => exact Scripted.bridge_finishedCall m
    | step budget => exact Scripted.bridge_stepCall m budget

/-! ## Echo interpreters -/

namespace Echo

/-- A machine in a step, once the step is counted and time and budget are kept. -/
def inStep (m : Machine Echo) (budget : UInt32) : Machine Echo :=
  let m := { m with inner := { m.inner with steps := m.inner.steps + 1 } }
  { m with memory := (m.memory.setWord 8 m.millis).setWord 12 budget }

/-- What the print at the end of a step does to the console: a panic's words or a step's. -/
def reportUses (m : Machine Echo) : List ConsoleUse :=
  if m.inner.steps = m.inner.panicAt + 1 then m.usesWrite panicAddress (UInt32.ofNat panicText.length)
  else m.usesWrite stepAddress (UInt32.ofNat stepText.length)

/-- What the echo of a step does to the console: it prints what it read, if it read anything. -/
def echoUses (m : Machine Echo) : List ConsoleUse :=
  m.usesRead inputAddress 64 ++
    match m.readConsole inputAddress 64 with
    | (.error _, _) => []
    | (.ok n, m) => if n = 0 then [] else m.usesWrite inputAddress n

/-- What an ordinary step does to the console. -/
def stepOnceUses (m : Machine Echo) (budget : UInt32) : List ConsoleUse :=
  echoUses (inStep m budget) ++
    match echo (inStep m budget) with
    | (none, _) => []
    | (some _, m) => reportUses m

/-- What a step does to the console, as the build makes it. -/
def stepUses (m : Machine Echo) (budget : UInt32) : List ConsoleUse :=
  match m.inner.defect with
  | some (.status _) => []
  | some .badWrite => m.usesWrite 65530 7
  | some .badRead =>
    m.usesRead 0xFFFFFFFF 1 ++
      match m.readConsole 0xFFFFFFFF 1 with
      | (.ok _, m) => stepOnceUses m budget
      | (.error _, _) => []
  | _ => stepOnceUses m budget

/-- What a function does to the console: only a step does anything to it. -/
def runUses (m : Machine Echo) (f : Function) (a : UInt32) : List ConsoleUse :=
  if m.inner.isBroken f ∧ f ≠ .malloc then []
  else
    match f with
    | .stepInterpreter => stepUses m a
    | _ => []

/-- What a call does to the console: what the function behind its role does. -/
def callUses (e : Export) (m : Machine Echo) : List ConsoleUse := runUses m (m.inner.functions e.role) (arguments e).1

variable (m : Machine Echo)

/-- Printing does one write to the console. -/
theorem bridge_print (ptr len status : UInt32) :
    (print m ptr len status).2.bridge = m.bridge.useAll (m.usesWrite ptr len) := by
  have hwrite := m.bridge_writeConsole ptr len
  unfold print
  generalize m.writeConsole ptr len = done at hwrite ⊢
  obtain ⟨_ | _, m'⟩ := done <;> exact hwrite

/-- A report does to the console what it uses it for: it prints one text. -/
theorem bridge_report : (report m).2.bridge = m.bridge.useAll (reportUses m) := by
  unfold report reportUses
  split <;> exact bridge_print m _ _ _

/-- So does an echo: it reads once, and prints what it got. -/
theorem bridge_echo : (echo m).2.bridge = m.bridge.useAll (echoUses m) := by
  have hread := m.bridge_readConsole inputAddress 64
  unfold echo echoUses
  rw [Bridge.useAll_append, ← hread]
  rcases m.readConsole inputAddress 64 with ⟨_ | n, m'⟩
  · rfl
  · dsimp only
    split
    · rfl
    · exact bridge_print m' _ _ _

/-- So does the body of a step: it echoes, then reports. -/
theorem bridge_stepOnce (budget : UInt32) :
    (stepOnce m budget).2.bridge = m.bridge.useAll (stepOnceUses m budget) := by
  have hecho := bridge_echo (inStep m budget)
  unfold stepOnce stepOnceUses
  rw [Bridge.useAll_append]
  dsimp only [inStep] at hecho ⊢
  rw [← hecho]
  rcases echo _ with ⟨_ | _, m'⟩
  · rfl
  · exact bridge_report m'

/-- So does a step of every build. -/
theorem bridge_stepInterpreter (budget : UInt32) :
    (stepInterpreter m budget).2.bridge = m.bridge.useAll (stepUses m budget) := by
  unfold stepInterpreter stepUses
  rcases m.inner.defect with _ | (f | _ | _ | status)
  all_goals dsimp only
  · exact bridge_stepOnce m budget
  · exact bridge_stepOnce m budget
  · exact bridge_print m _ _ _
  · -- Memory may reach as far as that, and then it is a read like any other.
    have hread := m.bridge_readConsole 0xFFFFFFFF 1
    rw [Bridge.useAll_append, ← hread]
    rcases m.readConsole 0xFFFFFFFF 1 with ⟨_ | n, m'⟩
    · rfl
    · dsimp only
      exact bridge_stepOnce m' budget
  · rfl

/-- So does every function. -/
theorem bridge_run (f : Function) (a b : UInt32) : (run m f a b).2.bridge = m.bridge.useAll (runUses m f a) := by
  unfold run runUses
  split
  · rfl
  · cases f with
    | malloc =>
      dsimp only [malloc]
      split
      · rfl
      · split <;> rfl
    | initInterpreter =>
      dsimp only [initInterpreter]
      split
      · rfl
      · split <;> rfl
      · rfl
    | stepInterpreter => exact bridge_stepInterpreter m a
    | setUp | free | validate | deinitInterpreter | isInterpreterDone => rfl

end Echo

instance Echo.usesConsole : UsesConsole Echo where
  uses := Echo.callUses
  bridge_call e m := by
    have hrun := Echo.bridge_run m (m.inner.functions e.role) (Echo.arguments e).1 (Echo.arguments e).2
    change (Echo.call e m).2.bridge = m.bridge.useAll (Echo.callUses e m)
    unfold Echo.call Echo.callUses
    dsimp only
    generalize Echo.run m (m.inner.functions e.role) (Echo.arguments e).1 (Echo.arguments e).2 = done at hrun ⊢
    obtain ⟨_ | result, m'⟩ := done <;> exact hrun

end Playground
