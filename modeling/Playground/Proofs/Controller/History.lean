import Playground.Scheduler

/-!
# Histories of a controller

An `Operation` is what a host can do with a controller from outside: its public operations, a tick of some loop, and access to
the console bridge. `after` is the controller once a list of them has been done. A tick brings its scheduler along, whatever
scheduler that is, so a history may mix the ticks of any number of loops, armed at any time.
-/

namespace Playground

/-- What a host can do with a controller. -/
inductive Operation where
  | validate (source : String)
  | start (source : String)
  | stop
  | isFinished
  | checkFinished
  | step (budget : UInt32)
  | pushInput (bytes : List UInt8)
  /-- A tick of a loop that stands as given. -/
  | tick (loop : Scheduler)
  /-- Something done to the bridge directly: time passes, say, or the host prints. -/
  | onBridge (act : Bridge → Bridge)

namespace Controller

variable {γ : Type}

/-- A controller is created exactly when the guest sets itself up, and it then starts out afresh. -/
theorem create_eq_ok_iff [Guest γ] {m : Machine γ} {clear : Bool} {c : Controller γ} :
    create m clear = .ok c ↔ ∃ m', Guest.call .setUp m = (.ok (), m') ∧ c = { machine := m', clearOnStart := clear } := by
  unfold create
  rcases Guest.call .setUp m with ⟨_ | _, m'⟩
  · exact ⟨nofun, fun ⟨_, h, _⟩ => nomatch h⟩
  · constructor
    · intro h
      exact ⟨m', rfl, (Except.ok.inj h).symm⟩
    · rintro ⟨_, h, rfl⟩
      cases h
      rfl

/-- The controller with its bridge acted on. -/
def onBridge (c : Controller γ) (act : Bridge → Bridge) : Controller γ :=
  { c with machine := { c.machine with bridge := act c.machine.bridge } }

/-- The controller that an operation leaves. -/
def perform [Guest γ] (c : Controller γ) : Operation → Controller γ
  | .validate source => (c.validate source).2
  | .start source => (c.start source).2
  | .stop => c.stop
  | .isFinished => c.isFinished.2
  | .checkFinished => c.checkFinished.2
  | .step budget => (c.step budget).2
  | .pushInput bytes => (c.pushInput bytes).2
  | .tick loop => (loop.tick c).2.2
  | .onBridge act => c.onBridge act

/-- The controller that a list of operations leaves, done in order. -/
def after [Guest γ] (c : Controller γ) (ops : List Operation) : Controller γ := ops.foldl perform c

@[simp] theorem after_nil [Guest γ] (c : Controller γ) : c.after [] = c := rfl

@[simp] theorem after_cons [Guest γ] (c : Controller γ) (op : Operation) (ops : List Operation) :
    c.after (op :: ops) = (c.perform op).after ops := rfl

theorem after_append [Guest γ] (c : Controller γ) (ops ops' : List Operation) :
    c.after (ops ++ ops') = (c.after ops).after ops' :=
  List.foldl_append

theorem after_concat [Guest γ] (c : Controller γ) (ops : List Operation) (op : Operation) :
    c.after (ops ++ [op]) = (c.after ops).perform op := by
  rw [after_append, after_cons, after_nil]

/-- What every operation keeps, every history keeps. -/
theorem after_induction [Guest γ] {P : Controller γ → Prop} (step : ∀ c op, P c → P (c.perform op)) {c : Controller γ}
    (h : P c) (ops : List Operation) : P (c.after ops) := by
  induction ops generalizing c with
  | nil => exact h
  | cons op ops ih => exact ih (step c op h)

end Controller

end Playground
