import Playground.Proofs.Console.Time
import Playground.Proofs.Controller.Frame
import Playground.Proofs.Controller.Reach
import Playground.Proofs.Guest.Uses
import Playground.Proofs.Scheduler.Binding

/-!
# Time within a run

The anchor of guest time is moved by a start that gets past the end of the old run, and by nothing else; the clock is moved where
time passes, in between operations or during a guest call. So what a guest is told, at any moment of any call, is the time that has
passed since its run began.
-/

namespace Playground

variable {γ : Type} [Guest γ]

/-! ## The moments of a watched guest -/

/-- Of a call, the moments of its uses are noted. -/
instance UsesConsole.watchTime [UsesConsole γ] : Watch γ Moment :=
  ⟨fun e before _ _ => before.bridge.moments (UsesConsole.uses e before)⟩

/-- One machine comes from another, what happened to guest time are the moments that were noted, and it did not begin anew. -/
def Machine.Elapses {γ : Type} (m m' : Machine (Watched γ Moment)) : Prop :=
  ∃ new, m'.notes = m.notes ++ new ∧ .begun ∉ new ∧ Moment.Elapse m.bridge.timer new m'.bridge.timer

namespace Machine

omit [Guest γ] in
theorem Elapses.of_same {m m' : Machine (Watched γ Moment)} (hnotes : m'.notes = m.notes)
    (htimer : m'.bridge.timer = m.bridge.timer) : m.Elapses m' :=
  ⟨[], by rw [hnotes, List.append_nil], List.not_mem_nil, htimer ▸ .nil _⟩

omit [Guest γ] in
theorem Elapses.trans {m m' m'' : Machine (Watched γ Moment)} (h : m.Elapses m') (h' : m'.Elapses m'') : m.Elapses m'' := by
  obtain ⟨new, hnotes, hbegun, helapse⟩ := h
  obtain ⟨new', hnotes', hbegun', helapse'⟩ := h'
  refine ⟨new ++ new', by rw [hnotes', hnotes, List.append_assoc], ?_, helapse.append helapse'⟩
  rw [List.mem_append]
  exact not_or.mpr ⟨hbegun, hbegun'⟩

variable [UsesConsole γ]

/-- All that a controller does to a machine by moves is to let time pass in guest calls. -/
theorem Reaches.elapses {m m' : Machine (Watched γ Moment)} (h : m.Reaches m') : m.Elapses m' := by
  refine h.rel (fun m => .of_same rfl rfl) Elapses.trans fun {m m'} hmove => ?_
  cases hmove with
  | call e =>
    refine ⟨_, notes_call e m, m.bridge.begun_not_mem_moments _, ?_⟩
    have hbridge : (Guest.call e m).2.bridge = m.bridge.useAll (UsesConsole.uses e m.unwatched) :=
      UsesConsole.bridge_call e m.unwatched
    rw [hbridge]
    exact m.bridge.elapse_moments _
  | memory memory => exact .of_same rfl rfl
  | clear => exact .of_same rfl rfl

/-- No move gets at the anchor. -/
theorem Reaches.anchor_eq {m m' : Machine γ} (h : m.Reaches m') : m'.bridge.anchor = m.bridge.anchor := by
  refine h.rel (R := fun m m' => m'.bridge.anchor = m.bridge.anchor) (fun _ => rfl) (fun h h' => h'.trans h) fun {m m'} hmove => ?_
  cases hmove with
  | call e => rw [UsesConsole.bridge_call e m, Bridge.anchor_useAll]
  | memory memory => rfl
  | clear => rfl

end Machine

/-! ## Operations that begin a run, and others -/

/-- The operation does nothing to guest time behind the controller's back. -/
def Operation.KeepsTime : Operation → Prop
  | .onBridge act => ∀ bridge, (act bridge).timer = bridge.timer
  | _ => True

/-- The operation is a start that gets past the end of the old run. -/
def Operation.Begins (c : Controller γ) (op : Operation) : Prop := (∃ source, op = .start source) ∧ c.teardown.1 = .ok ()

namespace Controller

/-- What moves of the machine keep, and what does not depend on more of the bridge than guest time, an operation keeps that does not
begin a run. -/
theorem perform_rel {R : Machine γ → Machine γ → Prop} (hmoves : ∀ {m m'}, m.Reaches m' → R m m')
    (hbridge : ∀ (m : Machine γ) bridge, bridge.timer = m.bridge.timer → R m { m with bridge }) (c : Controller γ)
    {op : Operation} (hop : op.KeepsTime) (hbegins : ¬op.Begins c) : R c.machine (c.perform op).machine := by
  cases op with
  | start source =>
    have htorn := hmoves c.reaches_teardown.machine
    rcases h : c.teardown with ⟨e | _, torn⟩
    · have hperform : c.perform (.start source) = torn := congrArg Prod.snd (start_of_teardown_error source h)
      rw [h] at htorn
      rw [hperform]
      exact htorn
    · exact absurd ⟨⟨source, rfl⟩, congrArg Prod.fst h⟩ hbegins
  | pushInput bytes =>
    change R c.machine (c.pushInput bytes).2.machine
    unfold pushInput
    split
    · exact hbridge c.machine _ rfl
    · exact hmoves (.refl _)
  | onBridge act => exact hbridge c.machine _ (hop c.machine.bridge)
  | validate source => exact hmoves (c.reaches_validate source).machine
  | stop => exact hmoves c.reaches_stop.machine
  | isFinished => exact hmoves c.reaches_isFinished.machine
  | checkFinished => exact hmoves c.reaches_checkFinished.machine
  | step budget => exact hmoves (c.reaches_step budget).machine
  | tick loop => exact hmoves (loop.reaches_tick c)

section Anchor

variable [UsesConsole γ]

/-- An operation that does not begin a run leaves the anchor where it is. -/
theorem anchor_perform (c : Controller γ) {op : Operation} (hop : op.KeepsTime) (hbegins : ¬op.Begins c) :
    (c.perform op).machine.bridge.anchor = c.machine.bridge.anchor :=
  perform_rel (R := fun m m' => m'.bridge.anchor = m.bridge.anchor) Machine.Reaches.anchor_eq
    (fun _ _ htimer => congrArg Timer.anchor htimer) c hop hbegins

/-- A start that begins a run anchors it at the reading that the clock has once the old run is gone, and the guest is told from zero
on. -/
theorem anchor_start {c torn : Controller γ} (source : String) (h : c.teardown = (.ok (), torn)) :
    (c.start source).2.machine.bridge.anchor = ⟨torn.machine.bridge.clock.now⟩ ∧ torn.beginStart.machine.millis = 0 := by
  refine ⟨(reaches_start source h).machine.anchor_eq, ?_⟩
  rw [← UInt32.toNat_inj]
  refine (TimeAnchor.toNat_elapsedMillis_eq _ _).trans ?_
  have hnow : torn.beginStart.machine.bridge.anchor.start = torn.beginStart.machine.bridge.clock.now := rfl
  rw [hnow, Nat.sub_self]
  rfl

end Anchor

end Controller

/-! ## The moments of a history -/

/-- The host does something with its controller, or time passes in between. -/
inductive Episode where
  | act (op : Operation)
  | wait (d : Duration)

namespace Episode

/-- What is done with the controller; it is the bridge that time passes for. -/
def operation : Episode → Operation
  | .act op => op
  | .wait d => .onBridge (·.advance d)

/-- Time passes only in an episode that says so. -/
def KeepsTime : Episode → Prop
  | .act op => op.KeepsTime
  | .wait _ => True

end Episode

/-- The moments between one controller and a later one. -/
def Controller.momentsTo {γ : Type} (c d : Controller (Watched γ Moment)) : List Moment :=
  d.machine.notes.drop c.machine.notes.length

variable [UsesConsole γ]

/-- What happens to guest time in an episode. In a start time passes while the old run ends; then, if that was got past, the new one
begins, and time passes again. -/
def Episode.moments (c : Controller (Watched γ Moment)) : Episode → List Moment
  | .wait d => [.passed d]
  | .act (.start source) =>
    match c.teardown with
    | (.error _, torn) => c.momentsTo torn
    | (.ok (), torn) => c.momentsTo torn ++ .begun :: torn.momentsTo (c.start source).2
  | .act op => c.momentsTo (c.perform op)

namespace Controller

/-- What happens to guest time in episodes. -/
def moments (c : Controller (Watched γ Moment)) : List Episode → List Moment
  | [] => []
  | episode :: episodes => episode.moments c ++ (c.perform episode.operation).moments episodes

variable {c d : Controller (Watched γ Moment)}

omit [Guest γ] [UsesConsole γ] in
/-- What happened to guest time between two moments is what was noted in between, and no run began. -/
theorem elapse_momentsTo (h : c.machine.Elapses d.machine) :
    Moment.Elapse c.machine.bridge.timer (c.momentsTo d) d.machine.bridge.timer ∧ .begun ∉ c.momentsTo d := by
  obtain ⟨new, hnotes, hbegun, helapse⟩ := h
  have hnew : c.momentsTo d = new := by
    rw [momentsTo, hnotes, List.drop_left]
  rw [hnew]
  exact ⟨helapse, hbegun⟩

/-- All that an operation does that does not begin a run is to let time pass in guest calls. -/
theorem elapses_perform (c : Controller (Watched γ Moment)) {op : Operation} (hop : op.KeepsTime) (hbegins : ¬op.Begins c) :
    c.machine.Elapses (c.perform op).machine :=
  perform_rel Machine.Reaches.elapses (fun _ _ htimer => .of_same rfl htimer) c hop hbegins

/-- An operation that begins no run lets guest time pass as its calls do. -/
theorem moments_of_not_begins (c : Controller (Watched γ Moment)) {op : Operation} (h : ¬op.Begins c) :
    Episode.moments c (.act op) = c.momentsTo (c.perform op) := by
  cases op with
  | start source =>
    unfold Episode.moments
    rcases hteardown : c.teardown with ⟨e | _, torn⟩
    · rw [perform, start_of_teardown_error source hteardown]
    · exact absurd ⟨⟨source, rfl⟩, congrArg Prod.fst hteardown⟩ h
  | _ => rfl

/-- A start that begins a run does so in between, and before and after that time passes. -/
theorem elapse_start {torn : Controller (Watched γ Moment)} (source : String) (h : c.teardown = (.ok (), torn)) :
    Moment.Elapse c.machine.bridge.timer (Episode.moments c (.act (.start source))) (c.start source).2.machine.bridge.timer := by
  have htorn := c.reaches_teardown.machine.elapses
  rw [h] at htorn
  have hmoments : Episode.moments c (.act (.start source)) =
      c.momentsTo torn ++ .begun :: torn.momentsTo (c.start source).2 := by rw [Episode.moments, h]
  rw [hmoments]
  exact (elapse_momentsTo htorn).1.append
    (.begun (elapse_momentsTo (c := torn.beginStart) (reaches_start source h).machine.elapses).1)

/-- What happens to guest time in an episode are the moments of it. -/
theorem elapse_episode (c : Controller (Watched γ Moment)) {episode : Episode} (hkeeps : episode.KeepsTime) :
    Moment.Elapse c.machine.bridge.timer (episode.moments c) (c.perform episode.operation).machine.bridge.timer := by
  cases episode with
  | wait d => exact .passed (.nil _)
  | act op =>
    by_cases hbegins : op.Begins c
    · obtain ⟨⟨source, rfl⟩, hok⟩ := hbegins
      exact elapse_start source (Prod.ext hok rfl)
    · rw [c.moments_of_not_begins hbegins]
      exact (elapse_momentsTo (c.elapses_perform hkeeps hbegins)).1

/-- The moments of a history lead from the clock and the anchor before it to those after it. -/
theorem elapse_after (c : Controller (Watched γ Moment)) {episodes : List Episode} (hkeeps : ∀ e ∈ episodes, e.KeepsTime) :
    Moment.Elapse c.machine.bridge.timer (c.moments episodes)
      (c.after (episodes.map Episode.operation)).machine.bridge.timer := by
  induction episodes generalizing c with
  | nil => exact .nil _
  | cons episode episodes ih =>
    obtain ⟨hfirst, hrest⟩ := List.forall_mem_cons.mp hkeeps
    exact (c.elapse_episode hfirst).append (ih (c.perform episode.operation) hrest)

/-- Guest time begins anew exactly in an episode that begins a run. -/
theorem begun_mem_episode (c : Controller (Watched γ Moment)) {episode : Episode} (hkeeps : episode.KeepsTime) :
    .begun ∈ episode.moments c ↔ episode.operation.Begins c := by
  cases episode with
  | wait d =>
    refine iff_of_false ?_ ?_
    · intro hbegun
      cases List.mem_singleton.mp hbegun
    · rintro ⟨⟨source, hstart⟩, -⟩
      cases hstart
  | act op =>
    by_cases hbegins : op.Begins c
    · refine iff_of_true ?_ hbegins
      obtain ⟨⟨source, rfl⟩, hok⟩ := hbegins
      have hteardown : c.teardown = (.ok (), c.teardown.2) := Prod.ext hok rfl
      rw [Episode.moments, hteardown]
      exact List.mem_append_right _ List.mem_cons_self
    · refine iff_of_false ?_ hbegins
      rw [c.moments_of_not_begins hbegins]
      exact (elapse_momentsTo (c.elapses_perform hkeeps hbegins)).2

/-- Guest time begins anew in a history exactly if one of its starts gets past the end of the old run. -/
theorem begun_mem_moments (c : Controller (Watched γ Moment)) {episodes : List Episode} (hkeeps : ∀ e ∈ episodes, e.KeepsTime) :
    .begun ∈ c.moments episodes ↔ c.Restarted (episodes.map Episode.operation) := by
  induction episodes generalizing c with
  | nil => simp [moments, Restarted]
  | cons episode episodes ih =>
    obtain ⟨hfirst, hrest⟩ := List.forall_mem_cons.mp hkeeps
    rw [moments, List.mem_append, c.begun_mem_episode hfirst, ih _ hrest, List.map_cons, restarted_cons]
    rfl

/-- While a controller is created, time passes in the call that sets the guest up. -/
theorem bridge_create {m : Machine γ} {clear : Bool} {c : Controller γ} (h : create m clear = .ok c) :
    c.machine.bridge = m.bridge.useAll (UsesConsole.uses .setUp m) := by
  obtain ⟨m', hcall, rfl⟩ := create_eq_ok_iff.mp h
  rw [← UsesConsole.bridge_call .setUp m, hcall]

/-- A guest that only reads its input, prints and lets time pass, behind a bridge that may have been used by the host before: the
difference of two readings is taken before the fraction of a millisecond is dropped; there is no negative time, and what does not fit
is told as the greatest number, so that a later reading tells no less. The anchor is moved by a start that gets past the end of the
old run, to the reading of that moment, and by no other operation. So as long as all milliseconds together are fewer than the clock
can count, the guest is told the whole milliseconds since the last such start, or since the bridge was made if there was none, at any
moment of any call and after all of them; and between two such starts it is never told less than before. -/
theorem guest_time_exact {sink : Sink} {clock : Clock} {uses : List ConsoleUse} {m : Machine γ} {clear : Bool} {c : Controller γ}
    (hbridge : m.bridge = (Bridge.create sink clock).useAll uses) (hcreate : create m clear = .ok c) {episodes : List Episode}
    (hkeeps : ∀ episode ∈ episodes, episode.KeepsTime) :
    let ops := episodes.map Episode.operation
    let moments := (Bridge.create sink clock).moments (uses ++ UsesConsole.uses .setUp m) ++ (c.noting Moment).moments episodes
    (∀ seconds nanoseconds seconds' nanoseconds' : ℕ,
      (TimeAnchor.elapsedMillis ⟨.ofParts seconds nanoseconds⟩ (.ofParts seconds' nanoseconds')).toNat =
        min ⌊max ((seconds' * 1000 + nanoseconds' / 1000000) - (seconds * 1000 + nanoseconds / 1000000) : ℚ) 0⌋₊
          TimeAnchor.maxMillis) ∧
      (∀ (anchor : TimeAnchor) (reading reading' : Duration), reading.nanoseconds ≤ reading'.nanoseconds →
        anchor.elapsedMillis reading ≤ anchor.elapsedMillis reading') ∧
      (∀ (d : Controller γ) (op : Operation), op.KeepsTime → ¬op.Begins d →
        (d.perform op).machine.bridge.anchor = d.machine.bridge.anchor) ∧
      (∀ (d torn : Controller γ) (source : String), d.teardown = (.ok (), torn) →
        (d.start source).2.machine.bridge.anchor = ⟨torn.machine.bridge.clock.now⟩ ∧ torn.beginStart.machine.millis = 0) ∧
      (.begun ∈ moments ↔ c.Restarted ops) ∧
      (clock.millis.toNat + Moment.total moments < UInt64.size →
        (c.after ops).machine.millis.toNat = min (Moment.ago moments) TimeAnchor.maxMillis ∧
          (∀ before millis after, moments = before ++ .told millis :: after →
            millis.toNat = min (Moment.ago before) TimeAnchor.maxMillis) ∧
          ∀ before millis between millis' after,
            moments = before ++ .told millis :: between ++ .told millis' :: after → .begun ∉ between → millis ≤ millis') := by
  intro ops moments
  have hmade : c.machine.bridge = (Bridge.create sink clock).useAll (uses ++ UsesConsole.uses .setUp m) := by
    rw [bridge_create hcreate, hbridge, Bridge.useAll_append]
  have hhistory := (c.noting Moment).elapse_after hkeeps
  have hstart : (c.noting Moment).machine.bridge = c.machine.bridge := rfl
  rw [hstart, hmade] at hhistory
  have helapse : Moment.Elapse (Bridge.create sink clock).timer moments _ :=
    ((Bridge.create sink clock).elapse_moments _).append hhistory
  have hanchor : (Bridge.create sink clock).timer.anchor = ⟨(Bridge.create sink clock).timer.clock.now⟩ := rfl
  refine ⟨?_, fun a _ _ => a.elapsedMillis_mono, fun d _ => d.anchor_perform, fun d _ source => anchor_start source, ?_, ?_⟩
  · intro seconds nanoseconds seconds' nanoseconds'
    rw [TimeAnchor.toNat_elapsedMillis, Duration.millis_ofParts, Duration.millis_ofParts]
  · have hrestarted : c.Restarted ops ↔ (c.noting Moment).Restarted ops :=
      restarted_seen Watched.seenThrough [] (c.noting Moment) ops
    rw [hrestarted, ← (c.noting Moment).begun_mem_moments hkeeps, List.mem_append]
    exact or_iff_right (Bridge.begun_not_mem_moments _ _)
  · intro hfits
    refine ⟨?_, ?_, ?_⟩
    · have hsame : (c.after ops).machine.millis = ((c.noting Moment).after ops).machine.bridge.timer.millis := by
        rw [c.after_eq_noting Moment ops]
        rfl
      rw [hsame]
      exact helapse.millis_eq hanchor hfits
    · intro before millis after hmoments
      rw [hmoments] at helapse hfits
      exact helapse.told_eq hanchor hfits
    · intro before millis between millis' after hmoments hbetween
      rw [hmoments] at helapse hfits
      exact helapse.told_mono hanchor hfits hbetween

/-- A scripted guest lets three milliseconds pass in every step. The first run goes on for longer than the guest can be told, and
still does when its end fails; the second one begins at zero. -/
theorem guest_time_exact_scripted :
    ∃ (m : Machine Scripted) (c : Controller Scripted) (episodes : List Episode), m.bridge = .create {} {} ∧ create m = .ok c ∧
      (∀ episode ∈ episodes, episode.KeepsTime) ∧ .told 4294967295 ∈ (c.noting Moment).moments episodes ∧
      (c.after (episodes.map Episode.operation)).machine.millis.toNat = 3 := by
  let failing : Entry := { trap := some "unreachable" }
  let m : Machine Scripted :=
    ⟨Memory.zeroed 16, .create {} {}, { heap := 1, eachStep := [.advance (.ofMillis 3)], script := { deinitRun := [some failing] } }⟩
  let episodes : List Episode :=
    [.wait ⟨1999999⟩, .act (.start ""), .act (.step 5), .wait (.ofMillis 4294967295), .act (.start ""), .act (.start ""), .act (.step 5)]
  have hkeeps : ∀ episode ∈ episodes, episode.KeepsTime := by simp [episodes, Episode.KeepsTime, Operation.KeepsTime]
  obtain ⟨c, hcreate⟩ : ∃ c, create m = .ok c := ⟨_, rfl⟩
  have hc : c = { machine := (Guest.call .setUp m).2 } := (Except.ok.inj hcreate).symm
  have hbridge : m.bridge = (Bridge.create {} {}).useAll [] := rfl
  obtain ⟨-, -, -, -, -, hlaw⟩ := guest_time_exact hbridge hcreate hkeeps
  refine ⟨m, c, episodes, rfl, hcreate, hkeeps, ?_, ?_⟩
  · rw [hc]
    decide +kernel
  · rw [(hlaw ?_).1, hc]
    · decide +kernel
    · rw [hc]
      decide +kernel

end Controller

end Playground
