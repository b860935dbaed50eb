import Playground.Config.Locate
import Playground.Files.Tree
import Playground.Proofs.Config.Settings
import Playground.Proofs.Guest.Fixed
import Playground.Proofs.Text.Utf8
import Playground.Session.Configured

/-!
# Which configuration holds

A configuration is taken from one file only, the first of the explicit one, the project's and the user's that is to be read, and what
is wrong with that file is not made up for by another one. The files behind it have no part in the answer: it stays the same whatever
they hold, and whether or not they are there (`discover_by_priority`). On every way to an answer, also on the one without any file, a
configuration is one that `validate` accepts. A session that is set up with it therefore has a budget, and an interval for its timer.
Nothing of this depends on how documents are read: the codec may be any.
-/

namespace Playground

namespace Config

variable {codec : Toml.Codec} {files files' : Files} {env env' : Environment} {explicit : Option String} {dir dir' path user : String}
  {config : Config}

/-! ## What a file gives -/

/-- A configuration with which the tick loop and the log can work. -/
structure Usable (c : Config) : Prop where
  valid : c.validate = .ok ()
  budget : c.scheduler.stepBudget ≠ 0
  interval : c.scheduler.tickIntervalMs ≠ 0
  /-- The level of the log is the one that its text names, and not the usual one in place of an unknown one. -/
  level : LogLevel.parse? c.log.level = some c.logLevel

/-- What `validate` accepts has all that is needed. -/
theorem usable_iff : config.Usable ↔ config.validate = .ok () := by
  refine ⟨Usable.valid, ?_⟩
  intro hvalid
  have hnone := validate_eq_ok_iff.mp hvalid
  obtain ⟨hbudget, hinterval, -⟩ := problem?_eq_none_iff.mp hnone
  exact ⟨hvalid, hbudget, hinterval, parse?_of_problem?_eq_none hnone⟩

/-- The defaults, which are not read and so not checked. -/
theorem usable_default : ({} : Config).Usable := usable_iff.mpr (by decide)

/-- A text gives a configuration if it holds a document with its settings, and they can be used. -/
theorem ofToml_eq_ok_iff {text : String} :
    ofToml codec text = .ok config ↔ (codec.parse? text).bind ofEntries? = some config ∧ config.Usable := by
  rw [usable_iff, ofToml]
  cases (codec.parse? text).bind ofEntries? with
  | none => simp
  | some c =>
    dsimp only
    constructor
    · intro h
      split at h
      next hvalid =>
        cases h
        exact ⟨rfl, hvalid⟩
      next => cases h
    · rintro ⟨hc, hvalid⟩
      cases hc
      simp [hvalid]

/-- A file with the bytes of a text is read as that text. -/
theorem load_of_encode {text : String} (h : files.read path = .ok (Text.encode text)) : load codec files path = ofToml codec text := by
  unfold load Files.readText
  rw [h]
  dsimp only
  rw [Text.decode?_encode]

/-- A configuration comes out of a file that is text, holds a document with its settings, and can be used. -/
theorem load_eq_ok_iff : load codec files path = .ok config ↔
    ∃ text, files.readText path = .ok text ∧ (codec.parse? text).bind ofEntries? = some config ∧ config.Usable := by
  unfold load
  cases files.readText path with
  | error error => simp
  | ok text => simp [ofToml_eq_ok_iff]

/-- What a file gives depends on its own content. -/
theorem load_congr (h : files'.read path = files.read path) : load codec files' path = load codec files path := by
  unfold load Files.readText
  rw [h]

/-! ## Which file is read -/

/-- The file that is chosen is read. -/
theorem discover_of_choose (h : choose files env explicit dir = some path) :
    discover codec files env explicit dir = load codec files path := by
  rw [discover, h]

/-- An explicit file is chosen. -/
theorem choose_explicit : choose files env (some path) dir = some path := rfl

/-- Without one, the project's file is chosen if it is there. -/
theorem choose_project (h : files.has (Path.join dir projectFile) = true) :
    choose files env none dir = some (Path.join dir projectFile) := by
  simp only [choose, h, if_true]

/-- If it is not there, the user's file is. -/
theorem choose_user (hproject : files.has (Path.join dir projectFile) = false) (huser : env.configPath = some user)
    (hhas : files.has user = true) : choose files env none dir = some user := by
  simp [choose, hproject, huser, hhas]

/-- If that is not there either, no file is chosen. -/
theorem choose_eq_none (hproject : files.has (Path.join dir projectFile) = false)
    (huser : ∀ user, env.configPath = some user → files.has user = false) : choose files env none dir = none := by
  simpa [choose, hproject] using huser

/-- Wherever the same file is chosen and holds the same, the same comes out. -/
theorem discover_congr (h : choose files env explicit dir = some path) (h' : choose files' env' explicit dir' = some path)
    (hread : files'.read path = files.read path) : discover codec files' env' explicit dir' = discover codec files env explicit dir := by
  rw [discover_of_choose h, discover_of_choose h', load_congr hread]

/-- Every configuration that is discovered can be used: the ones that are read because they are checked, the defaults as they are. -/
theorem usable_of_discover (h : discover codec files env explicit dir = .ok config) : config.Usable := by
  unfold discover at h
  split at h
  next path _ =>
    obtain ⟨text, -, -, husable⟩ := load_eq_ok_iff.mp h
    exact husable
  next =>
    cases h
    exact usable_default

end Config

/-! ## What is set up with it -/

/-- A session has the interval and the budget of its configuration. -/
theorem Session.scheduler_of_ofConfig {γ : Type} [Guest γ] {config : Config} {machine : Machine γ} {session : Session γ}
    (h : ofConfig config machine = .ok session) :
    session.interval = config.scheduler.tickIntervalMs ∧ session.scheduler.budget = config.scheduler.stepBudget := by
  unfold ofConfig at h
  split at h
  next => cases h
  next =>
    cases h
    exact ⟨rfl, rfl⟩

namespace Config

/-- The first of the explicit file, the project's and the user's that is to be read decides alone. The explicit file is to be read even
if it is not there, the others if they are. What is found is what reading that file gives, an error too, and other files, another
environment or directory do not matter as long as they leave the choice and the chosen file as they are. Without such a file the
defaults hold. A configuration is found in the chosen file exactly if that is text, is a document with the settings, and is valid. Every
configuration that is found can be used, and a session that is set up with it, over whatever machine, has a budget and an interval. -/
theorem discover_by_priority (codec : Toml.Codec) (files : Files) (env : Environment) (explicit : Option String) (dir : String) :
    (∀ path, explicit = some path → discover codec files env explicit dir = load codec files path ∧
      ∀ files' env' dir', files'.read path = files.read path →
        discover codec files' env' explicit dir' = discover codec files env explicit dir) ∧
    (∀ project, project = Path.join dir projectFile → explicit = none →
      (files.has project = true → discover codec files env explicit dir = load codec files project ∧
        ∀ files' env', files'.has project = true → files'.read project = files.read project →
          discover codec files' env' explicit dir = discover codec files env explicit dir) ∧
      (files.has project = false → ∀ user, env.configPath = some user → files.has user = true →
        discover codec files env explicit dir = load codec files user ∧
        ∀ files' env', files'.has project = false → env'.configPath = some user → files'.has user = true →
          files'.read user = files.read user →
            discover codec files' env' explicit dir = discover codec files env explicit dir) ∧
      (files.has project = false → (∀ user, env.configPath = some user → files.has user = false) →
        discover codec files env explicit dir = .ok {})) ∧
    (∀ path, choose files env explicit dir = some path → ∀ config, discover codec files env explicit dir = .ok config ↔
      ∃ text, files.readText path = .ok text ∧ (codec.parse? text).bind ofEntries? = some config ∧ config.Usable) ∧
    ∀ config, discover codec files env explicit dir = .ok config → config.Usable ∧
      ∀ (γ : Type) [Guest γ] (machine : Machine γ) session, Session.ofConfig config machine = .ok session →
        session.interval ≠ 0 ∧ session.scheduler.budget ≠ 0 := by
  refine ⟨?explicit, ?implicit, ?chosen, ?found⟩
  case explicit =>
    rintro path rfl
    exact ⟨discover_of_choose choose_explicit, fun _ _ _ => discover_congr choose_explicit choose_explicit⟩
  case implicit =>
    rintro project rfl rfl
    refine ⟨?project, ?user, ?nowhere⟩
    case project =>
      intro hhas
      refine ⟨discover_of_choose (choose_project hhas), ?_⟩
      intro files' env' hhas'
      exact discover_congr (choose_project hhas) (choose_project hhas')
    case user =>
      intro hproject user huser hhas
      refine ⟨discover_of_choose (choose_user hproject huser hhas), ?_⟩
      intro files' env' hproject' huser' hhas'
      exact discover_congr (choose_user hproject huser hhas) (choose_user hproject' huser' hhas')
    case nowhere =>
      intro hproject huser
      rw [discover, choose_eq_none hproject huser]
  case chosen =>
    intro path hchosen config
    rw [discover_of_choose hchosen, load_eq_ok_iff]
  case found =>
    intro config hfound
    have husable := usable_of_discover hfound
    refine ⟨husable, ?_⟩
    intro γ _ machine session hsession
    obtain ⟨hinterval, hbudget⟩ := Session.scheduler_of_ofConfig hsession
    rw [hinterval, hbudget]
    exact ⟨husable.interval, husable.budget⟩

/-- A project's file that is no document, in front of a user's file that is one. -/
def spoilt : Files := .ofList [
  ("p/lola-playground.toml", .ok (Text.encode "[")),
  ("/c/lola-playground/config.toml", .ok (Text.encode "[scheduler]\nstep_budget = 7\n"))]

/-- An environment with that user's file. -/
def settled : Environment := { xdgConfigHome := some "/c" }

/-- Here the priorities are seen at work: a file that is asked for and not there, a project's file that is spoilt, a user's file
that is found, and no file at all. -/
theorem discover_by_priority_spoilt :
    discover .builtIn spoilt settled (some "mine.toml") "p" = .error (.unreadable "mine.toml" .notFound) ∧
      discover .builtIn spoilt settled none "p" = .error .malformed ∧ discover .builtIn spoilt {} none "p" = .error .malformed ∧
      discover .builtIn spoilt settled none "q" = load .builtIn spoilt "/c/lola-playground/config.toml" ∧
      discover .builtIn spoilt settled none "q" = .ok { scheduler := { stepBudget := 7 } } ∧
      discover .builtIn spoilt {} none "q" = .ok {} ∧ LogLevel.parse? ({} : Config).log.level = some .warn ∧
      ∃ session, Session.ofConfig { scheduler := { stepBudget := 7 } } Fixed.willing.machine = .ok session ∧
        session.interval ≠ 0 ∧ session.scheduler.budget ≠ 0 := by
  obtain ⟨hmine, -⟩ := discover_by_priority .builtIn spoilt settled (some "mine.toml") "p"
  obtain ⟨-, hproject, -⟩ := discover_by_priority .builtIn spoilt settled none "p"
  obtain ⟨-, huser, hread, hready⟩ := discover_by_priority .builtIn spoilt settled none "q"
  obtain ⟨-, hnowhere, -, husable⟩ := discover_by_priority .builtIn spoilt {} none "q"
  obtain ⟨hmalformed, hsame⟩ := (hproject _ rfl rfl).1 (by decide)
  have hbracket : spoilt.read (Path.join "p" projectFile) = .ok (Text.encode "[") := rfl
  have hmalformed' : load .builtIn spoilt (Path.join "p" projectFile) = .error .malformed :=
    (load_of_encode hbracket).trans (by decide)
  have hchosen := ((huser _ rfl rfl).2.1 (by decide) _ rfl (by decide)).1
  have hfound : discover .builtIn spoilt settled none "q" = .ok { scheduler := { stepBudget := 7 } } :=
    (hread "/c/lola-playground/config.toml" (by decide) _).mpr
      ⟨"[scheduler]\nstep_budget = 7\n", by decide +kernel, by decide +kernel, usable_iff.mpr (by decide)⟩
  have hdefault := (hnowhere _ rfl rfl).2.2 (by decide) nofun
  refine ⟨?_, ?_, ?_, hchosen, hfound, hdefault, (husable _ hdefault).1.level, _, rfl,
    (hready _ hfound).2 Fixed Fixed.willing.machine _ rfl⟩
  · rw [(hmine _ rfl).1]
    decide +kernel
  · rw [hmalformed, hmalformed']
  · rw [hsame spoilt {} (by decide) rfl, hmalformed, hmalformed']

end Config

end Playground
