import Mathlib.Data.List.Nodup
import Playground.Config.Document
import Playground.Proofs.Toml.Codec

/-!
# What a document gives

A document gives settings one by one (`Leaf`), each in its section and under its name. A setting that it gives has the value that is
given, and any other one its default: it makes no difference whether its section is not there, is empty, or holds something else,
since a section without settings reads as the default of the section (`get_section`). So a document is read to the settings that it
gives (`ofEntries?_of_gives`), and so is one that says the same (`Gives.of_same`).
-/

namespace Playground

open Toml (Entries)

/-! ## Numbers -/

/-- A number of 32 bits is read back. -/
theorem Setting.word_toNat (n : UInt32) : word (.integer n.toNat) = some n := by
  have hfits : 0 ≤ (n.toNat : Int) ∧ (n.toNat : Int).toNat < UInt32.size := ⟨Int.natCast_nonneg _, n.toNat_lt⟩
  rw [word, if_pos hfits, Int.toNat_natCast, UInt32.ofNat_toNat]

/-- A number of 64 bits is read back. -/
theorem Setting.long_toNat (n : UInt64) : long (.integer n.toNat) = some n := by
  have hfits : 0 ≤ (n.toNat : Int) ∧ (n.toNat : Int).toNat < UInt64.size := ⟨Int.natCast_nonneg _, n.toNat_lt⟩
  rw [long, if_pos hfits, Int.toNat_natCast, UInt64.ofNat_toNat]

/-! ## Tables in tables -/

namespace Toml.Entries

/-- The table under a name; an empty one, if there is none. -/
def below (entries : Entries) (name : String) : Entries := ((entries.lookup name).bind Value.entries?).getD []

/-- The table at the end of a path. -/
def within (entries : Entries) (path : List String) : Entries := path.foldl below entries

/-- A table that is found under a name is the table below it. -/
theorem below_of_lookup {entries inner : Entries} {name : String} (h : entries.lookup name = some (.table inner)) :
    entries.below name = inner := by
  rw [below, h]
  rfl

/-- What is under a name is a table, if anything is. -/
def IsSection (entries : Entries) (name : String) : Prop :=
  entries.lookup name = none ∨ ∃ inner, entries.lookup name = some (.table inner)

variable {a b : Entries}

/-- Documents that say the same say the same under each name. -/
theorem Same.below (h : a.Same b) (name : String) : (a.below name).Same (b.below name) := by
  unfold Entries.below
  cases hb : b.lookup name with
  | none =>
    rw [(h.lookup_eq_none_iff name).mpr hb]
    exact .refl _
  | some w =>
    obtain ⟨v, ha, hsame⟩ := h.exists_lookup hb
    rw [ha]
    cases w with
    | table inner =>
      obtain ⟨inner', rfl, hinner⟩ := hsame.exists_table
      exact hinner
    | array ws => cases hsame <;> exact .refl _
    | string _ | integer _ | float | boolean _ | moment =>
      rw [hsame.eq nofun nofun]
      exact .refl _

/-- Documents that say the same say the same at the end of each path. -/
theorem Same.within (h : a.Same b) (path : List String) : (a.within path).Same (b.within path) := by
  induction path generalizing a b with
  | nil => exact h
  | cons name path ih => exact ih (h.below name)

/-- What is a section in one of two documents that say the same is one in the other. -/
theorem Same.isSection (h : a.Same b) {name : String} (hsection : b.IsSection name) : a.IsSection name := by
  obtain hnone | ⟨inner, htable⟩ := hsection
  · exact .inl ((h.lookup_eq_none_iff name).mpr hnone)
  · obtain ⟨v, hv, hsame⟩ := h.exists_lookup htable
    obtain ⟨inner', rfl, -⟩ := hsame.exists_table
    exact .inr ⟨inner', hv⟩

end Toml.Entries

/-- A section that is not given reads as an empty one, if an empty one reads as the default. -/
theorem Settings.get_section {α : Type} {entries : Entries} {name : String} (h : entries.IsSection name) (place : Nat)
    (read : Settings → Option α) {dflt : α} (hempty : read (.named []) = some dflt) :
    (named entries).get place name (inner read) dflt = read (.named (entries.below name)) := by
  rw [get, find?, Entries.below]
  obtain hnone | ⟨held, htable⟩ := h
  · rw [hnone]
    exact hempty.symm
  · rw [htable]
    rfl

/-! ## Settings one by one -/

/-- A setting that has no parts of its own. -/
inductive Leaf where
  | path
  | importModule
  | setUp
  | allocate
  | release
  | validate
  | initRun
  | deinitRun
  | isFinished
  | step
  | memory
  | read
  | write
  | clock
  | stepBudget
  | tickIntervalMs
  | clearOnStart
  | greeting
  | level
  deriving DecidableEq, Repr

namespace Leaf

/-- The section of a setting. -/
def table : Leaf → List String
  | path | importModule => ["module"]
  | setUp | allocate | release | validate | initRun | deinitRun | isFinished | step | memory => ["module", "exports"]
  | read | write | clock => ["module", "imports"]
  | stepBudget | tickIntervalMs => ["scheduler"]
  | clearOnStart | greeting => ["console"]
  | level => ["log"]

/-- The name of a setting in its section. -/
def name : Leaf → String
  | path => "path"
  | importModule => "import_module"
  | setUp => "initialize"
  | allocate => "allocate"
  | release => "release"
  | validate => "validate"
  | initRun => "init_run"
  | deinitRun => "deinit_run"
  | isFinished => "is_finished"
  | step => "step"
  | memory => "memory"
  | read => "read"
  | write => "write"
  | clock => "clock"
  | stepBudget => "step_budget"
  | tickIntervalMs => "tick_interval_ms"
  | clearOnStart => "clear_on_start"
  | greeting => "greeting"
  | level => "level"

/-- What a document says of a setting. -/
def value (c : Config) : Leaf → Toml.Value
  | path => .string c.guest.path
  | importModule => .string c.guest.importModule
  | setUp => .string c.guest.exports.setUp
  | allocate => .string c.guest.exports.allocate
  | release => .string c.guest.exports.release
  | validate => .string c.guest.exports.validate
  | initRun => .string c.guest.exports.initRun
  | deinitRun => .string c.guest.exports.deinitRun
  | isFinished => .string c.guest.exports.isFinished
  | step => .string c.guest.exports.step
  | memory => .string c.guest.exports.memory
  | read => .string c.guest.imports.read
  | write => .string c.guest.imports.write
  | clock => .string c.guest.imports.clock
  | stepBudget => .integer c.scheduler.stepBudget.toNat
  | tickIntervalMs => .integer c.scheduler.tickIntervalMs.toNat
  | clearOnStart => .boolean c.console.clearOnStart
  | greeting => .boolean c.console.greeting
  | level => .string c.log.level

/-- All settings, section by section. -/
def all : List Leaf :=
  [path, importModule, setUp, allocate, release, validate, initRun, deinitRun, isFinished, step, memory, read, write, clock,
    stepBudget, tickIntervalMs, clearOnStart, greeting, level]

/-- What a document says of a setting is no table and no array. -/
theorem value_ne (c : Config) (leaf : Leaf) : (∀ entries, leaf.value c ≠ .table entries) ∧ ∀ vs, leaf.value c ≠ .array vs := by
  cases leaf <;> exact ⟨nofun, nofun⟩

/-- No setting is missing from the list. -/
theorem mem_all (leaf : Leaf) : leaf ∈ all := by
  cases leaf <;> decide

/-- No setting stands twice in the list. -/
theorem nodup_all : all.Nodup := by decide

/-- No two settings of a section have the same name. -/
theorem eq_of_name {leaf other : Leaf} (htable : leaf.table = other.table) (hname : leaf.name = other.name) : leaf = other := by
  have hplaces : (all.map fun leaf => (leaf.table, leaf.name)).Nodup := by decide
  exact List.inj_on_of_nodup_map hplaces leaf.mem_all other.mem_all (Prod.ext htable hname)

end Leaf

namespace Config

variable {c : Config} {given : Leaf → Bool} {entries : Entries}

/-- Where the value of a setting comes from: the configuration, if it is given, and else the defaults. -/
def source (c : Config) (given : Leaf → Bool) (leaf : Leaf) : Config := if given leaf then c else {}

/-- The configuration with its own values for the settings that are given, and with the defaults for the others. -/
def keeping (c : Config) (given : Leaf → Bool) : Config where
  guest := {
    path := (c.source given .path).guest.path
    importModule := (c.source given .importModule).guest.importModule
    exports := {
      setUp := (c.source given .setUp).guest.exports.setUp
      allocate := (c.source given .allocate).guest.exports.allocate
      release := (c.source given .release).guest.exports.release
      validate := (c.source given .validate).guest.exports.validate
      initRun := (c.source given .initRun).guest.exports.initRun
      deinitRun := (c.source given .deinitRun).guest.exports.deinitRun
      isFinished := (c.source given .isFinished).guest.exports.isFinished
      step := (c.source given .step).guest.exports.step
      memory := (c.source given .memory).guest.exports.memory }
    imports := {
      read := (c.source given .read).guest.imports.read
      write := (c.source given .write).guest.imports.write
      clock := (c.source given .clock).guest.imports.clock } }
  scheduler := {
    stepBudget := (c.source given .stepBudget).scheduler.stepBudget
    tickIntervalMs := (c.source given .tickIntervalMs).scheduler.tickIntervalMs }
  console := {
    clearOnStart := (c.source given .clearOnStart).console.clearOnStart
    greeting := (c.source given .greeting).console.greeting }
  log := { level := (c.source given .level).log.level }

/-- Each setting comes from where it should. -/
theorem value_keeping (c : Config) (given : Leaf → Bool) (leaf : Leaf) :
    leaf.value (c.keeping given) = leaf.value (c.source given leaf) := by
  cases leaf <;> rfl

/-- A table gives a configuration's settings of a section, those that are given, and none of the others of that section. -/
def GivesIn (c : Config) (given : Leaf → Bool) (table : List String) (entries : Entries) : Prop :=
  ∀ leaf : Leaf, leaf.table = table → entries.lookup leaf.name = if given leaf then some (leaf.value c) else none

/-- A setting is read to what it should be. -/
theorem get_leaf {α : Type} (leaf : Leaf) (read : Toml.Value → Option α) (field : Config → α)
    (hread : ∀ c : Config, read (leaf.value c) = some (field c)) (h : c.GivesIn given leaf.table entries) (place : Nat) :
    (Settings.named entries).get place leaf.name read (field {}) = some (field (c.source given leaf)) := by
  rw [Settings.get, Settings.find?, h leaf rfl, source]
  cases given leaf with
  | true => exact hread c
  | false => rfl

/-! ## Sections -/

/-- The names of exports are read to what is given of them. -/
theorem exports_of_given (h : c.GivesIn given ["module", "exports"] entries) :
    ExportNames.ofSettings? (.named entries) = some (c.keeping given).guest.exports := by
  have hsetUp := get_leaf .setUp Setting.text (·.guest.exports.setUp) (fun _ => rfl) h 0
  have hallocate := get_leaf .allocate Setting.text (·.guest.exports.allocate) (fun _ => rfl) h 1
  have hrelease := get_leaf .release Setting.text (·.guest.exports.release) (fun _ => rfl) h 2
  have hvalidate := get_leaf .validate Setting.text (·.guest.exports.validate) (fun _ => rfl) h 3
  have hinitRun := get_leaf .initRun Setting.text (·.guest.exports.initRun) (fun _ => rfl) h 4
  have hdeinitRun := get_leaf .deinitRun Setting.text (·.guest.exports.deinitRun) (fun _ => rfl) h 5
  have hisFinished := get_leaf .isFinished Setting.text (·.guest.exports.isFinished) (fun _ => rfl) h 6
  have hstep := get_leaf .step Setting.text (·.guest.exports.step) (fun _ => rfl) h 7
  have hmemory := get_leaf .memory Setting.text (·.guest.exports.memory) (fun _ => rfl) h 8
  simp only [Leaf.name] at hsetUp hallocate hrelease hvalidate hinitRun hdeinitRun hisFinished hstep hmemory
  simp only [ExportNames.ofSettings?, hsetUp, hallocate, hrelease, hvalidate, hinitRun, hdeinitRun, hisFinished, hstep, hmemory,
    Option.bind_eq_bind, Option.bind_some, Option.pure_def, keeping]

/-- So are the names of imports. -/
theorem imports_of_given (h : c.GivesIn given ["module", "imports"] entries) :
    ImportNames.ofSettings? (.named entries) = some (c.keeping given).guest.imports := by
  have hread := get_leaf .read Setting.text (·.guest.imports.read) (fun _ => rfl) h 0
  have hwrite := get_leaf .write Setting.text (·.guest.imports.write) (fun _ => rfl) h 1
  have hclock := get_leaf .clock Setting.text (·.guest.imports.clock) (fun _ => rfl) h 2
  simp only [Leaf.name] at hread hwrite hclock
  simp only [ImportNames.ofSettings?, hread, hwrite, hclock, Option.bind_eq_bind, Option.bind_some, Option.pure_def, keeping]

/-- So is the tick loop. -/
theorem scheduler_of_given (h : c.GivesIn given ["scheduler"] entries) :
    SchedulerConfig.ofSettings? (.named entries) = some (c.keeping given).scheduler := by
  have hbudget := get_leaf .stepBudget Setting.word (·.scheduler.stepBudget) (fun c => Setting.word_toNat _) h 0
  have hinterval := get_leaf .tickIntervalMs Setting.long (·.scheduler.tickIntervalMs) (fun c => Setting.long_toNat _) h 1
  simp only [Leaf.name] at hbudget hinterval
  simp only [SchedulerConfig.ofSettings?, hbudget, hinterval, Option.bind_eq_bind, Option.bind_some, Option.pure_def, keeping]

/-- So is the console. -/
theorem console_of_given (h : c.GivesIn given ["console"] entries) :
    ConsoleConfig.ofSettings? (.named entries) = some (c.keeping given).console := by
  have hclear := get_leaf .clearOnStart Setting.flag (·.console.clearOnStart) (fun _ => rfl) h 0
  have hgreeting := get_leaf .greeting Setting.flag (·.console.greeting) (fun _ => rfl) h 1
  simp only [Leaf.name] at hclear hgreeting
  simp only [ConsoleConfig.ofSettings?, hclear, hgreeting, Option.bind_eq_bind, Option.bind_some, Option.pure_def, keeping]

/-- So is the log. -/
theorem log_of_given (h : c.GivesIn given ["log"] entries) :
    LogConfig.ofSettings? (.named entries) = some (c.keeping given).log := by
  have hlevel := get_leaf .level Setting.text (·.log.level) (fun _ => rfl) h 0
  simp only [Leaf.name] at hlevel
  simp only [LogConfig.ofSettings?, hlevel, Option.bind_eq_bind, Option.bind_some, Option.pure_def, keeping]

/-! ## Documents -/

/-- The sections of a document: for each the way to it, and its name. -/
def sections : List (List String × String) :=
  [([], "module"), (["module"], "exports"), (["module"], "imports"), ([], "scheduler"), ([], "console"), ([], "log")]

/-- A document's table gives a configuration's settings, those that are given, and no others. A section is not there, or is a table;
what else there is in it, or beside it, does not matter. -/
structure Gives (c : Config) (given : Leaf → Bool) (entries : Entries) : Prop where
  settings : ∀ table, c.GivesIn given table (entries.within table)
  tables : ∀ place ∈ sections, (entries.within place.1).IsSection place.2

/-- A section is read to what is given in it, and to its defaults if it is not there. -/
theorem Gives.get_inner {α : Type} {value : α} (h : c.Gives given entries) (path : List String) (name : String) (place : Nat)
    (read : Settings → Option α) (dflt : α) (hsection : (path, name) ∈ sections) (hempty : read (.named []) = some dflt)
    (hread : read (.named (entries.within (path ++ [name]))) = some value) :
    (Settings.named (entries.within path)).get place name (Settings.inner read) dflt = some value := by
  rw [Entries.within, List.foldl_append] at hread
  exact (Settings.get_section (h.tables (path, name) hsection) place read hempty).trans hread

/-- So is the module, with both kinds of names inside it. -/
theorem guest_of_gives (h : c.Gives given entries) :
    ModuleConfig.ofSettings? (.named (entries.within ["module"])) = some (c.keeping given).guest := by
  have hpath := get_leaf .path Setting.text (·.guest.path) (fun _ => rfl) (h.settings ["module"]) 0
  have himportModule := get_leaf .importModule Setting.text (·.guest.importModule) (fun _ => rfl) (h.settings ["module"]) 1
  have hexports := h.get_inner ["module"] "exports" 2 ExportNames.ofSettings? {} (by decide) rfl (exports_of_given (h.settings _))
  have himports := h.get_inner ["module"] "imports" 3 ImportNames.ofSettings? {} (by decide) rfl (imports_of_given (h.settings _))
  simp only [Leaf.name] at hpath himportModule
  simp only [ModuleConfig.ofSettings?, hpath, himportModule, hexports, himports, Option.bind_eq_bind, Option.bind_some,
    Option.pure_def]
  rfl

/-- A document is read to what it gives, and to the defaults of everything else. -/
theorem ofEntries?_of_gives (h : c.Gives given entries) : ofEntries? entries = some (c.keeping given) := by
  have hguest := h.get_inner [] "module" 0 ModuleConfig.ofSettings? {} (by decide) rfl (guest_of_gives h)
  have hscheduler := h.get_inner [] "scheduler" 1 SchedulerConfig.ofSettings? {} (by decide) rfl (scheduler_of_given (h.settings _))
  have hconsole := h.get_inner [] "console" 2 ConsoleConfig.ofSettings? {} (by decide) rfl (console_of_given (h.settings _))
  have hlog := h.get_inner [] "log" 3 LogConfig.ofSettings? {} (by decide) rfl (log_of_given (h.settings _))
  have hroot : entries.within [] = entries := rfl
  rw [hroot] at hguest hscheduler hconsole hlog
  simp only [ofEntries?, ofSettings?, hguest, hscheduler, hconsole, hlog, Option.bind_eq_bind, Option.bind_some, Option.pure_def]

/-- A document that says the same gives the same settings. -/
theorem Gives.of_same {read document : Entries} (h : c.Gives given document) (hsame : read.Same document) :
    c.Gives given read := by
  constructor
  · intro table leaf htable
    have hwithin := hsame.within table
    have hgiven := h.settings table leaf htable
    cases hleaf : given leaf with
    | true =>
      rw [hleaf, if_pos rfl] at hgiven
      obtain ⟨v, hv, hvalue⟩ := hwithin.exists_lookup hgiven
      obtain ⟨htable, harray⟩ := leaf.value_ne c
      rw [hv, hvalue.eq htable harray]
      rfl
    | false =>
      rw [hleaf, if_neg Bool.false_ne_true] at hgiven
      exact (hwithin.lookup_eq_none_iff leaf.name).mpr hgiven
  · intro place hplace
    exact (hsame.within place.1).isSection (h.tables place hplace)

/-! ## What can be used -/

/-- A configuration without a problem has a budget, an interval and the name of a level. -/
theorem problem?_eq_none_iff {c : Config} : c.problem? = none ↔
    c.scheduler.stepBudget ≠ 0 ∧ c.scheduler.tickIntervalMs ≠ 0 ∧ LogLevel.parse? c.log.level ≠ none := by
  unfold problem?
  split
  · simp [*]
  · split
    · simp [*]
    · split <;> simp_all

/-- What holds of a configuration and of the defaults holds of where a setting comes from. -/
theorem source_rec {P : Config → Prop} (hown : P c) (hdefault : P {}) (leaf : Leaf) : P (c.source given leaf) := by
  unfold source
  split
  · exact hown
  · exact hdefault

/-- Settings of a configuration that can be used can be used with the defaults of the others. -/
theorem problem?_keeping (h : c.problem? = none) (given : Leaf → Bool) : (c.keeping given).problem? = none := by
  obtain ⟨hbudget, hinterval, hlevel⟩ := problem?_eq_none_iff.mp h
  rw [problem?_eq_none_iff]
  refine ⟨?_, ?_, ?_⟩
  · exact source_rec (P := fun c => c.scheduler.stepBudget ≠ 0) hbudget (by decide) .stepBudget
  · exact source_rec (P := fun c => c.scheduler.tickIntervalMs ≠ 0) hinterval (by decide) .tickIntervalMs
  · exact source_rec (P := fun c => LogLevel.parse? c.log.level ≠ none) hlevel (by decide) .level

/-- The text of a document that gives settings is read to them, if what comes out can be used, and refused for its problem if not. -/
theorem ofToml_of_gives {codec : Toml.Codec} {text : String} (hparse : codec.parse? text = some entries)
    (h : c.Gives given entries) : ofToml codec text = (c.keeping given).validate.map fun _ => c.keeping given := by
  have hread : (codec.parse? text).bind ofEntries? = some (c.keeping given) := by
    rw [hparse, Option.bind_some, ofEntries?_of_gives h]
  simp only [ofToml, hread]
  cases (c.keeping given).validate <;> rfl

/-- So is a text that was written for such a document, if the codec gives back what it writes. -/
theorem ofToml_of_print {codec : Toml.Codec} (hcodec : codec.GivesBack) {document : Entries} {text : String}
    (hprint : codec.print? document = some text) (h : c.Gives given document) :
    ofToml codec text = (c.keeping given).validate.map fun _ => c.keeping given := by
  obtain ⟨read, hparse, hsame⟩ := hcodec document text hprint
  exact ofToml_of_gives hparse (h.of_same hsame)

end Config

end Playground
