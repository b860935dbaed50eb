import Playground.Proofs.Config.Settings

/-!
# Configurations are read back

The document of a configuration gives every setting (`gives_document`), so that no default is ever needed: the whole configuration
is read back from its text if it can be used, and its problem if not (`document_gives_back`). Of the codec nothing is needed but that
it gives back the documents that it writes. The built-in one writes every configuration's document, unless the interval is one of 64
bits that does not fit into a number with a sign (`exists_toToml_iff`).
-/

namespace Playground

open Toml (Entries)

namespace Config

/-! ## The document -/

/-- The document of a configuration gives all its settings. -/
theorem gives_document (c : Config) : c.Gives (fun _ => true) c.document := by
  constructor
  · intro table leaf htable
    subst htable
    cases leaf <;> rfl
  · intro place hplace
    simp only [sections, List.mem_cons, List.not_mem_nil, or_false] at hplace
    obtain rfl | rfl | rfl | rfl | rfl | rfl := hplace <;> exact .inr ⟨_, rfl⟩

/-- With all its settings, a configuration is itself. -/
theorem keeping_all (c : Config) : c.keeping (fun _ => true) = c := rfl

/-- Every setting is read back. -/
theorem ofEntries?_document (c : Config) : ofEntries? c.document = some c := ofEntries?_of_gives c.gives_document

/-- A configuration is nothing but its settings, since it is read back from a document that gives all of them. -/
theorem eq_of_value {c d : Config} (h : ∀ leaf : Leaf, leaf.value c = leaf.value d) : c = d := by
  have hgives : d.Gives (fun _ => true) c.document := by
    refine ⟨?_, c.gives_document.tables⟩
    intro table leaf htable
    rw [c.gives_document.settings table leaf htable, h leaf]
  have hread := ofEntries?_of_gives hgives
  rw [ofEntries?_document] at hread
  exact Option.some.inj hread

/-- A configuration is refused for its first problem. -/
theorem exists_problem_of_validate {c : Config} {error : ConfigError} (h : c.validate = .error error) :
    ∃ problem, c.problem? = some problem ∧ error = .invalid problem := by
  unfold validate at h
  split at h
  next problem hproblem =>
    cases h
    exact ⟨problem, hproblem, rfl⟩
  next => cases h

/-! ## Its text -/

/-- A configuration is written as what its document is printed as. -/
theorem toToml_eq_ok_iff {codec : Toml.Codec} {c : Config} {text : String} :
    c.toToml codec = .ok text ↔ codec.print? c.document = some text := by
  unfold toToml
  cases codec.print? c.document <;> simp

/-- The names of a configuration's document can stand on a page: they do not depend on the settings. -/
theorem plain_document (c : Config) : c.document.Plain (Toml.maxDepth + 1) := by
  have hnames : ∀ (names : List String) {entries : Entries}, entries.map Prod.fst = names →
      (names.Nodup ∧ ∀ name ∈ names, Toml.IsBareName name) → entries.Named := by
    rintro _ _ rfl h
    exact h
  have hflat : ∀ {entries : Entries} {levels : Nat}, entries.Named → entries.tables = [] → entries.Plain (levels + 1) := by
    intro entries levels hnamed hnone
    exact ⟨hnamed, hnone ▸ nofun⟩
  have hexports : c.guest.exports.entries.Named :=
    hnames ["initialize", "allocate", "release", "validate", "init_run", "deinit_run", "is_finished", "step", "memory"] rfl
      (by decide)
  have himports : c.guest.imports.entries.Named := hnames ["read", "write", "clock"] rfl (by decide)
  have hguest : c.guest.entries.Named := hnames ["path", "import_module", "exports", "imports"] rfl (by decide)
  have hscheduler : c.scheduler.entries.Named := hnames ["step_budget", "tick_interval_ms"] rfl (by decide)
  have hconsole : c.console.entries.Named := hnames ["clear_on_start", "greeting"] rfl (by decide)
  have hlog : c.log.entries.Named := hnames ["level"] rfl (by decide)
  refine ⟨hnames ["module", "scheduler", "console", "log"] rfl (by decide), ?_⟩
  have htables : c.document.tables = [("module", c.guest.entries), ("scheduler", c.scheduler.entries),
      ("console", c.console.entries), ("log", c.log.entries)] := rfl
  have hinner : c.guest.entries.tables = [("exports", c.guest.exports.entries), ("imports", c.guest.imports.entries)] := rfl
  rw [htables]
  simp only [List.forall_mem_cons, List.not_mem_nil, false_implies, implies_true, and_true]
  refine ⟨⟨hguest, ?_⟩, hflat hscheduler rfl, hflat hconsole rfl, hflat hlog rfl⟩
  rw [hinner]
  simp only [List.forall_mem_cons, List.not_mem_nil, false_implies, implies_true, and_true]
  exact ⟨hflat hexports rfl, hflat himports rfl⟩

/-- The built-in codec has a text for a configuration if its interval fits into a number with a sign. -/
theorem exists_toToml_iff (c : Config) :
    (∃ text, c.toToml .builtIn = .ok text) ↔ c.scheduler.tickIntervalMs.toNat < 9223372036854775808 := by
  have hbudget : c.scheduler.stepBudget.toNat < 9223372036854775808 := Nat.lt_trans c.scheduler.stepBudget.toNat_lt (by decide)
  have hprint : Toml.Codec.builtIn.print? c.document = Toml.writePage? (c.document.blocks (Toml.maxDepth + 1)) :=
    if_pos ⟨rfl, c.plain_document⟩
  have hblocks : c.document.blocks (Toml.maxDepth + 1) = [⟨["module"], c.guest.entries.own⟩,
      ⟨["module", "exports"], c.guest.exports.entries⟩, ⟨["module", "imports"], c.guest.imports.entries⟩,
      ⟨["scheduler"], c.scheduler.entries⟩, ⟨["console"], c.console.entries⟩, ⟨["log"], c.log.entries⟩] := rfl
  have hown : c.guest.entries.own = [("path", .string c.guest.path), ("import_module", .string c.guest.importModule)] := rfl
  simp only [toToml_eq_ok_iff, ← Option.isSome_iff_exists, hprint, Toml.isSome_writePage, hblocks, hown, ExportNames.entries,
    ImportNames.entries, SchedulerConfig.entries, ConsoleConfig.entries, LogConfig.entries, List.forall_mem_cons,
    Toml.Value.isSome_write_integer, Toml.Value.isSome_write_string, Toml.Value.isSome_write_boolean]
  simp [hbudget]

/-- What is read from the text of a configuration is that configuration, every setting the same, if it can be used; if not, the text
is refused with the configuration's own problem. -/
theorem document_gives_back {codec : Toml.Codec} (hcodec : codec.GivesBack) (c : Config) {text : String}
    (hwritten : c.toToml codec = .ok text) :
    (c.validate = .ok () → ofToml codec text = .ok c) ∧
      ∀ error, c.validate = .error error → ofToml codec text = .error error ∧ ∃ problem, error = .invalid problem := by
  have hread := ofToml_of_print hcodec (toToml_eq_ok_iff.mp hwritten) c.gives_document
  rw [keeping_all] at hread
  constructor
  · intro hvalid
    rw [hread, hvalid]
    rfl
  · intro error hinvalid
    obtain ⟨problem, -, herror⟩ := exists_problem_of_validate hinvalid
    rw [hread, hinvalid]
    exact ⟨rfl, problem, herror⟩

/-- Settings with quotes, backslashes and line feeds in their texts, and with the longest interval that a document can hold. -/
def awkward : Config :=
  { guest := { path := "it's \"quoted\".wasm", importModule := "a\\b\nc\t\"\"\"" },
    scheduler := { stepBudget := 1, tickIntervalMs := 9223372036854775807 } }

/-- Those settings are given back; with an unknown log level in them, they are refused for that. -/
theorem document_gives_back_awkward :
    (∃ text, awkward.toToml .builtIn = .ok text ∧ ofToml .builtIn text = .ok awkward) ∧
      ∃ text, { awkward with log.level := "loud" }.toToml .builtIn = .ok text ∧
        ofToml .builtIn text = .error (.invalid (.unknownLogLevel "loud")) := by
  obtain ⟨text, htext⟩ := awkward.exists_toToml_iff.mpr (by decide)
  obtain ⟨text', htext'⟩ := { awkward with log.level := "loud" }.exists_toToml_iff.mpr (by decide)
  have hread := document_gives_back Toml.Codec.givesBack_builtIn awkward htext
  have hread' := document_gives_back Toml.Codec.givesBack_builtIn { awkward with log.level := "loud" } htext'
  refine ⟨⟨text, htext, hread.1 (by decide)⟩, text', htext', ?_⟩
  exact (hread'.2 (.invalid (.unknownLogLevel "loud")) (by decide)).1

end Config

end Playground
