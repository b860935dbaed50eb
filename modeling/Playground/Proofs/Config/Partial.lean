import Mathlib
import Playground.Proofs.Config.Document

/-!
# Documents that leave settings out

Whatever settings a document gives, it is read to the values that it gives and to the defaults of all others (`partial_document`).
Every choice of settings is given by some document, for instance by one in which all sections are there and say nothing else
(`gives_partialOf`).
-/

namespace Playground

open Toml (Entries)

namespace Config

variable {c : Config} {given : Leaf → Bool}

/-- What a document says in a section to give some settings. -/
def sectionOf (c : Config) (given : Leaf → Bool) (table : List String) : Entries :=
  (Leaf.all.filter fun leaf => leaf.table = table ∧ given leaf).map fun leaf => (leaf.name, leaf.value c)

/-- The names in a section are those of the settings that are given there. -/
theorem mem_sectionOf {table : List String} {entry : String × Toml.Value} : entry ∈ c.sectionOf given table ↔
    ∃ leaf : Leaf, leaf.table = table ∧ given leaf = true ∧ entry = (leaf.name, leaf.value c) := by
  rw [sectionOf, List.mem_map]
  constructor
  · rintro ⟨leaf, hleaf, rfl⟩
    have hkept := (List.mem_filter.mp hleaf).2
    rw [decide_eq_true_eq] at hkept
    exact ⟨leaf, hkept.1, hkept.2, rfl⟩
  · rintro ⟨leaf, htable, hgiven, rfl⟩
    exact ⟨leaf, List.mem_filter.mpr ⟨leaf.mem_all, decide_eq_true ⟨htable, hgiven⟩⟩, rfl⟩

/-- No name stands twice in a section. -/
theorem nodup_names_sectionOf (c : Config) (given : Leaf → Bool) (table : List String) :
    ((c.sectionOf given table).map Prod.fst).Nodup := by
  rw [sectionOf, List.map_map]
  refine List.Nodup.map_on ?_ (Leaf.nodup_all.filter _)
  intro leaf hleaf other hother hname
  have htable := (List.mem_filter.mp hleaf).2
  have htable' := (List.mem_filter.mp hother).2
  rw [decide_eq_true_eq] at htable htable'
  exact Leaf.eq_of_name (htable.1.trans htable'.1.symm) hname

/-- A name of no setting that is given is not found. -/
theorem lookup_sectionOf_eq_none {table : List String} {name : String}
    (h : ∀ leaf : Leaf, leaf.table = table → given leaf = true → leaf.name ≠ name) :
    (c.sectionOf given table).lookup name = none := by
  rw [List.lookup_eq_none_iff]
  intro entry hentry
  obtain ⟨leaf, htable, hgiven, rfl⟩ := mem_sectionOf.mp hentry
  exact bne_iff_ne.mpr (h leaf htable hgiven).symm

/-- The settings that are given are found by their names. -/
theorem givesIn_sectionOf (c : Config) (given : Leaf → Bool) (table : List String) :
    c.GivesIn given table (c.sectionOf given table) := by
  intro leaf htable
  cases hgiven : given leaf with
  | true =>
    have hmem : (leaf.name, leaf.value c) ∈ c.sectionOf given table := mem_sectionOf.mpr ⟨leaf, htable, hgiven, rfl⟩
    exact Toml.lookup_of_mem (c.nodup_names_sectionOf given table) hmem
  | false =>
    refine lookup_sectionOf_eq_none ?_
    intro other hother hgiven' hname
    rw [Leaf.eq_of_name (hother.trans htable.symm) hname, hgiven] at hgiven'
    cases hgiven'

/-- A setting of the module is not named as one of the sections inside that of the module. -/
theorem lookup_module_eq_none {name : String} (h : name = "exports" ∨ name = "imports") :
    (c.sectionOf given ["module"]).lookup name = none := by
  refine lookup_sectionOf_eq_none fun leaf htable _ hname => ?_
  subst hname
  cases leaf <;> simp_all [Leaf.table, Leaf.name]

/-- A document that gives some settings, in sections that are all there and give nothing else. -/
def partialOf (c : Config) (given : Leaf → Bool) : Entries :=
  [("module", .table (c.sectionOf given ["module"] ++ [("exports", .table (c.sectionOf given ["module", "exports"])),
      ("imports", .table (c.sectionOf given ["module", "imports"]))])),
    ("scheduler", .table (c.sectionOf given ["scheduler"])), ("console", .table (c.sectionOf given ["console"])),
    ("log", .table (c.sectionOf given ["log"]))]

/-- A section inside that of the module is found behind the settings of the module. -/
theorem lookup_within_module (c : Config) (given : Leaf → Bool) {name : String} (h : name = "exports" ∨ name = "imports") :
    ((c.partialOf given).within ["module"]).lookup name = some (.table (c.sectionOf given ["module", name])) := by
  refine List.lookup_append.trans ?_
  rw [lookup_module_eq_none h]
  obtain rfl | rfl := h <;> rfl

/-- Such a document gives what it should. -/
theorem gives_partialOf (c : Config) (given : Leaf → Bool) : c.Gives given (c.partialOf given) := by
  have hinner : ∀ {name}, name = "exports" ∨ name = "imports" →
      (c.partialOf given).within ["module", name] = c.sectionOf given ["module", name] :=
    fun h => Entries.below_of_lookup (c.lookup_within_module given h)
  constructor
  · intro table leaf htable
    subst htable
    have hgiven := c.givesIn_sectionOf given leaf.table leaf rfl
    have hplace : leaf.table = ["module"] ∨ leaf.table = ["module", "exports"] ∨ leaf.table = ["module", "imports"] ∨
        leaf.table = ["scheduler"] ∨ leaf.table = ["console"] ∨ leaf.table = ["log"] := by
      cases leaf <;> simp [Leaf.table]
    obtain h | h | h | h | h | h := hplace
    all_goals rw [h] at hgiven ⊢
    · -- The names of the sections inside that of the module are no settings' names.
      have hother : ∀ exports imports : Toml.Value, [("exports", exports), ("imports", imports)].lookup leaf.name = none := by
        intro exports imports
        cases leaf <;> rfl
      refine List.lookup_append.trans ?_
      rw [hother, Option.or_none]
      exact hgiven
    · rw [hinner (.inl rfl), hgiven]
    · rw [hinner (.inr rfl), hgiven]
    · exact hgiven
    · exact hgiven
    · exact hgiven
  · intro place hplace
    simp only [sections, List.mem_cons, List.not_mem_nil, or_false] at hplace
    obtain rfl | rfl | rfl | rfl | rfl | rfl := hplace
    · exact .inr ⟨_, rfl⟩
    · exact .inr ⟨_, c.lookup_within_module given (.inl rfl)⟩
    · exact .inr ⟨_, c.lookup_within_module given (.inr rfl)⟩
    · exact .inr ⟨_, rfl⟩
    · exact .inr ⟨_, rfl⟩
    · exact .inr ⟨_, rfl⟩

/-- Whatever settings of a configuration a document gives, if the configuration can be used: its text is read to the values that it
gives, and to the defaults of all other settings. It makes no difference how it gives them, whether a section in which it gives none is
not there, is empty or has keys that are not known, and what else stands in the document. A text that was written for such a document
is read like that too, by a codec that gives back what it writes. Some document gives just the settings that one likes. -/
theorem partial_document (codec : Toml.Codec) {c : Config} (hvalid : c.validate = .ok ()) (given : Leaf → Bool) :
    (∀ text document, codec.parse? text = some document → c.Gives given document →
        ofToml codec text = .ok (c.keeping given)) ∧
      (codec.GivesBack → ∀ document text, codec.print? document = some text → c.Gives given document →
        ofToml codec text = .ok (c.keeping given)) ∧
      (∀ d : Config, d = c.keeping given ↔ ∀ leaf : Leaf, leaf.value d = leaf.value (if given leaf then c else {})) ∧
      ∃ document, c.Gives given document := by
  have hkept : (c.keeping given).validate = .ok () :=
    validate_eq_ok_iff.mpr (problem?_keeping (validate_eq_ok_iff.mp hvalid) given)
  refine ⟨?parsed, ?printed, ?settings, c.partialOf given, c.gives_partialOf given⟩
  case parsed =>
    intro text document hparse hgives
    rw [ofToml_of_gives hparse hgives, hkept]
    rfl
  case printed =>
    intro hcodec document text hprint hgives
    rw [ofToml_of_print hcodec hprint hgives, hkept]
    rfl
  case settings =>
    intro d
    constructor
    · rintro rfl
      exact c.value_keeping given
    · intro h
      refine eq_of_value fun leaf => ?_
      rw [h, value_keeping, source]

/-- Three settings are given, each in another way. One section is empty, one is not there, and one has a key that is not known. -/
def mixedDocument : String :=
  "scheduler.step_budget = 50\n" ++
    "log = \x7b level = 'debug', colour = true \x7d\n" ++
    "[console]\n" ++
    "[module.exports]\n" ++
    "step = \"run\"\n" ++
    "[other]\n" ++
    "sizes = [1, 2.5]\n"

/-- What is not given keeps its default, and what no setting has is passed over. -/
theorem partial_document_mixed :
    ofToml .builtIn mixedDocument = .ok { scheduler.stepBudget := 50, log.level := "debug", guest.exports.step := "run" } := by
  let c : Config :=
    { guest := { path := "other.wasm", exports := { step := "run", memory := "heap" } },
      scheduler := { stepBudget := 50, tickIntervalMs := 99 }, log := { level := "debug" } }
  let given : Leaf → Bool := fun leaf => decide (leaf ∈ [.stepBudget, .level, .step])
  let entries : Entries :=
    [("scheduler", .table [("step_budget", .integer 50)]),
      ("log", .table [("level", .string "debug"), ("colour", .boolean true)]),
      ("console", .table []),
      ("module", .table [("exports", .table [("step", .string "run")])]),
      ("other", .table [("sizes", .array [.integer 1, .float])])]
  have hvalid : c.validate = .ok () := by decide
  have hparse : Toml.Codec.builtIn.parse? mixedDocument = some entries := by cbv
  have hgives : c.Gives given entries := by
    constructor
    · intro table leaf htable
      subst htable
      cases leaf <;> rfl
    · simp only [sections, List.forall_mem_cons]
      exact ⟨.inr ⟨_, rfl⟩, .inr ⟨_, rfl⟩, .inl rfl, .inr ⟨_, rfl⟩, .inr ⟨_, rfl⟩, .inr ⟨_, rfl⟩, by simp⟩
  exact (partial_document .builtIn hvalid given).1 mixedDocument entries hparse hgives

end Config

end Playground
