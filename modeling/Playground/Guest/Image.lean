import Playground.Guest.Echo
import Playground.Text.Blank
import Playground.Text.Utf8

/-!
# Guest modules

A module offers its memory and functions under names, and asks for console functions under names of a namespace.
`Image.instantiate` makes a guest from a module and a choice of names, in the order in which names are resolved: the imports
first, then the memory, then the function for each role. What is not there, or is there with another signature, is an error
of its own.
-/

namespace Playground

/-- The types of a function's parameters and results. -/
inductive ValueType where
  | word
  | long
  deriving DecidableEq, Repr

/-- A function's signature. -/
structure Signature where
  params : List ValueType := []
  results : List ValueType := []
  deriving DecidableEq, Repr

/-- The signature that the host expects of a role. -/
def Role.signature : Role → Signature
  | .setUp | .deinitRun => {}
  | .allocate | .step => ⟨[.word], [.word]⟩
  | .release => ⟨[.word, .word], []⟩
  | .validate | .initRun => ⟨[.word, .word], [.word]⟩
  | .isFinished => ⟨[], [.word]⟩

/-- Something a module exports. -/
inductive Exported where
  | memory
  | function (signature : Signature) (body : Echo.Function)
  deriving DecidableEq, Repr

/-- A function that a module imports, or that the host offers: namespace, name and signature. -/
structure Imported where
  namespaceName : String
  name : String
  signature : Signature
  deriving DecidableEq, Repr

/-- A module that has been read: what it imports, what it exports, and what its build does differently. -/
structure Image where
  imports : List Imported := []
  exports : List (String × Exported) := []
  defect : Option Echo.Defect := none
  deriving DecidableEq, Repr

namespace ModuleConfig

/-- The console functions that the host offers. -/
def offers (names : ModuleConfig) : List Imported :=
  [⟨names.importModule, names.imports.read, ⟨[.word, .word], [.word]⟩⟩,
    ⟨names.importModule, names.imports.write, ⟨[.word, .word], []⟩⟩,
    ⟨names.importModule, names.imports.clock, ⟨[], [.word]⟩⟩]

end ModuleConfig

namespace Image

/-- The echo interpreter's exports, in a build where a step may take another type of argument. -/
def echoExports (stepSignature : Signature) : List (String × Exported) :=
  ("memory", .memory) :: Role.all.map fun role =>
    (role.usualName, .function (if role = .step then stepSignature else role.signature) (Echo.usualFunction role))

/-- The echo interpreter, possibly broken. -/
def echo (defect : Option Echo.Defect := none) : Image where
  imports := ({} : ModuleConfig).offers
  exports := echoExports Role.step.signature
  defect

/-- A build whose step takes a long. -/
def wideStep : Image := { echo with exports := echoExports ⟨[.long], [.word]⟩ }

/-- A build that keeps its memory to itself. -/
def hiddenMemory : Image := { echo with exports := (echoExports Role.step.signature).filter (·.2 != .memory) }

/-- A module with nothing in it. -/
def empty : Image := {}

/-- What the module exports under a name. -/
def lookup (image : Image) (name : String) : Option Exported := image.exports.lookup name

/-- The function for a role under the host's name for it. -/
def functionFor (image : Image) (names : ExportNames) (role : Role) : Except GuestError Echo.Function :=
  match image.lookup (names.ofRole role) with
  | some (.function signature body) => if signature = role.signature then .ok body else .error (.load none)
  | _ => .error (.missingExport (names.ofRole role))

/-- The memory under the host's name for it. -/
def findMemory (image : Image) (names : ExportNames) : Except GuestError Unit :=
  if image.lookup names.memory = some .memory then .ok () else .error (.missingExport names.memory)

/-- Every role's function, looked up in order. -/
def resolve (image : Image) (names : ExportNames) : Except GuestError (List (Role × Echo.Function)) :=
  Role.all.mapM fun role => do
    let body ← image.functionFor names role
    return (role, body)

/-- The host's console functions have names of their own, and the module finds each one that it asks for. -/
def linkable (image : Image) (names : ModuleConfig) : Bool :=
  decide (names.offers.map (·.name)).Nodup && image.imports.all (· ∈ names.offers)

/-- Makes a guest of a module. -/
def instantiate (image : Image) (names : ModuleConfig) (bridge : Bridge) : Except GuestError (Machine Echo) := do
  if !image.linkable names then throw (.load none)
  image.findMemory names.exports
  let table ← image.resolve names.exports
  let functions := fun role => (table.lookup role).getD (Echo.usualFunction role)
  return Echo.machine { defect := image.defect, names := names.exports, functions } bridge

/-! ## Modules by name -/

/-- The number in a text, with or without a minus sign. -/
def statusNamed? (text : String) : Option Int32 := text.toInt?.map Int32.ofInt

/-- The module with a name; `none` when no module can be read under it. -/
def named? (name : String) : Option Image :=
  match name with
  | "echo" => some echo
  | "oob_write" => some (echo (some .badWrite))
  | "oob_read" => some (echo (some .badRead))
  | "trap_step" => some (echo (some (.traps .stepInterpreter)))
  | "trap_init" => some (echo (some (.traps .setUp)))
  | "trap_malloc" => some (echo (some (.traps .malloc)))
  | "trap_free" => some (echo (some (.traps .free)))
  | "trap_validate" => some (echo (some (.traps .validate)))
  | "trap_init_run" => some (echo (some (.traps .initInterpreter)))
  | "trap_deinit" => some (echo (some (.traps .deinitInterpreter)))
  | "trap_done" => some (echo (some (.traps .isInterpreterDone)))
  | "bad_sig" => some wideStep
  | "no_memory" => some hiddenMemory
  | "empty_module" => some empty
  | _ =>
    if name.startsWith "status_" then
      (statusNamed? (name.drop 7).toString).map fun status => echo (some (.status status))
    else none

/-! ## Module files

Module files are not read here. `ofFile?` stands in for a reader of theirs: it knows the file of a build of the echo interpreter by
a mark on its first line, and the module with nothing in it. Nothing that is proved depends on it. -/

/-- What stands before the name of a build on the first line of its file; to the text format of modules it is a comment. -/
def mark : String := ";; interpreter build: "

/-- The file of the build with a name. -/
def marked (name : String) : List UInt8 := Text.encode (mark ++ name ++ "\n")

/-- A module with nothing in it, in the binary format: four bytes for the format and four for its version. -/
def emptyBinary : List UInt8 := [0x00, 0x61, 0x73, 0x6D, 0x01, 0x00, 0x00, 0x00]

/-- The module that a file stands for, if it is one of those that are known. -/
def ofFile? (bytes : List UInt8) : Option Image :=
  if bytes = emptyBinary then some empty
  else
    match Text.decode? bytes with
    | none => none
    | some text =>
      let line := text.toList.takeWhile (· != '\n')
      if mark.toList.isPrefixOf line then named? (String.ofList (line.drop mark.length))
      else if Text.trim text.toList = "(module)".toList then some empty
      else none

end Image

end Playground
