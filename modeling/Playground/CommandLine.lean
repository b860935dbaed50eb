/-!
# The command line

The words of a command line name one command. Options that concern every command may stand before its name and after it;
where both say something, what stands after it holds. A word that begins with a dash is an option, or a cluster of one-letter
options, unless it is a dash alone; after two dashes nothing is an option any more. An option's value follows it as a word of
its own or behind an equals sign, and only then may begin with a dash.

Words are read in order. The first one that asks for help or for the version settles the request, and the first one that does
not belong where it stands refuses it, whatever follows. A value that is a word of its own waits to be checked until more
follows at its level.

`CommandLine.parse?` is one reader of command lines. The program takes any, and nothing that is proved depends on this one.
-/

namespace Playground

/-- A command's name. -/
inductive Verb where
  | run
  | eval
  | check
  | samples
  | version
  | help
  deriving DecidableEq, Repr

namespace Verb

/-- Every command, in the order in which they are listed. -/
def all : List Verb := [run, eval, check, samples, version, help]

/-- The name as it is written. -/
def name : Verb → String
  | run => "run"
  | eval => "eval"
  | check => "check"
  | samples => "samples"
  | version => "version"
  | help => "help"

/-- The command with a name. -/
def ofName? (text : String) : Option Verb := all.find? fun verb => verb.name == text

end Verb

/-- An option. -/
inductive Flag where
  | verbose
  | config
  | modulePath
  | sample
  | help
  | version
  deriving DecidableEq, Repr

namespace Flag

/-- The name behind two dashes. -/
def name : Flag → String
  | verbose => "verbose"
  | config => "config"
  | modulePath => "module"
  | sample => "sample"
  | help => "help"
  | version => "version"

/-- The letter behind one dash. -/
def letter? : Flag → Option Char
  | verbose => some 'v'
  | config => some 'c'
  | help => some 'h'
  | version => some 'V'
  | modulePath | sample => none

/-- The option has a value. -/
def takesValue : Flag → Bool
  | config | modulePath | sample => true
  | verbose | help | version => false

end Flag

/-- Where the program to run comes from. -/
inductive Origin where
  | file (path : String)
  | sample (index : Nat)
  deriving DecidableEq, Repr

/-- What to do. -/
inductive Command where
  | run (origin : Origin)
  | eval (code : String)
  | check (path : String)
  /-- List the samples, or print one. -/
  | samples (index : Option Nat)
  | version
  deriving DecidableEq, Repr

/-- What concerns every command. -/
structure Options where
  /-- How many levels more the log shows. -/
  verbose : Nat := 0
  /-- The configuration file, if it is not to be looked for. -/
  config : Option String := none
  /-- The interpreter module, if it is not the configured one. -/
  modulePath : Option String := none
  deriving DecidableEq, Repr

/-- What a command line asks for. -/
inductive Request where
  | act (options : Options) (command : Command)
  | help (topic : Option Verb)
  | version
  deriving DecidableEq, Repr

namespace CommandLine

/-- What may stand at a level of the command line: before the command's name, or after it. -/
structure Scope where
  flags : List Flag
  verbs : List Verb := []
  /-- The words that may stand here without being an option or a command's name; there is room for one. -/
  accepts : String → Bool

/-- What one word says, or an option with its value. -/
inductive Item where
  | switch (flag : Flag)
  /-- An option's value, which is attached to the option or a word of its own. -/
  | value (flag : Flag) (text : String) (attached : Bool)
  | plain (text : String)
  /-- A command's name, and every word after it. -/
  | verb (verb : Verb) (rest : List String)
  /-- A word that does not belong here. -/
  | stray
  deriving DecidableEq, Repr

/-! ## Words -/

/-- An option by its name, perhaps with a value behind an equals sign: what it says, or the option whose value is still to
come. -/
def byName (flags : List Flag) (text : List Char) : List Item × Option Flag :=
  let name := String.ofList (text.takeWhile (· != '='))
  match flags.find? (·.name == name), text.dropWhile (· != '=') with
  | none, _ => ([.stray], none)
  | some flag, [] => if flag.takesValue then ([], some flag) else ([.switch flag], none)
  | some flag, _ :: value => (if flag.takesValue then [.value flag (String.ofList value) true] else [.stray], none)

/-- A cluster of letters. One whose option takes a value takes the rest of the cluster, without an equals sign in front. -/
def byLetters (flags : List Flag) : List Char → List Item × Option Flag
  | [] => ([], none)
  | c :: rest =>
    match flags.find? (·.letter? == some c) with
    | none => ([.stray], none)
    | some flag =>
      if flag.takesValue then
        match rest with
        | [] => ([], some flag)
        | '=' :: value => ([.value flag (String.ofList value) true], none)
        | value => ([.value flag (String.ofList value) true], none)
      else
        let (items, awaited) := byLetters flags rest
        (.switch flag :: items, awaited)

/-- What words say, in order, where the value of an option may be awaited. -/
def scan (scope : Scope) : Option Flag → List String → List Item
  | none, [] => []
  | some _, [] => [.stray]
  | awaited, word :: rest =>
    match word.toList, awaited with
    | '-' :: _ :: _, some _ => [.stray]
    | _, some flag => .value flag word false :: scan scope none rest
    | ['-', '-'], none => rest.map .plain
    | '-' :: '-' :: text, none =>
      let (items, awaited) := byName scope.flags text
      items ++ scan scope awaited rest
    | '-' :: c :: text, none =>
      let (items, awaited) := byLetters scope.flags (c :: text)
      items ++ scan scope awaited rest
    | _, none =>
      match scope.verbs.find? (·.name == word) with
      | some verb => [.verb verb rest]
      | none => .plain word :: scan scope none rest

/-! ## Levels -/

/-- A number in decimal digits, perhaps with a plus sign, of at most 64 bits. -/
def index? (text : String) : Option Nat :=
  let digits := match text.toList with
    | '+' :: digits => digits
    | digits => digits
  if digits.isEmpty || !digits.all Char.isDigit then none
  else
    let n := digits.foldl (fun n c => n * 10 + (c.toNat - '0'.toNat)) 0
    if n < UInt64.size then some n else none

/-- What has been given at one level. -/
structure Given where
  options : Options := {}
  sample : Option Nat := none
  plain : Option String := none
  deriving DecidableEq, Repr

/-- A path that an option gives: it is not empty, and it is given once. -/
def path? (before : Option String) (text : String) : Option String :=
  if before.isSome || text.isEmpty then none else some text

/-- Takes one item in. -/
def Given.take? (scope : Scope) (g : Given) : Item → Option Given
  | .switch .verbose => some { g with options := { g.options with verbose := g.options.verbose + 1 } }
  | .value .config text _ =>
    (path? g.options.config text).map fun path => { g with options := { g.options with config := some path } }
  | .value .modulePath text _ =>
    (path? g.options.modulePath text).map fun path => { g with options := { g.options with modulePath := some path } }
  | .value .sample text _ =>
    if g.sample.isSome then none else (index? text).map fun index => { g with sample := some index }
  | .plain text => if g.plain.isSome || !scope.accepts text then none else some { g with plain := some text }
  | _ => none

/-- What a level comes to. -/
inductive Settled where
  | given (g : Given)
  /-- A command's name was reached. The last item before it may still have to be taken in. -/
  | verb (g : Given) (last : Option Item) (verb : Verb) (rest : List String)
  | help
  | version
  deriving DecidableEq, Repr

/-- Takes items in, in order; `none` if one of them does not belong here. A value that is a word of its own is looked at when
its level goes on, so the last one before a command's name waits until the words after the name have been read. -/
def settle (scope : Scope) : Given → List Item → Option Settled
  | g, [] => some (.given g)
  | _, .switch .help :: _ => some .help
  | _, .switch .version :: _ => some .version
  | g, .verb verb rest :: _ => some (.verb g none verb rest)
  | g, [.value flag text false, .verb verb rest] => some (.verb g (some (.value flag text false)) verb rest)
  | g, item :: items => (g.take? scope item).bind fun g => settle scope g items

/-- Reads a level. -/
def level (scope : Scope) (words : List String) : Option Settled := settle scope {} (scan scope none words)

/-! ## Requests -/

/-- Before the command's name. -/
def outer : Scope where
  flags := [.verbose, .config, .modulePath, .help, .version]
  verbs := Verb.all
  accepts _ := false

/-- After a command's name. -/
def inner (verb : Verb) : Scope where
  flags := (if verb = .run then [.sample] else []) ++ [.verbose, .config, .modulePath, .help]
  accepts text :=
    match verb with
    | .run | .check => !text.isEmpty
    | .eval => true
    | .samples => (index? text).isSome
    | .version | .help => false

/-- The command that its name and what was given with it make. A program to run comes from a file or from a sample. -/
def command? (verb : Verb) (g : Given) : Option Command :=
  match verb, g.plain, g.sample with
  | .run, some path, none => some (.run (.file path))
  | .run, none, some index => some (.run (.sample index))
  | .eval, some code, _ => some (.eval code)
  | .check, some path, _ => some (.check path)
  | .samples, plain, _ => some (.samples (plain.bind index?))
  | .version, _, _ => some .version
  | _, _, _ => none

/-- What stands after a command's name holds, and else what stands before it. -/
def merge (before after : Options) : Options where
  verbose := if after.verbose = 0 then before.verbose else after.verbose
  config := after.config <|> before.config
  modulePath := after.modulePath <|> before.modulePath

/-- What to give help on. -/
def helpOn : List String → Option Request
  | [] => some (.help none)
  | [word] => (Verb.ofName? word).map fun verb => .help (some verb)
  | _ => none

/-- What the words of a command line ask for; `none` if they do not make sense. -/
def parse? (words : List String) : Option Request := do
  match ← level outer words with
  | .given _ => none
  | .help => some (.help none)
  | .version => some .version
  | .verb _ _ .help rest => helpOn rest
  | .verb before last verb rest =>
    match ← level (inner verb) rest with
    | .given after =>
      let command ← command? verb after
      let before ← last.elim (some before) (before.take? outer)
      return .act (merge before.options after.options) command
    | .help => some (.help (some verb))
    | .version | .verb _ _ _ _ => none

end CommandLine

end Playground
