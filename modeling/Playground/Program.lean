import Playground.CommandLine.Help
import Playground.Config.Locate
import Playground.Guest.Image
import Playground.Session.Configured
import Playground.Toml.Page

/-!
# The program

What the playground does for the words of a command line, given the files, the environment and the working directory. A plan
is either done, with a report of what was printed and the exit code, or a launch: a session that is ready to run a program. A
launch without console input can be finished here; the live console runs it tick by tick.

The configuration comes first, also for commands that do not need it; then the program's source is read, and only then the
module. How a command line, a document and a module file are read is left to `Libraries`.
-/

namespace Playground

/-- What the program is built on and does not decide itself: how the words of a command line, the text of a document and the
bytes of a module file are read. -/
structure Libraries where
  request? : List String → Option Request
  codec : Toml.Codec
  image? : List UInt8 → Option Image

/-- Readers of the playground's own, which stand in for those of libraries. `Image.ofFile?` does not read modules at all, it only
tells the builds of the echo interpreter from each other. -/
def Libraries.builtIn : Libraries where
  request? := CommandLine.parse?
  codec := .builtIn
  image? := Image.ofFile?

/-- What the program leaves behind: its output, what it says beside it, and its exit code. -/
structure Report where
  stdout : List UInt8 := []
  stderr : List String := []
  code : UInt8 := 0
  deriving DecidableEq, Repr

/-- A session that is ready to run a program. -/
structure Launch where
  session : Session Echo
  source : String
  /-- What the log shows. -/
  level : LogLevel

/-- What a command line comes to. -/
inductive Plan where
  | done (report : Report)
  | launch (launch : Launch)

namespace Report

/-- Text for a terminal, bold and red. -/
def warning (text : String) : String := "\x1b[1m\x1b[31m" ++ text ++ "\x1b[39m\x1b[0m"

/-- Text for a terminal, green. -/
def success (text : String) : String := "\x1b[32m" ++ text ++ "\x1b[39m"

/-- The line for something that went wrong. -/
def complaint (label text : String) : String := warning label ++ " " ++ text ++ "\n"

/-- A report of a failure before anything was run. -/
def ofFailure (message : String) : Report where
  stderr := [complaint "error:" message]
  code := 1

/-- A report of text that was asked for. -/
def ofText (text : String) : Report where
  stdout := Text.encode text

/-- A refused command line. -/
def usage : Report where
  stderr := ["error: the command line does not make sense\n\nFor more information, try '--help'.\n"]
  code := 2

end Report

namespace Program

/-! ## What a command needs -/

/-- Reads a program's source. -/
def readSource (files : Files) (path : String) : Except String String :=
  match files.readText path with
  | .ok text => .ok text
  | .error error => .error ("Failed to read file: " ++ path ++ ": " ++ error.message)

/-- The source of a sample. -/
def sampleSource (index : Nat) : Except String String :=
  match Sample.find? index with
  | some sample => .ok sample.source
  | none => .error ("No sample " ++ toString index ++ " (there are " ++ toString Sample.all.length ++ ")")

/-- The source of the program to run. -/
def source (files : Files) : Origin → Except String String
  | .file path => readSource files path
  | .sample index => sampleSource index

/-- A terminal: what is printed stays, a clear prints a control sequence. -/
def terminal : Bridge := Bridge.create { style := .erase } {}

/-- Reads a guest module. -/
def loadModule (libraries : Libraries) (files : Files) (config : ModuleConfig) : Except GuestError (Machine Echo) :=
  match files.read config.path with
  | .error error => .error (.load (some (config.path ++ ": " ++ error.message)))
  | .ok bytes =>
    match libraries.image? bytes with
    | some image => image.instantiate config terminal
    | none => .error (.load (some (config.path ++ ": not a module")))

/-- Reads the configured module and sets a session up over it. -/
def openSession (libraries : Libraries) (files : Files) (config : Config) : Except String (Session Echo) :=
  match loadModule libraries files config.guest with
  | .error error => .error ("Failed to load interpreter module: " ++ config.guest.path ++ ": " ++ error.message)
  | .ok machine =>
    match Session.ofConfig config machine with
    | .error (error, _) => .error error.message
    | .ok session => .ok session

/-- An error with its cause: the cause stands in the message of an unreadable file, and once more behind it. -/
def configFailure : ConfigError → String
  | .unreadable path error => (ConfigError.unreadable path error).message ++ ": " ++ error.message
  | error => error.message

/-- The configuration for a command: what options say holds over what files say. -/
def configure (libraries : Libraries) (files : Files) (env : Environment) (directory : String) (options : Options) :
    Except String Config :=
  match Config.discover libraries.codec files env options.config directory with
  | .error error => .error (configFailure error)
  | .ok config => .ok { config with guest := { config.guest with path := options.modulePath.getD config.guest.path } }

/-- The files that a command reads. -/
def reads (config : Config) : Command → List String
  | .run (.file path) | .check path => [path, config.guest.path]
  | .run (.sample _) | .eval _ => [config.guest.path]
  | .samples _ | .version => []

/-! ## What a command does -/

/-- The lines of events that the log shows. -/
def logLines (level : LogLevel) (events : List LogEvent) : List String :=
  (events.filter (·.shownAt level)).map fun event => event.alignedLine ++ "\n"

/-- A list of the samples. -/
def sampleList : String :=
  String.join (Sample.all.zipIdx.map fun (sample, index) => Text.alignRight 2 (toString index) ++ "  " ++ sample.name ++ "\n")

/-- Makes a session ready for a program. -/
def launch (libraries : Libraries) (files : Files) (config : Config) (level : LogLevel) (source : String) : Plan :=
  match openSession libraries files config with
  | .error message => .done (.ofFailure message)
  | .ok session => .launch { session, source, level }

/-- Compiles a program without running it. -/
def check (libraries : Libraries) (files : Files) (config : Config) (level : LogLevel) (source : String) : Report :=
  match openSession libraries files config with
  | .error message => .ofFailure message
  | .ok session =>
    let (result, session) := session.check source
    let log := logLines level session.controller.journal
    match result with
    | .error error => { Report.ofFailure error.message with stderr := log ++ (Report.ofFailure error.message).stderr }
    | .ok .success => { stderr := log ++ [Report.success "Check passed!" ++ "\n"] }
    | .ok outcome => { stderr := log ++ [Report.complaint "check failed:" outcome.describe], code := 2 }

/-- Does what a command asks for, up to the point where a program runs. -/
def act (libraries : Libraries) (files : Files) (config : Config) (level : LogLevel) : Command → Plan
  | .run origin =>
    match source files origin with
    | .error message => .done (.ofFailure message)
    | .ok source => launch libraries files config level source
  | .eval code => launch libraries files config level code
  | .check path =>
    match readSource files path with
    | .error message => .done (.ofFailure message)
    | .ok source => .done (check libraries files config level source)
  | .samples none => .done (.ofText sampleList)
  | .samples (some index) =>
    match sampleSource index with
    | .error message => .done (.ofFailure message)
    | .ok source => .done (.ofText source)
  | .version => .done (.ofText (hostName ++ " " ++ hostVersion ++ "\n"))

/-- What the log shows when a command asks for more. -/
def level (config : Config) (options : Options) : LogLevel := config.logLevel.moreVerboseBy options.verbose

/-- What a command line comes to. -/
def plan (libraries : Libraries) (files : Files) (env : Environment) (directory : String) (words : List String) : Plan :=
  match libraries.request? words with
  | none => .done .usage
  | some (.help topic) => .done (.ofText (CommandLine.help topic))
  | some .version => .done (.ofText CommandLine.versionLine)
  | some (.act options command) =>
    match configure libraries files env directory options with
    | .error message => .done (.ofFailure message)
    | .ok config => act libraries files config (level config options) command

/-! ## How a run ends -/

/-- What is said at the end of a run, and the exit code. -/
def verdict : Except HostError SessionExit → List String × UInt8
  | .error error => ([Report.complaint "error:" error.message], 1)
  | .ok exit =>
    (match exit with
      | .rejected outcome => [Report.complaint "failed to compile code:" outcome.describe]
      | .alarm outcome => [Report.complaint "emulator failed:" outcome.describe]
      | .finished | .faulted _ | .cancelled => [], exit.exitCode)

/-- What a run printed and said, and how it ended. -/
def report (level : LogLevel) (session : Session Echo) (result : Except HostError SessionExit) : Report :=
  let (lines, code) := verdict result
  { stdout := session.controller.machine.bridge.sink.contents
    stderr := logLines level session.controller.journal ++ lines
    code }

/-- Runs a launch to its end, at most `fuel` ticks, with nobody at the console. -/
def finish (fuel : Nat) (l : Launch) : Option Report :=
  match l.session.run (fun _ silence => ([.endOfInput], silence)) fuel l.source () with
  | (some result, session, _) => some (report l.level session result)
  | (none, _, _) => none

/-- Carries a plan out, at most `fuel` ticks of it, with nobody at the console. -/
def carryOut (fuel : Nat) : Plan → Option Report
  | .done report => some report
  | .launch l => finish fuel l

end Program

end Playground
