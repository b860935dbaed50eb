import Playground.Program

/-!
# The live program

The outer layer: it reads the files that a command asks for, lets a launched session tick in real time with the console
behind it, and prints what there is to print as soon as it is there. What any of this means is decided elsewhere.
-/

namespace Playground.Live

/-- The system's number for a failure, which may come with its sign turned round. -/
def errorNumber (code : UInt32) : UInt32 := if code < 0x80000000 then code else 0 - code

/-- A failure by its number. -/
def fileError (error : IO.Error) : UInt32 → FileError
  | 2 => .notFound
  | 20 => .notDirectory
  | 21 => .isDirectory
  | 36 => .nameTooLong
  | _ => .refused (toString error)

/-- Why a file could not be read. -/
def fileErrorOf (error : IO.Error) : FileError :=
  match error with
  | .noFileOrDirectory _ code _ => fileError error (errorNumber code)
  | .inappropriateType _ code _ => fileError error (errorNumber code)
  | .invalidArgument _ code _ => fileError error (errorNumber code)
  | _ => .refused (toString error)

/-- Reads a file. -/
def readFile (path : String) : IO (Except FileError (List UInt8)) := do
  if path.toList.contains '\x00' then return .error .nulInName
  try
    return .ok (← IO.FS.readBinFile path).toList
  catch error =>
    return .error (fileErrorOf error)

/-- Reads files beforehand. -/
def readAll (paths : List String) : IO Files := do
  return .ofList (← paths.mapM fun path => do return (path, ← readFile path))

/-- Prints a report, and passes its exit code on. -/
def printReport (report : Report) : IO UInt8 := do
  let stdout ← IO.getStdout
  stdout.write (ByteArray.mk report.stdout.toArray)
  stdout.flush
  report.stderr.forM IO.eprint
  return report.code

/-- A session at the console: how much of its journal has been shown, and the line of input that is being waited for. -/
structure Desk where
  session : Session Echo
  shown : Nat := 0
  input : Option (Task (Except IO.Error String)) := none

/-- Waits for a line of input, aside. -/
def await : IO (Task (Except IO.Error String)) := do
  let stdin ← IO.getStdin
  IO.asTask stdin.getLine .dedicated

/-- What has been typed since the last tick. -/
def Desk.receive (d : Desk) : IO (List Signal × Desk) := do
  match d.input with
  | none => return ([], d)
  | some task =>
    if ← IO.hasFinished task then
      match task.get with
      | .error error => return ([.inputFailed (toString error)], { d with input := none })
      | .ok "" => return ([.endOfInput], { d with input := none })
      | .ok line => return ([.chunk (Text.encode line)], { d with input := some (← await) })
    else return ([], d)

/-- Prints what the program has printed and what the log shows of what has happened. -/
def Desk.print (d : Desk) (level : LogLevel) : IO Desk := do
  let stdout ← IO.getStdout
  stdout.write (ByteArray.mk d.session.controller.machine.bridge.sink.contents.toArray)
  stdout.flush
  let journal := d.session.controller.journal
  (Program.logLines level (journal.drop d.shown)).forM IO.eprint
  return { d with session := { d.session with controller.machine.bridge.sink.chunks := [] }, shown := journal.length }

/-- The session with its clock set to the milliseconds since a moment. -/
def Desk.atTime (d : Desk) (start : Nat) : IO Desk := do
  let now ← IO.monoMsNow
  return { d with session := { d.session with controller.machine.bridge.clock := ⟨UInt64.ofNat (now - start)⟩ } }

/-- Says how a run ended. -/
def conclude (result : Except HostError SessionExit) : IO UInt8 := do
  let (lines, code) := Program.verdict result
  lines.forM IO.eprint
  return code

/-- Ticks in real time until the end of the run. -/
partial def tickOn (l : Launch) (start : Nat) (d : Desk) (listening : Listening) : IO UInt8 := do
  let (signals, d) ← d.receive
  let d ← d.atTime start
  let (session, listening) := d.session.receiveAll listening signals
  let (result, session) := session.tick
  let d ← Desk.print { d with session } l.level
  match result with
  | some result => conclude result
  | none =>
    IO.sleep (UInt32.ofNat (min session.interval.toNat (UInt32.size - 1)))
    tickOn l start d listening

/-- Runs a launched program at the console. -/
def runLaunch (l : Launch) : IO UInt8 := do
  let start ← IO.monoMsNow
  let (result, session) := l.session.begin l.source
  let d ← Desk.print { session } l.level
  match result with
  | some result => conclude result
  | none => tickOn l start { d with input := some (← await) } {}

/-- Carries a plan out at the console. -/
def carryOut : Plan → IO UInt8
  | .done report => printReport report
  | .launch l => runLaunch l

/-- The part of the environment that says where configurations are. -/
def readEnvironment : IO Environment := do
  return {
    xdgConfigHome := ← IO.getEnv "XDG_CONFIG_HOME"
    home := ← IO.getEnv "HOME"
    appData := ← IO.getEnv "APPDATA" }

/-- Does what a command line asks for; first the configuration is read, then the files that the command needs. -/
def perform (libraries : Libraries) (words : List String) : IO UInt8 := do
  let directory := (← IO.currentDir).toString
  match libraries.request? words with
  | some (.act options command) =>
    let env ← readEnvironment
    let files ← readAll (Config.candidates env options.config directory)
    match Program.configure libraries files env directory options with
    | .error message => printReport (.ofFailure message)
    | .ok config =>
      let files ← readAll (Program.reads config command)
      carryOut (Program.act libraries files config (Program.level config options) command)
  | _ => carryOut (Program.plan libraries (.ofList []) {} directory words)

end Playground.Live

/-- The program: the exit code tells how the run ended. -/
def main (words : List String) : IO UInt32 := do
  return (← Playground.Live.perform .builtIn words).toUInt32
