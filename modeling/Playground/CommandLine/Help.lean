import Playground.CommandLine
import Playground.Samples
import Playground.Text.Column

/-!
# Help texts

The help on the playground lists its commands and options, the help on a command its argument and options. Names stand in a
column that is as wide as the widest of them.
-/

namespace Playground

/-- A command's purpose. -/
def Verb.purpose : Verb → String
  | .run => "Run a LoLa source file"
  | .eval => "Evaluate LoLa code from command line"
  | .check => "Check source file for compile errors without running it"
  | .samples => "List the built-in samples, or print one"
  | .version => "Print version information"
  | .help => "Print this message or the help of the given subcommand(s)"

/-- A command's argument: how it is written, and what it is. -/
def Verb.argument? : Verb → Option (String × String)
  | .run => some ("[FILE]", "Source file to run")
  | .eval => some ("<CODE>", "Code to evaluate")
  | .check => some ("<FILE>", "Source file to check")
  | .samples => some ("[N]", "")
  | .version => none
  | .help => some ("[COMMAND]...", "Print help for the subcommand(s)")

/-- An option: how it is written, and what it does. -/
def Flag.entry : Flag → String × String
  | .verbose => ("-v, --verbose...", "More log output (repeat for more)")
  | .config => ("-c, --config <CONFIG>", "Config file to use instead of the discovered one")
  | .modulePath => ("    --module <PATH>", "Interpreter module (.wasm or .wat)")
  | .sample => ("    --sample <N>", "Run a built-in sample instead")
  | .help => ("-h, --help", "Print help")
  | .version => ("-V, --version", "Print version")

namespace CommandLine

/-- The name by which the playground is called. -/
def programName : String := "lola-playground"

/-- A heading with its entries, the names in one column. -/
def table (heading : String) (entries : List (String × String)) : String :=
  let width := (entries.map (·.1.length)).foldl max 0
  let row := fun (name, text) => "  " ++ Text.alignLeft width name ++ "  " ++ text ++ "\n"
  heading ++ ":\n" ++ String.join (entries.map row)

/-- The help on the playground, or on one of its commands. -/
def help : Option Verb → String
  | none =>
    hostName ++ "\n\nUsage: " ++ programName ++ " [OPTIONS] <COMMAND>\n\n" ++
      table "Commands" (Verb.all.map fun verb => (verb.name, verb.purpose)) ++ "\n" ++
      table "Options" (outer.flags.map Flag.entry)
  | some .help =>
    Verb.help.purpose ++ "\n\nUsage: " ++ programName ++ " help [COMMAND]...\n\n" ++
      table "Arguments" Verb.help.argument?.toList
  | some verb =>
    let argument := verb.argument?
    verb.purpose ++ "\n\nUsage: " ++ programName ++ " " ++ verb.name ++ " [OPTIONS]" ++
      String.join (argument.toList.map fun a => " " ++ a.1) ++ "\n\n" ++
      String.join (argument.toList.map fun a => table "Arguments" [a] ++ "\n") ++
      table "Options" ((inner verb).flags.map Flag.entry)

/-- What the playground says of its version when an option asks for it. -/
def versionLine : String := programName ++ " " ++ hostVersion ++ "\n"

end CommandLine

end Playground
