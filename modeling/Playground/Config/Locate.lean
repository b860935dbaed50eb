import Playground.Config.Document
import Playground.Path

/-!
# Finding the configuration

A configuration is looked for in three files: the one that was asked for, the project's file, the user's file. The first one
that is there is read, and an explicit one even if it is not there; what the others hold does not matter then. Without any of
them the defaults hold. Where the user's file is depends on the environment.
-/

namespace Playground

/-- The part of the process's environment that says where a user keeps configurations. -/
structure Environment where
  xdgConfigHome : Option String := none
  home : Option String := none
  appData : Option String := none
  deriving DecidableEq, Repr

namespace Environment

/-- The playground's own directory inside one for configurations. -/
def ownDirectory : String := "lola-playground"

/-- The directory of the user's configuration. -/
def configDir (env : Environment) : Option String :=
  match env.xdgConfigHome, env.home, env.appData with
  | some xdg, _, _ => some (Path.join xdg ownDirectory)
  | none, some home, _ => some (Path.join (Path.join home ".config") ownDirectory)
  | none, none, some appData => some (Path.join appData ownDirectory)
  | none, none, none => none

/-- The user's configuration file. -/
def configPath (env : Environment) : Option String := env.configDir.map fun dir => Path.join dir "config.toml"

end Environment

namespace Config

/-- The name of a project's configuration file. -/
def projectFile : String := "lola-playground.toml"

/-- The file to read, if there is one. -/
def choose (files : Files) (env : Environment) (explicit : Option String) (projectDir : String) : Option String :=
  match explicit with
  | some path => some path
  | none =>
    let project := Path.join projectDir projectFile
    if files.has project then some project else env.configPath.filter fun user => files.has user

/-- Reads the configuration in a file. -/
def load (codec : Toml.Codec) (files : Files) (path : String) : Except ConfigError Config :=
  match files.readText path with
  | .error error => .error (.unreadable path error)
  | .ok text => ofToml codec text

/-- The configuration that holds in a project's directory. -/
def discover (codec : Toml.Codec) (files : Files) (env : Environment) (explicit : Option String) (projectDir : String) :
    Except ConfigError Config :=
  match choose files env explicit projectDir with
  | some path => load codec files path
  | none => .ok {}

/-- Every file that `discover` may ask for. -/
def candidates (env : Environment) (explicit : Option String) (projectDir : String) : List String :=
  explicit.toList ++ [Path.join projectDir projectFile] ++ env.configPath.toList

end Config

end Playground
