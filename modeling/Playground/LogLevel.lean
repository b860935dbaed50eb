import Playground.Text.Blank

/-!
# Levels of log lines

Five levels, from `trace`, the most talkative, to `error`. A level's name is read without the white space around it and without
regard to the case of its ASCII letters; `warning` is a second name of `warn`.
-/

namespace Playground

/-- How much a log line matters. -/
inductive LogLevel where
  | trace
  | debug
  | info
  | warn
  | error
  deriving DecidableEq, Repr

namespace LogLevel

/-- The place in the order, from the most talkative level on. -/
def rank : LogLevel → Nat
  | trace => 0
  | debug => 1
  | info => 2
  | warn => 3
  | error => 4

/-- The order of the levels, from the most talkative one on. -/
def compare (a b : LogLevel) : Ordering := Ord.compare a.rank b.rank

/-- One step more talkative; `trace` stays. -/
def moreVerbose : LogLevel → LogLevel
  | error => warn
  | warn => info
  | info => debug
  | debug | trace => trace

/-- `n` steps more talkative. From every level four steps lead to `trace`, so no more need to be taken. -/
def moreVerboseBy (level : LogLevel) (n : Nat) : LogLevel := (min n 4).repeat moreVerbose level

/-- The name in log lines. -/
def label : LogLevel → String
  | trace => "TRACE"
  | debug => "DEBUG"
  | info => "INFO"
  | warn => "WARN"
  | error => "ERROR"

/-- The level with a name, if there is one. -/
def parse? (text : String) : Option LogLevel :=
  match String.ofList ((Text.trim text.toList).map Char.toLower) with
  | "trace" => some trace
  | "debug" => some debug
  | "info" => some info
  | "warn" | "warning" => some warn
  | "error" => some error
  | _ => none

/-- The words for a text that names no level; the text is given as it was written. -/
def unknownMessage (text : String) : String := "unknown log level `" ++ text ++ "`"

end LogLevel

end Playground
