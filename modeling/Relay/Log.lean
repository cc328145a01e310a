import Relay.Text.Blank

namespace Relay

/-! The log: lines of a severity, of which those that are too unimportant are
left out. -/

inductive LogLevel where
  | error
  | warning
  | info
  | debug
  | trace
  deriving DecidableEq, Repr

namespace LogLevel

def rank : LogLevel → Nat
  | .error => 0
  | .warning => 1
  | .info => 2
  | .debug => 3
  | .trace => 4

def label : LogLevel → String
  | .error => "ERROR"
  | .warning => "WARN"
  | .info => "INFO"
  | .debug => "DEBUG"
  | .trace => "TRACE"

/-- The level of a name, with small or capital letters and white space around
it. Every name that is not known means `info`. The small form of a letter
outside ASCII occurs in no known name, so that only ASCII letters have to be
made small. -/
def ofName (name : String) : LogLevel :=
  match String.ofList ((Text.trim name.toList).map Char.toLower) with
  | "error" => .error
  | "warn" | "warning" => .warning
  | "debug" => .debug
  | "trace" => .trace
  | _ => .info

example : ofName " Warning\n" = .warning ∧ ofName "warnings" = .info := by
  decide +kernel

end LogLevel

structure LogLine where
  level : LogLevel
  text : String
  deriving DecidableEq, Repr

def LogLine.visible (level : LogLevel) (lines : List LogLine) : List LogLine :=
  lines.filter fun line => line.level.rank ≤ level.rank

end Relay
