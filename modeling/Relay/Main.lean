import Relay.Program
import Relay.Timestamp
import Std.Time.DateTime.Timestamp

/-! The command line. The server of this program has no peers but the network
`Network.isolated`; it serves until its standard input ends. -/

namespace Relay.Main

def readFile? (path : String) : IO (Option (List UInt8)) := do
  try
    return some (← IO.FS.readBinFile path).toList
  catch _ => return none

def readFiles (paths : List String) : IO (List (String × List UInt8)) :=
  paths.filterMapM fun path => do
    return (← readFile? path).map fun octets => (path, octets)

def environment : IO (List (String × String)) := do
  let octets := (← readFile? "/proc/self/environ").getD []
  let entries := Text.parts '\x00' (Utf8.decodeLossy octets)
  return entries.filterMap fun entry =>
    match entry.dropWhile (· ≠ '=') with
    | _ :: value =>
        some (String.ofList (entry.takeWhile (· ≠ '=')), String.ofList value)
    | [] => none

def configurationPaths (arguments : List String) : List String :=
  let named :=
    match Arguments.parse arguments with
    | .ok arguments => arguments.config.toList
    | .error _ => []
  Program.variablesFile :: (Config.defaultPath :: named).flatMap Config.File.candidates

def print (line : LogLine) : IO Unit := do
  let now ← Std.Time.Timestamp.now
  let microseconds := now.toNanosecondsSinceUnixEpoch.toInt.toNat / 1000
  let label := String.ofList (List.replicate (5 - line.level.label.length) ' ') ++ line.level.label
  IO.println (Timestamp.render microseconds ++ " " ++ label ++ " " ++ line.text)

partial def waitForEnd (input : IO.FS.Stream) : IO Unit := do
  unless (← input.getLine).isEmpty do waitForEnd input

end Relay.Main

open Relay in
def main (arguments : List String) : IO UInt32 := do
  let environment ← Main.environment
  let name := ((environment.find? fun entry => entry.1 = "PWD").map Prod.snd).getD "."
  let files ← Main.readFiles (Main.configurationPaths arguments)
  match Program.launch ⟨.isolated, ⟨name, files⟩, environment, arguments⟩ with
  | .finished code log =>
      log.forM Main.print
      return code.toUInt32
  | .serving level log =>
      log.forM Main.print
      Main.waitForEnd (← IO.getStdin)
      (LogLine.visible level Program.stopping).forM Main.print
      return 0
