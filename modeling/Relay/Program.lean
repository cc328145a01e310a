import Relay.Arguments
import Relay.Config
import Relay.Config.Variables
import Relay.Failure
import Relay.Log
import Relay.Network
import Relay.Request

namespace Relay

/-! The program: it reads its arguments and settings, listens, and serves until
it is interrupted. What it says on the way goes to the log. -/

namespace Program

structure Surroundings where
  network : Network
  directory : Config.Directory
  /-- The variables that are set. -/
  environment : List (String × String)
  arguments : List String

def variablesFile : String := ".env"

def fullEnvironment (surroundings : Surroundings) : List (String × String) :=
  match surroundings.directory.read? [variablesFile] with
  | some octets => Config.Variables.load octets surroundings.environment
  | none => surroundings.environment

def malformedFile : String := "malformed configuration file"

def settings (surroundings : Surroundings) (arguments : Arguments) :
    Except Failure Settings :=
  match Config.load surroundings.directory arguments.config (fullEnvironment surroundings) with
  | .ok settings => .ok (arguments.onto settings)
  | .error error => .error (.configuration (error.message?.getD malformedFile))

def listen (network : Network) (settings : Settings) : Except Failure String :=
  match network.refusal? settings.host settings.port with
  | some reason => .error (.bind settings.address reason)
  | none =>
      let port := if settings.port = 0 then network.freePort else settings.port
      .ok (network.numeric settings.host ++ ":" ++ toString port)

/-! ## The log -/

def info (text : String) : LogLine := ⟨.info, text⟩

def starting (settings : Settings) : List LogLine :=
  [info ("Starting WebSocket relay on " ++ settings.address)]

def listening (address : String) : List LogLine :=
  [info ("WebSocket server listening on ws://" ++ address),
    info ("Supported message types: " ++ ", ".intercalate Request.supportedTypes)]

def stopping : List LogLine :=
  [info "Shutdown signal received, no longer accepting connections",
    ⟨.debug, "Heartbeat stopped"⟩,
    info "WebSocket server shutdown complete"]

/-! ## Runs -/

/-- How far a start has come. The lines are those that the level of the log
lets through. -/
inductive Launch where
  /-- It is over, with an exit code. -/
  | finished (code : UInt8) (log : List LogLine)
  /-- The server serves until it is interrupted. -/
  | serving (level : LogLevel) (log : List LogLine)
  deriving DecidableEq, Repr

def helpCode : UInt8 := 0

def usageCode : UInt8 := 2

def failureCode : UInt8 := 1

def launchServer (network : Network) (level : LogLevel) (settings : Settings) : Launch :=
  match listen network settings with
  | .error failure =>
      .finished failureCode (LogLine.visible level
        (starting settings ++ [⟨.error, "Server failed: " ++ failure.message⟩]))
  | .ok address =>
      .serving level (LogLine.visible level (starting settings ++ listening address))

def launch (surroundings : Surroundings) : Launch :=
  match Arguments.parse surroundings.arguments with
  | .error .help => .finished helpCode []
  | .error .invalid => .finished usageCode []
  | .ok arguments =>
      match settings surroundings arguments with
      | .error failure =>
          .finished failureCode
            [⟨.error, "Failed to load configuration: " ++ failure.message⟩]
      | .ok settings =>
          let level := if arguments.debug then .debug else .ofName settings.logLevel
          launchServer surroundings.network level settings

structure Run where
  code : UInt8
  interrupted : Bool
  log : List LogLine
  deriving DecidableEq, Repr

def run (surroundings : Surroundings) : Run :=
  match launch surroundings with
  | .finished code log => ⟨code, false, log⟩
  | .serving level log => ⟨0, true, log ++ LogLine.visible level stopping⟩

example :
    (run ⟨.isolated, ⟨".", []⟩, [("WSRELAY_LOG__LEVEL", "warn")], ["--port", "80"]⟩).log =
      [⟨.error, "Server failed: failed to bind localhost:80: Permission denied (os error 13)"⟩] := by
  decide +kernel

end Program

end Relay
