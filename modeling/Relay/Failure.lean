import Relay.Text.Quoted

namespace Relay

/-! Failures that keep the server from starting or a request from being handled,
and how they are described. -/

inductive Failure where
  /-- The settings cannot be loaded. -/
  | configuration (reason : String)
  /-- The address cannot be listened on. -/
  | bind (address : String) (reason : String)
  | inputOutput (reason : String)
  /-- A peer did not agree on a session. -/
  | handshake (reason : String)
  /-- JSON that is no envelope. -/
  | malformedEnvelope (reason : String)
  deriving DecidableEq, Repr

namespace Failure

def message : Failure → String
  | .configuration reason => "configuration error: " ++ reason
  | .bind address reason => "failed to bind " ++ address ++ ": " ++ reason
  | .inputOutput reason => "i/o error: " ++ reason
  | .handshake reason => "websocket handshake failed: " ++ reason
  | .malformedEnvelope reason => "malformed envelope: " ++ reason

def source? : Failure → Option String
  | .bind _ reason => some reason
  | _ => none

def missingField (field : String) : String :=
  "missing configuration field " ++ Text.quote field

def closedNormally : String := "Connection closed normally"

end Failure

end Relay
