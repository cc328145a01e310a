import Relay.Json.Parser
import Relay.Utf8

namespace Relay

/-! What clients send. A frame holds one JSON object; its `type` says what is
asked. Reading fails only for frames that are no JSON objects, so that a client
with an unknown type can still be answered. -/

inductive Request where
  /-- The whole envelope, which the answer returns. -/
  | ping (envelope : Json)
  | echo (message : Json)
  | broadcast (message : Json)
  | stats
  | unknown (kind : String)
  deriving DecidableEq, Repr

inductive FrameError where
  /-- The text is no JSON text. `received` is the start of the frame. -/
  | invalidText (received : String)
  /-- The octets are no UTF-8. `received` is the start of the frame with
  replacement characters. -/
  | invalidOctets (received : String) (defect : Utf8.Defect)
  /-- A JSON value of another kind than an object. -/
  | notAnObject (kind : String)
  deriving DecidableEq, Repr

namespace FrameError

def invalidJsonMessage (reason : String) : String := "invalid JSON: " ++ reason

def notAnObjectMessage (kind : String) : String :=
  "envelope is a JSON " ++ kind ++ ", expected an object"

/-- The description of an error. That of an invalid text is left open. -/
def message? : FrameError → Option String
  | .invalidText _ => none
  | .invalidOctets _ defect => some (invalidJsonMessage defect.text)
  | .notAnObject kind => some (notAnObjectMessage kind)

end FrameError

def previewLength : Nat := 100

def preview (frame : String) : String := String.ofList (frame.toList.take previewLength)

namespace Request

def supportedTypes : List String := ["ping", "echo", "broadcast", "stats"]

def missingType : String := "unknown"

/-- The type of an envelope. One that is not a string is taken as its JSON
text. -/
def typeOf (members : Members) : String :=
  match members.get? "type" with
  | some (.string kind) => kind
  | some other => other.render
  | none => missingType

def messageOf (members : Members) : Json := (members.get? "message").getD (.string "")

def ofMembers (members : Members) : Request :=
  let kind := typeOf members
  if kind = "ping" then .ping (.object members)
  else if kind = "echo" then .echo (messageOf members)
  else if kind = "broadcast" then .broadcast (messageOf members)
  else if kind = "stats" then .stats
  else .unknown kind

def kind : Request → String
  | .ping _ => "ping"
  | .echo _ => "echo"
  | .broadcast _ => "broadcast"
  | .stats => "stats"
  | .unknown kind => kind

def decode (frame : String) : Except FrameError Request :=
  match Json.parse? frame.toList with
  | none => .error (.invalidText (preview frame))
  | some value =>
      match value.normalize with
      | .object members => .ok (ofMembers members)
      | other => .error (.notAnObject other.kind)

def decodeOctets (frame : List UInt8) : Except FrameError Request :=
  match Utf8.decode frame with
  | .ok text => decode (String.ofList text)
  | .error defect =>
      .error (.invalidOctets (preview (String.ofList (Utf8.decodeLossy frame))) defect)

end Request

inductive Message where
  | text (content : String)
  | binary (octets : List UInt8)
  deriving DecidableEq, Repr

def Message.request : Message → Except FrameError Request
  | .text content => Request.decode content
  | .binary octets => Request.decodeOctets octets

namespace Request

/-- A type that is not a string is reported as its text. -/
example : (decode "\x7b\"type\":5\x7d").toOption = some (.unknown "5") := by decide +kernel

end Request

end Relay
