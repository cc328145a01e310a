import Relay.Envelope.Text

namespace Relay

/-! Reading the envelopes of the server. The members may stand in any order and
unknown members are skipped, but no known member may occur twice. A list in the
place of an object holds the members in their fixed order, without their names,
and the `type` first. -/

namespace Json

/-- The known fields of a record in their fixed order, `none` for those that are
missing. There are none if a field occurs twice, if a list is too long, or if
the value is neither an object nor a list. -/
def fields? (names : List String) : Json → Option (List (Option Json))
  | .object members =>
      names.mapM fun name =>
        match members.valuesOf name with
        | [] => some none
        | [value] => some (some value)
        | _ => none
  | .array elements =>
      let values := elements.toList
      if values.length ≤ names.length then
        some (values.map some ++ List.replicate (names.length - values.length) none)
      else none
  | _ => none

example : (Json.ofMembers [("b", .null), ("x", .null), ("x", .null)]).fields? ["a", "b"]
    = some [none, some .null] := by decide

/-! ## Values of fields -/

def string? : Json → Option String
  | .string value => some value
  | _ => none

def count? : Json → Option UInt64
  | .number (.integer value _) =>
      if 0 ≤ value then some (.ofNat value.toNat) else none
  | _ => none

def port? : Json → Option UInt16
  | .number (.integer value _) =>
      if 0 ≤ value ∧ value < UInt16.size then some (.ofNat value.toNat) else none
  | _ => none

def real? : Json → Option Double
  | .number (.integer value _) =>
      Double.ofRank? (value < 0) (Double.nearestRank (Fraction.ofNat value.natAbs))
  | .number (.real value) => some value
  | _ => none

def strings? : Json → Option (List String)
  | .array elements => elements.toList.mapM string?
  | _ => none

def required {α : Type} (read : Json → Option α) (field : Option Json) : Option α :=
  field.bind read

def optional {α : Type} (read : Json → Option α) : Option Json → Option (Option α)
  | none => some none
  | some .null => some none
  | some value => (read value).map some

def anything (value : Json) : Option Json := some value.normalize

end Json

open Json

def ServerInfo.ofJson? (value : Json) : Option ServerInfo := do
  match ← value.fields? ["host", "port", "uptime", "total_clients"] with
  | [host, port, uptime, totalClients] =>
      some ⟨← required string? host, ← required port? port, ← required real? uptime,
        ← required count? totalClients⟩
  | _ => none

def Statistics.ofJson? (value : Json) : Option Statistics := do
  match ← value.fields? ["connected_clients", "total_messages", "uptime_seconds",
      "server_host", "server_port"] with
  | [connectedClients, totalMessages, uptime, host, port] =>
      some ⟨← required count? connectedClients, ← required count? totalMessages,
        ← required real? uptime, ← required string? host, ← required port? port⟩
  | _ => none

def ServerStatistics.ofJson? (value : Json) : Option ServerStatistics := do
  match ← value.fields? ["connected_clients", "total_messages", "uptime"] with
  | [connectedClients, totalMessages, uptime] =>
      some ⟨← required count? connectedClients, ← required count? totalMessages,
        ← required real? uptime⟩
  | _ => none

namespace Envelope

def fieldNames? (kind : String) : Option (List String) :=
  if kind = "welcome" then some ["message", "server_info", "timestamp"]
  else if kind = "pong" then some ["original_message", "server_time", "message_count"]
  else if kind = "echo_response" then
    some ["original_message", "echoed_at", "message_count"]
  else if kind = "broadcast" then
    some ["message", "sender", "timestamp", "total_clients"]
  else if kind = "broadcast_confirm" then some ["message", "recipients", "timestamp"]
  else if kind = "stats_response" then some ["stats", "timestamp"]
  else if kind = "periodic_update" then some ["message", "server_stats", "timestamp"]
  else if kind = "error" then
    some ["message", "received", "supported_types", "timestamp"]
  else none

def ofFields? (kind : String) (fields : List (Option Json)) : Option Envelope := do
  match kind, fields with
  | "welcome", [message, info, timestamp] =>
      some (.welcome (← required string? message) (← required ServerInfo.ofJson? info)
        (← required string? timestamp))
  | "pong", [answered, timestamp, messageCount] =>
      some (.pong (← required anything answered) (← required string? timestamp)
        (← required count? messageCount))
  | "echo_response", [answered, timestamp, messageCount] =>
      some (.echoResponse (← required anything answered) (← required string? timestamp)
        (← required count? messageCount))
  | "broadcast", [message, sender, timestamp, totalClients] =>
      some (.broadcast (← required anything message) (← required string? sender)
        (← required string? timestamp) (← required count? totalClients))
  | "broadcast_confirm", [message, recipients, timestamp] =>
      some (.broadcastConfirm (← required string? message) (← required count? recipients)
        (← required string? timestamp))
  | "stats_response", [stats, timestamp] =>
      some (.statsResponse (← required Statistics.ofJson? stats)
        (← required string? timestamp))
  | "periodic_update", [message, stats, timestamp] =>
      some (.periodicUpdate (← required string? message)
        (← required ServerStatistics.ofJson? stats) (← required string? timestamp))
  | "error", [message, received, supportedTypes, timestamp] =>
      some (.error (← required string? message) (← optional string? received)
        (← optional strings? supportedTypes) (← required string? timestamp))
  | _, _ => none

def tagged? : Json → Option (String × Json)
  | .object members =>
      match members.valuesOf "type" with
      | [.string kind] => some (kind, .object members)
      | _ => none
  | .array (.cons (.string kind) rest) => some (kind, .array rest)
  | _ => none

def ofJson? (value : Json) : Option Envelope := do
  let (kind, content) ← tagged? value
  let names ← fieldNames? kind
  let fields ← content.fields? names
  ofFields? kind fields

def parse? (text : String) : Option Envelope := do
  ofJson? (← Json.parse? text.toList)

example : parse? ("\x7b\"recipients\":2,\"timestamp\":\"now\"," ++
      "\"type\":\"broadcast_confirm\",\"message\":\"sent\"\x7d")
    = some (.broadcastConfirm "sent" 2 "now") := by decide +kernel

end Envelope

end Relay
