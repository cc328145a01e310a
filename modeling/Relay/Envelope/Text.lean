import Relay.Envelope

namespace Relay

/-! The text of an envelope: one compact JSON object, its `type` first and its
other members in a fixed order. An error without a `received` text or without a
list of types lacks those members. -/

namespace Json

def Number.ofCount (count : UInt64) : Number :=
  .integer count.toNat (by have := count.toNat_lt; constructor <;> omega)

def Number.ofPort (port : UInt16) : Number :=
  .integer port.toNat (by have := port.toNat_lt; constructor <;> omega)

def count (count : UInt64) : Json := .number (.ofCount count)

def port (port : UInt16) : Json := .number (.ofPort port)

def real (value : Double) : Json := .number (.real value)

def strings (values : List String) : Json := .array (.ofList (values.map Json.string))

def ofMembers (members : List (String × Json)) : Json := .object (.ofList members)

end Json

def ServerInfo.toJson (info : ServerInfo) : Json :=
  .ofMembers [("host", .string info.host), ("port", .port info.port),
    ("uptime", .real info.uptime), ("total_clients", .count info.totalClients)]

def Statistics.toJson (stats : Statistics) : Json :=
  .ofMembers [("connected_clients", .count stats.connectedClients),
    ("total_messages", .count stats.totalMessages),
    ("uptime_seconds", .real stats.uptime),
    ("server_host", .string stats.host), ("server_port", .port stats.port)]

def ServerStatistics.toJson (stats : ServerStatistics) : Json :=
  .ofMembers [("connected_clients", .count stats.connectedClients),
    ("total_messages", .count stats.totalMessages), ("uptime", .real stats.uptime)]

namespace Envelope

def members : Envelope → List (String × Json)
  | .welcome message info timestamp =>
      [("message", .string message), ("server_info", info.toJson),
        ("timestamp", .string timestamp)]
  | .pong answered timestamp messageCount =>
      [("original_message", answered), ("server_time", .string timestamp),
        ("message_count", .count messageCount)]
  | .echoResponse answered timestamp messageCount =>
      [("original_message", answered), ("echoed_at", .string timestamp),
        ("message_count", .count messageCount)]
  | .broadcast message sender timestamp totalClients =>
      [("message", message), ("sender", .string sender),
        ("timestamp", .string timestamp), ("total_clients", .count totalClients)]
  | .broadcastConfirm message recipients timestamp =>
      [("message", .string message), ("recipients", .count recipients),
        ("timestamp", .string timestamp)]
  | .statsResponse stats timestamp =>
      [("stats", stats.toJson), ("timestamp", .string timestamp)]
  | .periodicUpdate message stats timestamp =>
      [("message", .string message), ("server_stats", stats.toJson),
        ("timestamp", .string timestamp)]
  | .error message received supportedTypes timestamp =>
      [("message", .string message)] ++
        (received.map fun text => ("received", Json.string text)).toList ++
        (supportedTypes.map fun types => ("supported_types", Json.strings types)).toList ++
        [("timestamp", .string timestamp)]

def toJson (envelope : Envelope) : Json :=
  .ofMembers (("type", .string envelope.kind) :: envelope.members)

def encode (envelope : Envelope) : String := envelope.toJson.render

example : encode (.broadcastConfirm "sent" 2 "now") =
    "\x7b\"type\":\"broadcast_confirm\",\"message\":\"sent\"," ++
      "\"recipients\":2,\"timestamp\":\"now\"\x7d" := by
  decide +kernel

end Envelope

end Relay
