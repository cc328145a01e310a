import Relay.Request

namespace Relay

/-! What the server sends: replies, messages of other clients and reports of its
own. Every envelope says when it was made. -/

structure ServerInfo where
  host : String
  port : UInt16
  uptime : Double
  totalClients : UInt64
  deriving DecidableEq, Repr

structure Statistics where
  connectedClients : UInt64
  totalMessages : UInt64
  uptime : Double
  host : String
  port : UInt16
  deriving DecidableEq, Repr

structure ServerStatistics where
  connectedClients : UInt64
  totalMessages : UInt64
  uptime : Double
  deriving DecidableEq, Repr

inductive Envelope where
  | welcome (message : String) (info : ServerInfo) (timestamp : String)
  | pong (answered : Json) (timestamp : String) (messageCount : UInt64)
  | echoResponse (answered : Json) (timestamp : String) (messageCount : UInt64)
  | broadcast (message : Json) (sender : String) (timestamp : String)
      (totalClients : UInt64)
  | broadcastConfirm (message : String) (recipients : UInt64) (timestamp : String)
  | statsResponse (stats : Statistics) (timestamp : String)
  | periodicUpdate (message : String) (stats : ServerStatistics) (timestamp : String)
  | error (message : String) (received : Option String)
      (supportedTypes : Option (List String)) (timestamp : String)
  deriving DecidableEq, Repr

/-- A reading of the server's clock: the time of day as it is written into
envelopes, and the seconds since the server started. -/
structure Moment where
  timestamp : String
  uptime : Double
  deriving DecidableEq, Repr

namespace Envelope

def kind : Envelope → String
  | .welcome .. => "welcome"
  | .pong .. => "pong"
  | .echoResponse .. => "echo_response"
  | .broadcast .. => "broadcast"
  | .broadcastConfirm .. => "broadcast_confirm"
  | .statsResponse .. => "stats_response"
  | .periodicUpdate .. => "periodic_update"
  | .error .. => "error"

def timestamp : Envelope → String
  | .welcome _ _ timestamp | .pong _ timestamp _ | .echoResponse _ timestamp _
  | .broadcast _ _ timestamp _ | .broadcastConfirm _ _ timestamp
  | .statsResponse _ timestamp | .periodicUpdate _ _ timestamp
  | .error _ _ _ timestamp => timestamp

/-! ## Error replies -/

def invalidJson (moment : Moment) (received : String) : Envelope :=
  .error "Invalid JSON format" (some received) none moment.timestamp

def unknownType (moment : Moment) (kind : String) : Envelope :=
  .error ("Unknown message type: " ++ kind) none (some Request.supportedTypes)
    moment.timestamp

def internalError (moment : Moment) : Envelope :=
  .error "Internal server error" none none moment.timestamp

end Envelope

end Relay
