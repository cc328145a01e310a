import Relay.Delivery
import Relay.Registry

namespace Relay

/-! The hub: it greets connections, answers their messages and passes messages
on to the others. Every message is counted, readable or not, and answered to its
sender alone, except that a broadcast also goes to everybody else who takes
part. -/

structure Hub where
  host : String
  port : UInt16
  registry : Registry
  mailboxes : Mailboxes
  deriving DecidableEq, Repr

namespace Hub

def welcomeMessage : String := "Connected to WebSocket Relay"

def confirmation : String := "Message broadcasted successfully"

def heartbeatMessage : String := "Server heartbeat"

def serverName : String := "server"

def start (host : String) (port : UInt16) : Hub := ⟨host, port, .empty, .empty⟩

/-! ## Connections -/

def openConnection (address : Address) (hub : Hub) : Connection × Hub :=
  (⟨hub.mailboxes.fresh, address⟩, { hub with mailboxes := hub.mailboxes.add })

def register (connection : Connection) (hub : Hub) : Hub :=
  { hub with registry := hub.registry.register connection }

def unregister (id : ConnectionId) (hub : Hub) : Hub :=
  { hub with registry := hub.registry.unregister id }

def welcome (moment : Moment) (snapshot : Snapshot) (hub : Hub) : Envelope :=
  .welcome welcomeMessage ⟨hub.host, hub.port, moment.uptime, snapshot.connectedClients⟩
    moment.timestamp

def post (id : ConnectionId) (frame : Frame) (hub : Hub) : Hub :=
  { hub with mailboxes := hub.mailboxes.post id frame }

def postEnvelope (id : ConnectionId) (envelope : Envelope) (hub : Hub) : Hub :=
  { hub with mailboxes := hub.mailboxes.postEnvelope id envelope }

/-- The figures that a connection is greeted with, which include itself. One
that takes part already is not greeted. -/
def greeting? (connection : Connection) (hub : Hub) : Option Snapshot :=
  if hub.registry.contains connection.id then none
  else some (hub.registry.register connection).snapshot

/-- Registers a connection and greets it. The greeting is queued before the
connection takes part, so that it comes before every message of others. -/
def registerWelcomed (moment : Moment) (connection : Connection) (hub : Hub) : Hub :=
  match hub.greeting? connection with
  | none => hub
  | some snapshot =>
      (hub.postEnvelope connection.id (hub.welcome moment snapshot)).register connection

/-! ## Messages for many -/

def fanOut (envelope : Envelope) (exclude : Option ConnectionId) (hub : Hub) :
    Report × Hub :=
  let (report, mailboxes) :=
    hub.mailboxes.deliver hub.registry.members envelope exclude
  (report, { hub with mailboxes })

def broadcastEnvelope (moment : Moment) (payload : Json) (sender : Option Connection)
    (hub : Hub) : Envelope :=
  let name := (sender.map fun connection => connection.address.render).getD serverName
  .broadcast payload name moment.timestamp (.ofNat hub.registry.size)

def broadcast (moment : Moment) (payload : Json) (sender : Option Connection)
    (hub : Hub) : Report × Hub :=
  hub.fanOut (hub.broadcastEnvelope moment payload sender) (sender.map Connection.id)

def heartbeatEnvelope (moment : Moment) (hub : Hub) : Envelope :=
  let snapshot := hub.registry.snapshot
  .periodicUpdate heartbeatMessage
    ⟨snapshot.connectedClients, snapshot.totalMessages, moment.uptime⟩ moment.timestamp

def emit (moment : Moment) (hub : Hub) : Option Report × Hub :=
  if hub.registry.isEmpty then (none, hub)
  else
    let (report, hub) := hub.fanOut (hub.heartbeatEnvelope moment) none
    (some report, hub)

/-! ## Messages of clients -/

def recordMessage (hub : Hub) : Hub :=
  { hub with registry := hub.registry.recordMessage }

def statistics (moment : Moment) (hub : Hub) : Statistics :=
  let snapshot := hub.registry.snapshot
  ⟨snapshot.connectedClients, snapshot.totalMessages, moment.uptime, hub.host, hub.port⟩

def othersCount (hub : Hub) : UInt64 := .ofNat (hub.registry.size - 1)

def respond (moment : Moment) (sender : Connection) (count : UInt64) (request : Request)
    (hub : Hub) : Envelope × Hub :=
  match request with
  | .ping envelope => (.pong envelope moment.timestamp count, hub)
  | .echo message => (.echoResponse message moment.timestamp count, hub)
  | .broadcast message =>
      let (_, hub) := hub.broadcast moment message (some sender)
      (.broadcastConfirm confirmation hub.othersCount moment.timestamp, hub)
  | .stats => (.statsResponse (hub.statistics moment) moment.timestamp, hub)
  | .unknown kind => (.unknownType moment kind, hub)

def refusal (moment : Moment) : FrameError → Envelope
  | .invalidText received | .invalidOctets received _ => .invalidJson moment received
  | .notAnObject _ => .internalError moment

def route (moment : Moment) (sender : Connection) (message : Message) (hub : Hub) :
    Envelope × Hub :=
  let hub := hub.recordMessage
  match message.request with
  | .ok request => hub.respond moment sender hub.registry.messageCount request
  | .error error => (refusal moment error, hub)

def dispatch (moment : Moment) (sender : Connection) (message : Message) (hub : Hub) :
    Hub :=
  let (reply, hub) := hub.route moment sender message
  hub.postEnvelope sender.id reply

end Hub

end Relay
