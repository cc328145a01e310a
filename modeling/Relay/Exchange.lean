import Relay.Heartbeat

namespace Relay

/-! An exchange: a hub with a clock that moves only when it is told to, and the
heartbeat that the clock drives. A run is a list of steps; every step has an
outcome.

A step is one call of the hub, and it ends before the next one begins. So an answer
that shows the count of messages shows the number of the message that it answers,
and a message for many reaches exactly those who take part when it is sent. Calls of
threads that overlap keep neither promise: others may be counted before the answer is
made, and a fan-out works from a copy of the registry that others have left since. -/

structure Exchange where
  hub : Hub
  now : Nat
  heartbeat : Option Heartbeat
  deriving DecidableEq, Repr

inductive Step where
  | openConnection (address : Address)
  | register (connection : Connection)
  | registerWelcomed (connection : Connection)
  | unregister (id : ConnectionId)
  | recordMessage
  /-- Closes a mailbox. -/
  | close (id : ConnectionId)
  /-- Queues a frame for one connection. -/
  | send (id : ConnectionId) (frame : Frame)
  /-- Takes all frames out of a mailbox. -/
  | receive (id : ConnectionId)
  | route (sender : Connection) (message : Message)
  | dispatch (sender : Connection) (message : Message)
  | broadcast (payload : Json) (sender : Option Connection)
  | fanOut (envelope : Envelope) (exclude : Option ConnectionId)
  | deliverTo (id : ConnectionId) (envelope : Envelope)
  /-- One firing of a heartbeat. -/
  | emit
  /-- Starts a heartbeat. One that is running is stopped. -/
  | startHeartbeat (period : Nat)
  | stopHeartbeat
  | advance (milliseconds : Nat)
  deriving DecidableEq, Repr

inductive Outcome where
  | done
  | opened (connection : Connection)
  | flag (value : Bool)
  | snapshot (value : Snapshot)
  /-- The figures of the greeting, and whether it was queued. -/
  | welcomed (greeting : Option (Snapshot × Bool)) (value : Snapshot)
  | count (value : UInt64)
  /-- Nothing can be taken out of a closed mailbox. -/
  | received (frames : Option (List Frame))
  | reply (envelope : Envelope)
  | report (value : Report)
  | delivery (failure : Option DeliveryError)
  | emitted (report : Option Report)
  | started (period : Nat)
  deriving DecidableEq, Repr

namespace Exchange

def start (host : String) (port : UInt16) : Exchange := ⟨.start host port, 0, none⟩

def hubStep (moment : Moment) (step : Step) (hub : Hub) : Outcome × Hub :=
  match step with
  | .openConnection address =>
      let (connection, hub) := hub.openConnection address
      (.opened connection, hub)
  | .register connection =>
      let hub := hub.register connection
      (.snapshot hub.registry.snapshot, hub)
  | .registerWelcomed connection =>
      let greeting := (hub.greeting? connection).map fun snapshot =>
        (snapshot, hub.mailboxes.accepts connection.id)
      let hub := hub.registerWelcomed moment connection
      (.welcomed greeting hub.registry.snapshot, hub)
  | .unregister id => (.flag (hub.registry.contains id), hub.unregister id)
  | .recordMessage =>
      let hub := hub.recordMessage
      (.count hub.registry.messageCount, hub)
  | .close id =>
      (.flag (hub.mailboxes.accepts id), { hub with mailboxes := hub.mailboxes.close id })
  | .send id frame => (.flag (hub.mailboxes.accepts id), hub.post id frame)
  | .receive id =>
      let mailbox := hub.mailboxes.get id
      (.received (if mailbox.isOpen then some mailbox.queued else none),
        { hub with mailboxes := hub.mailboxes.clear id })
  | .route sender message =>
      let (reply, hub) := hub.route moment sender message
      (.reply reply, hub)
  | .dispatch sender message => (.done, hub.dispatch moment sender message)
  | .broadcast payload sender =>
      let (report, hub) := hub.broadcast moment payload sender
      (.report report, hub)
  | .fanOut envelope exclude =>
      let (report, hub) := hub.fanOut envelope exclude
      (.report report, hub)
  | .deliverTo id envelope =>
      (.delivery (hub.mailboxes.failure? id), hub.postEnvelope id envelope)
  | .emit =>
      let (report, hub) := hub.emit moment
      (.emitted report, hub)
  | .startHeartbeat _ | .stopHeartbeat | .advance _ => (.done, hub)

def advance (clock : Nat → Moment) (milliseconds : Nat) (exchange : Exchange) : Exchange :=
  let now := exchange.now + milliseconds
  match exchange.heartbeat with
  | none => { exchange with now }
  | some heartbeat =>
      let (count, heartbeat) := heartbeat.expire now
      ⟨exchange.hub.emitTimes (clock now) count, now, some heartbeat⟩

def step (clock : Nat → Moment) (step : Step) (exchange : Exchange) : Outcome × Exchange :=
  match step with
  | .startHeartbeat period =>
      let heartbeat := Heartbeat.start period exchange.now
      (.started heartbeat.period, { exchange with heartbeat := some heartbeat })
  | .stopHeartbeat => (.flag exchange.heartbeat.isSome, { exchange with heartbeat := none })
  | .advance milliseconds => (.done, exchange.advance clock milliseconds)
  | step =>
      let (outcome, hub) := hubStep (clock exchange.now) step exchange.hub
      (outcome, { exchange with hub })

def run (clock : Nat → Moment) : List Step → Exchange → List Outcome × Exchange
  | [], exchange => ([], exchange)
  | first :: rest, exchange =>
      let (outcome, exchange) := exchange.step clock first
      let (outcomes, exchange) := run clock rest exchange
      (outcome :: outcomes, exchange)

end Exchange

end Relay
