import Relay.Heartbeat
import Relay.Session

namespace Relay

/-! Servers: sessions around one hub. A server takes connections until it is shut
down. Then it closes every session, waits a while for peers that have not
finished their handshake and stops. Whichever way a session ends, it leaves the
registry, and its mailbox lets nothing more in; the frames that are in it can
still be taken out by whoever writes to the peer.

An event is handled to its end before the next one happens, with all that it makes
the hub do. In particular no event comes between the copy of the registry that a
fan-out works from and the deliveries to those on the copy. -/

inductive Phase where
  | serving
  /-- Shut down, but waiting for peers until a time. -/
  | draining (deadline : Nat)
  | stopped
  deriving DecidableEq, Repr

structure Server where
  keepalive : Keepalive
  hub : Hub
  heartbeat : Option Heartbeat
  sessions : List Session
  /-- Peers that have not finished their handshake. -/
  pending : List Address
  now : Nat
  phase : Phase
  deriving DecidableEq, Repr

inductive Event where
  /-- A peer connects and finishes its handshake at once. -/
  | connect (address : Address)
  /-- A peer connects and does not finish its handshake yet. -/
  | approach (address : Address)
  | complete (address : Address)
  /-- A peer gives up its handshake, or fails in it. -/
  | abandon (address : Address)
  | arrive (id : ConnectionId) (arrival : Arrival)
  /-- The clock jumps. -/
  | advance (milliseconds : Nat)
  | shutdown
  deriving DecidableEq, Repr

namespace Server

def drainTime : Nat := 2000

def goingAway : CloseReason := ⟨1001, "server shutting down"⟩

def start (settings : Settings) (port : UInt16) : Server :=
  { keepalive := .ofSettings settings
    hub := .start settings.host port
    heartbeat := some (.start (settings.heartbeatInterval.toNat * 1000) 0)
    sessions := []
    pending := []
    now := 0
    phase := .serving }

/-! ## Sessions -/

def session? (id : ConnectionId) (server : Server) : Option Session :=
  server.sessions.find? fun session => session.connection.id = id

def post (id : ConnectionId) (frame : Frame) (server : Server) : Server :=
  { server with hub := server.hub.post id frame }

def update (session : Session) (server : Server) : Server :=
  { server with
    sessions := server.sessions.map fun other =>
      if other.connection.id = session.connection.id then session else other }

def endSession (id : ConnectionId) (server : Server) : Server :=
  let hub := server.hub.unregister id
  { server with
    hub := { hub with mailboxes := hub.mailboxes.finish id }
    sessions := server.sessions.filter fun session => session.connection.id ≠ id }

def dismiss (frame : Frame) (id : ConnectionId) (server : Server) : Server :=
  (server.post id frame).endSession id

/-- Starts the session of a peer that has finished its handshake. The peer is
greeted before anything else is queued for it. -/
def accept (moment : Moment) (address : Address) (server : Server) : Server :=
  let (connection, hub) := server.hub.openConnection address
  { server with
    hub := hub.registerWelcomed moment connection
    sessions := server.sessions ++ [.start server.keepalive connection server.now] }

/-! ## The end -/

def settle (server : Server) : Server :=
  match server.phase with
  | .draining deadline =>
      if server.pending = [] ∨ deadline ≤ server.now then
        { server with phase := .stopped, pending := [], heartbeat := none }
      else server
  | _ => server

def dismissAll (server : Server) : Server :=
  server.sessions.foldl (fun server session =>
    server.dismiss (.close (some goingAway)) session.connection.id) server

def shutdown (server : Server) : Server :=
  match server.phase with
  | .serving =>
      settle { server.dismissAll with phase := .draining (server.now + drainTime) }
  | _ => server

/-! ## Peers -/

def connect (moment : Moment) (address : Address) (server : Server) : Server :=
  match server.phase with
  | .serving => server.accept moment address
  | _ => server

def approach (address : Address) (server : Server) : Server :=
  match server.phase with
  | .serving => { server with pending := server.pending ++ [address] }
  | _ => server

def abandon (address : Address) (server : Server) : Server :=
  settle { server with pending := server.pending.erase address }

/-- A peer that finishes its handshake after the shutdown is greeted and closed
at once. -/
def complete (moment : Moment) (address : Address) (server : Server) : Server :=
  if address ∈ server.pending then
    let accepted := server.accept moment address
    let server := { accepted with pending := accepted.pending.erase address }
    match server.phase with
    | .serving => server
    | _ => settle server.dismissAll
  else server

def arrive (moment : Moment) (id : ConnectionId) (arrival : Arrival) (server : Server) :
    Server :=
  match server.session? id with
  | none => server
  | some session =>
      let server := server.update (session.seenAt server.now)
      match arrival with
      | .message message =>
          { server with hub := server.hub.dispatch moment session.connection message }
      | .ping _ | .pong _ => server
      | .close _ | .failure => server.endSession id

/-! ## Time -/

inductive Timer where
  | heartbeat
  | check (id : ConnectionId)
  deriving DecidableEq, Repr

def timers (server : Server) : List (Nat × Timer) :=
  let beats := server.heartbeat.toList.map fun heartbeat => (heartbeat.due, Timer.heartbeat)
  let checks := server.sessions.map fun session =>
    (session.nextCheck, Timer.check session.connection.id)
  (beats ++ checks).mergeSort fun first second => first.1 ≤ second.1

def beat (moment : Moment) (server : Server) : Server :=
  match server.heartbeat with
  | none => server
  | some heartbeat =>
      let (count, heartbeat) := heartbeat.expire server.now
      { server with hub := server.hub.emitTimes moment count, heartbeat := some heartbeat }

def check (id : ConnectionId) (server : Server) : Server :=
  match server.session? id with
  | none => server
  | some session =>
      let (frames, rest) := session.expire server.keepalive server.now
      let server := frames.foldl (fun server frame => server.post id frame) server
      match rest with
      | some session => server.update session
      | none => server.endSession id

def fire (moment : Moment) (timer : Timer) (server : Server) : Server :=
  match timer with
  | .heartbeat => server.beat moment
  | .check id => server.check id

/-- Moves the clock in one jump. Whatever has become due happens at the new
time, and what was due first happens first. -/
def advance (clock : Nat → Moment) (milliseconds : Nat) (server : Server) : Server :=
  let server := { server with now := server.now + milliseconds }
  settle (server.timers.foldl (fun server (_, timer) =>
    server.fire (clock server.now) timer) server)

/-! ## Runs -/

def step (clock : Nat → Moment) (event : Event) (server : Server) : Server :=
  let moment := clock server.now
  match event with
  | .connect address => server.connect moment address
  | .approach address => server.approach address
  | .complete address => server.complete moment address
  | .abandon address => server.abandon address
  | .arrive id arrival => server.arrive moment id arrival
  | .advance milliseconds => server.advance clock milliseconds
  | .shutdown => server.shutdown

def run (clock : Nat → Moment) (events : List Event) (server : Server) : Server :=
  events.foldl (fun server event => server.step clock event) server

/-- A session that is shut down has been greeted and closed, in this order, and
nobody is left. -/
example :
    let clock : Nat → Moment := fun _ => ⟨"now", Double.zero⟩
    let server := (start Settings.default 3004).run clock
      [.connect (.v4 127 0 0 1 5000), .shutdown]
    server.hub.registry.members = [] ∧ server.phase = .stopped ∧
      (server.hub.mailboxes.get ⟨0⟩).queued.length = 2 := by decide +kernel

end Server

end Relay
