import Relay.Network
import Relay.Server

namespace Relay

/-! Scenes: a server and clients in a network. A client does one thing at a time;
then it reads what the server has sent, unless it is silent, and answers pings.
Clients are told apart by their addresses. -/

structure Client where
  address : Address
  /-- The connection, unless the client has made no handshake. -/
  id : Option ConnectionId
  /-- Whether the client reads what it is sent. -/
  isListening : Bool
  /-- What the transport has sent back by itself and nobody has read. -/
  echoes : List Arrival
  deriving DecidableEq, Repr

inductive Ending where
  | closed (reason : Option CloseReason)
  | cut
  deriving DecidableEq, Repr

structure Sight where
  texts : List String
  pings : Nat
  pongs : List (List UInt8)
  ending : Option Ending
  deriving DecidableEq, Repr

structure Scene where
  network : Network
  server : Server
  clients : List Client

inductive Action where
  | connect (address : Address) (isListening : Bool)
  /-- Opens a connection and sends a text in the place of a handshake. -/
  | knock (address : Address) (text : String)
  | send (address : Address) (arrival : Arrival)
  /-- Goes away without a word. -/
  | leave (address : Address)
  | listen (address : Address) (isListening : Bool)
  /-- Reads once. -/
  | read (address : Address)
  | advance (milliseconds : Nat)
  | shutdown
  deriving DecidableEq, Repr

namespace Sight

def nothing : Sight := ⟨[], 0, [], none⟩

/-- What frames and echoes look like to a client. The first close ends the
connection. -/
def ofFrames (frames : List Frame) (echoes : List Arrival) : Sight :=
  let closes := frames.filterMap fun
    | .close reason => some reason
    | _ => none
  let echoed := echoes.filterMap fun
    | .close reason => some reason
    | _ => none
  { texts := frames.filterMap fun
      | .text content => some content
      | _ => none
    pings := (frames.filter (· = .ping)).length
    pongs := echoes.filterMap fun
      | .pong payload => some payload
      | _ => none
    ending := (closes ++ echoed).head?.map .closed }

end Sight

namespace Scene

def start (network : Network) (server : Server) : Scene := ⟨network, server, []⟩

def client? (address : Address) (scene : Scene) : Option Client :=
  scene.clients.find? fun client => client.address = address

def remove (address : Address) (scene : Scene) : Scene :=
  { scene with clients := scene.clients.filter fun client => client.address ≠ address }

def modify (address : Address) (change : Client → Client) (scene : Scene) : Scene :=
  { scene with
    clients := scene.clients.map fun client =>
      if client.address = address then change client else client }

def isReachable (scene : Scene) : Bool :=
  scene.network.reachable && scene.server.phase = .serving

/-- Whether a text ends the head of a request. No text is a request for a
session, so that its sender is cut off as soon as the head is complete. -/
def endsHead : List Char → Bool
  | [] => false
  | character :: rest =>
      ("\x0d\n\x0d\n".toList).isPrefixOf (character :: rest) || endsHead rest

def act (clock : Nat → Moment) (action : Action) (scene : Scene) : Option Bool × Scene :=
  let happen (event : Event) (scene : Scene) : Scene :=
    { scene with server := scene.server.step clock event }
  match action with
  | .connect address isListening =>
      if scene.isReachable then
        let client : Client := ⟨address, some scene.server.hub.mailboxes.fresh, isListening, []⟩
        (some true, happen (.connect address) { scene with clients := scene.clients ++ [client] })
      else (some false, scene)
  | .knock address text =>
      if scene.isReachable then
        let client : Client := ⟨address, none, true, []⟩
        let scene := happen (.approach address) { scene with clients := scene.clients ++ [client] }
        (some true, if endsHead text.toList then happen (.abandon address) scene else scene)
      else (some false, scene)
  | .send address arrival =>
      match (scene.client? address).bind Client.id with
      | none => (some false, scene)
      | some id =>
          let isOpen := (scene.server.session? id).isSome
          let echoes := if isOpen then arrival.echo?.toList else []
          let scene := scene.modify address fun client =>
            { client with echoes := client.echoes ++ echoes }
          (some true, happen (.arrive id arrival) scene)
  | .leave address =>
      match scene.client? address with
      | none => (some false, scene)
      | some client =>
          let event := match client.id with
            | some id => .arrive id .failure
            | none => .abandon address
          (some true, happen event (scene.remove address))
  | .listen address isListening =>
      if (scene.client? address).isSome then
        (some true, scene.modify address fun client => { client with isListening })
      else (some false, scene)
  | .read _ => (none, scene)
  | .advance milliseconds => (none, happen (.advance milliseconds) scene)
  | .shutdown => (none, happen .shutdown scene)

def readAll (clock : Nat → Moment) (client : Client) (scene : Scene) : Sight × Scene :=
  let server := scene.server
  match client.id with
  | none =>
      if client.address ∈ server.pending then (Sight.nothing, scene)
      else ({ Sight.nothing with ending := some .cut }, scene.remove client.address)
  | some id =>
      let sight := Sight.ofFrames (server.hub.mailboxes.get id).queued client.echoes
      let isOver := (server.session? id).isNone
      let sight := { sight with
        ending := sight.ending <|> if isOver then some .cut else none }
      let hub := { server.hub with mailboxes := server.hub.mailboxes.clear id }
      let answers := List.replicate sight.pings (Event.arrive id (.pong []))
      let scene := { scene with server := { server with hub }.run clock answers }
      if sight.ending.isSome then (sight, scene.remove client.address)
      else (sight, scene.modify client.address fun client => { client with echoes := [] })

def observe (clock : Nat → Moment) : List Client → Scene → List (Address × Sight) × Scene
  | [], scene => ([], scene)
  | client :: rest, scene =>
      let (sight, scene) := scene.readAll clock client
      let (sights, scene) := observe clock rest scene
      (if sight = Sight.nothing then sights else (client.address, sight) :: sights, scene)

def step (clock : Nat → Moment) (action : Action) (scene : Scene) :
    Option Bool × List (Address × Sight) × Scene :=
  let (result, scene) := scene.act clock action
  let readers := scene.clients.filter fun client =>
    client.isListening || action = .read client.address
  let (sights, scene) := scene.observe clock readers
  (result, sights, scene)

/-- A client is greeted and has its ping answered. -/
example :
    let clock : Nat → Moment := fun _ => ⟨"now", Double.zero⟩
    let address : Address := .v4 127 0 0 1 5000
    let scene := Scene.start .joined (.start Settings.default 3004)
    let (_, greeting, scene) := scene.step clock (.connect address true)
    let (_, answer, _) := scene.step clock (.send address (.ping [1]))
    (greeting.map fun entry => entry.2.texts.length) = [1] ∧
      answer = [(address, ⟨[], 0, [[1]], none⟩)] := by decide +kernel

end Scene

end Relay
