import Relay.Exchange
import Relay.Proofs.Mailboxes

namespace Relay

/-! What the operations of a hub queue for each connection, and what they leave as
it is. An operation never looks into a mailbox, so what it queues for a
connection is a list of envelopes that the registry and the clock decide. -/

def Frame.ofEnvelope (envelope : Envelope) : Frame := .text envelope.encode

namespace Registry

theorem register_of_contains {connection : Connection} {registry : Registry}
    (present : registry.contains connection.id = true) :
    registry.register connection = registry := by
  simp [register, present]

theorem members_register_of_absent {connection : Connection} {registry : Registry}
    (absent : registry.contains connection.id = false) :
    (registry.register connection).members = registry.members ++ [connection] := by
  simp [register, absent]

@[simp] theorem messageCount_register (connection : Connection) (registry : Registry) :
    (registry.register connection).messageCount = registry.messageCount := by
  unfold register
  split <;> rfl

theorem snapshot_register_of_absent {connection : Connection} {registry : Registry}
    (absent : registry.contains connection.id = false) :
    (registry.register connection).snapshot =
      ⟨.ofNat (registry.size + 1), registry.messageCount⟩ := by
  simp [snapshot, size, members_register_of_absent absent]

end Registry

namespace Hub

/-! ## Messages for many -/

/-- A connection's copy of an envelope that goes to everybody but one. -/
def copyFor (id : ConnectionId) (envelope : Envelope) (exclude : Option ConnectionId)
    (hub : Hub) : List Envelope :=
  if hub.registry.contains id ∧ some id ≠ exclude then [envelope] else []

theorem get_fanOut (envelope : Envelope) (exclude : Option ConnectionId) (hub : Hub)
    (id : ConnectionId) :
    (hub.fanOut envelope exclude).2.mailboxes.get id =
      (hub.mailboxes.get id).postAll ((hub.copyFor id envelope exclude).map .ofEnvelope) := by
  have copies := Mailboxes.get_deliver hub.registry.distinct envelope exclude id hub.mailboxes
  simp only [fanOut, copies, copyFor, Mailboxes.mem_addressees, Registry.contains_iff]
  split <;> rfl

@[simp] theorem registry_fanOut (envelope : Envelope) (exclude : Option ConnectionId)
    (hub : Hub) : (hub.fanOut envelope exclude).2.registry = hub.registry := rfl

@[simp] theorem length_fanOut (envelope : Envelope) (exclude : Option ConnectionId)
    (hub : Hub) :
    (hub.fanOut envelope exclude).2.mailboxes.boxes.length = hub.mailboxes.boxes.length :=
  Mailboxes.length_deliver _ _ _ _

theorem get_broadcast (moment : Moment) (payload : Json) (sender : Option Connection)
    (hub : Hub) (id : ConnectionId) :
    (hub.broadcast moment payload sender).2.mailboxes.get id =
      (hub.mailboxes.get id).postAll
        ((hub.copyFor id (hub.broadcastEnvelope moment payload sender)
          (sender.map Connection.id)).map .ofEnvelope) :=
  hub.get_fanOut _ _ id

def updateFor (moment : Moment) (id : ConnectionId) (hub : Hub) : List Envelope :=
  hub.copyFor id (hub.heartbeatEnvelope moment) none

theorem get_emit (moment : Moment) (hub : Hub) (id : ConnectionId) :
    (hub.emit moment).2.mailboxes.get id =
      (hub.mailboxes.get id).postAll ((hub.updateFor moment id).map .ofEnvelope) := by
  unfold emit
  split
  · rename_i isEmpty
    have absent : hub.registry.contains id = false := by
      have noMembers : hub.registry.members = [] := List.isEmpty_iff.mp isEmpty
      simp [Registry.contains, noMembers]
    simp [updateFor, copyFor, absent]
  · exact hub.get_fanOut _ _ id

@[simp] theorem registry_emit (moment : Moment) (hub : Hub) :
    (hub.emit moment).2.registry = hub.registry := by
  unfold emit
  split <;> rfl

@[simp] theorem length_emit (moment : Moment) (hub : Hub) :
    (hub.emit moment).2.mailboxes.boxes.length = hub.mailboxes.boxes.length := by
  unfold emit
  split
  · rfl
  · exact length_fanOut _ _ _

@[simp] theorem registry_emitTimes (moment : Moment) (count : Nat) (hub : Hub) :
    (hub.emitTimes moment count).registry = hub.registry := by
  induction count generalizing hub with
  | zero => rfl
  | succ count induction => rw [emitTimes, induction, registry_emit]

@[simp] theorem length_emitTimes (moment : Moment) (count : Nat) (hub : Hub) :
    (hub.emitTimes moment count).mailboxes.boxes.length = hub.mailboxes.boxes.length := by
  induction count generalizing hub with
  | zero => rfl
  | succ count induction => rw [emitTimes, induction, length_emit]

theorem updateFor_emit (moment : Moment) (id : ConnectionId) (hub : Hub) :
    (hub.emit moment).2.updateFor moment id = hub.updateFor moment id := by
  simp [updateFor, copyFor, heartbeatEnvelope]

theorem get_emitTimes (moment : Moment) (count : Nat) (hub : Hub) (id : ConnectionId) :
    (hub.emitTimes moment count).mailboxes.get id =
      (hub.mailboxes.get id).postAll
        ((List.replicate count (hub.updateFor moment id)).flatten.map .ofEnvelope) := by
  induction count generalizing hub with
  | zero => rfl
  | succ count induction =>
      rw [emitTimes, induction, get_emit, updateFor_emit, ← Mailbox.postAll_append,
        List.replicate_succ, List.flatten_cons, List.map_append]

/-! ## Greetings -/

def greetingFor (moment : Moment) (connection : Connection) (id : ConnectionId) (hub : Hub) :
    List Envelope :=
  if connection.id = id ∧ hub.registry.contains id = false then
    [hub.welcome moment ⟨.ofNat (hub.registry.size + 1), hub.registry.messageCount⟩]
  else []

theorem registerWelcomed_of_contains {connection : Connection} {hub : Hub}
    (present : hub.registry.contains connection.id = true) (moment : Moment) :
    hub.registerWelcomed moment connection = hub := by
  simp [registerWelcomed, greeting?, present]

theorem registerWelcomed_of_absent {connection : Connection} {hub : Hub}
    (absent : hub.registry.contains connection.id = false) (moment : Moment) :
    hub.registerWelcomed moment connection =
      (hub.postEnvelope connection.id (hub.welcome moment
        ⟨.ofNat (hub.registry.size + 1), hub.registry.messageCount⟩)).register
          connection := by
  simp only [registerWelcomed, greeting?, absent, Registry.snapshot_register_of_absent absent]
  rfl

theorem registry_registerWelcomed (moment : Moment) (connection : Connection) (hub : Hub) :
    (hub.registerWelcomed moment connection).registry = hub.registry.register connection := by
  cases present : hub.registry.contains connection.id with
  | true =>
      rw [registerWelcomed_of_contains present, Registry.register_of_contains present]
  | false =>
      rw [registerWelcomed_of_absent present]
      rfl

@[simp] theorem length_registerWelcomed (moment : Moment) (connection : Connection)
    (hub : Hub) :
    (hub.registerWelcomed moment connection).mailboxes.boxes.length =
      hub.mailboxes.boxes.length := by
  cases present : hub.registry.contains connection.id with
  | true => rw [registerWelcomed_of_contains present]
  | false =>
      rw [registerWelcomed_of_absent present]
      exact Mailboxes.length_post _ _ _

theorem get_registerWelcomed (moment : Moment) (connection : Connection) (hub : Hub)
    (id : ConnectionId) :
    (hub.registerWelcomed moment connection).mailboxes.get id =
      (hub.mailboxes.get id).postAll
        ((hub.greetingFor moment connection id).map .ofEnvelope) := by
  unfold greetingFor
  cases present : hub.registry.contains connection.id with
  | true =>
      have notGreeted : ¬(connection.id = id ∧ hub.registry.contains id = false) := by
        rintro ⟨same, absent⟩
        rw [← same, present] at absent
        contradiction
      rw [registerWelcomed_of_contains present, if_neg notGreeted]
      rfl
  | false =>
      rw [registerWelcomed_of_absent present]
      by_cases same : connection.id = id
      · subst same
        rw [if_pos ⟨rfl, present⟩]
        exact Mailboxes.get_post_self _ _ _
      · rw [if_neg fun greeted => same greeted.1]
        exact Mailboxes.get_post_other (Ne.symm same) _ _

/-! ## Messages of clients -/

/-- What connections that may not be its sender hear of a message: a broadcast,
and nothing else. -/
def passedOn (moment : Moment) (sender : Connection) (message : Message) (id : ConnectionId)
    (hub : Hub) : List Envelope :=
  match message.request with
  | .ok (.broadcast payload) =>
      hub.copyFor id (hub.broadcastEnvelope moment payload (some sender)) (some sender.id)
  | _ => []

/-- What a message that is dispatched has queued for a connection: the reply,
behind what is passed on, if the connection is its sender. -/
def outgoing (moment : Moment) (sender : Connection) (message : Message) (id : ConnectionId)
    (hub : Hub) : List Envelope :=
  hub.passedOn moment sender message id ++
    if sender.id = id then [(hub.route moment sender message).1] else []

@[simp] theorem registry_respond (moment : Moment) (sender : Connection) (count : UInt64)
    (request : Request) (hub : Hub) :
    (hub.respond moment sender count request).2.registry = hub.registry := by
  cases request <;> rfl

@[simp] theorem length_respond (moment : Moment) (sender : Connection) (count : UInt64)
    (request : Request) (hub : Hub) :
    (hub.respond moment sender count request).2.mailboxes.boxes.length =
      hub.mailboxes.boxes.length := by
  cases request with
  | broadcast payload => exact length_fanOut _ _ _
  | _ => rfl

theorem registry_route (moment : Moment) (sender : Connection) (message : Message)
    (hub : Hub) :
    (hub.route moment sender message).2.registry = hub.registry.recordMessage := by
  unfold route
  cases message.request with
  | error error => rfl
  | ok request => exact registry_respond _ _ _ _ _

theorem length_route (moment : Moment) (sender : Connection) (message : Message) (hub : Hub) :
    (hub.route moment sender message).2.mailboxes.boxes.length =
      hub.mailboxes.boxes.length := by
  unfold route
  cases message.request with
  | error error => rfl
  | ok request => exact length_respond _ _ _ _ _

theorem get_route (moment : Moment) (sender : Connection) (message : Message) (hub : Hub)
    (id : ConnectionId) :
    (hub.route moment sender message).2.mailboxes.get id =
      (hub.mailboxes.get id).postAll
        ((hub.passedOn moment sender message id).map .ofEnvelope) := by
  unfold route passedOn
  cases message.request with
  | error error => rfl
  | ok request =>
      cases request with
      | broadcast payload =>
          exact hub.recordMessage.get_broadcast moment payload (some sender) id
      | _ => rfl

theorem registry_dispatch (moment : Moment) (sender : Connection) (message : Message)
    (hub : Hub) :
    (hub.dispatch moment sender message).registry = hub.registry.recordMessage :=
  registry_route _ _ _ _

theorem length_dispatch (moment : Moment) (sender : Connection) (message : Message)
    (hub : Hub) :
    (hub.dispatch moment sender message).mailboxes.boxes.length =
      hub.mailboxes.boxes.length := by
  simp only [dispatch, postEnvelope, Mailboxes.postEnvelope, Mailboxes.length_post]
  exact length_route _ _ _ _

theorem get_dispatch (moment : Moment) (sender : Connection) (message : Message) (hub : Hub)
    (id : ConnectionId) :
    (hub.dispatch moment sender message).mailboxes.get id =
      (hub.mailboxes.get id).postAll
        ((hub.outgoing moment sender message id).map .ofEnvelope) := by
  have routed := hub.get_route moment sender message id
  simp only [dispatch, postEnvelope, Mailboxes.postEnvelope, outgoing, List.map_append]
  rw [Mailbox.postAll_append, ← routed]
  by_cases same : sender.id = id
  · subst same
    rw [Mailboxes.get_post_self, if_pos rfl]
    rfl
  · rw [Mailboxes.get_post_other (Ne.symm same), if_neg same]
    rfl

end Hub

end Relay
