import Relay.Proofs.Exchange.Counting

namespace Relay

/-! Isolation of clients from each other. Two exchanges are alike to everybody but one
connection if they differ only in the frames that wait for it. No step can tell such
exchanges apart but taking these frames out, because nothing ever looks into a mailbox to
decide what to do. A message that is not a broadcast leaves the exchange alike to one that
has only counted it. Main statement: whatever happens after such a message, others see the
same as after any other. -/

def Message.isBroadcast (message : Message) : Bool :=
  match message.request with
  | .ok (.broadcast _) => true
  | _ => false

namespace Hub

theorem passedOn_of_private {message : Message} (isPrivate : message.isBroadcast = false)
    (moment : Moment) (sender : Connection) (id : ConnectionId) (hub : Hub) :
    hub.passedOn moment sender message id = [] := by
  unfold Message.isBroadcast at isPrivate
  unfold passedOn
  split
  · rename_i payload isRequest
    rw [isRequest] at isPrivate
    cases isPrivate
  · rfl

/-! ## Host and port -/

theorem site_emitTimes (moment : Moment) (count : Nat) (hub : Hub) :
    (hub.emitTimes moment count).host = hub.host ∧
      (hub.emitTimes moment count).port = hub.port := by
  induction count generalizing hub with
  | zero => exact ⟨rfl, rfl⟩
  | succ count induction =>
      rw [emitTimes, (induction _).1, (induction _).2, emit]
      split <;> exact ⟨rfl, rfl⟩

theorem site_registerWelcomed (moment : Moment) (connection : Connection) (hub : Hub) :
    (hub.registerWelcomed moment connection).host = hub.host ∧
      (hub.registerWelcomed moment connection).port = hub.port := by
  unfold registerWelcomed
  split <;> exact ⟨rfl, rfl⟩

theorem site_route (moment : Moment) (sender : Connection) (message : Message) (hub : Hub) :
    (hub.route moment sender message).2.host = hub.host ∧
      (hub.route moment sender message).2.port = hub.port := by
  unfold route
  cases message.request with
  | error error => exact ⟨rfl, rfl⟩
  | ok request => cases request <;> exact ⟨rfl, rfl⟩

end Hub

theorem Mailboxes.report_deliver {left right : Mailboxes}
    (accepts : ∀ id, left.accepts id = right.accepts id) (recipients : List Connection)
    (envelope : Envelope) (exclude : Option ConnectionId) :
    (left.deliver recipients envelope exclude).1 =
      (right.deliver recipients envelope exclude).1 := by
  have failure (id : ConnectionId) : left.failure? id = right.failure? id := by
    rw [failure?, failure?, accepts]
  simp only [deliver, failure]

namespace Exchange

theorem site_step (clock : Nat → Moment) (step : Step) (exchange : Exchange) :
    (exchange.step clock step).2.hub.host = exchange.hub.host ∧
      (exchange.step clock step).2.hub.port = exchange.hub.port := by
  cases step with
  | registerWelcomed connection => exact exchange.hub.site_registerWelcomed _ connection
  | route sender message => exact exchange.hub.site_route _ sender message
  | dispatch sender message => exact exchange.hub.site_route _ sender message
  | emit => exact exchange.hub.site_emitTimes _ 1
  | advance milliseconds =>
      change (exchange.advance clock milliseconds).hub.host = _ ∧
        (exchange.advance clock milliseconds).hub.port = _
      unfold advance
      cases exchange.heartbeat with
      | none => exact ⟨rfl, rfl⟩
      | some heartbeat => exact exchange.hub.site_emitTimes _ _
  | _ => exact ⟨rfl, rfl⟩

theorem time_advance (clock : Nat → Moment) (milliseconds : Nat) (exchange : Exchange) :
    (exchange.advance clock milliseconds).now = exchange.now + milliseconds ∧
      (exchange.advance clock milliseconds).heartbeat =
        exchange.heartbeat.map fun heartbeat =>
          (heartbeat.expire (exchange.now + milliseconds)).2 := by
  unfold advance
  cases exchange.heartbeat <;> exact ⟨rfl, rfl⟩

/-- The outcome of a step depends on who is there, and on no frame that waits for anybody
but the one who takes it out. -/
theorem outcome_hubStep {hub : Hub} {mailboxes : Mailboxes} {step : Step}
    (fresh : mailboxes.fresh = hub.mailboxes.fresh)
    (accepts : ∀ id, mailboxes.accepts id = hub.mailboxes.accepts id)
    (same : ∀ {id}, step = .receive id → mailboxes.get id = hub.mailboxes.get id)
    (moment : Moment) :
    (hubStep moment step { hub with mailboxes }).1 = (hubStep moment step hub).1 := by
  cases step with
  | openConnection address =>
      exact congrArg (fun id => Outcome.opened ⟨id, address⟩) fresh
  | registerWelcomed connection =>
      simp only [hubStep, Hub.registry_registerWelcomed, accepts]
      rfl
  | close id => exact congrArg Outcome.flag (accepts id)
  | send id frame => exact congrArg Outcome.flag (accepts id)
  | receive id => simp only [hubStep, same rfl]
  | route sender message =>
      simp only [hubStep, Hub.route]
      cases message.request with
      | error error => rfl
      | ok request => cases request <;> rfl
  | broadcast payload sender =>
      exact congrArg Outcome.report (Mailboxes.report_deliver accepts hub.registry.members
        (hub.broadcastEnvelope moment payload sender) (sender.map Connection.id))
  | fanOut envelope exclude =>
      exact congrArg Outcome.report
        (Mailboxes.report_deliver accepts hub.registry.members envelope exclude)
  | deliverTo id envelope => simp only [hubStep, Mailboxes.failure?, accepts]
  | emit =>
      simp only [hubStep, Hub.emit]
      split
      · rfl
      · exact congrArg (fun report => Outcome.emitted (some report))
          (Mailboxes.report_deliver accepts hub.registry.members
            (hub.heartbeatEnvelope moment) none)
  | _ => rfl

/-- Two exchanges differ at most in what waits for one connection. -/
structure Alike (id : ConnectionId) (left right : Exchange) : Prop where
  now : left.now = right.now
  heartbeat : left.heartbeat = right.heartbeat
  host : left.hub.host = right.hub.host
  port : left.hub.port = right.hub.port
  registry : left.hub.registry = right.hub.registry
  connected : left.hub.mailboxes.boxes.length = right.hub.mailboxes.boxes.length
  accepts : ∀ other, left.hub.mailboxes.accepts other = right.hub.mailboxes.accepts other
  others : ∀ other, other ≠ id →
    left.hub.mailboxes.get other = right.hub.mailboxes.get other

/-- Two runs of the same steps look the same to everybody but one connection. -/
structure LooksAlike (id : ConnectionId) (steps : List Step)
    (left right : List Outcome × Exchange) : Prop where
  outcomes : ∀ position : Nat, steps[position]? ≠ some (.receive id) →
    left.1[position]? = right.1[position]?
  received : ∀ other, other ≠ id → received other steps left.1 = received other steps right.1
  mailboxes : ∀ other, other ≠ id →
    left.2.hub.mailboxes.get other = right.2.hub.mailboxes.get other
  members : left.2.hub.registry.members = right.2.hub.registry.members
  messageCount : left.2.hub.registry.messageCount = right.2.hub.registry.messageCount

namespace Alike

variable {id : ConnectionId} {left right : Exchange}

theorem symm (alike : Alike id left right) : Alike id right left where
  now := alike.now.symm
  heartbeat := alike.heartbeat.symm
  host := alike.host.symm
  port := alike.port.symm
  registry := alike.registry.symm
  connected := alike.connected.symm
  accepts := fun other => (alike.accepts other).symm
  others := fun other different => (alike.others other different).symm

theorem trans {middle : Exchange} (front : Alike id left middle)
    (back : Alike id middle right) : Alike id left right where
  now := front.now.trans back.now
  heartbeat := front.heartbeat.trans back.heartbeat
  host := front.host.trans back.host
  port := front.port.trans back.port
  registry := front.registry.trans back.registry
  connected := front.connected.trans back.connected
  accepts := fun other => (front.accepts other).trans (back.accepts other)
  others := fun other different =>
    (front.others other different).trans (back.others other different)

theorem fresh (alike : Alike id left right) :
    left.hub.mailboxes.fresh = right.hub.mailboxes.fresh :=
  congrArg ConnectionId.mk alike.connected

theorem hub_eq (alike : Alike id left right) :
    left.hub = { right.hub with mailboxes := left.hub.mailboxes } := by
  change _ = Hub.mk right.hub.host right.hub.port right.hub.registry left.hub.mailboxes
  rw [← alike.host, ← alike.port, ← alike.registry]

theorem addressed (alike : Alike id left right) (clock : Nat → Moment) (other : ConnectionId)
    (step : Step) : left.addressed clock other step = right.addressed clock other step := by
  rcases left with ⟨⟨host, port, registry, mailboxes⟩, now, heartbeat⟩
  rcases right with ⟨⟨_, _, _, others⟩, _, _⟩
  rcases alike with ⟨rfl, rfl, rfl, rfl, rfl, _, _, _⟩
  cases step with
  | dispatch sender message =>
      simp only [Exchange.addressed, Hub.outgoing, Hub.passedOn, Hub.route]
      cases message.request with
      | error error => rfl
      | ok request => cases request <;> rfl
  | _ => rfl

/-! ## One step -/

theorem isOpen_prepared {left right : Mailbox} (same : left.isOpen = right.isOpen)
    (fresh other : ConnectionId) (step : Step) :
    (prepared fresh other step left).isOpen = (prepared fresh other step right).isOpen := by
  cases step with
  | openConnection address =>
      simp only [prepared]
      split
      · rfl
      · exact same
  | close closed =>
      simp only [prepared]
      split
      · rfl
      · exact same
  | receive receiver =>
      simp only [prepared]
      split
      · exact same
      · exact same
  | _ => exact same

theorem time_step (alike : Alike id left right) (clock : Nat → Moment) (step : Step) :
    (left.step clock step).2.now = (right.step clock step).2.now ∧
      (left.step clock step).2.heartbeat = (right.step clock step).2.heartbeat := by
  cases step with
  | startHeartbeat period =>
      exact ⟨alike.now, congrArg (fun now => some (Heartbeat.start period now)) alike.now⟩
  | stopHeartbeat => exact ⟨alike.now, rfl⟩
  | advance milliseconds =>
      have leftTime := left.time_advance clock milliseconds
      have rightTime := right.time_advance clock milliseconds
      rw [← alike.now, ← alike.heartbeat] at rightTime
      exact ⟨leftTime.1.trans rightTime.1.symm, leftTime.2.trans rightTime.2.symm⟩
  | _ => exact ⟨alike.now, alike.heartbeat⟩

/-- Whatever happens, exchanges that are alike stay so. -/
theorem step (alike : Alike id left right) (clock : Nat → Moment) (step : Step) :
    Alike id (left.step clock step).2 (right.step clock step).2 where
  now := (alike.time_step clock step).1
  heartbeat := (alike.time_step clock step).2
  host := by rw [(site_step _ _ _).1, (site_step _ _ _).1, alike.host]
  port := by rw [(site_step _ _ _).2, (site_step _ _ _).2, alike.port]
  registry := by rw [registry_step, registry_step, alike.registry]
  connected := by rw [connected_step, connected_step, alike.connected]
  accepts := by
    intro other
    rw [Mailboxes.accepts, Mailboxes.accepts, get_step, get_step, Mailbox.isOpen_postAll,
      Mailbox.isOpen_postAll, alike.fresh]
    exact isOpen_prepared (alike.accepts other) _ other step
  others := by
    intro other different
    rw [get_step, get_step, alike.fresh, alike.addressed, alike.others other different]

theorem outcome_step (alike : Alike id left right) (clock : Nat → Moment) {step : Step}
    (isOther : step ≠ .receive id) :
    (left.step clock step).1 = (right.step clock step).1 := by
  have same {other : ConnectionId} (isStep : step = .receive other) :
      left.hub.mailboxes.get other = right.hub.mailboxes.get other :=
    alike.others other fun isId => isOther (isId ▸ isStep)
  have outcome : (hubStep (clock left.now) step left.hub).1 =
      (hubStep (clock right.now) step right.hub).1 := by
    rw [alike.hub_eq, alike.now]
    exact outcome_hubStep alike.fresh alike.accepts same _
  cases step with
  | startHeartbeat period => rfl
  | stopHeartbeat =>
      exact congrArg (fun heartbeat => Outcome.flag heartbeat.isSome) alike.heartbeat
  | advance milliseconds => rfl
  | _ => exact outcome

/-! ## Runs -/

theorem run (alike : Alike id left right) (clock : Nat → Moment) (steps : List Step) :
    LooksAlike id steps (left.run clock steps) (right.run clock steps) := by
  induction steps generalizing left right with
  | nil =>
      exact ⟨fun _ _ => rfl, fun _ _ => rfl, alike.others, congrArg Registry.members
        alike.registry, congrArg Registry.messageCount alike.registry⟩
  | cons step rest induction =>
      have later := induction (alike.step clock step)
      rw [run_cons, run_cons]
      refine ⟨?_, ?_, later.mailboxes, later.members, later.messageCount⟩
      · intro position isOther
        cases position with
        | zero =>
            have notTaken : step ≠ .receive id := fun same => isOther (congrArg some same)
            exact congrArg some (alike.outcome_step clock notTaken)
        | succ position => exact later.outcomes position isOther
      · intro other different
        rw [received_cons, received_cons, taken_step, taken_step, queued, queued,
          alike.accepts, alike.others other different, later.received other different]

end Alike

theorem alike_dispatch {message : Message} (isPrivate : message.isBroadcast = false)
    (clock : Nat → Moment) (sender : Connection) (exchange : Exchange) :
    Alike sender.id (exchange.step clock (.dispatch sender message)).2
      (exchange.step clock .recordMessage).2 where
  now := rfl
  heartbeat := rfl
  host := (site_step clock (.dispatch sender message) exchange).1
  port := (site_step clock (.dispatch sender message) exchange).2
  registry := registry_step clock (.dispatch sender message) exchange
  connected := connected_step clock (.dispatch sender message) exchange
  accepts := by
    intro other
    rw [Mailboxes.accepts, get_step, Mailbox.isOpen_postAll]
    rfl
  others := by
    intro other different
    have nothing : exchange.addressed clock other (.dispatch sender message) = [] := by
      simp only [addressed, Hub.outgoing, Hub.passedOn_of_private isPrivate,
        if_neg (Ne.symm different), List.append_nil, List.map_nil]
    rw [get_step, nothing]
    rfl

/-- Others cannot tell what a client has sent, as long as it is no broadcast. In every
state and whatever happens afterwards, two such messages lead to the same outcomes of all
steps but taking frames out for their sender, to the same frames for everybody else, and to
the same registry; and so does a message that has only been counted. -/
theorem run_hides_message (clock : Nat → Moment) (exchange : Exchange) (sender : Connection)
    (first second : Message) (later : List Step)
    (firstPrivate : first.isBroadcast = false) (secondPrivate : second.isBroadcast = false) :
    let after := fun step => (exchange.step clock step).2.run clock later
    LooksAlike sender.id later (after (.dispatch sender first))
        (after (.dispatch sender second)) ∧
      LooksAlike sender.id later (after (.dispatch sender first)) (after .recordMessage) := by
  intro after
  have firstCounted := alike_dispatch firstPrivate clock sender exchange
  have secondCounted := alike_dispatch secondPrivate clock sender exchange
  exact ⟨(firstCounted.trans secondCounted.symm).run clock later,
    firstCounted.run clock later⟩

/-- A ping and octets that are no text, while another client asks for statistics, takes its
frames out and is sent a broadcast of the sender. -/
theorem run_hides_message_unreadable :
    let clock : Nat → Moment := fun _ => ⟨"now", Double.zero⟩
    let sender : Connection := ⟨⟨0⟩, .v4 127 0 0 1 5000⟩
    let other : Connection := ⟨⟨1⟩, .v4 127 0 0 1 5001⟩
    let ping : Message := .text "\x7b\"type\":\"ping\"\x7d"
    let octets : Message := .binary [0xFF]
    let later : List Step :=
      [.dispatch other (.text "\x7b\"type\":\"stats\"\x7d"), .receive other.id,
        .dispatch sender (.text "\x7b\"type\":\"broadcast\"\x7d")]
    let exchange := ((start "localhost" 3004).run clock
      [.openConnection sender.address, .openConnection other.address, .register sender,
        .register other]).2
    let after := fun message =>
      (exchange.step clock (.dispatch sender message)).2.run clock later
    ping.isBroadcast = false ∧ octets.isBroadcast = false ∧
      received other.id later (after ping).1 = received other.id later (after octets).1 ∧
      (after ping).2.hub.mailboxes.get other.id =
        (after octets).2.hub.mailboxes.get other.id ∧
      ((after ping).2.hub.mailboxes.get other.id).queued.length = 1 := by
  intro clock sender other ping octets later exchange after
  have pingPrivate : ping.isBroadcast = false := by decide +kernel
  have octetsPrivate : octets.isBroadcast = false := by decide +kernel
  have different : other.id ≠ sender.id := by decide
  have alike := (run_hides_message clock exchange sender ping octets later pingPrivate
    octetsPrivate).1
  exact ⟨pingPrivate, octetsPrivate, alike.received other.id different,
    alike.mailboxes other.id different, by decide +kernel⟩

end Exchange

end Relay
