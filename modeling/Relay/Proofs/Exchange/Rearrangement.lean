import Relay.Proofs.Exchange.Isolation
import Relay.Proofs.Exchange.Copies
import Relay.Proofs.Threads.Turns

namespace Relay

/-! The order of a registry. A registry hands out its members in some order that nobody
decides, and it may be another one each time. Main statement: nobody can tell. A run in
which the members are put into any order before every step queues the same frames, counts
the same messages and has the same outcomes, except that the deliveries of a report stand in
another order. -/

/-! ## Deliveries -/

theorem Report.counts_of_perm {left right : Report}
    (same : left.deliveries.Perm right.deliveries) :
    left.recipients = right.recipients ∧ left.delivered = right.delivered ∧
      left.failed = right.failed ∧ left.failures.Perm right.failures := by
  have recipients : left.recipients = right.recipients := same.length_eq
  have delivered : left.delivered = right.delivered := (same.filter _).length_eq
  refine ⟨recipients, delivered, ?_, same.filter _⟩
  rw [failed, failed, recipients, delivered]

namespace Mailboxes

variable {first second : List Connection}

theorem perm_addressees (same : first.Perm second) (exclude : Option ConnectionId) :
    (addressees exclude first).Perm (addressees exclude second) :=
  (same.map Connection.id).filter _

theorem deliver_of_perm (same : first.Perm second) (envelope : Envelope)
    (exclude : Option ConnectionId) (mailboxes : Mailboxes) :
    (mailboxes.deliver first envelope exclude).2 =
        (mailboxes.deliver second envelope exclude).2 ∧
      (mailboxes.deliver first envelope exclude).1.deliveries.Perm
        (mailboxes.deliver second envelope exclude).1.deliveries := by
  have ids := perm_addressees same exclude
  constructor
  · apply ids.foldl_eq'
    intro one _ other _ mailboxes
    exact post_comm one other _ mailboxes
  · exact ids.map _

end Mailboxes

/-! ## Registries -/

namespace Registry

structure Rearranges (registry other : Registry) : Prop where
  members : registry.members.Perm other.members
  messageCount : registry.messageCount = other.messageCount

namespace Rearranges

variable {registry other : Registry}

theorem refl (registry : Registry) : registry.Rearranges registry := ⟨.refl _, rfl⟩

theorem trans {third : Registry} (front : registry.Rearranges other)
    (back : other.Rearranges third) : registry.Rearranges third :=
  ⟨front.members.trans back.members, front.messageCount.trans back.messageCount⟩

theorem size (same : registry.Rearranges other) : registry.size = other.size :=
  same.members.length_eq

theorem snapshot (same : registry.Rearranges other) : registry.snapshot = other.snapshot := by
  rw [Registry.snapshot, Registry.snapshot, same.size, same.messageCount]

theorem contains (same : registry.Rearranges other) (id : ConnectionId) :
    registry.contains id = other.contains id := by
  rw [Bool.eq_iff_iff, contains_iff, contains_iff]
  exact (same.members.map Connection.id).mem_iff

theorem isEmpty (same : registry.Rearranges other) : registry.isEmpty = other.isEmpty :=
  same.members.isEmpty_eq

theorem register (same : registry.Rearranges other) (connection : Connection) :
    (registry.register connection).Rearranges (other.register connection) := by
  cases present : other.contains connection.id with
  | true =>
      rw [register_of_contains present, register_of_contains (same.contains _ ▸ present)]
      exact same
  | false =>
      have absent : registry.contains connection.id = false := same.contains _ ▸ present
      constructor
      · rw [members_register_of_absent present, members_register_of_absent absent]
        exact same.members.append_right _
      · rw [messageCount_register, messageCount_register, same.messageCount]

theorem unregister (same : registry.Rearranges other) (id : ConnectionId) :
    (registry.unregister id).Rearranges (other.unregister id) :=
  ⟨same.members.filter _, same.messageCount⟩

theorem recordMessage (same : registry.Rearranges other) :
    registry.recordMessage.Rearranges other.recordMessage :=
  ⟨same.members, congrArg (· + 1) same.messageCount⟩

theorem onRegistry (same : registry.Rearranges other) (step : Step) :
    (step.onRegistry registry).Rearranges (step.onRegistry other) := by
  cases step with
  | register connection => exact same.register connection
  | registerWelcomed connection => exact same.register connection
  | unregister id => exact same.unregister id
  | recordMessage => exact same.recordMessage
  | route sender message => exact same.recordMessage
  | dispatch sender message => exact same.recordMessage
  | _ => exact same

end Rearranges

end Registry

/-! ## Hubs -/

namespace Hub

variable {hub : Hub} {registry : Registry}

theorem fanOut_of_rearranges (same : registry.Rearranges hub.registry) (envelope : Envelope)
    (exclude : Option ConnectionId) :
    (fanOut envelope exclude { hub with registry }).2 =
        { (hub.fanOut envelope exclude).2 with registry } ∧
      (fanOut envelope exclude { hub with registry }).1.deliveries.Perm
        (hub.fanOut envelope exclude).1.deliveries := by
  have delivered := Mailboxes.deliver_of_perm same.members envelope exclude hub.mailboxes
  exact ⟨congrArg (fun mailboxes => ({ hub with registry, mailboxes } : Hub)) delivered.1,
    delivered.2⟩

theorem broadcastEnvelope_of_rearranges (same : registry.Rearranges hub.registry)
    (moment : Moment) (payload : Json) (sender : Option Connection) :
    broadcastEnvelope moment payload sender { hub with registry } =
      hub.broadcastEnvelope moment payload sender := by
  simp only [broadcastEnvelope, same.size]

theorem broadcast_of_rearranges (same : registry.Rearranges hub.registry) (moment : Moment)
    (payload : Json) (sender : Option Connection) :
    (broadcast moment payload sender { hub with registry }).2 =
        { (hub.broadcast moment payload sender).2 with registry } ∧
      (broadcast moment payload sender { hub with registry }).1.deliveries.Perm
        (hub.broadcast moment payload sender).1.deliveries := by
  rw [broadcast, broadcastEnvelope_of_rearranges same]
  exact fanOut_of_rearranges same _ _

theorem heartbeatEnvelope_of_rearranges (same : registry.Rearranges hub.registry)
    (moment : Moment) :
    heartbeatEnvelope moment { hub with registry } = hub.heartbeatEnvelope moment := by
  simp only [heartbeatEnvelope, same.snapshot]

theorem emitTimes_of_rearranges (same : registry.Rearranges hub.registry) (moment : Moment)
    (count : Nat) :
    emitTimes moment count { hub with registry } =
      { hub.emitTimes moment count with registry } := by
  induction count generalizing hub with
  | zero => rfl
  | succ count induction =>
      have emitted : (emit moment { hub with registry }).2 =
          { (hub.emit moment).2 with registry } := by
        simp only [emit, same.isEmpty, heartbeatEnvelope_of_rearranges same]
        split
        · rfl
        · exact (fanOut_of_rearranges same _ _).1
      rw [emitTimes, emitTimes, emitted]
      exact induction (by rw [registry_emit]; exact same)

theorem respond_of_rearranges (same : registry.Rearranges hub.registry) (moment : Moment)
    (sender : Connection) (count : UInt64) (request : Request) :
    respond moment sender count request { hub with registry } =
      ((hub.respond moment sender count request).1,
        { (hub.respond moment sender count request).2 with registry }) := by
  cases request with
  | broadcast payload =>
      have passed := (broadcast_of_rearranges same moment payload (some sender)).1
      have others : UInt64.ofNat (registry.size - 1) = .ofNat (hub.registry.size - 1) := by
        rw [same.size]
      exact congrArg₂ Prod.mk
        (congrArg (Envelope.broadcastConfirm confirmation · moment.timestamp) others) passed
  | stats => simp only [respond, statistics, same.snapshot]
  | _ => rfl

theorem route_of_rearranges (same : registry.Rearranges hub.registry) (moment : Moment)
    (sender : Connection) (message : Message) :
    route moment sender message { hub with registry } =
      ((hub.route moment sender message).1,
        { (hub.route moment sender message).2 with registry := registry.recordMessage }) := by
  have counted : registry.recordMessage.Rearranges hub.recordMessage.registry :=
    same.recordMessage
  unfold route
  cases message.request with
  | error error => rfl
  | ok request =>
      have answered := respond_of_rearranges counted moment sender
        hub.recordMessage.registry.messageCount request
      rw [← counted.messageCount] at answered
      simp only [← counted.messageCount]
      exact answered

theorem registerWelcomed_of_rearranges (same : registry.Rearranges hub.registry)
    (moment : Moment) (connection : Connection) :
    registerWelcomed moment connection { hub with registry } =
      { hub.registerWelcomed moment connection with
        registry := registry.register connection } := by
  cases present : hub.registry.contains connection.id with
  | true =>
      have stillPresent : registry.contains connection.id = true := same.contains _ ▸ present
      rw [registerWelcomed_of_contains present, registerWelcomed_of_contains stillPresent,
        Registry.register_of_contains stillPresent]
  | false =>
      have absent : registry.contains connection.id = false := same.contains _ ▸ present
      rw [registerWelcomed_of_absent present, registerWelcomed_of_absent absent]
      simp only [same.size, same.messageCount]
      rfl

end Hub

/-- Whether two outcomes say the same, up to the order of the deliveries in a report. -/
inductive Outcome.Agrees : Outcome → Outcome → Prop
  | same (outcome : Outcome) : Agrees outcome outcome
  | report {left right : Report} (same : left.deliveries.Perm right.deliveries) :
      Agrees (.report left) (.report right)
  | emitted {left right : Report} (same : left.deliveries.Perm right.deliveries) :
      Agrees (.emitted (some left)) (.emitted (some right))

namespace Exchange

/-! ## One step -/

theorem hubStep_of_rearranges {hub : Hub} {registry : Registry}
    (same : registry.Rearranges hub.registry) (moment : Moment) (step : Step) :
    (hubStep moment step { hub with registry }).1.Agrees (hubStep moment step hub).1 ∧
      (hubStep moment step { hub with registry }).2 =
        { (hubStep moment step hub).2 with registry := step.onRegistry registry } := by
  have joined (connection : Connection) : (registry.register connection).snapshot =
      (hub.registry.register connection).snapshot := (same.register connection).snapshot
  cases step with
  | register connection =>
      simp only [hubStep, Hub.register, joined]
      exact ⟨.same _, rfl⟩
  | registerWelcomed connection =>
      have greeted : Hub.greeting? connection { hub with registry } =
          hub.greeting? connection := by
        simp only [Hub.greeting?, same.contains, joined]
      have welcomed := Hub.registerWelcomed_of_rearranges same moment connection
      simp only [hubStep, greeted, welcomed, joined, Hub.registry_registerWelcomed]
      exact ⟨.same _, rfl⟩
  | unregister id =>
      simp only [hubStep, same.contains]
      exact ⟨.same _, rfl⟩
  | recordMessage =>
      have counted := same.recordMessage.messageCount
      simp only [hubStep, Hub.recordMessage, counted]
      exact ⟨.same _, rfl⟩
  | route sender message =>
      simp only [hubStep, Hub.route_of_rearranges same]
      exact ⟨.same _, rfl⟩
  | dispatch sender message =>
      simp only [hubStep, Hub.dispatch, Hub.route_of_rearranges same]
      exact ⟨.same _, rfl⟩
  | broadcast payload sender =>
      have passed := Hub.broadcast_of_rearranges same moment payload sender
      exact ⟨.report passed.2, passed.1⟩
  | fanOut envelope exclude =>
      have passed := Hub.fanOut_of_rearranges same envelope exclude
      exact ⟨.report passed.2, passed.1⟩
  | emit =>
      simp only [hubStep, Hub.emit, same.isEmpty, Hub.heartbeatEnvelope_of_rearranges same]
      split
      · exact ⟨.same _, rfl⟩
      · have passed := Hub.fanOut_of_rearranges same (hub.heartbeatEnvelope moment) none
        exact ⟨.emitted passed.2, passed.1⟩
  | _ => exact ⟨.same _, rfl⟩

def withRegistry (registry : Registry) (exchange : Exchange) : Exchange :=
  { exchange with hub := { exchange.hub with registry } }

/-- No step can tell two orders of the registry apart. -/
theorem step_withRegistry {exchange : Exchange} {registry : Registry}
    (same : registry.Rearranges exchange.hub.registry) (clock : Nat → Moment) (step : Step) :
    ((exchange.withRegistry registry).step clock step).1.Agrees (exchange.step clock step).1 ∧
      ((exchange.withRegistry registry).step clock step).2 =
        (exchange.step clock step).2.withRegistry (step.onRegistry registry) := by
  have onHub := hubStep_of_rearranges same (clock exchange.now) step
  cases step with
  | startHeartbeat period => exact ⟨.same _, rfl⟩
  | stopHeartbeat => exact ⟨.same _, rfl⟩
  | advance milliseconds =>
      refine ⟨.same _, ?_⟩
      simp only [Exchange.step, advance, withRegistry]
      cases exchange.heartbeat with
      | none => rfl
      | some heartbeat =>
          have emitted := Hub.emitTimes_of_rearranges same
            (clock (exchange.now + milliseconds))
            (heartbeat.expire (exchange.now + milliseconds)).1
          exact congrArg (fun hub => (⟨hub, _, _⟩ : Exchange)) emitted
  | _ => exact ⟨onHub.1, congrArg (fun hub => ({ exchange with hub } : Exchange)) onHub.2⟩

/-! ## Runs -/

/-- Runs in which the registry may have another order before every step, and at the end. -/
inductive RunsInAnyOrder (clock : Nat → Moment) :
    List Step → Exchange → List Outcome → Exchange → Prop
  | nil {exchange : Exchange} {registry : Registry}
      (same : registry.Rearranges exchange.hub.registry) :
      RunsInAnyOrder clock [] exchange [] (exchange.withRegistry registry)
  | cons {exchange final : Exchange} {registry : Registry} {step : Step} {rest : List Step}
      {outcomes : List Outcome} (same : registry.Rearranges exchange.hub.registry)
      (later : RunsInAnyOrder clock rest ((exchange.withRegistry registry).step clock step).2
        outcomes final) :
      RunsInAnyOrder clock (step :: rest) exchange
        (((exchange.withRegistry registry).step clock step).1 :: outcomes) final

/-- Whatever order the registry had at the beginning and gets before each step, the run
has the outcomes and the end that it has without any rearrangement. -/
theorem RunsInAnyOrder.agrees {clock : Nat → Moment} {steps : List Step}
    {exchange final : Exchange} {registry : Registry} {outcomes : List Outcome}
    (same : registry.Rearranges exchange.hub.registry)
    (runs : RunsInAnyOrder clock steps (exchange.withRegistry registry) outcomes final) :
    List.Forall₂ Outcome.Agrees outcomes (exchange.run clock steps).1 ∧
      ∃ last : Registry, last.Rearranges (exchange.run clock steps).2.hub.registry ∧
        final = (exchange.run clock steps).2.withRegistry last := by
  induction steps generalizing exchange registry outcomes with
  | nil =>
      cases runs with
      | nil again => exact ⟨.nil, _, again.trans same, rfl⟩
  | cons step rest induction =>
      cases runs with
      | cons again later =>
          rename_i handed outcomes
          have handedSame := again.trans same
          have stepped := step_withRegistry handedSame clock step
          have isStepped : (((exchange.withRegistry registry).withRegistry handed).step clock
              step).2 = _ := stepped.2
          rw [isStepped] at later
          have registries : (step.onRegistry handed).Rearranges
              (exchange.step clock step).2.hub.registry := by
            rw [registry_step]
            exact handedSame.onRegistry step
          rcases induction registries later with ⟨agree, isLast⟩
          exact ⟨.cons stepped.1 agree, isLast⟩

theorem taken_of_agrees (id : ConnectionId) (step : Step) {left right : Outcome}
    (agree : left.Agrees right) : taken id step left = taken id step right := by
  cases agree with
  | same outcome => rfl
  | report same => cases step <;> rfl
  | emitted same => cases step <;> rfl

theorem received_of_agrees (id : ConnectionId) (steps : List Step)
    {left right : List Outcome} (agree : List.Forall₂ Outcome.Agrees left right) :
    received id steps left = received id steps right := by
  induction agree generalizing steps with
  | nil => rfl
  | cons first _ induction =>
      cases steps with
      | nil => rfl
      | cons step rest =>
          rw [received_cons, received_cons, taken_of_agrees id step first, induction rest]

/-- In every state it is of no account in which order connections are handed out. Delivery to
a list and to a rearranged one leave the same hub, and their reports have the same deliveries.
If the registry is rearranged, every message gets the same reply and leaves the same frames in
all mailboxes. If the registry is rearranged before every step, the outcomes agree with those
of the run that leaves it as it is, everybody is handed the same frames, and at the end the two
runs differ at most in the order of the registry. -/
theorem run_ignores_order (clock : Nat → Moment) (exchange : Exchange) :
    (∀ (envelope : Envelope) (exclude : Option ConnectionId) (first second : List Connection),
      first.Perm second →
      let one := exchange.hub.deliver first envelope exclude
      let other := exchange.hub.deliver second envelope exclude
      one.2 = other.2 ∧ one.1.deliveries.Perm other.1.deliveries ∧
        one.1.recipients = other.1.recipients ∧ one.1.delivered = other.1.delivered ∧
        one.1.failed = other.1.failed ∧ one.1.failures.Perm other.1.failures) ∧
    (∀ registry : Registry, registry.Rearranges exchange.hub.registry →
      ∀ (moment : Moment) (sender : Connection) (message : Message),
        let rearranged := (exchange.withRegistry registry).hub
        (rearranged.route moment sender message).1 =
            (exchange.hub.route moment sender message).1 ∧
          (rearranged.dispatch moment sender message).mailboxes =
            (exchange.hub.dispatch moment sender message).mailboxes) ∧
    ∀ (steps : List Step) (outcomes : List Outcome) (final : Exchange),
      RunsInAnyOrder clock steps exchange outcomes final →
      let run := exchange.run clock steps
      List.Forall₂ Outcome.Agrees outcomes run.1 ∧
        (∀ id, received id steps outcomes = received id steps run.1) ∧
        ∃ last : Registry, last.Rearranges run.2.hub.registry ∧
          final = run.2.withRegistry last := by
  refine ⟨?_, ?_, ?_⟩
  · intro envelope exclude first second same one other
    have delivered := Mailboxes.deliver_of_perm same envelope exclude exchange.hub.mailboxes
    refine ⟨?_, delivered.2, Report.counts_of_perm delivered.2⟩
    exact congrArg (fun mailboxes => ({ exchange.hub with mailboxes } : Hub)) delivered.1
  · intro registry same moment sender message rearranged
    have routed : rearranged.route moment sender message = _ :=
      Hub.route_of_rearranges same moment sender message
    rw [Hub.dispatch, routed]
    exact ⟨rfl, rfl⟩
  · intro steps outcomes final runs run
    rcases RunsInAnyOrder.agrees (.refl exchange.hub.registry) runs with ⟨agree, isLast⟩
    exact ⟨agree, fun id => received_of_agrees id steps agree, isLast⟩

/-- Two messages of the server to three connections, one of them closed. The registry is
turned round before the second one, and its report shows that. -/
theorem run_ignores_order_reversed :
    let clock : Nat → Moment := fun _ => ⟨"now", Double.zero⟩
    let first : Connection := ⟨⟨0⟩, .v4 127 0 0 1 5000⟩
    let second : Connection := ⟨⟨1⟩, .v4 127 0 0 1 5001⟩
    let third : Connection := ⟨⟨2⟩, .v4 127 0 0 1 5002⟩
    let exchange := ((start "localhost" 3004).run clock
      [.openConnection first.address, .openConnection second.address,
        .openConnection third.address, .register first, .register second, .register third,
        .close second.id]).2
    let envelope := Envelope.internalError (clock 0)
    let step : Step := .fanOut envelope none
    let turned : Registry := ⟨[third, second, first], 0, by decide⟩
    let next := (exchange.step clock step).2
    let outcomes := [(exchange.step clock step).1, ((next.withRegistry turned).step clock step).1]
    let final := ((next.withRegistry turned).step clock step).2
    [second, third].Perm [third, second] ∧
      (exchange.hub.deliver [second, third] envelope none).2 =
        (exchange.hub.deliver [third, second] envelope none).2 ∧
      turned.Rearranges next.hub.registry ∧
      RunsInAnyOrder clock [step, step] exchange outcomes final ∧
      (exchange.run clock [step, step]).1 ≠ outcomes ∧
      List.Forall₂ Outcome.Agrees outcomes (exchange.run clock [step, step]).1 := by
  intro clock first second third exchange envelope step turned next outcomes final
  have swapped : [second, third].Perm [third, second] := .swap _ _ _
  have members : turned.Rearranges next.hub.registry :=
    ⟨by decide +kernel, by decide +kernel⟩
  have runs : RunsInAnyOrder clock [step, step] exchange outcomes final :=
    .cons (.refl exchange.hub.registry) (.cons members (.nil (.refl final.hub.registry)))
  have law := run_ignores_order clock exchange
  exact ⟨swapped, (law.1 envelope none _ _ swapped).1, members, runs, by decide +kernel,
    (law.2.2 [step, step] outcomes final runs).1⟩

end Exchange

end Relay
