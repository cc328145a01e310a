import Mathlib.Data.List.Nodup
import Relay.Proofs.Exchange.Copies
import Relay.Proofs.Json.Literals

namespace Relay

/-! The numbers of a broadcast. Others are told how many connections take part, the sender is
told the same number less one, and neither looks at the report of the delivery. Main
statement: the sender's number is that of the connections which the broadcast was addressed
to, unless the sender does not take part and others do; then it is one too small. -/

namespace Address

/-- The text of an address begins with a digit or a bracket. -/
theorem exists_text_eq (address : Address) :
    ∃ first rest, address.text = first :: rest ∧ (first.isDigit = true ∨ first = '[') := by
  cases address with
  | v4 first second third fourth port =>
      have digits := Json.isDigits_toDigits first.toNat
      have split : (v4 first second third fourth port).text = decimal first.toNat ++
          '.' :: (octetsText [second, third, fourth] ++ ':' :: decimal port.toNat) := by
        simp [text, octetsText, List.intercalate]
      cases isText : decimal first.toNat with
      | nil => exact absurd isText digits.1
      | cons digit others =>
          have member : digit ∈ decimal first.toNat := isText ▸ List.mem_cons_self
          rw [isText] at split
          exact ⟨digit, _, split, .inl (digits.2 digit member)⟩
  | v6 groups eight scope port => exact ⟨'[', _, rfl, .inr rfl⟩

theorem render_ne_serverName (address : Address) : address.render ≠ Hub.serverName := by
  intro same
  rcases address.exists_text_eq with ⟨first, rest, isText, isFirst⟩
  have letters : address.text = Hub.serverName.toList := by
    rw [← same, render, String.toList_ofList]
  rw [isText] at letters
  have isLetter : first = 's' := (List.cons.inj letters).1
  rw [isLetter] at isFirst
  exact absurd isFirst (by decide)

end Address

namespace Hub

/-! ## Addressed connections -/

theorem addressees_broadcast (moment : Moment) (payload : Json) (sender : Connection)
    (hub : Hub) :
    (hub.broadcast moment payload (some sender)).1.deliveries.map Delivery.recipient =
      (hub.registry.members.map Connection.id).erase sender.id := by
  rw [hub.registry.distinct.erase_eq_filter]
  have named := Mailboxes.recipients_deliver hub.registry.members
    (hub.broadcastEnvelope moment payload (some sender)) (some sender.id) hub.mailboxes
  refine Eq.trans named (List.filter_congr fun id _ => ?_)
  by_cases same : id = sender.id <;> simp [same]

theorem recipients_broadcast (moment : Moment) (payload : Json) (sender : Connection)
    (hub : Hub) :
    (hub.broadcast moment payload (some sender)).1.recipients =
      if hub.registry.contains sender.id then hub.registry.size - 1 else hub.registry.size := by
  have addressed := congrArg List.length (hub.addressees_broadcast moment payload sender)
  rw [List.length_map, List.length_erase, List.length_map] at addressed
  simp only [Registry.contains_iff]
  exact addressed

/-! ## Dispatched broadcasts -/

theorem exists_broadcastEnvelope_eq (moment : Moment) (payload : Json)
    (sender? : Option Connection) (hub : Hub) :
    ∃ name, hub.broadcastEnvelope moment payload sender? =
        .broadcast payload name moment.timestamp (.ofNat hub.registry.size) ∧
      (name = serverName ↔ sender? = none) := by
  refine ⟨_, rfl, ?_⟩
  cases sender? with
  | none => exact ⟨fun _ => rfl, fun _ => rfl⟩
  | some sender => exact ⟨fun same => absurd same sender.address.render_ne_serverName, nofun⟩

theorem outgoing_of_broadcast {message : Message} {payload : Json}
    (accepted : message.request = .ok (.broadcast payload)) (moment : Moment)
    (sender : Connection) (hub : Hub) (id : ConnectionId) :
    hub.outgoing moment sender message id =
      if sender.id = id then
        [.broadcastConfirm confirmation (.ofNat (hub.registry.size - 1)) moment.timestamp]
      else if hub.registry.contains id then
        [.broadcast payload sender.address.render moment.timestamp (.ofNat hub.registry.size)]
      else [] := by
  have reply : (hub.route moment sender message).1 =
      .broadcastConfirm confirmation (.ofNat (hub.registry.size - 1)) moment.timestamp := by
    rw [route, accepted]
    rfl
  rw [outgoing, passedOn, accepted, reply]
  by_cases same : sender.id = id
  · simp [copyFor, same]
  · have included : some id ≠ some sender.id := fun isSender =>
      same (Option.some.inj isSender).symm
    simp only [copyFor, included, if_neg same, List.append_nil, ne_eq, not_false_eq_true, and_true]
    rfl

/-- The numbers that a dispatched broadcast shows, in every state and whoever sends it. It
changes nobody's membership. The copies for others carry the size of the registry, and the
reply carries this size less one, or zero. This is the number of connections that the
broadcast was addressed to, those that are gone included, exactly if its sender takes part or
nobody does; otherwise it is one too small. Sizes are written with 64 bits. Only a broadcast
without a sender is signed by the server. -/
theorem dispatch_counts_recipients (moment : Moment) (hub : Hub) (sender : Connection)
    {message : Message} {payload : Json}
    (accepted : message.request = .ok (.broadcast payload)) :
    let registry := hub.registry
    let total : UInt64 := .ofNat registry.size
    let others : UInt64 := .ofNat (registry.size - 1)
    let name := sender.address.render
    let copy := Envelope.broadcast payload name moment.timestamp total
    let reply := Envelope.broadcastConfirm confirmation others moment.timestamp
    let report := (hub.recordMessage.broadcast moment payload (some sender)).1
    let after := hub.dispatch moment sender message
    let takesPart := registry.contains sender.id
    after.registry.members = registry.members ∧
    (∀ id, after.mailboxes.get id = (hub.mailboxes.get id).postAll
      (if sender.id = id then [.ofEnvelope reply]
        else if registry.contains id then [.ofEnvelope copy] else [])) ∧
    report.deliveries.map Delivery.recipient =
      (registry.members.map Connection.id).erase sender.id ∧
    (registry.size - 1 = report.recipients ↔ takesPart ∨ registry.isEmpty) ∧
    (¬(takesPart ∨ registry.isEmpty) → registry.size - 1 + 1 = report.recipients) ∧
    (takesPart → registry.size = registry.size - 1 + 1 ∧
      registry.size = report.recipients + 1) ∧
    (registry.size < UInt64.size →
      total.toNat = registry.size ∧ others.toNat = registry.size - 1) ∧
    name ≠ serverName ∧
    ∀ sender? : Option Connection, ∃ name,
      hub.broadcastEnvelope moment payload sender? =
        .broadcast payload name moment.timestamp total ∧
      (name = serverName ↔ sender? = none) := by
  intro registry total others name copy reply report after takesPart
  have counted : report.recipients = if takesPart then registry.size - 1 else registry.size :=
    hub.recordMessage.recipients_broadcast moment payload sender
  have nobody : registry.isEmpty = true ↔ registry.size = 0 := by
    rw [Registry.isEmpty, List.isEmpty_iff, Registry.size, List.length_eq_zero_iff]
  have somebody : takesPart = true → 0 < registry.size := fun isMember => by
    rw [Registry.size, ← List.length_map (f := Connection.id)]
    exact List.length_pos_of_mem (Registry.contains_iff.mp isMember)
  refine ⟨?_, ?_, hub.recordMessage.addressees_broadcast moment payload sender, ?_, ?_, ?_, ?_,
    sender.address.render_ne_serverName, hub.exists_broadcastEnvelope_eq moment payload⟩
  · rw [hub.registry_dispatch]
    rfl
  · intro id
    rw [hub.get_dispatch, outgoing_of_broadcast accepted]
    split
    · rfl
    · split <;> rfl
  · rw [counted, nobody]
    cases takesPart with
    | true => simp
    | false =>
        rw [if_neg Bool.false_ne_true]
        simp only [Bool.false_eq_true, false_or]
        omega
  · intro alone
    rw [not_or, nobody] at alone
    rw [counted, if_neg alone.1]
    omega
  · intro isMember
    have := somebody isMember
    rw [counted, if_pos isMember]
    omega
  · intro few
    exact ⟨UInt64.toNat_ofNat_of_lt' few, UInt64.toNat_ofNat_of_lt' (by omega)⟩

/-- Two take part, one of them closed, and somebody who does not sends a broadcast. The reply
says that there was one recipient, although there were two. -/
theorem dispatch_counts_recipients_stranger :
    let first : Connection := ⟨⟨0⟩, .v4 127 0 0 1 5000⟩
    let second : Connection := ⟨⟨1⟩, .v4 127 0 0 1 5001⟩
    let stranger : Connection := ⟨⟨2⟩, .v4 127 0 0 1 5002⟩
    let hub : Hub := ⟨"localhost", 3004, (Registry.empty.register first).register second,
      Mailboxes.empty.add.add.add.close second.id⟩
    let moment : Moment := ⟨"now", Double.zero⟩
    let message : Message := .text "\x7b\"type\":\"broadcast\",\"message\":null\x7d"
    let report := (hub.recordMessage.broadcast moment .null (some stranger)).1
    let reply := Envelope.broadcastConfirm confirmation 1 moment.timestamp
    message.request = .ok (.broadcast .null) ∧ report.recipients = 2 ∧ report.failed = 1 ∧
      (hub.dispatch moment stranger message).mailboxes.get stranger.id =
        ⟨true, [.ofEnvelope reply]⟩ := by
  intro first second stranger hub moment message report reply
  have accepted : message.request = .ok (.broadcast .null) := by decide +kernel
  have numbers := dispatch_counts_recipients moment hub stranger accepted
  have isTooSmall : 1 + 1 = report.recipients := numbers.2.2.2.2.1 (by decide)
  exact ⟨accepted, isTooSmall.symm, by decide +kernel, numbers.2.1 stranger.id⟩

end Hub

end Relay
