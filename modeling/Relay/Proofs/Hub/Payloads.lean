import Relay.Proofs.Hub.Replies

namespace Relay

/-! What becomes of the values that clients send. The message of an echo comes back to its
sender, that of a broadcast reaches everybody else, and the envelope of a ping comes back
as a whole. Each of them is read from the frame that is queued as the value that was read
from the frame that arrived. -/

open Json

namespace Request

def Holds (frame : String) (members : Members) : Prop :=
  ∃ value, Json.parse? frame.toList = some value ∧ value.normalize = .object members

section Holds

variable {frame : String} {members : Members}

theorem Holds.decode (holds : Holds frame members) :
    decode frame = .ok (ofMembers members) := by
  rcases holds with ⟨value, parsed, isObject⟩
  simp only [Request.decode, parsed, isObject]

theorem Holds.isNormal (holds : Holds frame members) : members.IsNormal := by
  rcases holds with ⟨value, _, isObject⟩
  have normal := value.isNormal_normalize
  rw [isObject] at normal
  exact normal

theorem Holds.depth_le (holds : Holds frame members) :
    members.depth ≤ Envelope.payloadDepth := by
  rcases holds with ⟨value, parsed, isObject⟩
  have shallow := Nat.le_trans value.depth_normalize_le (depth_le_of_parse? parsed)
  rw [isObject] at shallow
  exact Nat.le_of_succ_le_succ shallow

end Holds

theorem typeOf_of_string {members : Members} {kind : String}
    (isKind : members.get? "type" = some (.string kind)) : typeOf members = kind := by
  rw [typeOf, isKind]

theorem ofMembers_of_echo {members : Members}
    (isEcho : members.get? "type" = some (.string "echo")) :
    ofMembers members = .echo (messageOf members) := by
  simp [ofMembers, typeOf_of_string isEcho]

theorem ofMembers_of_broadcast {members : Members}
    (isBroadcast : members.get? "type" = some (.string "broadcast")) :
    ofMembers members = .broadcast (messageOf members) := by
  simp [ofMembers, typeOf_of_string isBroadcast]

theorem ofMembers_of_ping {members : Members}
    (isPing : members.get? "type" = some (.string "ping")) :
    ofMembers members = .ping (.object members) := by
  simp [ofMembers, typeOf_of_string isPing]

end Request

theorem Envelope.parse?_encode_of_payload {envelope : Envelope} {payload : Json}
    (carried : envelope.payload? = some payload) (noUptime : envelope.uptime? = none)
    (normal : payload.IsNormal) (shallow : payload.depth ≤ payloadDepth)
    (readBack : ∀ real ∈ payload.reals, real.ReadsBack) :
    parse? envelope.encode = some envelope := by
  have same : ∀ other, envelope.payload? = some other → other = payload := by
    intro other isOther
    rw [carried] at isOther
    exact (Option.some.inj isOther).symm
  have isReals : envelope.reals = payload.reals := by
    simp [Envelope.reals, carried, noUptime]
  rw [parse?_encode_eq_reread? fun other isOther => same other isOther ▸ normal,
    reread?_eq_self_iff, isReals]
  exact ⟨fun other isOther => same other isOther ▸ shallow, readBack⟩

namespace Hub

section Payloads

variable {hub : Hub} {moment : Moment} {sender : Connection} {message : Message}
variable {payload : Json}

theorem outgoing_echo (isEcho : message.request = .ok (.echo payload)) :
    hub.outgoing moment sender message sender.id =
      [.echoResponse payload moment.timestamp (hub.registry.messageCount + 1)] := by
  have nobodyElse : hub.passedOn moment sender message sender.id = [] := by
    simp [passedOn, isEcho]
  rw [outgoing, nobodyElse, if_pos rfl, route, isEcho]
  rfl

theorem outgoing_broadcast (isBroadcast : message.request = .ok (.broadcast payload))
    {id : ConnectionId} (takesPart : hub.registry.contains id = true)
    (isOther : id ≠ sender.id) :
    hub.outgoing moment sender message id =
      [.broadcast payload sender.address.render moment.timestamp
        (.ofNat hub.registry.size)] := by
  have copy : hub.copyFor id (hub.broadcastEnvelope moment payload (some sender))
      (some sender.id) = [hub.broadcastEnvelope moment payload (some sender)] :=
    if_pos ⟨takesPart, fun same => isOther (Option.some.inj same)⟩
  rw [outgoing, if_neg (Ne.symm isOther), List.append_nil, passedOn, isBroadcast]
  exact copy

theorem queued_dispatch_of_single {id : ConnectionId} {envelope : Envelope}
    (isOpen : hub.mailboxes.accepts id = true)
    (sent : hub.outgoing moment sender message id = [envelope]) :
    ((hub.dispatch moment sender message).mailboxes.get id).queued =
      (hub.mailboxes.get id).queued ++ [.text envelope.encode] := by
  have isOpen' : (hub.mailboxes.get id).isOpen = true := isOpen
  rw [get_dispatch, sent, Mailbox.queued_postAll, if_pos isOpen']
  rfl

theorem queued_dispatch_of_outgoing {id : ConnectionId} {envelope : Envelope}
    (isOpen : hub.mailboxes.accepts id = true)
    (sent : hub.outgoing moment sender message id = [envelope])
    (readBack : Envelope.parse? envelope.encode = some envelope) :
    ∃ text, ((hub.dispatch moment sender message).mailboxes.get id).queued =
        (hub.mailboxes.get id).queued ++ [.text text] ∧
      Envelope.parse? text = some envelope :=
  ⟨envelope.encode, queued_dispatch_of_single isOpen sent, readBack⟩

end Payloads

/-- Values of clients are handed on as they were read. For every frame that holds an
object and every sender with an open mailbox: an echo is answered with the message of the
object, or an empty text if there is none; a broadcast brings that message, under the
address of its sender, to everybody else who takes part and whose mailbox is open; and a
ping is answered with the whole object, if that leaves one level for the object of the
answer. The frame that is queued is read as exactly this envelope if the binary numbers of
the value are read back from their texts. -/
theorem dispatch_keeps_payload (hub : Hub) (moment : Moment) (sender : Connection)
    {frame : String} {members : Members} (holds : Request.Holds frame members)
    (isOpen : hub.mailboxes.accepts sender.id = true) :
    let after := hub.dispatch moment sender (.text frame)
    let payload := (members.get? "message").getD (.string "")
    let count := hub.registry.messageCount + 1
    (members.get? "type" = some (.string "echo") →
      (∀ real ∈ payload.reals, real.ReadsBack) →
        ∃ text, (after.mailboxes.get sender.id).queued =
            (hub.mailboxes.get sender.id).queued ++ [.text text] ∧
          Envelope.parse? text = some (.echoResponse payload moment.timestamp count)) ∧
      (members.get? "type" = some (.string "broadcast") →
        (∀ real ∈ payload.reals, real.ReadsBack) →
          ∀ other ∈ hub.registry.members, other.id ≠ sender.id →
            hub.mailboxes.accepts other.id = true →
              ∃ text, (after.mailboxes.get other.id).queued =
                  (hub.mailboxes.get other.id).queued ++ [.text text] ∧
                Envelope.parse? text = some (.broadcast payload sender.address.render
                  moment.timestamp (.ofNat hub.registry.size))) ∧
      (members.get? "type" = some (.string "ping") →
        (∀ real ∈ members.reals, real.ReadsBack) → (Json.object members).depth ≤ 126 →
          ∃ text, (after.mailboxes.get sender.id).queued =
              (hub.mailboxes.get sender.id).queued ++ [.text text] ∧
            Envelope.parse? text =
              some (.pong (.object members) moment.timestamp count)) := by
  intro after payload count
  have normal : payload.IsNormal := Request.isNormal_messageOf holds.isNormal
  have shallow : payload.depth ≤ Envelope.payloadDepth :=
    Nat.le_trans (Request.depth_messageOf_le members) holds.depth_le
  have request : (Message.text frame).request = .ok (Request.ofMembers members) :=
    holds.decode
  refine ⟨?_, ?_, ?_⟩
  · intro isEcho readBack
    rw [Request.ofMembers_of_echo isEcho] at request
    exact queued_dispatch_of_outgoing isOpen (outgoing_echo request)
      (Envelope.parse?_encode_of_payload rfl rfl normal shallow readBack)
  · intro isBroadcast readBack other takesPart isOther otherOpen
    rw [Request.ofMembers_of_broadcast isBroadcast] at request
    have contained : hub.registry.contains other.id = true :=
      Registry.contains_iff.mpr (List.mem_map_of_mem takesPart)
    exact queued_dispatch_of_outgoing otherOpen
      (outgoing_broadcast request contained isOther)
      (Envelope.parse?_encode_of_payload rfl rfl normal shallow readBack)
  · intro isPing readBack notDeepest
    rw [Request.ofMembers_of_ping isPing] at request
    have sent : hub.outgoing moment sender (.text frame) sender.id =
        [.pong (.object members) moment.timestamp count] := by
      rw [outgoing_ping request, if_pos rfl]
      rfl
    exact queued_dispatch_of_outgoing isOpen sent
      (Envelope.parse?_encode_of_payload rfl rfl holds.isNormal notDeepest readBack)

/-- A broadcast whose type is given twice, with a binary number and a null in its message. -/
theorem dispatch_keeps_payload_overridden :
    let sender : Connection := ⟨⟨0⟩, .v4 127 0 0 1 5000⟩
    let other : Connection := ⟨⟨1⟩, .v4 127 0 0 1 5001⟩
    let hub : Hub := ⟨"localhost", 3004, (Registry.empty.register sender).register other,
      Mailboxes.empty.add.add⟩
    let frame := "\x7b\"type\":\"echo\",\"type\":\"broadcast\",\"message\":[null,0.1]\x7d"
    let payload : Json := .array (.ofList [.null, .number (.real ⟨false, 0x3fb999999999999a,
      by decide⟩)])
    let members : Members := .ofList [("message", payload), ("type", .string "broadcast")]
    Request.Holds frame members ∧ hub.mailboxes.accepts sender.id = true ∧
      members.get? "type" = some (.string "broadcast") ∧
      (∀ real ∈ payload.reals, real.ReadsBack) ∧ other ∈ hub.registry.members ∧
      other.id ≠ sender.id ∧ hub.mailboxes.accepts other.id = true ∧
      ∃ text, ((hub.dispatch ⟨"now", .zero⟩ sender (.text frame)).mailboxes.get other.id).queued =
          [.text text] ∧
        Envelope.parse? text = some (.broadcast payload "127.0.0.1:5000" "now" 2) := by
  intro sender other hub frame payload members
  have holds : Request.Holds frame members :=
    ⟨.object (.ofList [("type", .string "echo"), ("type", .string "broadcast"),
      ("message", payload)]), by decide +kernel, by decide +kernel⟩
  have senderOpen : hub.mailboxes.accepts sender.id = true := by decide
  have isBroadcast : members.get? "type" = some (.string "broadcast") := by decide +kernel
  have readBack : ∀ real ∈ payload.reals, real.ReadsBack := by decide +kernel
  have takesPart : other ∈ hub.registry.members := by decide
  have isOther : other.id ≠ sender.id := by decide
  have otherOpen : hub.mailboxes.accepts other.id = true := by decide
  rcases (dispatch_keeps_payload hub ⟨"now", .zero⟩ sender holds senderOpen).2.1 isBroadcast
    readBack other takesPart isOther otherOpen with ⟨text, queued, parsed⟩
  exact ⟨holds, senderOpen, isBroadcast, readBack, takesPart, isOther, otherOpen, text, queued,
    parsed⟩

end Hub

end Relay
