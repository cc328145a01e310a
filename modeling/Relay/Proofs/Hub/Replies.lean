import Relay.Proofs.Envelope.RoundTrip
import Relay.Proofs.Hub.Posting
import Relay.Proofs.Json.Nesting

namespace Relay

/-! Which of the texts that a message has queued can be read back. The envelope of
a ping is returned inside another object. If it takes all the levels that the
reader allows, the reader rejects the reply; no other message is answered with a
text that is nested too deeply. -/

open Json

namespace Request

/-! ## Payloads of requests -/

def payload? : Request → Option Json
  | .ping envelope => some envelope
  | .echo message | .broadcast message => some message
  | .stats | .unknown _ => none

theorem isNormal_messageOf {members : Members} (normal : members.IsNormal) :
    (messageOf members).IsNormal := by
  unfold messageOf
  cases found : members.get? "message" with
  | none => trivial
  | some message => exact Members.isNormal_of_get? normal found

theorem depth_messageOf_le (members : Members) :
    (messageOf members).depth ≤ members.depth := by
  unfold messageOf
  cases found : members.get? "message" with
  | none => exact Nat.zero_le _
  | some message => exact Members.depth_le_of_get? found

theorem payload?_ofMembers {members : Members} {payload : Json}
    (carried : (ofMembers members).payload? = some payload) :
    ofMembers members = .ping payload ∧ payload = .object members ∨
      payload = messageOf members := by
  simp only [ofMembers] at carried ⊢
  split at carried
  · rename_i isPing
    cases carried
    exact .inl ⟨if_pos isPing, rfl⟩
  · right
    split at carried
    · cases carried
      rfl
    · split at carried
      · cases carried
        rfl
      · split at carried <;> cases carried

/-- Every payload is normal. Only the envelope of a ping can take all levels,
because a message stands inside its envelope. -/
theorem payload_of_ofMembers {members : Members} (normal : members.IsNormal)
    (shallow : members.depth ≤ Envelope.payloadDepth) {payload : Json}
    (carried : (ofMembers members).payload? = some payload) :
    payload.IsNormal ∧ (payload.depth ≤ Envelope.payloadDepth ∨
      ofMembers members = .ping payload ∧ payload.depth = maximalDepth) := by
  rcases payload?_ofMembers carried with ⟨isPing, isEnvelope⟩ | isMessage
  · subst isEnvelope
    refine ⟨normal, ?_⟩
    rcases Nat.lt_or_eq_of_le shallow with less | equal
    · exact .inl less
    · exact .inr ⟨isPing, congrArg (· + 1) equal⟩
  · subst isMessage
    exact ⟨isNormal_messageOf normal,
      .inl (Nat.le_trans (depth_messageOf_le members) shallow)⟩

theorem payload_of_decode {frame : String} {request : Request}
    (decoded : decode frame = .ok request) {payload : Json}
    (carried : request.payload? = some payload) :
    payload.IsNormal ∧ (payload.depth ≤ Envelope.payloadDepth ∨
      request = .ping payload ∧ payload.depth = maximalDepth) := by
  unfold decode at decoded
  cases parsed : Json.parse? frame.toList with
  | none => simp [parsed] at decoded
  | some value =>
      have normal := value.isNormal_normalize
      have shallow := Nat.le_trans value.depth_normalize_le (depth_le_of_parse? parsed)
      simp only [parsed] at decoded
      cases isObject : value.normalize with
      | object members =>
          rw [isObject] at normal shallow decoded
          cases decoded
          exact payload_of_ofMembers normal (Nat.le_of_succ_le_succ shallow) carried
      | _ => simp [isObject] at decoded

theorem decode_render (members : Members) (normal : members.IsNormal)
    (shallow : members.depth ≤ Envelope.payloadDepth)
    (readBack : ∀ real ∈ members.reals, real.ReadsBack) :
    decode (Json.object members).render = .ok (ofMembers members) := by
  have parsed : Json.parse? (Json.object members).render.toList = some (.object members) := by
    rw [Json.render, String.toList_ofList, Json.parse?_text]
    apply ((Json.object members).reread?_eq_self_iff maximalDepth).mpr
    exact ⟨Nat.succ_le_succ shallow, readBack⟩
  unfold decode
  rw [parsed]
  simp only [(Json.object members).normalize_of_isNormal normal]

end Request

namespace Message

/-- A ping whose envelope takes all the levels that the reader allows. -/
def IsDeepestPing (message : Message) : Prop :=
  ∃ envelope, message.request = .ok (.ping envelope) ∧ envelope.depth = maximalDepth

theorem exists_decode_of_request {message : Message} {request : Request}
    (accepted : message.request = .ok request) :
    ∃ frame, Request.decode frame = .ok request := by
  cases message with
  | text content => exact ⟨content, accepted⟩
  | binary octets =>
      change Request.decodeOctets octets = .ok request at accepted
      unfold Request.decodeOctets at accepted
      split at accepted
      · exact ⟨_, accepted⟩
      · cases accepted

end Message

namespace Hub

/-! ## Payloads of replies -/

section Payloads

variable {hub : Hub} {moment : Moment} {sender : Connection} {message : Message}
variable {id : ConnectionId} {envelope : Envelope}

theorem payload?_of_mem_passedOn (sent : envelope ∈ hub.passedOn moment sender message id) :
    ∃ payload, message.request = .ok (.broadcast payload) ∧
      envelope.payload? = some payload := by
  unfold passedOn at sent
  split at sent
  · rename_i payload accepted
    refine ⟨payload, accepted, ?_⟩
    unfold copyFor at sent
    split at sent
    · rw [List.mem_singleton.mp sent]
      rfl
    · cases sent
  · cases sent

theorem payload?_respond {count : UInt64} {request : Request} {payload : Json}
    (carried : (hub.respond moment sender count request).1.payload? = some payload) :
    request.payload? = some payload := by
  cases request with
  | ping answered => exact carried
  | echo answered => exact carried
  | broadcast message => cases carried
  | stats => cases carried
  | unknown kind => cases carried

theorem payload?_route {payload : Json}
    (carried : (hub.route moment sender message).1.payload? = some payload) :
    ∃ request, message.request = .ok request ∧ request.payload? = some payload := by
  unfold route at carried
  split at carried
  · rename_i request accepted
    exact ⟨request, accepted, payload?_respond carried⟩
  · rename_i error refused
    cases error <;> cases carried

theorem payload?_of_mem_outgoing (sent : envelope ∈ hub.outgoing moment sender message id)
    {payload : Json} (carried : envelope.payload? = some payload) :
    ∃ request, message.request = .ok request ∧ request.payload? = some payload := by
  rcases List.mem_append.mp sent with isPassedOn | isReply
  · rcases payload?_of_mem_passedOn isPassedOn with ⟨content, accepted, same⟩
    rw [carried] at same
    exact ⟨_, accepted, same.symm⟩
  · split at isReply
    · rw [List.mem_singleton.mp isReply] at carried
      exact payload?_route carried
    · cases isReply

theorem reply_ping {answered : Json} (isPing : message.request = .ok (.ping answered)) :
    (hub.route moment sender message).1 =
      .pong answered moment.timestamp hub.recordMessage.registry.messageCount := by
  simp [route, isPing, respond]

theorem outgoing_ping {answered : Json} (isPing : message.request = .ok (.ping answered)) :
    hub.outgoing moment sender message id =
      if sender.id = id then
        [.pong answered moment.timestamp hub.recordMessage.registry.messageCount]
      else [] := by
  have nobodyElse : hub.passedOn moment sender message id = [] := by
    simp [passedOn, isPing]
  rw [outgoing, nobodyElse, reply_ping isPing]
  rfl

end Payloads

/-! ## Texts of replies -/

theorem parse?_pong_of_deepest {answered : Json} (deepest : answered.depth = maximalDepth)
    (timestamp : String) (count : UInt64) :
    Json.parse? (Envelope.pong answered timestamp count).encode.toList = none ∧
      Envelope.parse? (Envelope.pong answered timestamp count).encode = none := by
  have tooDeep : maximalDepth < (Envelope.pong answered timestamp count).toJson.depth := by
    simp only [Envelope.toJson, Envelope.members, Envelope.kind, ofMembers, Members.ofList,
      Json.depth, Members.depth]
    omega
  have rejected :
      Json.parse? (Envelope.pong answered timestamp count).encode.toList = none := by
    rw [Envelope.encode, Json.render, String.toList_ofList, Json.parse?_text]
    exact Json.reread?_eq_none tooDeep
  refine ⟨rejected, ?_⟩
  unfold Envelope.parse?
  rw [rejected]
  rfl

/-- What a message has queued, for whomever, is read back as it was built if its
binary numbers are, with one exception: the reply to a deepest ping is no JSON
text for the reader that accepted the ping. -/
theorem parse?_outgoing_iff (hub : Hub) (moment : Moment) (sender : Connection)
    (message : Message) (id : ConnectionId) :
    (hub.dispatch moment sender message).mailboxes.get id =
        (hub.mailboxes.get id).postAll
          ((hub.outgoing moment sender message id).map .ofEnvelope) ∧
      ∀ envelope ∈ hub.outgoing moment sender message id,
        (Envelope.parse? envelope.encode = some envelope ↔
          (∀ real ∈ envelope.reals, real.ReadsBack) ∧ ¬message.IsDeepestPing) ∧
        (message.IsDeepestPing → Json.parse? envelope.encode.toList = none) := by
  refine ⟨hub.get_dispatch moment sender message id, ?_⟩
  intro envelope sent
  have payloads : ∀ payload, envelope.payload? = some payload →
      payload.IsNormal ∧
        (payload.depth ≤ Envelope.payloadDepth ∨ message.IsDeepestPing) := by
    intro payload carried
    rcases payload?_of_mem_outgoing sent carried with ⟨request, accepted, isPayload⟩
    rcases Message.exists_decode_of_request accepted with ⟨frame, decoded⟩
    rcases Request.payload_of_decode decoded isPayload
      with ⟨normal, shallow | ⟨isPing, deepest⟩⟩
    · exact ⟨normal, .inl shallow⟩
    · subst isPing
      exact ⟨normal, .inr ⟨payload, accepted, deepest⟩⟩
  have eq_pong : ∀ {answered}, message.request = .ok (.ping answered) →
      envelope = .pong answered moment.timestamp hub.recordMessage.registry.messageCount := by
    intro answered isPing
    rw [outgoing_ping isPing] at sent
    split at sent
    · exact List.mem_singleton.mp sent
    · cases sent
  -- A deepest ping is the only message whose reply embeds a value of all levels.
  have shallow_iff : (∀ payload, envelope.payload? = some payload →
      payload.depth ≤ Envelope.payloadDepth) ↔ ¬message.IsDeepestPing := by
    constructor
    · rintro shallow ⟨answered, isPing, deepest⟩
      have isPong := eq_pong isPing
      have bound := shallow answered (by rw [isPong]; rfl)
      rw [deepest] at bound
      exact absurd bound (by decide)
    · intro notDeepest payload carried
      rcases (payloads payload carried).2 with shallow | deepest
      · exact shallow
      · exact absurd deepest notDeepest
  constructor
  · rw [Envelope.parse?_encode_eq_reread? fun payload carried => (payloads payload carried).1,
      envelope.reread?_eq_self_iff, shallow_iff, and_comm]
  · rintro ⟨answered, isPing, deepest⟩
    rw [eq_pong isPing]
    exact (parse?_pong_of_deepest deepest _ _).1

def deepestMembers : Members :=
  .ofList [("message", Nat.repeat (fun value => .array (.ofList [value])) 126 .null),
    ("type", .string "ping")]

/-- A registered connection sends the deepest ping. It is accepted, and the only frame that is
queued for the connection is not. -/
theorem parse?_reply_deepestMembers :
    let opened := (start "localhost" 3004).openConnection (.v4 10 0 0 1 9000)
    let sender := opened.1
    let hub := opened.2.register sender
    let moment : Moment := ⟨"T", .zero⟩
    let ping := Message.text (Json.object deepestMembers).render
    hub.registry.contains sender.id = true ∧
      ping.request = .ok (.ping (.object deepestMembers)) ∧
      ∃ reply ∈ hub.outgoing moment sender ping sender.id,
        ((hub.dispatch moment sender ping).mailboxes.get sender.id).queued =
            [.ofEnvelope reply] ∧
          Json.parse? reply.encode.toList = none ∧ Envelope.parse? reply.encode = none := by
  intro opened sender hub moment ping
  have kind : Request.typeOf deepestMembers = "ping" := rfl
  have isPing : Request.ofMembers deepestMembers = .ping (.object deepestMembers) := by
    simp [Request.ofMembers, kind]
  have accepted : ping.request = .ok (.ping (.object deepestMembers)) := by
    rw [← isPing]
    exact Request.decode_render deepestMembers (by decide +kernel) (by decide +kernel)
      (by decide +kernel)
  have deepest : (Json.object deepestMembers).depth = maximalDepth := by decide +kernel
  let count := hub.recordMessage.registry.messageCount
  have outgoing : hub.outgoing moment sender ping sender.id =
      [.pong (.object deepestMembers) "T" count] := by
    rw [outgoing_ping accepted]
    exact if_pos rfl
  have isOpen : hub.mailboxes.get sender.id = ⟨true, []⟩ := rfl
  refine ⟨rfl, accepted, .pong (.object deepestMembers) "T" count, ?_, ?_,
    parse?_pong_of_deepest deepest "T" count⟩
  · rw [outgoing]
    exact List.mem_singleton_self _
  · rewrite [hub.get_dispatch, outgoing, isOpen]
    rfl

end Hub

end Relay
