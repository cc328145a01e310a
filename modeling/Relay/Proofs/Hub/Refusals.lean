import Relay.Proofs.Hub.Payloads
import Relay.Proofs.Json.Meaning
import Relay.Proofs.Request.Decoding

namespace Relay

/-! How malformed frames are refused. Their sender gets one frame, which can be read whatever
the malformed one is made of. Beside that a message has been counted, and everything goes on
as after any other message. -/

open Json

theorem preview_eq_take_min (frame : String) :
    preview frame = String.ofList (frame.toList.take (min 100 frame.length)) := by
  rw [← String.length_toList, ← List.take_take, List.take_length]
  rfl

namespace Envelope

theorem exists_isReadable_encode {envelope read : Envelope}
    (parsed : parse? envelope.encode = some read) :
    ∃ members, (Phrase.object members).IsReadable envelope.encode.toList := by
  rcases Option.bind_eq_some_iff.mp parsed with ⟨value, valueParsed, _⟩
  rcases parse?_eq_some_iff_isReadable.mp valueParsed with ⟨phrase, readable, _⟩
  have isText := envelope.toJson.isText_text
  have written : envelope.encode.toList = envelope.toJson.text := String.toList_ofList
  rw [← written] at isText
  have same := readable.derived.unique isText
  rw [same] at readable
  exact ⟨_, readable⟩

theorem parse?_encode_error (message : String) (received : Option String)
    (types : Option (List String)) (timestamp : String) :
    parse? (error message received types timestamp).encode =
      some (error message received types timestamp) := by
  apply parse?_encode
  · intro payload carried
    cases carried
  · intro payload carried
    cases carried
  · intro real member
    simp [reals, uptime?, payload?] at member

end Envelope

namespace Hub

section Refusals

variable {hub : Hub} {moment : Moment} {sender : Connection} {message : Message}
variable {error : FrameError}

/-- A message that is refused is counted, and nobody but its sender hears of it. -/
theorem dispatch_of_error (refused : message.request = .error error) :
    hub.dispatch moment sender message =
      { hub.recordMessage with
        mailboxes := hub.mailboxes.postEnvelope sender.id (refusal moment error) } := by
  rw [dispatch, route, refused]
  rfl

theorem outgoing_of_error (refused : message.request = .error error) :
    hub.outgoing moment sender message sender.id = [refusal moment error] := by
  have nobodyElse : hub.passedOn moment sender message sender.id = [] := by
    rw [passedOn, refused]
  rw [outgoing, nobodyElse, if_pos rfl, route, refused]
  rfl

theorem parse?_refusal (moment : Moment) (error : FrameError) :
    Envelope.parse? (refusal moment error).encode = some (refusal moment error) := by
  cases error with
  | invalidText received | invalidOctets received defect =>
      exact Envelope.parse?_encode_error _ _ _ _
  | notAnObject kind => exact Envelope.parse?_encode_error _ _ _ _

theorem accepts_dispatch (id : ConnectionId) :
    (hub.dispatch moment sender message).mailboxes.accepts id = hub.mailboxes.accepts id := by
  change ((hub.dispatch moment sender message).mailboxes.get id).isOpen = _
  rw [get_dispatch, Mailbox.isOpen_postAll]
  rfl

theorem route_withMailboxes (mailboxes : Mailboxes) :
    (route moment sender message { hub with mailboxes := mailboxes }).1 =
      (hub.route moment sender message).1 := by
  unfold route
  cases message.request with
  | error error => rfl
  | ok request => cases request <;> rfl

theorem outgoing_withMailboxes (mailboxes : Mailboxes) (id : ConnectionId) :
    outgoing moment sender message id { hub with mailboxes := mailboxes } =
      hub.outgoing moment sender message id := by
  rw [outgoing, outgoing, route_withMailboxes]
  rfl

end Refusals

/-- What a refusal leaves behind: one frame for the sender, which is read as the reply, one
message more, and a hub that treats every further message as if nothing but a count had
happened. -/
structure Refuses (hub after : Hub) (sender : Connection) (reply : Envelope) : Prop where
  queued : ∃ (text : String) (members : Entries),
    (after.mailboxes.get sender.id).queued =
        (hub.mailboxes.get sender.id).queued ++ [.text text] ∧
      (Phrase.object members).IsReadable text.toList ∧ Envelope.parse? text = some reply
  counted : after.registry.messageCount = hub.registry.messageCount + 1
  members : after.registry.members = hub.registry.members
  others : ∀ id, id ≠ sender.id → after.mailboxes.get id = hub.mailboxes.get id
  isOpen : after.mailboxes.accepts sender.id = true
  answered : ∀ (moment : Moment) (other : Connection) (message : Message),
    (after.route moment other message).1 = (hub.recordMessage.route moment other message).1
  sent : ∀ (moment : Moment) (other : Connection) (message : Message) (id : ConnectionId),
    ((after.dispatch moment other message).mailboxes.get id).queued =
      (after.mailboxes.get id).queued ++
        if hub.mailboxes.accepts id then
          (hub.recordMessage.outgoing moment other message id).map .ofEnvelope
        else []

theorem refuses_of_error {hub : Hub} {moment : Moment} {sender : Connection}
    {message : Message} {error : FrameError} (refused : message.request = .error error)
    (isOpen : hub.mailboxes.accepts sender.id = true) :
    hub.Refuses (hub.dispatch moment sender message) sender (refusal moment error) := by
  have readBack := parse?_refusal moment error
  rcases Envelope.exists_isReadable_encode readBack with ⟨members, readable⟩
  have after : hub.dispatch moment sender message = _ := dispatch_of_error refused
  refine ⟨⟨_, members, queued_dispatch_of_single isOpen (outgoing_of_error refused), readable,
    readBack⟩, ?_, ?_, ?_, ?_, ?_, ?_⟩
  · rw [registry_dispatch]
    rfl
  · rw [registry_dispatch]
    rfl
  · intro id different
    rw [after]
    exact Mailboxes.get_post_other different _ _
  · rw [accepts_dispatch, isOpen]
  · intro later other next
    rw [after]
    exact hub.recordMessage.route_withMailboxes _
  · intro later other next id
    have same : (hub.dispatch moment sender message).outgoing later other next id =
        hub.recordMessage.outgoing later other next id := by
      rw [after]
      exact hub.recordMessage.outgoing_withMailboxes _ id
    have accepts : (hub.dispatch moment sender message).mailboxes.accepts id = _ :=
      accepts_dispatch id
    rw [get_dispatch, Mailbox.queued_postAll, same, ← accepts]
    rfl

/-- Every frame that is no text of a value within the limits of the reader is refused with
its first hundred characters, or with all of them if there are fewer. A readable value that is
no object is refused without any of its text. Either way the refusal is all that happens. -/
theorem dispatch_refuses_malformed (hub : Hub) (moment : Moment) (sender : Connection)
    (frame : String) (isOpen : hub.mailboxes.accepts sender.id = true) :
    let after := hub.dispatch moment sender (.text frame)
    let received := String.ofList (frame.toList.take (min 100 frame.length))
    ((¬∃ phrase : Phrase, phrase.IsReadable frame.toList) →
        hub.Refuses after sender
          (.error "Invalid JSON format" (some received) none moment.timestamp)) ∧
      ∀ phrase : Phrase, phrase.IsReadable frame.toList → phrase.kind ≠ "object" →
        hub.Refuses after sender
          (.error "Internal server error" none none moment.timestamp) := by
  intro after received
  constructor
  · intro unreadable
    have refused : (Message.text frame).request = .error (.invalidText received) := by
      simp only [received, ← preview_eq_take_min]
      exact Request.decode_of_not_isReadable unreadable
    exact refuses_of_error refused isOpen
  · intro phrase readable isOther
    have refused : (Message.text frame).request = .error (.notAnObject phrase.kind) :=
      Request.decode_eq_notAnObject_iff.mpr ⟨isOther, phrase, readable, rfl⟩
    exact refuses_of_error refused isOpen

/-- A quote and a control character before more characters than are shown, and an array. -/
theorem dispatch_refuses_malformed_hostile :
    let sender : Connection := ⟨⟨0⟩, .v4 127 0 0 1 5000⟩
    let hub : Hub := ⟨"localhost", 3004, Registry.empty.register sender, Mailboxes.empty.add⟩
    let hostile (count : Nat) := String.ofList ('"' :: '\x01' :: List.replicate count '😀')
    hub.mailboxes.accepts sender.id = true ∧
      hub.Refuses (hub.dispatch ⟨"now", .zero⟩ sender (.text (hostile 200))) sender
        (.error "Invalid JSON format" (some (hostile 98)) none "now") ∧
      hub.Refuses (hub.dispatch ⟨"now", .zero⟩ sender (.text "[1, 2]")) sender
        (.error "Internal server error" none none "now") := by
  intro sender hub hostile
  have isOpen : hub.mailboxes.accepts sender.id = true := by decide
  have isText : (hostile 200).toList = '"' :: '\x01' :: List.replicate 200 '😀' :=
    String.toList_ofList
  have unreadable : ¬∃ phrase : Phrase, phrase.IsReadable (hostile 200).toList := by
    rintro ⟨phrase, readable⟩
    rcases exists_parse?_of_isReadable readable with ⟨value, parsed, _⟩
    have unparsed : parse? ('"' :: '\x01' :: List.replicate 200 '😀') = none := by
      decide +kernel
    rw [isText, unparsed] at parsed
    cases parsed
  have shown : String.ofList ((hostile 200).toList.take (min 100 (hostile 200).length)) =
      hostile 98 := by
    rw [← preview_eq_take_min, preview, isText, previewLength, List.take_succ_cons,
      List.take_succ_cons, List.take_replicate]
    rfl
  have isArray : Request.decode "[1, 2]" = .error (.notAnObject "array") := by decide +kernel
  rcases Request.decode_eq_notAnObject_iff.mp isArray with ⟨isOther, phrase, readable, isKind⟩
  rw [← isKind] at isOther
  have refused := dispatch_refuses_malformed hub ⟨"now", .zero⟩ sender (hostile 200) isOpen
  have failing := dispatch_refuses_malformed hub ⟨"now", .zero⟩ sender "[1, 2]" isOpen
  rw [shown] at refused
  exact ⟨isOpen, refused.1 unreadable, failing.2 phrase readable isOther⟩

end Hub

end Relay
