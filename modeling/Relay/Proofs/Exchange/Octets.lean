import Relay.Proofs.Exchange.DeliveryLog
import Relay.Proofs.Utf8

namespace Relay

/-! Texts that arrive as octets. A text may be sent as it is or as its UTF-8, and
nobody can tell the two apart afterwards, neither after one message nor in a whole
run. Octets that are no UTF-8 are counted and refused, and that is all. -/

def Message.encoded : Message → Message
  | .text content => .binary (Utf8.encode content)
  | .binary octets => .binary octets

def Step.encoded : Step → Step
  | .route sender message => .route sender message.encoded
  | .dispatch sender message => .dispatch sender message.encoded
  | step => step

namespace Utf8

def IsForeign (octets : List UInt8) : Prop := ∀ text, encode text ≠ octets

theorem isForeign_iff {octets : List UInt8} :
    IsForeign octets ↔ ∃ defect, decode octets = .error defect := by
  constructor
  · intro foreign
    cases decoded : decode octets with
    | error defect => exact ⟨defect, rfl⟩
    | ok characters =>
        exact absurd (decode_eq_ok_iff.mp decoded).symm (foreign (String.ofList characters))
  · rintro ⟨defect, isDefect⟩ text encoded
    rw [← encoded, decode_encode] at isDefect
    cases isDefect

end Utf8

namespace Message

theorem request_encoded (message : Message) : message.encoded.request = message.request := by
  cases message with
  | text content =>
      change Request.decodeOctets (Utf8.encode content) = Request.decode content
      rw [Request.decodeOctets, Utf8.decode_encode]
      change Request.decode (String.ofList content.toList) = Request.decode content
      rw [String.ofList_toList]
  | binary octets => rfl

theorem request_of_isForeign {octets : List UInt8} (foreign : Utf8.IsForeign octets) :
    ∃ defect, (Message.binary octets).request =
      .error (.invalidOctets (preview (String.ofList (Utf8.decodeLossy octets))) defect) := by
  rcases Utf8.isForeign_iff.mp foreign with ⟨defect, isDefect⟩
  refine ⟨defect, ?_⟩
  change Request.decodeOctets octets = _
  rw [Request.decodeOctets, isDefect]

end Message

namespace Hub

theorem route_of_request {left right : Message} (same : left.request = right.request)
    (moment : Moment) (sender : Connection) (hub : Hub) :
    hub.route moment sender left = hub.route moment sender right := by
  rw [route, route, same]

theorem dispatch_of_request {left right : Message} (same : left.request = right.request)
    (moment : Moment) (sender : Connection) (hub : Hub) :
    hub.dispatch moment sender left = hub.dispatch moment sender right := by
  rw [dispatch, dispatch, route_of_request same]

theorem route_of_isForeign {octets : List UInt8} (foreign : Utf8.IsForeign octets)
    (moment : Moment) (sender : Connection) (hub : Hub) :
    hub.route moment sender (.binary octets) =
      (.invalidJson moment (preview (String.ofList (Utf8.decodeLossy octets))),
        hub.recordMessage) := by
  rcases Message.request_of_isForeign foreign with ⟨defect, refused⟩
  rw [route, refused]
  rfl

end Hub

namespace Exchange

theorem step_encoded (clock : Nat → Moment) (step : Step) (exchange : Exchange) :
    exchange.step clock step.encoded = exchange.step clock step := by
  cases step with
  | route sender message =>
      have same := exchange.hub.route_of_request message.request_encoded
        (clock exchange.now) sender
      simp only [Step.encoded, Exchange.step, hubStep, same]
  | dispatch sender message =>
      have same := exchange.hub.dispatch_of_request message.request_encoded
        (clock exchange.now) sender
      simp only [Step.encoded, Exchange.step, hubStep, same]
  | _ => rfl

theorem run_encoded (clock : Nat → Moment) (steps : List Step) (exchange : Exchange) :
    exchange.run clock (steps.map Step.encoded) = exchange.run clock steps := by
  induction steps generalizing exchange with
  | nil => rfl
  | cons step rest induction =>
      rw [List.map_cons, run_cons, run_cons, step_encoded, induction]

/-- Whether a text arrives as it is or as octets is of no account: the outcome, all
mailboxes, the members and the count are the same, after one message and after a run in
which any texts have been replaced. Octets that no text is encoded by are counted once
and refused to their sender, if its mailbox is open; nothing else changes. -/
theorem run_reads_octets (clock : Nat → Moment) (exchange : Exchange) :
    (∀ (sender : Connection) (text : String),
      exchange.step clock (.dispatch sender (.binary (Utf8.encode text))) =
          exchange.step clock (.dispatch sender (.text text)) ∧
        exchange.step clock (.route sender (.binary (Utf8.encode text))) =
          exchange.step clock (.route sender (.text text))) ∧
      (∀ steps : List Step,
        exchange.run clock (steps.map Step.encoded) = exchange.run clock steps) ∧
      ∀ (sender : Connection) (octets : List UInt8), Utf8.IsForeign octets →
        let refusal := Envelope.invalidJson (clock exchange.now)
          (preview (String.ofList (Utf8.decodeLossy octets)))
        let routed := exchange.step clock (.route sender (.binary octets))
        let after := (exchange.step clock (.dispatch sender (.binary octets))).2
        routed = (.reply refusal, { exchange with hub := exchange.hub.recordMessage }) ∧
          after = { exchange with
            hub := { exchange.hub.recordMessage with
              mailboxes := exchange.hub.mailboxes.post sender.id (.ofEnvelope refusal) } } ∧
          after.hub.registry.messageCount = exchange.hub.registry.messageCount + 1 ∧
          after.hub.registry.members = exchange.hub.registry.members ∧
          (after.queued sender.id = exchange.queued sender.id ++
            if exchange.hub.mailboxes.accepts sender.id then [.ofEnvelope refusal] else []) ∧
          ∀ id, id ≠ sender.id →
            after.hub.mailboxes.get id = exchange.hub.mailboxes.get id := by
  refine ⟨?_, fun steps => run_encoded clock steps exchange, ?_⟩
  · intro sender text
    exact ⟨step_encoded clock (.dispatch sender (.text text)) exchange,
      step_encoded clock (.route sender (.text text)) exchange⟩
  · intro sender octets foreign refusal routed after
    have refused := exchange.hub.route_of_isForeign foreign (clock exchange.now) sender
    have isRouted : routed =
        (.reply refusal, { exchange with hub := exchange.hub.recordMessage }) := by
      simp only [routed, step, hubStep, refused]
      rfl
    have isAfter : after = { exchange with
        hub := { exchange.hub.recordMessage with
          mailboxes := exchange.hub.mailboxes.post sender.id (.ofEnvelope refusal) } } := by
      simp only [after, step, hubStep, Hub.dispatch, refused]
      rfl
    refine ⟨isRouted, isAfter, by rw [isAfter]; rfl, by rw [isAfter]; rfl, ?_, ?_⟩
    · rw [queued, queued, isAfter, Mailboxes.get_post_self]
      exact Mailbox.queued_postAll [.ofEnvelope refusal] _
    · intro id different
      rw [isAfter]
      exact Mailboxes.get_post_other different _ _

/-- The octets of a surrogate, sent by somebody whose mailbox is open. -/
theorem run_reads_octets_surrogate :
    let clock : Nat → Moment := fun _ => ⟨"now", Double.zero⟩
    let sender : Connection := ⟨⟨0⟩, .v4 127 0 0 1 5000⟩
    let exchange := ((start "localhost" 3004).run clock
      [.openConnection sender.address, .register sender]).2
    let octets : List UInt8 := [0x7b, 0xed, 0xa0, 0x80]
    let after := (exchange.step clock (.dispatch sender (.binary octets))).2
    Utf8.IsForeign octets ∧ after.hub.registry.messageCount = 1 ∧
      after.queued sender.id =
        [.ofEnvelope (.error "Invalid JSON format" (some "\x7b\ufffd\ufffd\ufffd") none
          "now")] := by
  intro clock sender exchange octets after
  have foreign : Utf8.IsForeign octets := Utf8.isForeign_iff.mpr ⟨⟨1, some 1⟩, by
    simp [octets, Utf8.decode, Utf8.decodeFrom, Utf8.front, Utf8.further?, Utf8.isBetween,
      Utf8.tests, Utf8.mark, Utf8.frontFrom, Utf8.isSecond, Except.map]⟩
  rcases (run_reads_octets clock exchange).2.2 sender octets foreign
    with ⟨_, _, counted, _, queued, _⟩
  refine ⟨foreign, counted, ?_⟩
  rw [queued]
  decide +kernel

end Exchange

end Relay
