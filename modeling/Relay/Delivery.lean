import Relay.Envelope.Text
import Relay.Connection

namespace Relay

/-! Delivery of one envelope to many connections. A connection that is gone is
reported and does not keep the others from their copy. -/

inductive DeliveryError where
  | closed (recipient : ConnectionId)
  | unwritable (reason : String)
  deriving DecidableEq, Repr

def DeliveryError.message (name : ConnectionId → String) : DeliveryError → String
  | .closed recipient => "connection " ++ name recipient ++ " is closed"
  | .unwritable reason => "failed to serialize envelope: " ++ reason

structure Delivery where
  recipient : ConnectionId
  failure : Option DeliveryError
  deriving DecidableEq, Repr

structure Report where
  deliveries : List Delivery
  deriving DecidableEq, Repr

namespace Report

def recipients (report : Report) : Nat := report.deliveries.length

def delivered (report : Report) : Nat :=
  (report.deliveries.filter fun delivery => delivery.failure.isNone).length

def failed (report : Report) : Nat := report.recipients - report.delivered

def failures (report : Report) : List Delivery :=
  report.deliveries.filter fun delivery => delivery.failure.isSome

end Report

namespace Mailboxes

def failure? (id : ConnectionId) (mailboxes : Mailboxes) : Option DeliveryError :=
  if mailboxes.accepts id then none else some (.closed id)

def postEnvelope (id : ConnectionId) (envelope : Envelope) (mailboxes : Mailboxes) :
    Mailboxes :=
  mailboxes.post id (.text envelope.encode)

def addressees (exclude : Option ConnectionId) (recipients : List Connection) :
    List ConnectionId :=
  (recipients.map Connection.id).filter fun id => some id ≠ exclude

/-- Queues an envelope for everybody on a list except the connection of one
name. The list may be older than the mailboxes. The outcomes can be read off
the mailboxes as they were before, because no frame opens or closes one. -/
def deliver (recipients : List Connection) (envelope : Envelope)
    (exclude : Option ConnectionId) (mailboxes : Mailboxes) : Report × Mailboxes :=
  let ids := addressees exclude recipients
  let frame := Frame.text envelope.encode
  (⟨ids.map fun id => ⟨id, mailboxes.failure? id⟩⟩,
    ids.foldl (fun mailboxes id => mailboxes.post id frame) mailboxes)

end Mailboxes

end Relay
