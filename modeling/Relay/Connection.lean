import Relay.Address

namespace Relay

/-! Connections: who is connected, and what waits to be sent to whom. A
connection is a name and the address of its peer. Frames for the peer go into a
mailbox, which the transport empties and at last closes; nothing is queued in a
closed mailbox. -/

/-- Names a connection. No name is given twice. -/
structure ConnectionId where
  number : Nat
  deriving DecidableEq, Repr

def ConnectionId.name (id : ConnectionId) : String := "conn-" ++ toString id.number

structure Connection where
  id : ConnectionId
  address : Address
  deriving DecidableEq, Repr

structure CloseReason where
  code : UInt16
  text : String
  deriving DecidableEq, Repr

inductive Frame where
  | text (content : String)
  | ping
  | close (reason : Option CloseReason)
  deriving DecidableEq, Repr

structure Mailbox where
  isOpen : Bool
  queued : List Frame
  deriving DecidableEq, Repr

namespace Mailbox

def empty : Mailbox := ⟨true, []⟩

/-- Stands for the mailbox of a connection that never was. -/
def closed : Mailbox := ⟨false, []⟩

def post (frame : Frame) (mailbox : Mailbox) : Mailbox :=
  if mailbox.isOpen then { mailbox with queued := mailbox.queued ++ [frame] } else mailbox

/-- Lets no more frames in. Those that are queued can still be taken out. -/
def finish (mailbox : Mailbox) : Mailbox := { mailbox with isOpen := false }

def clear (mailbox : Mailbox) : Mailbox := { mailbox with queued := [] }

@[simp] theorem isOpen_post (frame : Frame) (mailbox : Mailbox) :
    (mailbox.post frame).isOpen = mailbox.isOpen := by
  unfold post
  split <;> rfl

theorem queued_post_of_open {mailbox : Mailbox} (isOpen : mailbox.isOpen = true)
    (frame : Frame) : (mailbox.post frame).queued = mailbox.queued ++ [frame] := by
  simp [post, isOpen]

theorem post_of_closed {mailbox : Mailbox} (isClosed : mailbox.isOpen = false)
    (frame : Frame) : mailbox.post frame = mailbox := by
  simp [post, isClosed]

end Mailbox

structure Mailboxes where
  boxes : List Mailbox
  deriving DecidableEq, Repr

namespace Mailboxes

def empty : Mailboxes := ⟨[]⟩

def get (id : ConnectionId) (mailboxes : Mailboxes) : Mailbox :=
  mailboxes.boxes[id.number]?.getD .closed

def modify (id : ConnectionId) (change : Mailbox → Mailbox) (mailboxes : Mailboxes) :
    Mailboxes :=
  ⟨mailboxes.boxes.modify id.number change⟩

def fresh (mailboxes : Mailboxes) : ConnectionId := ⟨mailboxes.boxes.length⟩

def add (mailboxes : Mailboxes) : Mailboxes := ⟨mailboxes.boxes ++ [.empty]⟩

def accepts (id : ConnectionId) (mailboxes : Mailboxes) : Bool :=
  (mailboxes.get id).isOpen

def post (id : ConnectionId) (frame : Frame) (mailboxes : Mailboxes) : Mailboxes :=
  mailboxes.modify id (·.post frame)

def clear (id : ConnectionId) (mailboxes : Mailboxes) : Mailboxes :=
  mailboxes.modify id .clear

def finish (id : ConnectionId) (mailboxes : Mailboxes) : Mailboxes :=
  mailboxes.modify id .finish

/-- Closes a mailbox. What is still queued in it is lost. -/
def close (id : ConnectionId) (mailboxes : Mailboxes) : Mailboxes :=
  mailboxes.modify id fun _ => .closed

theorem get_modify_self {change : Mailbox → Mailbox} (fixed : change .closed = .closed)
    (id : ConnectionId) (mailboxes : Mailboxes) :
    (mailboxes.modify id change).get id = change (mailboxes.get id) := by
  unfold get modify
  rw [List.getElem?_modify_eq]
  cases mailboxes.boxes[id.number]? with
  | none => exact fixed.symm
  | some mailbox => rfl

theorem get_modify_other (change : Mailbox → Mailbox) {id other : ConnectionId}
    (different : other ≠ id) (mailboxes : Mailboxes) :
    (mailboxes.modify id change).get other = mailboxes.get other := by
  unfold get modify
  rw [List.getElem?_modify_ne]
  intro equal
  cases id
  cases other
  exact different (congrArg ConnectionId.mk equal.symm)

theorem get_post_self (id : ConnectionId) (frame : Frame) (mailboxes : Mailboxes) :
    (mailboxes.post id frame).get id = (mailboxes.get id).post frame :=
  get_modify_self rfl id mailboxes

theorem get_post_other {id other : ConnectionId} (different : other ≠ id) (frame : Frame)
    (mailboxes : Mailboxes) : (mailboxes.post id frame).get other = mailboxes.get other :=
  get_modify_other _ different mailboxes

@[simp] theorem accepts_post (id other : ConnectionId) (frame : Frame)
    (mailboxes : Mailboxes) :
    (mailboxes.post id frame).accepts other = mailboxes.accepts other := by
  unfold accepts
  by_cases same : other = id
  · rw [same, get_post_self, Mailbox.isOpen_post]
  · rw [get_post_other same]

end Mailboxes

end Relay
