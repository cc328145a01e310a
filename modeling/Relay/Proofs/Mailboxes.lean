import Relay.Delivery

namespace Relay

/-! What the mailbox of a connection is after the mailboxes have changed. Every
way of queueing frames comes down to `Mailbox.postAll`, which queues a list of
frames in one mailbox; which frames these are is all that the ways differ in. -/

namespace Mailbox

def postAll (frames : List Frame) (mailbox : Mailbox) : Mailbox :=
  frames.foldl (fun mailbox frame => mailbox.post frame) mailbox

@[simp] theorem postAll_nil (mailbox : Mailbox) : mailbox.postAll [] = mailbox := rfl

@[simp] theorem postAll_cons (frame : Frame) (frames : List Frame) (mailbox : Mailbox) :
    mailbox.postAll (frame :: frames) = (mailbox.post frame).postAll frames := rfl

theorem postAll_append (first second : List Frame) (mailbox : Mailbox) :
    mailbox.postAll (first ++ second) = (mailbox.postAll first).postAll second :=
  List.foldl_append

@[simp] theorem isOpen_postAll (frames : List Frame) (mailbox : Mailbox) :
    (mailbox.postAll frames).isOpen = mailbox.isOpen := by
  induction frames generalizing mailbox with
  | nil => rfl
  | cons frame frames induction => rw [postAll_cons, induction, isOpen_post]

theorem postAll_of_closed {mailbox : Mailbox} (isClosed : mailbox.isOpen = false)
    (frames : List Frame) : mailbox.postAll frames = mailbox := by
  induction frames with
  | nil => rfl
  | cons frame frames induction => rw [postAll_cons, post_of_closed isClosed, induction]

/-- Frames are queued behind those that are there, and only in an open
mailbox. -/
theorem queued_postAll (frames : List Frame) (mailbox : Mailbox) :
    (mailbox.postAll frames).queued =
      mailbox.queued ++ if mailbox.isOpen then frames else [] := by
  cases isOpen : mailbox.isOpen with
  | false => simp [postAll_of_closed isOpen]
  | true =>
      induction frames generalizing mailbox with
      | nil => simp
      | cons frame frames induction =>
          rw [postAll_cons, induction (mailbox.post frame) (by simp [isOpen]),
            queued_post_of_open isOpen]
          simp

end Mailbox

namespace Mailboxes

/-! ## One mailbox -/

theorem get_of_unmade {id : ConnectionId} {mailboxes : Mailboxes}
    (unmade : mailboxes.boxes.length ≤ id.number) : mailboxes.get id = .closed := by
  unfold get
  rw [List.getElem?_eq_none unmade]
  rfl

theorem get_add_fresh (mailboxes : Mailboxes) :
    mailboxes.add.get mailboxes.fresh = .empty := by
  simp [get, add, fresh]

theorem get_add_other {id : ConnectionId} {mailboxes : Mailboxes}
    (different : id ≠ mailboxes.fresh) : mailboxes.add.get id = mailboxes.get id := by
  have unequal : id.number ≠ mailboxes.boxes.length := by
    intro equal
    cases id
    exact different (congrArg ConnectionId.mk equal)
  rcases Nat.lt_or_gt_of_ne unequal with made | unmade
  · simp only [get, add]
    rw [List.getElem?_append_left made]
  · rw [get_of_unmade (Nat.le_of_lt unmade), get_of_unmade]
    simp only [add, List.length_append, List.length_singleton]
    omega

theorem get_modify (change : Mailbox → Mailbox) (fixed : change .closed = .closed)
    (other id : ConnectionId) (mailboxes : Mailboxes) :
    (mailboxes.modify other change).get id =
      if other = id then change (mailboxes.get id) else mailboxes.get id := by
  split
  · rename_i same
    subst same
    exact get_modify_self fixed other mailboxes
  · rename_i different
    exact get_modify_other change (Ne.symm different) mailboxes

theorem get_post (frame : Frame) (other id : ConnectionId) (mailboxes : Mailboxes) :
    (mailboxes.post other frame).get id =
      (mailboxes.get id).postAll (if other = id then [frame] else []) := by
  rw [post, get_modify _ rfl]
  split <;> rfl

theorem post_of_closed {id : ConnectionId} {mailboxes : Mailboxes}
    (closed : mailboxes.accepts id = false) (frame : Frame) :
    mailboxes.post id frame = mailboxes := by
  have isClosed : (mailboxes.get id).isOpen = false := closed
  unfold get at isClosed
  unfold post modify
  congr 1
  apply List.ext_getElem?
  intro position
  rw [List.getElem?_modify]
  by_cases same : id.number = position
  · subst same
    cases found : mailboxes.boxes[id.number]? with
    | none => rfl
    | some mailbox =>
        rw [found] at isClosed
        have stays : mailbox.post frame = mailbox := Mailbox.post_of_closed isClosed frame
        simp [stays]
  · simp [same]

@[simp] theorem length_modify (id : ConnectionId) (change : Mailbox → Mailbox)
    (mailboxes : Mailboxes) :
    (mailboxes.modify id change).boxes.length = mailboxes.boxes.length := by
  simp [modify]

@[simp] theorem length_post (id : ConnectionId) (frame : Frame) (mailboxes : Mailboxes) :
    (mailboxes.post id frame).boxes.length = mailboxes.boxes.length :=
  length_modify _ _ _

/-! ## Many mailboxes -/

@[simp] theorem length_foldl_post (frame : Frame) (ids : List ConnectionId)
    (mailboxes : Mailboxes) :
    (ids.foldl (fun mailboxes id => mailboxes.post id frame) mailboxes).boxes.length =
      mailboxes.boxes.length := by
  induction ids generalizing mailboxes with
  | nil => rfl
  | cons id ids induction => rw [List.foldl_cons, induction, length_post]

theorem get_foldl_post (frame : Frame) (id : ConnectionId) (ids : List ConnectionId)
    (mailboxes : Mailboxes) :
    (ids.foldl (fun mailboxes id => mailboxes.post id frame) mailboxes).get id =
      (mailboxes.get id).postAll (List.replicate (ids.count id) frame) := by
  induction ids generalizing mailboxes with
  | nil => rfl
  | cons first rest induction =>
      rw [List.foldl_cons, induction]
      by_cases same : first = id
      · subst same
        rw [get_post_self, List.count_cons_self, List.replicate_succ,
          Mailbox.postAll_cons]
      · rw [get_post_other (Ne.symm same), List.count_cons_of_ne same]

theorem mem_addressees {id : ConnectionId} {exclude : Option ConnectionId}
    {recipients : List Connection} :
    id ∈ addressees exclude recipients ↔
      id ∈ recipients.map Connection.id ∧ some id ≠ exclude := by
  simp [addressees]

/-- An envelope is queued once for each recipient but the excluded one. -/
theorem get_deliver {recipients : List Connection}
    (distinct : (recipients.map Connection.id).Nodup) (envelope : Envelope)
    (exclude : Option ConnectionId) (id : ConnectionId) (mailboxes : Mailboxes) :
    (mailboxes.deliver recipients envelope exclude).2.get id =
      (mailboxes.get id).postAll
        (if id ∈ addressees exclude recipients then [.text envelope.encode] else []) := by
  have once : (addressees exclude recipients).Nodup := distinct.filter _
  simp only [deliver]
  rw [get_foldl_post, once.count]
  split <;> rfl

@[simp] theorem length_deliver (recipients : List Connection) (envelope : Envelope)
    (exclude : Option ConnectionId) (mailboxes : Mailboxes) :
    (mailboxes.deliver recipients envelope exclude).2.boxes.length =
      mailboxes.boxes.length :=
  length_foldl_post _ _ _

end Mailboxes

end Relay
