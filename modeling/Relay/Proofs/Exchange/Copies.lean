import Relay.Proofs.Exchange.DeliveryLog

namespace Relay

/-! Delivery to a copy of the registry. A fan-out first copies the list of those who
take part and then goes through the copy, while others come and go. Main statement:
the report names everybody on the copy once, whoever has joined or left since, and
says of each of them whether the envelope has been queued. -/

/-! ## Reports -/

namespace Report

theorem delivered_add_failed (report : Report) :
    report.delivered + report.failed = report.recipients := by
  have least : report.delivered ≤ report.recipients := List.length_filter_le _ _
  unfold failed
  omega

end Report

namespace Mailboxes

theorem recipients_deliver (recipients : List Connection) (envelope : Envelope)
    (exclude : Option ConnectionId) (mailboxes : Mailboxes) :
    (mailboxes.deliver recipients envelope exclude).1.deliveries.map Delivery.recipient =
      addressees exclude recipients := by
  simp only [deliver, List.map_map]
  exact List.map_id' _

theorem count_addressees {recipients : List Connection}
    (distinct : (recipients.map Connection.id).Nodup) (exclude : Option ConnectionId)
    (id : ConnectionId) :
    (addressees exclude recipients).count id =
      if id ∈ recipients.map Connection.id ∧ some id ≠ exclude then 1 else 0 := by
  have once : (addressees exclude recipients).Nodup := distinct.filter _
  simp only [once.count, mem_addressees]

theorem failure_of_mem_deliver {recipients : List Connection} {envelope : Envelope}
    {exclude : Option ConnectionId} {mailboxes : Mailboxes} {delivery : Delivery}
    (member : delivery ∈ (mailboxes.deliver recipients envelope exclude).1.deliveries) :
    delivery.failure = mailboxes.failure? delivery.recipient := by
  rcases List.mem_map.mp member with ⟨id, _, same⟩
  rw [← same]

theorem failure?_isSome (id : ConnectionId) (mailboxes : Mailboxes) :
    (mailboxes.failure? id).isSome = !mailboxes.accepts id := by
  unfold failure?
  cases mailboxes.accepts id <;> rfl

theorem failures_deliver (recipients : List Connection) (envelope : Envelope)
    (exclude : Option ConnectionId) (mailboxes : Mailboxes) :
    (mailboxes.deliver recipients envelope exclude).1.failures.map Delivery.recipient =
      (addressees exclude recipients).filter fun id => !mailboxes.accepts id := by
  simp only [deliver, Report.failures, List.filter_map, List.map_map]
  rw [Function.comp_def, List.map_id']
  apply List.filter_congr
  intro id _
  exact failure?_isSome id mailboxes

theorem deliver_cons (first : Connection) (rest : List Connection) (envelope : Envelope)
    {exclude : Option ConnectionId} (included : some first.id ≠ exclude)
    (mailboxes : Mailboxes) :
    mailboxes.deliver (first :: rest) envelope exclude =
      (⟨⟨first.id, mailboxes.failure? first.id⟩ ::
          ((mailboxes.postEnvelope first.id envelope).deliver rest envelope exclude).1.deliveries⟩,
        ((mailboxes.postEnvelope first.id envelope).deliver rest envelope exclude).2) := by
  simp [deliver, addressees, included, failure?, postEnvelope]

theorem deliver_cons_of_excluded (first : Connection) (rest : List Connection)
    (envelope : Envelope) (mailboxes : Mailboxes) :
    mailboxes.deliver (first :: rest) envelope (some first.id) =
      mailboxes.deliver rest envelope (some first.id) := by
  simp [deliver, addressees]

/-- A closed recipient might as well not be on the list. -/
theorem deliver_without_closed {id : ConnectionId} (recipients : List Connection)
    (envelope : Envelope) (exclude : Option ConnectionId) {mailboxes : Mailboxes}
    (closed : mailboxes.accepts id = false) :
    let others := recipients.filter fun recipient => recipient.id ≠ id
    (mailboxes.deliver others envelope exclude).2 =
        (mailboxes.deliver recipients envelope exclude).2 ∧
      (mailboxes.deliver others envelope exclude).1.deliveries =
        (mailboxes.deliver recipients envelope exclude).1.deliveries.filter
          fun delivery => delivery.recipient ≠ id := by
  induction recipients generalizing mailboxes with
  | nil => exact ⟨rfl, rfl⟩
  | cons first rest induction =>
      by_cases excluded : some first.id = exclude
      · subst excluded
        rw [deliver_cons_of_excluded]
        have kept := induction closed
        by_cases isClosed : first.id = id
        · simpa [isClosed] using kept
        · simpa [isClosed, deliver_cons_of_excluded] using kept
      · rw [deliver_cons first rest envelope excluded]
        by_cases isClosed : first.id = id
        · -- Nothing is queued for the closed recipient itself.
          have unchanged : mailboxes.postEnvelope first.id envelope = mailboxes :=
            post_of_closed (by rw [isClosed]; exact closed) _
          have kept := induction closed
          rw [unchanged]
          simpa [isClosed] using kept
        · have posted : (mailboxes.postEnvelope first.id envelope).accepts id = false := by
            rw [postEnvelope, accepts_post]
            exact closed
          have kept := induction posted
          simpa [isClosed, deliver_cons first _ envelope excluded] using kept

end Mailboxes

/-! ## Hubs -/

namespace Hub

def deliver (copy : List Connection) (envelope : Envelope) (exclude : Option ConnectionId)
    (hub : Hub) : Report × Hub :=
  let (report, mailboxes) := hub.mailboxes.deliver copy envelope exclude
  (report, { hub with mailboxes })

theorem fanOut_eq_deliver (envelope : Envelope) (exclude : Option ConnectionId) (hub : Hub) :
    hub.fanOut envelope exclude = hub.deliver hub.registry.members envelope exclude := rfl

end Hub

namespace Exchange

/-! ## Receivers -/

theorem accepts_step {id : ConnectionId} {exchange : Exchange}
    (made : id.number < exchange.hub.mailboxes.boxes.length) (clock : Nat → Moment)
    (step : Step) :
    (exchange.step clock step).2.hub.mailboxes.accepts id = true ↔
      exchange.hub.mailboxes.accepts id = true ∧ step ≠ .close id := by
  rw [Mailboxes.accepts, get_step, Mailbox.isOpen_postAll, Mailboxes.accepts]
  cases step with
  | openConnection address =>
      have notFresh : id ≠ exchange.hub.mailboxes.fresh := by
        intro isFresh
        exact Nat.ne_of_lt made (congrArg ConnectionId.number isFresh)
      simp [prepared, notFresh]
  | close other =>
      by_cases same : other = id
      · simp [prepared, same, Mailbox.closed]
      · simp [prepared, same]
  | receive other =>
      simp only [prepared]
      split <;> simp [Mailbox.clear]
  | _ => simp [prepared]

theorem accepts_run {id : ConnectionId} (clock : Nat → Moment) (steps : List Step)
    {exchange : Exchange} (made : id.number < exchange.hub.mailboxes.boxes.length) :
    (exchange.run clock steps).2.hub.mailboxes.accepts id = true ↔
      exchange.hub.mailboxes.accepts id = true ∧ .close id ∉ steps := by
  induction steps generalizing exchange with
  | nil => simp [run]
  | cons step rest induction =>
      have stillMade := Nat.lt_of_lt_of_le made (length_step clock step exchange)
      rw [run_cons, induction stillMade, accepts_step made, List.mem_cons, not_or, and_assoc,
        Ne, eq_comm (a := step)]

/-- What becomes of an envelope that is delivered to a copy of the registry after the
registry and the mailboxes have changed. The copy may list the connections in any
order. -/
theorem run_delivers_copy (clock : Nat → Moment) (host : String) (port : UInt16)
    (earlier later : List Step) (copy : List Connection) (envelope : Envelope)
    (exclude : Option ConnectionId) :
    let copied := ((start host port).run clock earlier).2
    let exchange := (copied.run clock later).2
    let report := (exchange.hub.deliver copy envelope exclude).1
    let hub := (exchange.hub.deliver copy envelope exclude).2
    copy.Perm copied.hub.registry.members →
    (∀ id, (report.deliveries.map Delivery.recipient).count id =
      if copied.hub.registry.contains id ∧ some id ≠ exclude then 1 else 0) ∧
    (∀ delivery ∈ report.deliveries,
      let id := delivery.recipient
      if exchange.hub.mailboxes.accepts id then
        delivery.failure = none ∧
          hub.mailboxes.get id = ⟨true, exchange.queued id ++ [.text envelope.encode]⟩
      else
        delivery.failure = some (.closed id) ∧
          hub.mailboxes.get id = exchange.hub.mailboxes.get id) ∧
    (∀ id, id ∉ report.deliveries.map Delivery.recipient →
      hub.mailboxes.get id = exchange.hub.mailboxes.get id) ∧
    (∀ id, id.number < copied.hub.mailboxes.boxes.length →
      (exchange.hub.mailboxes.accepts id = true ↔
        copied.hub.mailboxes.accepts id = true ∧ .close id ∉ later)) ∧
    report.delivered + report.failed = report.recipients ∧
    report.failures.map Delivery.recipient =
      (report.deliveries.map Delivery.recipient).filter
        (fun id => !exchange.hub.mailboxes.accepts id) ∧
    hub.registry = exchange.hub.registry ∧
    (∀ id, exchange.hub.mailboxes.accepts id = false →
      let others := copy.filter fun connection => connection.id ≠ id
      (exchange.hub.deliver others envelope exclude).2 = hub ∧
        (exchange.hub.deliver others envelope exclude).1.deliveries =
          report.deliveries.filter fun delivery => delivery.recipient ≠ id) := by
  intro copied exchange report hub isCopy
  have sameNames := isCopy.map Connection.id
  have distinct : (copy.map Connection.id).Nodup :=
    sameNames.nodup_iff.mpr copied.hub.registry.distinct
  have named : report.deliveries.map Delivery.recipient =
      Mailboxes.addressees exclude copy :=
    Mailboxes.recipients_deliver copy envelope exclude exchange.hub.mailboxes
  have queued (id : ConnectionId) : hub.mailboxes.get id =
      (exchange.hub.mailboxes.get id).postAll
        (if id ∈ Mailboxes.addressees exclude copy then [.text envelope.encode] else []) :=
    Mailboxes.get_deliver distinct envelope exclude id exchange.hub.mailboxes
  refine ⟨?_, ?_, ?_, ?_, report.delivered_add_failed, ?_, rfl, ?_⟩
  · intro id
    rw [named, Mailboxes.count_addressees distinct]
    simp only [sameNames.mem_iff, Registry.contains_iff]
  · intro delivery member id
    have isNamed : id ∈ Mailboxes.addressees exclude copy :=
      named ▸ List.mem_map_of_mem member
    have delivered : delivery ∈
        (exchange.hub.mailboxes.deliver copy envelope exclude).1.deliveries := member
    have outcome : delivery.failure = exchange.hub.mailboxes.failure? id :=
      Mailboxes.failure_of_mem_deliver delivered
    rw [outcome, queued id, if_pos isNamed, Mailboxes.failure?]
    cases isOpen : exchange.hub.mailboxes.accepts id with
    | true =>
        have stillOpen : (exchange.hub.mailboxes.get id).isOpen = true := isOpen
        simp [Exchange.queued, Mailbox.post, stillOpen]
    | false =>
        have closed : (exchange.hub.mailboxes.get id).isOpen = false := isOpen
        simp [Mailbox.post_of_closed closed]
  · intro id unnamed
    rw [named] at unnamed
    rw [queued id, if_neg unnamed, Mailbox.postAll_nil]
  · intro id made
    exact accepts_run clock later made
  · rw [named]
    exact Mailboxes.failures_deliver copy envelope exclude exchange.hub.mailboxes
  · intro id closed others
    have without := Mailboxes.deliver_without_closed copy envelope exclude closed
    exact ⟨congrArg (fun mailboxes => ({ exchange.hub with mailboxes } : Hub)) without.1,
      without.2⟩

/-- One connection has left since the copy was made, one is closed and one has
joined. -/
theorem run_delivers_copy_departed :
    let clock : Nat → Moment := fun _ => ⟨"now", Double.zero⟩
    let first : Connection := ⟨⟨0⟩, .v4 127 0 0 1 5000⟩
    let second : Connection := ⟨⟨1⟩, .v4 127 0 0 1 5001⟩
    let third : Connection := ⟨⟨2⟩, .v4 127 0 0 1 5002⟩
    let earlier : List Step :=
      [.openConnection first.address, .openConnection second.address, .register first,
        .register second]
    let later : List Step :=
      [.unregister first.id, .close second.id, .openConnection third.address,
        .register third]
    let copied := ((start "localhost" 3004).run clock earlier).2
    let exchange := (copied.run clock later).2
    let report := (exchange.hub.deliver [second, first] (.internalError (clock 0)) none).1
    [second, first].Perm copied.hub.registry.members ∧
      (∀ id, (report.deliveries.map Delivery.recipient).count id =
        if copied.hub.registry.contains id ∧ some id ≠ none then 1 else 0) ∧
      report.failures.map Delivery.recipient = [second.id] := by
  intro clock first second third earlier later copied exchange report
  have isCopy : [second, first].Perm copied.hub.registry.members := by decide +kernel
  have law := run_delivers_copy clock "localhost" 3004 earlier later [second, first]
    (.internalError (clock 0)) none isCopy
  exact ⟨isCopy, law.1, law.2.2.2.2.2.1.trans (by decide +kernel)⟩

end Exchange

end Relay
