import Relay.Proofs.Hub.Posting

namespace Relay

/-! The delivery log of a run: the frames that are queued for one connection, in
the order of the steps. The log is written down from the steps alone, by saying
what each of them addresses to the connection. Main statement: a mailbox accepts
exactly the frames of its log, and while it is open, what has been taken out of
it followed by what still waits in it is the log. -/

namespace Exchange

/-! ## The log -/

def firings (milliseconds : Nat) (exchange : Exchange) : Nat :=
  match exchange.heartbeat with
  | none => 0
  | some heartbeat => (heartbeat.expire (exchange.now + milliseconds)).1

def addressed (clock : Nat → Moment) (id : ConnectionId) (step : Step)
    (exchange : Exchange) : List Frame :=
  let hub := exchange.hub
  let moment := clock exchange.now
  match step with
  | .registerWelcomed connection =>
      (hub.greetingFor moment connection id).map .ofEnvelope
  | .send recipient frame => if recipient = id then [frame] else []
  | .deliverTo recipient envelope => if recipient = id then [.ofEnvelope envelope] else []
  | .route sender message => (hub.passedOn moment sender message id).map .ofEnvelope
  | .dispatch sender message => (hub.outgoing moment sender message id).map .ofEnvelope
  | .broadcast payload sender =>
      (hub.copyFor id (hub.broadcastEnvelope moment payload sender)
        (sender.map Connection.id)).map .ofEnvelope
  | .fanOut envelope exclude => (hub.copyFor id envelope exclude).map .ofEnvelope
  | .emit => (hub.updateFor moment id).map .ofEnvelope
  | .advance milliseconds =>
      let moment := clock (exchange.now + milliseconds)
      (List.replicate (exchange.firings milliseconds) (hub.updateFor moment id)).flatten.map
        .ofEnvelope
  | _ => []

def share (clock : Nat → Moment) (id : ConnectionId) (step : Step) (exchange : Exchange) :
    List Frame :=
  if exchange.hub.mailboxes.accepts id then exchange.addressed clock id step else []

def deliveryLog (clock : Nat → Moment) (id : ConnectionId) :
    List Step → Exchange → List Frame
  | [], _ => []
  | step :: rest, exchange =>
      exchange.share clock id step ++
        deliveryLog clock id rest (exchange.step clock step).2

/-! ## What can be observed -/

def queued (id : ConnectionId) (exchange : Exchange) : List Frame :=
  (exchange.hub.mailboxes.get id).queued

/-- The frames behind those that a step leaves in a mailbox. Only taking frames
out leaves none of them. -/
def gained (id : ConnectionId) (step : Step) (before after : Exchange) : List Frame :=
  let left := if step = .receive id then [] else before.queued id
  (after.queued id).drop left.length

def accepted (clock : Nat → Moment) (id : ConnectionId) :
    List Step → Exchange → List Frame
  | [], _ => []
  | step :: rest, exchange =>
      let next := (exchange.step clock step).2
      gained id step exchange next ++ accepted clock id rest next

def taken (id : ConnectionId) : Step → Outcome → List Frame
  | .receive other, .received frames => if other = id then frames.getD [] else []
  | _, _ => []

def received (id : ConnectionId) (steps : List Step) (outcomes : List Outcome) : List Frame :=
  (List.zipWith (taken id) steps outcomes).flatten

/-! ## One step -/

/-- What a step makes of a mailbox before it queues anything there. `fresh` is
the name that the next connection gets. -/
def prepared (fresh id : ConnectionId) (step : Step) (mailbox : Mailbox) : Mailbox :=
  match step with
  | .openConnection _ => if id = fresh then .empty else mailbox
  | .close other => if other = id then .closed else mailbox
  | .receive other => if other = id then mailbox.clear else mailbox
  | _ => mailbox

/-- A step prepares each mailbox and queues there what it addresses to the
connection. -/
theorem get_step (clock : Nat → Moment) (step : Step) (id : ConnectionId)
    (exchange : Exchange) :
    (exchange.step clock step).2.hub.mailboxes.get id =
      (prepared exchange.hub.mailboxes.fresh id step
        (exchange.hub.mailboxes.get id)).postAll (exchange.addressed clock id step) := by
  cases step with
  | openConnection address =>
      change exchange.hub.mailboxes.add.get id = _
      simp only [prepared, addressed, Mailbox.postAll_nil]
      split
      · rename_i isFresh
        rw [isFresh, Mailboxes.get_add_fresh]
      · rename_i different
        rw [Mailboxes.get_add_other different]
  | registerWelcomed connection => exact exchange.hub.get_registerWelcomed _ connection id
  | close other =>
      exact Mailboxes.get_modify (fun _ => .closed) rfl other id exchange.hub.mailboxes
  | send other frame => exact Mailboxes.get_post frame other id exchange.hub.mailboxes
  | receive other => exact Mailboxes.get_modify .clear rfl other id exchange.hub.mailboxes
  | route sender message => exact exchange.hub.get_route _ sender message id
  | dispatch sender message => exact exchange.hub.get_dispatch _ sender message id
  | broadcast payload sender => exact exchange.hub.get_broadcast _ payload sender id
  | fanOut envelope exclude => exact exchange.hub.get_fanOut envelope exclude id
  | deliverTo other envelope =>
      exact Mailboxes.get_post (.ofEnvelope envelope) other id exchange.hub.mailboxes
  | emit => exact exchange.hub.get_emit _ id
  | advance milliseconds =>
      cases running : exchange.heartbeat with
      | none => simp [step, advance, running, prepared, addressed, firings]
      | some heartbeat =>
          have fired := exchange.hub.get_emitTimes (clock (exchange.now + milliseconds))
            (heartbeat.expire (exchange.now + milliseconds)).1 id
          simpa [step, advance, running, prepared, addressed, firings] using fired
  | _ => rfl

def opened : Step → Nat
  | .openConnection _ => 1
  | _ => 0

theorem connected_step (clock : Nat → Moment) (step : Step) (exchange : Exchange) :
    (exchange.step clock step).2.hub.mailboxes.boxes.length =
      exchange.hub.mailboxes.boxes.length + opened step := by
  cases step with
  | openConnection address =>
      simp [step, hubStep, Hub.openConnection, Mailboxes.add, opened]
  | registerWelcomed connection => exact Hub.length_registerWelcomed _ connection exchange.hub
  | close id => exact Mailboxes.length_modify id _ exchange.hub.mailboxes
  | send id frame => exact Mailboxes.length_post id frame exchange.hub.mailboxes
  | receive id => exact Mailboxes.length_modify id _ exchange.hub.mailboxes
  | route sender message => exact Hub.length_route _ sender message exchange.hub
  | dispatch sender message => exact Hub.length_dispatch _ sender message exchange.hub
  | broadcast payload sender => exact Hub.length_fanOut _ _ exchange.hub
  | fanOut envelope exclude => exact Hub.length_fanOut _ _ exchange.hub
  | deliverTo id envelope => exact Mailboxes.length_post id _ exchange.hub.mailboxes
  | emit => exact Hub.length_emit _ exchange.hub
  | advance milliseconds =>
      cases running : exchange.heartbeat with
      | none => simp [step, advance, running, opened]
      | some heartbeat => simp [step, advance, running, opened]
  | _ => rfl

theorem length_step (clock : Nat → Moment) (step : Step) (exchange : Exchange) :
    exchange.hub.mailboxes.boxes.length ≤
      (exchange.step clock step).2.hub.mailboxes.boxes.length := by
  rw [connected_step]
  exact Nat.le_add_right _ _

/-! ## Closed mailboxes -/

/-- A mailbox in a run is open or empty: closing it drops what is in it. -/
def IsTidy (id : ConnectionId) (exchange : Exchange) : Prop :=
  exchange.hub.mailboxes.accepts id = false → exchange.hub.mailboxes.get id = .closed

def IsOver (id : ConnectionId) (exchange : Exchange) : Prop :=
  id.number < exchange.hub.mailboxes.boxes.length ∧
    exchange.hub.mailboxes.get id = .closed

theorem isTidy_start (id : ConnectionId) (host : String) (port : UInt16) :
    (start host port).IsTidy id := fun _ => Mailboxes.get_of_unmade (Nat.zero_le _)

theorem isTidy_step {id : ConnectionId} {exchange : Exchange} (tidy : exchange.IsTidy id)
    (clock : Nat → Moment) (step : Step) : (exchange.step clock step).2.IsTidy id := by
  intro closed
  rw [Mailboxes.accepts, get_step, Mailbox.isOpen_postAll] at closed
  rw [get_step, Mailbox.postAll_of_closed closed]
  revert closed
  cases step with
  | openConnection address =>
      simp only [prepared]
      split
      · intro closed
        cases closed
      · exact tidy
  | close other =>
      simp only [prepared]
      split
      · exact fun _ => rfl
      · exact tidy
  | receive other =>
      simp only [prepared]
      split
      · intro closed
        rw [tidy closed]
        rfl
      · exact tidy
  | _ => exact tidy

theorem isOver_step {id : ConnectionId} {exchange : Exchange} (isOver : exchange.IsOver id)
    (clock : Nat → Moment) (step : Step) : (exchange.step clock step).2.IsOver id := by
  refine ⟨Nat.lt_of_lt_of_le isOver.1 (length_step clock step exchange), ?_⟩
  have stays : prepared exchange.hub.mailboxes.fresh id step .closed = .closed := by
    cases step with
    | openConnection address =>
        have notFresh : id ≠ exchange.hub.mailboxes.fresh := by
          intro isFresh
          have := congrArg ConnectionId.number isFresh
          exact Nat.ne_of_lt isOver.1 this
        simp [prepared, notFresh]
    | close other => simp [prepared]
    | receive other =>
        simp only [prepared]
        split <;> rfl
    | _ => rfl
  rw [get_step, isOver.2, stays, Mailbox.postAll_of_closed rfl]

/-! ## What a step queues and hands out -/

theorem taken_step (clock : Nat → Moment) (id : ConnectionId) (step : Step)
    (exchange : Exchange) :
    taken id step (exchange.step clock step).1 =
      if step = .receive id ∧ exchange.hub.mailboxes.accepts id = true then
        exchange.queued id
      else [] := by
  cases step with
  | receive other =>
      change (if other = id then _ else []) = _
      by_cases same : other = id
      · subst same
        cases isOpen : (exchange.hub.mailboxes.get other).isOpen <;>
          simp [Mailboxes.accepts, queued, isOpen]
      · simp [same]
  | _ => simp [taken]

/-- What waited and what counts in a step is handed out in it or waits
afterwards, unless the step closes the mailbox. -/
theorem queued_step {id : ConnectionId} {exchange : Exchange} (tidy : exchange.IsTidy id)
    (clock : Nat → Moment) {step : Step}
    (kept : ¬(step = .close id ∧ exchange.hub.mailboxes.accepts id = true)) :
    exchange.queued id ++ exchange.share clock id step =
      taken id step (exchange.step clock step).1 ++
        (exchange.step clock step).2.queued id := by
  have counted : exchange.share clock id step =
      if (exchange.hub.mailboxes.get id).isOpen then exchange.addressed clock id step
      else [] := rfl
  rw [counted, queued, queued, get_step, Mailbox.queued_postAll]
  cases step with
  | openConnection address =>
      by_cases isFresh : id = exchange.hub.mailboxes.fresh
      · have unmade : exchange.hub.mailboxes.get id = .closed :=
          Mailboxes.get_of_unmade (by rw [isFresh]; exact Nat.le_refl _)
        rw [unmade]
        simp [taken, prepared, addressed, isFresh, Mailbox.empty, Mailbox.closed]
      · simp [taken, prepared, addressed, isFresh]
  | close other =>
      by_cases same : other = id
      · subst same
        have closed : exchange.hub.mailboxes.accepts other = false := by
          simpa using kept
        simp [taken, prepared, tidy closed, Mailbox.closed]
      · simp [taken, prepared, addressed, same]
  | receive other =>
      rw [taken_step]
      by_cases same : other = id
      · subst same
        cases isOpen : exchange.hub.mailboxes.accepts other with
        | true => simp [prepared, addressed, queued, Mailbox.clear]
        | false => simp [prepared, tidy isOpen, Mailbox.clear, Mailbox.closed]
      · simp [prepared, addressed, same]
  | _ => rfl

theorem gained_step {id : ConnectionId} {exchange : Exchange} (tidy : exchange.IsTidy id)
    (clock : Nat → Moment) (step : Step) :
    gained id step exchange (exchange.step clock step).2 = exchange.share clock id step := by
  by_cases closes : step = .close id
  · subst closes
    simp [gained, queued, get_step, prepared, addressed, share, Mailbox.closed]
  · have conserved := queued_step tidy clock fun kept => closes kept.1
    rw [taken_step] at conserved
    by_cases takes : step = .receive id
    · subst takes
      have nothing : exchange.share clock id (.receive id) = [] := by
        simp [share, addressed]
      cases isOpen : exchange.hub.mailboxes.accepts id with
      | true =>
          simp only [nothing, isOpen, and_self, if_true, List.append_nil] at conserved
          simp [gained, nothing, List.self_eq_append_right.mp conserved]
      | false =>
          have empty : exchange.queued id = [] := by
            rw [queued, tidy isOpen]
            rfl
          simp [gained, nothing, isOpen, empty] at conserved ⊢
          exact conserved
    · simp only [takes, false_and, if_false, List.nil_append] at conserved
      simp [gained, takes, ← conserved]

/-! ## A whole run -/

theorem run_cons (clock : Nat → Moment) (step : Step) (rest : List Step)
    (exchange : Exchange) :
    exchange.run clock (step :: rest) =
      ((exchange.step clock step).1 :: ((exchange.step clock step).2.run clock rest).1,
        ((exchange.step clock step).2.run clock rest).2) := rfl

theorem received_cons (id : ConnectionId) (step : Step) (rest : List Step)
    (outcome : Outcome) (outcomes : List Outcome) :
    received id (step :: rest) (outcome :: outcomes) =
      taken id step outcome ++ received id rest outcomes := rfl

theorem isTidy_run {id : ConnectionId} (clock : Nat → Moment) (steps : List Step)
    {exchange : Exchange} (tidy : exchange.IsTidy id) :
    (exchange.run clock steps).2.IsTidy id := by
  induction steps generalizing exchange with
  | nil => exact tidy
  | cons step rest induction => exact induction (isTidy_step tidy clock step)

theorem accepted_eq_deliveryLog {id : ConnectionId} (clock : Nat → Moment)
    (steps : List Step) {exchange : Exchange} (tidy : exchange.IsTidy id) :
    exchange.accepted clock id steps = exchange.deliveryLog clock id steps := by
  induction steps generalizing exchange with
  | nil => rfl
  | cons step rest induction =>
      rw [accepted, deliveryLog, gained_step tidy,
        induction (isTidy_step tidy clock step)]

theorem run_of_isOver {id : ConnectionId} (clock : Nat → Moment) (steps : List Step)
    {exchange : Exchange} (isOver : exchange.IsOver id) :
    exchange.deliveryLog clock id steps = [] ∧
      received id steps (exchange.run clock steps).1 = [] ∧
      (exchange.run clock steps).2.IsOver id := by
  induction steps generalizing exchange with
  | nil => exact ⟨rfl, rfl, isOver⟩
  | cons step rest induction =>
      have closed : exchange.hub.mailboxes.accepts id = false := by
        rw [Mailboxes.accepts, isOver.2]
        rfl
      rcases induction (isOver_step isOver clock step) with ⟨noLog, nothing, stays⟩
      rw [deliveryLog, run_cons, received_cons, taken_step, noLog, nothing]
      exact ⟨by simp [share, closed], by simp [closed], stays⟩

/-- What waited at the start and what counts in a run is handed out in it, waits
at its end or was lost when the mailbox was closed. -/
theorem run_conserves {id : ConnectionId} (clock : Nat → Moment) (steps : List Step)
    {exchange : Exchange} (tidy : exchange.IsTidy id) :
    ∃ lost, exchange.queued id ++ exchange.deliveryLog clock id steps =
        received id steps (exchange.run clock steps).1 ++
          (exchange.run clock steps).2.queued id ++ lost ∧
      ((exchange.run clock steps).2.hub.mailboxes.accepts id = true → lost = []) := by
  induction steps generalizing exchange with
  | nil => exact ⟨[], by simp [deliveryLog, run, received], fun _ => rfl⟩
  | cons step rest induction =>
      rw [deliveryLog, run_cons, received_cons]
      -- Only closing loses what waits, and nothing is queued after it.
      by_cases closes : step = .close id ∧ exchange.hub.mailboxes.accepts id = true
      · rcases closes with ⟨rfl, isOpen⟩
        have made : id.number < exchange.hub.mailboxes.boxes.length := by
          apply Nat.lt_of_not_le
          intro unmade
          rw [Mailboxes.accepts, Mailboxes.get_of_unmade unmade] at isOpen
          cases isOpen
        have isOver : (exchange.step clock (.close id)).2.IsOver id :=
          ⟨Nat.lt_of_lt_of_le made (length_step clock (.close id) exchange),
            by simp [get_step, prepared, addressed]⟩
        rcases run_of_isOver clock rest isOver with ⟨noLog, nothing, stays⟩
        refine ⟨exchange.queued id, ?_, ?_⟩
        · simp [noLog, nothing, share, addressed, taken, queued, stays.2, Mailbox.closed]
        · intro stillOpen
          rw [Mailboxes.accepts, stays.2] at stillOpen
          cases stillOpen
      · rcases induction (isTidy_step tidy clock step) with ⟨lost, conserved, none⟩
        refine ⟨lost, ?_, none⟩
        rw [← List.append_assoc, queued_step tidy clock closes, List.append_assoc,
          conserved]
        simp [List.append_assoc]

/-- The delivery log of a run from the beginning. The mailbox of a connection
accepts exactly the frames that the steps address to it while it is open, in the
order of the steps. While it is open, nothing of that is lost; once it is closed
nothing waits in it, and what was handed out is the start of the log. -/
theorem run_delivers_log (clock : Nat → Moment) (host : String) (port : UInt16)
    (id : ConnectionId) (steps : List Step) :
    let fresh := start host port
    let log := fresh.deliveryLog clock id steps
    let outcomes := (fresh.run clock steps).1
    let final := (fresh.run clock steps).2
    fresh.accepted clock id steps = log ∧
      (final.hub.mailboxes.accepts id = true →
        received id steps outcomes ++ final.queued id = log) ∧
      (final.hub.mailboxes.accepts id = false →
        final.queued id = [] ∧ received id steps outcomes <+: log) := by
  intro fresh log outcomes final
  have tidy : fresh.IsTidy id := isTidy_start id host port
  have nothing : fresh.queued id = [] := by
    simp [fresh, queued, start, Hub.start, Mailboxes.get, Mailboxes.empty, Mailbox.closed]
  rcases run_conserves clock steps tidy with ⟨lost, conserved, whole⟩
  rw [nothing, List.nil_append] at conserved
  refine ⟨accepted_eq_deliveryLog clock steps tidy, ?_, ?_⟩
  · intro isOpen
    rw [whole isOpen, List.append_nil] at conserved
    exact conserved.symm
  · intro closed
    have empty : final.queued id = [] := by
      rw [queued, isTidy_run clock steps tidy closed]
      rfl
    rw [List.append_assoc] at conserved
    exact ⟨empty, final.queued id ++ lost, conserved.symm⟩

end Exchange

end Relay
