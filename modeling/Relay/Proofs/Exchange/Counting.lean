import Relay.Proofs.Exchange.DeliveryLog

namespace Relay

/-! The count of messages in a run. A message is counted before it is answered, so the
reply to it can show its number: the place of the message among all that have been
counted. Main statement: as long as the count does not start anew, these numbers are
exact, and no number is shown twice. -/

def Step.isCounted : Step → Bool
  | .recordMessage | .route _ _ | .dispatch _ _ => true
  | _ => false

def Step.onRegistry (step : Step) (registry : Registry) : Registry :=
  match step with
  | .register connection | .registerWelcomed connection => registry.register connection
  | .unregister id => registry.unregister id
  | .recordMessage | .route _ _ | .dispatch _ _ => registry.recordMessage
  | _ => registry

def Envelope.number? : Envelope → Option UInt64
  | .pong _ _ count | .echoResponse _ _ count => some count
  | .statsResponse stats _ => some stats.totalMessages
  | _ => none

def Message.isNumbered (message : Message) : Bool :=
  match message.request with
  | .ok (.ping _) | .ok (.echo _) | .ok .stats => true
  | _ => false

theorem Step.messageCount_onRegistry (step : Step) (registry : Registry) :
    (step.onRegistry registry).messageCount =
      registry.messageCount + if step.isCounted then 1 else 0 := by
  cases step with
  | register connection => simp [onRegistry, isCounted]
  | registerWelcomed connection => simp [onRegistry, isCounted]
  | recordMessage => rfl
  | route sender message => rfl
  | dispatch sender message => rfl
  | _ => exact (UInt64.add_zero _).symm

theorem Hub.number?_route (moment : Moment) (sender : Connection) (message : Message)
    (hub : Hub) :
    (hub.route moment sender message).1.number? =
      if message.isNumbered then some (hub.registry.messageCount + 1) else none := by
  unfold route Message.isNumbered
  cases message.request with
  | error error => cases error <;> rfl
  | ok request => cases request <;> rfl

namespace Exchange

/-! ## One step -/

theorem registry_step (clock : Nat → Moment) (step : Step) (exchange : Exchange) :
    (exchange.step clock step).2.hub.registry = step.onRegistry exchange.hub.registry := by
  cases step with
  | registerWelcomed connection =>
      exact exchange.hub.registry_registerWelcomed _ connection
  | route sender message => exact exchange.hub.registry_route _ sender message
  | dispatch sender message => exact exchange.hub.registry_dispatch _ sender message
  | emit => exact exchange.hub.registry_emit _
  | advance milliseconds =>
      cases running : exchange.heartbeat with
      | none => simp [step, advance, running, Step.onRegistry]
      | some heartbeat => simp [step, advance, running, Step.onRegistry]
  | _ => rfl

theorem messageCount_step (clock : Nat → Moment) (step : Step) (exchange : Exchange) :
    (exchange.step clock step).2.hub.registry.messageCount =
      exchange.hub.registry.messageCount + if step.isCounted then 1 else 0 := by
  rw [registry_step, Step.messageCount_onRegistry]

def shownBy (clock : Nat → Moment) (step : Step) (exchange : Exchange) :
    Option (ConnectionId × UInt64) :=
  match step with
  | .route sender message | .dispatch sender message =>
      let reply := (exchange.hub.route (clock exchange.now) sender message).1
      reply.number?.map fun number => (sender.id, number)
  | _ => none

theorem eq_of_shownBy {clock : Nat → Moment} {step : Step} {exchange : Exchange}
    {shown : ConnectionId × UInt64} (isShown : exchange.shownBy clock step = some shown) :
    step.isCounted = true ∧ shown.2 = exchange.hub.registry.messageCount + 1 := by
  have numbered {sender : Connection} {message : Message}
      (isShown : (exchange.hub.route (clock exchange.now) sender message).1.number?.map
        (fun number => (sender.id, number)) = some shown) :
      shown.2 = exchange.hub.registry.messageCount + 1 := by
    rw [Hub.number?_route] at isShown
    split at isShown
    · cases isShown
      rfl
    · cases isShown
  cases step with
  | route sender message => exact ⟨rfl, numbered isShown⟩
  | dispatch sender message => exact ⟨rfl, numbered isShown⟩
  | _ => cases isShown

theorem get_dispatch_sender (clock : Nat → Moment) (sender : Connection) (message : Message)
    (exchange : Exchange) :
    (exchange.step clock (.dispatch sender message)).2.hub.mailboxes.get sender.id =
      (exchange.hub.mailboxes.get sender.id).post
        (.ofEnvelope (exchange.hub.route (clock exchange.now) sender message).1) := by
  have alone : exchange.hub.passedOn (clock exchange.now) sender message sender.id = [] := by
    unfold Hub.passedOn
    split
    · simp [Hub.copyFor]
    · rfl
  have dispatched := exchange.hub.get_dispatch (clock exchange.now) sender message sender.id
  rw [Hub.outgoing, alone, if_pos rfl] at dispatched
  exact dispatched

/-! ## Runs -/

/-- The numbers that a run shows, and to whom, in the order of the steps. -/
def shown (clock : Nat → Moment) : List Step → Exchange → List (ConnectionId × UInt64)
  | [], _ => []
  | step :: rest, exchange =>
      (exchange.shownBy clock step).toList ++
        shown clock rest (exchange.step clock step).2

theorem messageCount_run (clock : Nat → Moment) (steps : List Step) (exchange : Exchange) :
    (exchange.run clock steps).2.hub.registry.messageCount =
      exchange.hub.registry.messageCount + .ofNat (steps.countP Step.isCounted) := by
  induction steps generalizing exchange with
  | nil => exact (UInt64.add_zero _).symm
  | cons step rest induction =>
      rw [run_cons, induction, messageCount_step, List.countP_cons, UInt64.ofNat_add,
        UInt64.add_assoc, UInt64.add_comm (if step.isCounted then 1 else 0)]
      split <;> rfl

/-- A step that is counted takes the count one further, unless it starts anew. -/
theorem toNat_messageCount_step (clock : Nat → Moment) {step : Step} {exchange : Exchange}
    {more : Nat} (few : exchange.hub.registry.messageCount.toNat +
      ((if step.isCounted then 1 else 0) + more) < UInt64.size) :
    (exchange.step clock step).2.hub.registry.messageCount.toNat =
      exchange.hub.registry.messageCount.toNat + if step.isCounted then 1 else 0 := by
  rw [messageCount_step, UInt64.toNat_add]
  split at few
  · rename_i isCounted
    rw [if_pos isCounted, if_pos isCounted]
    apply Nat.mod_eq_of_lt
    change _ + 1 < UInt64.size
    omega
  · rename_i notCounted
    rw [if_neg notCounted, if_neg notCounted]
    exact Nat.mod_eq_of_lt (UInt64.toNat_lt _)

/-- What is shown in a run is beyond what had been counted before it, and every number is
greater than those before it. -/
theorem shown_increasing (clock : Nat → Moment) (steps : List Step) {exchange : Exchange}
    (few : exchange.hub.registry.messageCount.toNat + steps.countP Step.isCounted < UInt64.size) :
    (∀ shown ∈ exchange.shown clock steps,
        exchange.hub.registry.messageCount.toNat < shown.2.toNat) ∧
      (exchange.shown clock steps).Pairwise fun first second => first.2 < second.2 := by
  induction steps generalizing exchange with
  | nil =>
      refine ⟨?_, .nil⟩
      intro shown isShown
      cases isShown
  | cons step rest induction =>
      rw [List.countP_cons, Nat.add_comm (rest.countP _)] at few
      have counted := toNat_messageCount_step clock few
      have fewer : (exchange.step clock step).2.hub.registry.messageCount.toNat +
          rest.countP Step.isCounted < UInt64.size := by
        rw [counted]
        omega
      rcases induction fewer with ⟨beyond, increasing⟩
      have here : ∀ shown ∈ (exchange.shownBy clock step).toList,
          shown.2 = (exchange.step clock step).2.hub.registry.messageCount ∧
            exchange.hub.registry.messageCount.toNat < shown.2.toNat := by
        intro shown isShown
        rcases eq_of_shownBy (Option.mem_toList.mp isShown) with ⟨isCounted, isNext⟩
        have next : shown.2 = (exchange.step clock step).2.hub.registry.messageCount := by
          rw [isNext, messageCount_step, if_pos isCounted]
        rw [if_pos isCounted] at counted
        exact ⟨next, by rw [next]; omega⟩
      constructor
      · intro shown isShown
        rcases List.mem_append.mp isShown with isHere | isLater
        · exact (here shown isHere).2
        · have := beyond shown isLater
          omega
      · apply List.pairwise_append.mpr
        refine ⟨?_, increasing, ?_⟩
        · cases exchange.shownBy clock step with
          | none => exact .nil
          | some shown => exact List.pairwise_singleton _ shown
        · intro first isHere second isLater
          rw [(here first isHere).1]
          exact UInt64.lt_iff_toNat_lt.mpr (beyond second isLater)

/-- The count of messages in a run from the beginning. Routed and dispatched messages are
counted, whoever sends them and whatever they say, and so are those that are recorded;
nothing else is. What is counted as the n-th message is answered with the number n, if the
reply shows a number at all. Hence the numbers increase, over the whole run and in what
each connection is shown. -/
theorem run_numbers_messages (clock : Nat → Moment) (host : String) (port : UInt16)
    (steps : List Step) (few : steps.countP Step.isCounted < UInt64.size) :
    let fresh := start host port
    let shown := fresh.shown clock steps
    (fresh.run clock steps).2.hub.registry.messageCount.toNat =
      steps.countP Step.isCounted ∧
    (∀ before step after, steps = before ++ step :: after →
      let exchange := (fresh.run clock before).2
      let next := exchange.step clock step
      let number := before.countP Step.isCounted + if step.isCounted then 1 else 0
      next.2.hub.registry.messageCount.toNat = number ∧
      (step = .recordMessage → ∃ count, next.1 = .count count ∧ count.toNat = number) ∧
      ∀ sender message, step = .route sender message ∨ step = .dispatch sender message →
        let reply := (exchange.hub.route (clock exchange.now) sender message).1
        reply.number?.map UInt64.toNat =
          (if message.isNumbered then some number else none) ∧
        (step = .route sender message → next.1 = .reply reply) ∧
        (step = .dispatch sender message →
          next.2.hub.mailboxes.get sender.id =
            (exchange.hub.mailboxes.get sender.id).post (.ofEnvelope reply))) ∧
    (shown.map Prod.snd).Pairwise (· < ·) ∧
    ∀ id, ((shown.filter fun entry => entry.1 = id).map Prod.snd).Pairwise (· < ·) := by
  intro fresh shown
  have counted {steps : List Step} (few : steps.countP Step.isCounted < UInt64.size) :
      (fresh.run clock steps).2.hub.registry.messageCount.toNat =
        steps.countP Step.isCounted := by
    have none : fresh.hub.registry.messageCount = 0 := rfl
    rw [messageCount_run, none, UInt64.zero_add, UInt64.toNat_ofNat_of_lt' few]
  have increasing : shown.Pairwise fun first second => first.2 < second.2 := by
    have fits : fresh.hub.registry.messageCount.toNat + steps.countP Step.isCounted <
        UInt64.size := by
      change 0 + _ < _
      rw [Nat.zero_add]
      exact few
    exact (shown_increasing clock steps fits).2
  refine ⟨counted few, ?_, List.pairwise_map.mpr increasing,
    fun id => List.pairwise_map.mpr (increasing.filter _)⟩
  intro before step after split exchange next number
  rw [split, List.countP_append, List.countP_cons, Nat.add_comm (after.countP _)] at few
  have isBefore : exchange.hub.registry.messageCount.toNat = before.countP Step.isCounted :=
    counted (Nat.lt_of_le_of_lt (Nat.le_add_right _ _) few)
  have isNext : next.2.hub.registry.messageCount.toNat = number := by
    rw [← isBefore] at few
    have stepped : next.2.hub.registry.messageCount.toNat = _ :=
      toNat_messageCount_step clock few
    rw [stepped, isBefore]
  refine ⟨isNext, ?_, ?_⟩
  · rintro rfl
    exact ⟨_, rfl, isNext⟩
  · intro sender message isMessage reply
    have isCounted : step.isCounted = true := by
      rcases isMessage with rfl | rfl <;> rfl
    refine ⟨?_, ?_, ?_⟩
    · rw [messageCount_step, if_pos isCounted] at isNext
      rw [Hub.number?_route]
      split
      · rw [Option.map_some, isNext]
      · rfl
    · rintro rfl
      rfl
    · rintro rfl
      exact exchange.get_dispatch_sender clock sender message

/-- A ping of somebody who is registered, octets of somebody who is not, a message that is
recorded, a heartbeat, and the statistics. -/
theorem run_numbers_messages_mixed :
    let clock : Nat → Moment := fun _ => ⟨"now", Double.zero⟩
    let first : Connection := ⟨⟨0⟩, .v4 127 0 0 1 5000⟩
    let second : Connection := ⟨⟨1⟩, .v4 127 0 0 1 5001⟩
    let steps : List Step :=
      [.openConnection first.address, .openConnection second.address, .register first,
        .dispatch first (.text "\x7b\"type\":\"ping\"\x7d"),
        .dispatch second (.binary [0xFF]), .recordMessage, .emit,
        .route second (.text "\x7b\"type\":\"stats\"\x7d")]
    let shown := (start "localhost" 3004).shown clock steps
    steps.countP Step.isCounted < UInt64.size ∧
      ((start "localhost" 3004).run clock steps).2.hub.registry.messageCount.toNat = 4 ∧
      shown = [(first.id, 1), (second.id, 4)] ∧ (shown.map Prod.snd).Pairwise (· < ·) := by
  intro clock first second steps shown
  have four : steps.countP Step.isCounted = 4 := rfl
  have few : steps.countP Step.isCounted < UInt64.size := by
    rw [four]
    decide
  rcases run_numbers_messages clock "localhost" 3004 steps few with
    ⟨counted, _, increasing, _⟩
  rw [four] at counted
  exact ⟨few, counted, by decide +kernel, increasing⟩

end Exchange

end Relay
