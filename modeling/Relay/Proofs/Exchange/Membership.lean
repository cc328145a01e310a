import Relay.Proofs.Exchange.Counting
import Relay.Proofs.Registry

namespace Relay

/-! Membership in a run. A registration of somebody who takes part already does nothing,
and neither does it to unregister somebody who does not; the other steps of this kind are
effective. Main statement: after any run the registry is the set of the connections whose
last effective step was a registration, and each step changes this set by one connection
at most. -/

namespace Step

def newcomer? : Step → Option Connection
  | .register connection | .registerWelcomed connection => some connection
  | _ => none

def subject? : Step → Option ConnectionId
  | .unregister id => some id
  | step => step.newcomer?.map Connection.id

def onHandle (id : ConnectionId) (step : Step) (handle? : Option Connection) :
    Option Connection :=
  if step.subject? = some id then step.newcomer?.map handle?.getD else handle?

theorem handle?_onRegistry (id : ConnectionId) (step : Step) (registry : Registry) :
    (step.onRegistry registry).handle? id = step.onHandle id (registry.handle? id) := by
  have registers (connection : Connection) :
      (registry.register connection).handle? id =
        if some connection.id = some id then some ((registry.handle? id).getD connection)
        else registry.handle? id := by
    simpa using registry.handle?_register id connection
  cases step with
  | register connection => exact registers connection
  | registerWelcomed connection => exact registers connection
  | unregister other =>
      simpa [onRegistry, onHandle, subject?, newcomer?] using
        registry.handle?_unregister id other
  | _ => rfl

end Step

namespace Registry

/-! ## Registering with a hook -/

/-- Registers a connection. If it does not take part yet, a hook is told the figures that
there will be, and may change something else before the connection takes part. -/
def registerWith {State : Type} (hook : Connection → Snapshot → State → State)
    (connection : Connection) (registry : Registry) (state : State) :
    Snapshot × Registry × State :=
  if registry.contains connection.id then (registry.snapshot, registry, state)
  else
    let foreseen : Snapshot := ⟨.ofNat (registry.size + 1), registry.messageCount⟩
    let registry := registry.register connection
    (registry.snapshot, registry, hook connection foreseen state)

theorem registerWith_eq {State : Type} (hook : Connection → Snapshot → State → State)
    (connection : Connection) (registry : Registry) (state : State) :
    registry.registerWith hook connection state =
      ((registry.register connection).snapshot, registry.register connection,
        if registry.contains connection.id then state
        else hook connection (registry.register connection).snapshot state) := by
  unfold registerWith
  cases present : registry.contains connection.id with
  | true =>
      rw [register_of_contains present]
      rfl
  | false =>
      have foreseen := snapshot_register_of_absent present
      simp only [foreseen]
      rw [← foreseen]
      rfl

end Registry

namespace Exchange

def greet (moment : Moment) (hub : Hub) (connection : Connection) (snapshot : Snapshot)
    (mailboxes : Mailboxes) : Mailboxes :=
  mailboxes.postEnvelope connection.id (hub.welcome moment snapshot)

theorem step_register_eq (clock : Nat → Moment) (connection : Connection)
    (exchange : Exchange) :
    exchange.step clock (.register connection) =
      let result := exchange.hub.registry.registerWith (fun _ _ state => state) connection ()
      (.snapshot result.1,
        { exchange with hub := { exchange.hub with registry := result.2.1 } }) := by
  rw [Registry.registerWith_eq]
  rfl

theorem step_registerWelcomed_eq (clock : Nat → Moment) (connection : Connection)
    (exchange : Exchange) :
    let hub := exchange.hub
    let result := hub.registry.registerWith (greet (clock exchange.now) hub) connection
      hub.mailboxes
    exchange.step clock (.registerWelcomed connection) =
      (.welcomed
        (if hub.registry.contains connection.id then none
          else some (result.1, hub.mailboxes.accepts connection.id)) result.1,
        { exchange with
          hub := { hub with registry := result.2.1, mailboxes := result.2.2 } }) := by
  intro hub result
  have isResult : result = _ := Registry.registerWith_eq _ _ _ _
  rw [isResult]
  cases present : hub.registry.contains connection.id with
  | true =>
      have unchanged := Hub.registerWelcomed_of_contains present (clock exchange.now)
      simp only [step, hubStep, Hub.greeting?]
      rw [unchanged, present, Registry.register_of_contains present]
      rfl
  | false =>
      have joins := Hub.registerWelcomed_of_absent present (clock exchange.now)
      rw [← Registry.snapshot_register_of_absent present] at joins
      simp only [step, hubStep, Hub.greeting?]
      rw [joins, present]
      rfl

/-! ## Effective steps -/

/-- The steps of a run that register or unregister the connection of a name, without those
that find it done already. -/
def effective (clock : Nat → Moment) (id : ConnectionId) : List Step → Exchange → List Step
  | [], _ => []
  | step :: rest, exchange =>
      let next := (exchange.step clock step).2
      let changes := next.hub.registry.members ≠ exchange.hub.registry.members
      (if step.subject? = some id ∧ changes then [step] else []) ++
        effective clock id rest next

/-- The connection of the last effective step under a name, if this was a registration. -/
def enrolled? (clock : Nat → Moment) (id : ConnectionId) (steps : List Step)
    (exchange : Exchange) : Option Connection :=
  (exchange.effective clock id steps).getLast?.bind Step.newcomer?

theorem handle?_step (clock : Nat → Moment) (id : ConnectionId) (step : Step)
    (exchange : Exchange) :
    (exchange.step clock step).2.hub.registry.handle? id =
      step.onHandle id (exchange.hub.registry.handle? id) := by
  rw [registry_step, Step.handle?_onRegistry]

theorem handle?_step_of_effective {clock : Nat → Moment} {id : ConnectionId} {step : Step}
    {exchange : Exchange} (isSubject : step.subject? = some id)
    (changes : (exchange.step clock step).2.hub.registry.members ≠
      exchange.hub.registry.members) :
    (exchange.step clock step).2.hub.registry.handle? id = step.newcomer? := by
  rw [registry_step] at changes
  rw [handle?_step, Step.onHandle, if_pos isSubject]
  have registered (connection : Connection) (sameName : connection.id = id)
      (changes : (exchange.hub.registry.register connection).members ≠
        exchange.hub.registry.members) :
      exchange.hub.registry.handle? id = none := by
    apply Option.eq_none_iff_forall_ne_some.mpr
    intro other found
    apply changes
    rw [Registry.register_of_contains]
    rw [Registry.contains_eq, sameName, found]
    rfl
  cases step with
  | register connection =>
      rw [registered connection (Option.some.inj isSubject) changes]
      rfl
  | registerWelcomed connection =>
      rw [registered connection (Option.some.inj isSubject) changes]
      rfl
  | unregister other => rfl
  | _ => cases isSubject

/-! ## Runs -/

theorem handle?_run (clock : Nat → Moment) (id : ConnectionId) (steps : List Step)
    (exchange : Exchange) :
    (exchange.run clock steps).2.hub.registry.handle? id =
      ((exchange.effective clock id steps).getLast?.map Step.newcomer?).getD
        (exchange.hub.registry.handle? id) := by
  induction steps generalizing exchange with
  | nil => rfl
  | cons step rest induction =>
      -- The last effective step is one of the rest, or else this one, if it is effective.
      rw [run_cons, induction, effective, List.getLast?_append]
      cases (effective clock id rest (exchange.step clock step).2).getLast? with
      | some last => rfl
      | none =>
          change (exchange.step clock step).2.hub.registry.handle? id = _
          split
          · rename_i isEffective
            rw [handle?_step_of_effective isEffective.1 isEffective.2]
            rfl
          · rename_i notEffective
            rw [not_and_or, not_not] at notEffective
            rcases notEffective with notSubject | unchanged
            · rw [handle?_step, Step.onHandle, if_neg notSubject]
              rfl
            · rw [Registry.handle?, unchanged]
              rfl

/-- Whether somebody takes part can also be read off the last step under the name,
effective or not. -/
theorem isSome_handle?_run (clock : Nat → Moment) (id : ConnectionId) (steps : List Step)
    (exchange : Exchange) :
    ((exchange.run clock steps).2.hub.registry.handle? id).isSome =
      (((steps.filter fun step => step.subject? = some id).getLast?.map
        fun step => step.newcomer?.isSome).getD
          (exchange.hub.registry.handle? id).isSome) := by
  induction steps generalizing exchange with
  | nil => rfl
  | cons step rest induction =>
      rw [run_cons, induction, handle?_step, Step.onHandle]
      by_cases isSubject : step.subject? = some id
      · rw [if_pos isSubject, List.filter_cons, if_pos (decide_eq_true isSubject),
          List.getLast?_cons, Option.isSome_map]
        cases (rest.filter fun step => step.subject? = some id).getLast? <;> rfl
      · rw [if_neg isSubject, List.filter_cons, if_neg (by simpa using isSubject)]

theorem handle?_run_start (clock : Nat → Moment) (host : String) (port : UInt16)
    (steps : List Step) (id : ConnectionId) :
    ((start host port).run clock steps).2.hub.registry.handle? id =
      (start host port).enrolled? clock id steps := by
  rw [handle?_run, enrolled?]
  cases ((start host port).effective clock id steps).getLast? with
  | none => rfl
  | some step => rfl

/-- After any run, those who take part are the connections whose last effective step was
their registration, each with what it was registered with then. A registration tells the
figures as they are after it, to a hook as well as to the caller, and lets the hook run
once if it is effective, and not at all otherwise. -/
theorem run_refines_set (clock : Nat → Moment) (host : String) (port : UInt16)
    (steps : List Step) :
    let fresh := start host port
    let exchange := (fresh.run clock steps).2
    let hub := exchange.hub
    let registry := hub.registry
    let enrolled? := fun id => fresh.enrolled? clock id steps
    (∀ id, registry.contains id = (enrolled? id).isSome ∧
      registry.contains id = (steps.filter fun step => step.subject? = some id).getLast?.any
        fun step => step.newcomer?.isSome) ∧
    (∀ connection, registry.members.count connection =
      if enrolled? connection.id = some connection then 1 else 0) ∧
    registry.size = {id | (enrolled? id).isSome}.ncard ∧
    (registry.isEmpty = true ↔ ∀ id, enrolled? id = none) ∧
    (∀ address, registry.members.countP (fun member => member.address = address) =
      {id | ∃ connection, enrolled? id = some connection ∧
        connection.address = address}.ncard) ∧
    (∀ connection,
      let present := registry.contains connection.id
      let joined := registry.register connection
      let snapshot : Snapshot := ⟨.ofNat joined.size, registry.messageCount⟩
      (if present then joined = registry else joined.members = registry.members ++ [connection]) ∧
      (∀ (State : Type) (hook : Connection → Snapshot → State → State) (state : State),
        registry.registerWith hook connection state =
          (snapshot, joined, if present then state else hook connection snapshot state)) ∧
      exchange.step clock (.register connection) =
        (.snapshot snapshot, { exchange with hub := { hub with registry := joined } }) ∧
      exchange.step clock (.registerWelcomed connection) =
        (.welcomed
          (if present then none else some (snapshot, hub.mailboxes.accepts connection.id))
          snapshot,
        { exchange with
          hub :=
            { hub with
              registry := joined
              mailboxes :=
                if present then hub.mailboxes
                else greet (clock exchange.now) hub connection snapshot hub.mailboxes } })) ∧
    (∀ id,
      let left := exchange.step clock (.unregister id)
      left.1 = .flag (registry.contains id) ∧
      left.2.hub.mailboxes = hub.mailboxes ∧
      left.2.hub.registry.messageCount = registry.messageCount ∧
      (∀ connection, connection ∈ left.2.hub.registry.members ↔
        connection ∈ registry.members ∧ connection.id ≠ id) ∧
      (if registry.contains id then left.2 ≠ exchange else left.2 = exchange) ∧
      left.2.step clock (.unregister id) = (.flag false, left.2)) := by
  intro fresh exchange hub registry enrolled?
  have handle (id : ConnectionId) : registry.handle? id = enrolled? id :=
    handle?_run_start clock host port steps id
  have contains (id : ConnectionId) : registry.contains id = (enrolled? id).isSome := by
    rw [Registry.contains_eq, handle]
  refine ⟨fun id => ⟨contains id, ?_⟩, ?_, ?_, ?_, ?_, ?_, ?_⟩
  · rw [Registry.contains_eq, isSome_handle?_run]
    cases (steps.filter fun step => step.subject? = some id).getLast? <;> rfl
  · intro connection
    simp only [registry.nodup_members.count, Registry.mem_members_iff, handle]
  · have everybody := registry.countP_members fun _ => true
    simp only [handle, and_true, ← Option.isSome_iff_exists] at everybody
    rw [← everybody, List.countP_true]
    rfl
  · simp only [Registry.isEmpty_iff, handle]
  · intro address
    have there := registry.countP_members fun member => member.address = address
    simpa only [handle, decide_eq_true_eq] using there
  · intro connection present joined snapshot
    have figures : joined.snapshot = snapshot :=
      congrArg (Snapshot.mk _) (registry.messageCount_register connection)
    refine ⟨?_, ?_, ?_, ?_⟩
    · split
      · rename_i isPresent
        exact Registry.register_of_contains isPresent
      · rename_i isAbsent
        exact Registry.members_register_of_absent (Bool.eq_false_iff.mpr isAbsent)
    · intro State hook state
      rw [Registry.registerWith_eq, figures]
    · rw [step_register_eq, Registry.registerWith_eq, figures]
    · rw [step_registerWelcomed_eq, Registry.registerWith_eq, figures]
  · intro id left
    have gone := Registry.contains_unregister_self id registry
    refine ⟨rfl, rfl, rfl, ?_, ?_, ?_⟩
    · intro connection
      exact List.mem_filter.trans (and_congr_right fun _ => decide_eq_true_iff)
    · split
      · rename_i isPresent
        intro unchanged
        have stays : registry.unregister id = registry :=
          congrArg (fun exchange => exchange.hub.registry) unchanged
        rw [stays, isPresent] at gone
        cases gone
      · rename_i isAbsent
        exact congrArg (fun registry => ({ exchange with hub := { hub with registry } } : Exchange))
          (Registry.unregister_of_absent (Bool.eq_false_iff.mpr isAbsent))
    · have again : left.2.step clock (.unregister id) =
          (.flag ((registry.unregister id).contains id),
            { exchange with
              hub := { hub with registry := (registry.unregister id).unregister id } }) := rfl
      rw [again, gone, Registry.unregister_of_absent gone]
      rfl

end Exchange

end Relay
