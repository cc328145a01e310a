import Relay.Proofs.Registry
import Relay.Proofs.Threads.Turns

namespace Relay

/-! The greeting comes first. A copy of the registry can be delivered to long after it was
made, so it is not enough that a connection is greeted before it is registered: nobody may
have a copy that it is on already. A connection that has not been registered is on no copy,
which is `Threads.IsStranger`. Main statement: whatever the threads do, the first frame
that is ever queued for a connection is its greeting, unless somebody has written to the
connection directly. -/

/-! ## One task -/

namespace Task

def registers (id : ConnectionId) : Task → Bool
  | .call (.register connection) | .call (.registerWelcomed connection) => connection.id = id
  | _ => false

/-- Whether a task writes to the connection of a name, and not because the connection is
on a copy of the registry. -/
def writesTo (id : ConnectionId) : Task → Bool
  | .call (.send other _) | .call (.deliverTo other _) => other = id
  | .reply sender _ => sender.id = id
  | _ => false

def lists (id : ConnectionId) : Task → Bool
  | .deliver left _ => id ∈ left
  | _ => false

section Turns

variable {id : ConnectionId} (moment : Moment) (choice : Nat) (task : Task) (hub : Hub)

theorem registry_perform :
    (task.perform moment choice hub).2.registry =
      match task with
      | .call (.register connection) | .call (.registerWelcomed connection) =>
          hub.registry.register connection
      | .call (.unregister other) => hub.registry.unregister other
      | .call .recordMessage | .call (.route _ _) | .call (.dispatch _ _) =>
          hub.registry.recordMessage
      | _ => hub.registry := by
  cases task with
  | call step =>
      cases step with
      | registerWelcomed connection => exact hub.registry_registerWelcomed moment connection
      | route sender message =>
          simp only [perform]
          split <;> rfl
      | dispatch sender message =>
          simp only [perform]
          split <;> rfl
      | _ => rfl
  | answer sender count request => cases request <;> rfl
  | deliver left envelope =>
      simp only [perform]
      split <;> rfl
  | _ => rfl

theorem contains_perform :
    (task.perform moment choice hub).2.registry.contains id =
      (task.registers id ||
        (hub.registry.contains id && task ≠ .call (.unregister id))) := by
  rw [registry_perform]
  split
  · rename_i connection
    simpa [registers] using hub.registry.contains_register connection
  · rename_i connection
    simpa [registers] using hub.registry.contains_register connection
  · rename_i other
    simpa [registers] using hub.registry.contains_unregister other
  · simp [registers, Registry.recordMessage, Registry.contains]
  · simp [registers, Registry.recordMessage, Registry.contains]
  · simp [registers, Registry.recordMessage, Registry.contains]
  · rename_i notRegister notWelcomed notUnregister _ _ _
    have registersNobody : task.registers id = false := by
      unfold registers
      split
      · exact absurd rfl (notRegister _)
      · exact absurd rfl (notWelcomed _)
      · rfl
    have notThis : task ≠ .call (.unregister id) := notUnregister id
    simp [registersNobody, notThis]

variable {moment choice task hub}

theorem lists_perform (absent : hub.registry.contains id = false)
    (unlisted : task.lists id = false) :
    (task.perform moment choice hub).1.any (lists id) = false := by
  have notCopied (envelope : Envelope) (exclude : Option ConnectionId) :
      [copy envelope exclude hub].any (lists id) = false := by
    rw [List.any_cons, List.any_nil, Bool.or_false, copy, lists, decide_eq_false_iff_not,
      Mailboxes.mem_addressees, ← Registry.contains_iff, absent]
    simp
  cases task with
  | call step =>
      cases step with
      | broadcast payload sender => exact notCopied _ _
      | fanOut envelope exclude => exact notCopied envelope exclude
      | route sender message =>
          simp only [perform]
          split <;> rfl
      | dispatch sender message =>
          simp only [perform]
          split <;> rfl
      | emit =>
          simp only [perform]
          split <;> rfl
      | _ => rfl
  | answer sender count request => cases request <;> rfl
  | deliver left envelope =>
      have notLeft : id ∉ left := of_decide_eq_false unlisted
      simp only [perform]
      split
      · have notBehind : id ∉ left.eraseIdx choice := fun member =>
          notLeft (List.mem_of_mem_eraseIdx member)
        simp [lists, notBehind]
      · split
        · rfl
        · simp [lists, notLeft]
  | _ => rfl

/-- Nothing is queued for somebody who is neither registered in a turn nor written to nor
on a copy. -/
theorem queued_perform (unlisted : task.lists id = false)
    (unregistered : task.registers id = false) (unwritten : task.writesTo id = false)
    (nothing : (hub.mailboxes.get id).queued = []) :
    ((task.perform moment choice hub).2.mailboxes.get id).queued = [] := by
  have posted {other : ConnectionId} (different : other ≠ id) (frame : Frame) :
      ((hub.mailboxes.post other frame).get id).queued = [] := by
    rw [Mailboxes.get_post_other (Ne.symm different)]
    exact nothing
  cases task with
  | call step =>
      cases step with
      | openConnection address =>
          change (hub.mailboxes.add.get id).queued = []
          by_cases isFresh : id = hub.mailboxes.fresh
          · rw [isFresh, Mailboxes.get_add_fresh]
            rfl
          · rw [Mailboxes.get_add_other isFresh]
            exact nothing
      | registerWelcomed connection =>
          have different : connection.id ≠ id := of_decide_eq_false unregistered
          change ((hub.registerWelcomed moment connection).mailboxes.get id).queued = []
          rw [Hub.get_registerWelcomed, Hub.greetingFor, if_neg fun greeted => different greeted.1]
          exact nothing
      | close other =>
          change ((hub.mailboxes.close other).get id).queued = []
          rw [Mailboxes.close, Mailboxes.get_modify _ rfl]
          split
          · rfl
          · exact nothing
      | receive other =>
          change ((hub.mailboxes.clear other).get id).queued = []
          rw [Mailboxes.clear, Mailboxes.get_modify _ rfl]
          split
          · rfl
          · exact nothing
      | send other frame => exact posted (of_decide_eq_false unwritten) frame
      | deliverTo other envelope => exact posted (of_decide_eq_false unwritten) _
      | route sender message =>
          simp only [perform]
          split <;> exact nothing
      | dispatch sender message =>
          simp only [perform]
          split <;> exact nothing
      | _ => exact nothing
  | answer sender count request => cases request <;> exact nothing
  | reply sender envelope => exact posted (of_decide_eq_false unwritten) _
  | deliver left envelope =>
      have notLeft : id ∉ left := of_decide_eq_false unlisted
      simp only [perform]
      split
      · rename_i chosen isChosen
        have different : chosen ≠ id := fun same =>
          notLeft (same ▸ List.mem_of_getElem? isChosen)
        exact posted different _
      · exact nothing
  | _ => exact nothing

end Turns

end Task

/-! ## Runs -/

namespace Threads

def performed : List Turn → Threads → List Task
  | [], _ => []
  | turn :: rest, threads => (threads.task? turn).toList ++ performed rest (threads.step turn)

def queued (id : ConnectionId) (threads : Threads) : List Frame :=
  (threads.hub.mailboxes.get id).queued

def accepted (id : ConnectionId) : List Turn → Threads → List Frame
  | [], _ => []
  | turn :: rest, threads =>
      ((threads.step turn).queued id).drop (threads.queued id).length ++
        accepted id rest (threads.step turn)

theorem accepted_append (id : ConnectionId) (before after : List Turn) (threads : Threads) :
    threads.accepted id (before ++ after) =
      threads.accepted id before ++ (threads.run before).accepted id after := by
  induction before generalizing threads with
  | nil => rfl
  | cons turn before induction =>
      rw [List.cons_append, accepted, accepted, induction, List.append_assoc]
      rfl

theorem step_cases (turn : Turn) (threads : Threads) :
    (threads.task? turn = none ∧ (threads.step turn).hub = threads.hub ∧
      ∀ tasks ∈ (threads.step turn).tasks, tasks ∈ threads.tasks ∨
        ∃ step, tasks = [.call step]) ∨
    ∃ moment choice task rest, threads.task? turn = some task ∧
      (task :: rest) ∈ threads.tasks ∧
      (threads.step turn).hub = (task.perform moment choice threads.hub).2 ∧
      ∀ tasks ∈ (threads.step turn).tasks, tasks ∈ threads.tasks ∨
        tasks = (task.perform moment choice threads.hub).1 ++ rest := by
  cases turn with
  | begin step =>
      refine .inl ⟨rfl, rfl, ?_⟩
      intro tasks member
      rcases List.mem_append.mp member with isOld | isNew
      · exact .inl isOld
      · exact .inr ⟨step, List.mem_singleton.mp isNew⟩
  | work thread moment choice =>
      cases found : threads.tasks[thread]? with
      | none =>
          refine .inl ⟨by simp [task?, found], by simp [step, found], ?_⟩
          intro tasks member
          simp only [step, found] at member
          exact .inl member
      | some tasks =>
          cases tasks with
          | nil =>
              refine .inl ⟨by simp [task?, found], by simp [step, found], ?_⟩
              intro tasks member
              simp only [step, found] at member
              exact .inl member
          | cons task rest =>
              refine .inr ⟨moment, choice, task, rest, by simp [task?, found],
                List.mem_of_getElem? found, by rw [step_work found], ?_⟩
              intro tasks member
              rw [step_work found] at member
              exact List.mem_or_eq_of_mem_set member

/-! ## Before the greeting -/

/-- A connection that has not been registered and not been written to. It is on no copy of
the registry. -/
structure IsStranger (id : ConnectionId) (threads : Threads) : Prop where
  absent : threads.hub.registry.contains id = false
  unlisted : ∀ tasks ∈ threads.tasks, tasks.any (Task.lists id) = false
  nothing : threads.queued id = []

theorem isStranger_start (id : ConnectionId) (host : String) (port : UInt16) :
    (start host port).IsStranger id where
  absent := rfl
  unlisted := by
    intro tasks member
    cases member
  nothing := by
    have unmade : Mailboxes.empty.get id = .closed :=
      Mailboxes.get_of_unmade (Nat.zero_le id.number)
    exact congrArg Mailbox.queued unmade

namespace IsStranger

variable {id : ConnectionId} {threads : Threads}

theorem step (stranger : threads.IsStranger id) (turn : Turn)
    (spared : ∀ task, threads.task? turn = some task →
      task.registers id = false ∧ task.writesTo id = false) :
    (threads.step turn).IsStranger id := by
  rcases threads.step_cases turn with
    ⟨_, sameHub, remaining⟩ | ⟨moment, choice, task, rest, isNext, isTask, nextHub, remaining⟩
  · refine ⟨by rw [sameHub]; exact stranger.absent, ?_, by
      rw [queued, sameHub]; exact stranger.nothing⟩
    intro tasks member
    rcases remaining tasks member with isOld | ⟨step, isNew⟩
    · exact stranger.unlisted tasks isOld
    · rw [isNew]
      rfl
  · rcases spared task isNext with ⟨unregistered, unwritten⟩
    -- The copies that are out do not list the stranger, and a new one lists only members.
    have unlisted := stranger.unlisted _ isTask
    rw [List.any_cons, Bool.or_eq_false_iff] at unlisted
    refine ⟨?_, ?_, ?_⟩
    · rw [nextHub, Task.contains_perform, unregistered, stranger.absent]
      rfl
    · intro tasks member
      rcases remaining tasks member with isOld | isNew
      · exact stranger.unlisted tasks isOld
      · rw [isNew, List.any_append, Task.lists_perform stranger.absent unlisted.1, unlisted.2]
        rfl
    · rw [queued, nextHub]
      exact Task.queued_perform unlisted.1 unregistered unwritten stranger.nothing

theorem run (stranger : threads.IsStranger id) {turns : List Turn}
    (spared : ∀ task ∈ threads.performed turns,
      task.registers id = false ∧ task.writesTo id = false) :
    (threads.run turns).IsStranger id ∧ threads.accepted id turns = [] := by
  induction turns generalizing threads with
  | nil => exact ⟨stranger, rfl⟩
  | cons turn turns induction =>
      have next := stranger.step turn fun task isTask =>
        spared task (List.mem_append_left _ (Option.mem_toList.mpr isTask))
      rcases induction next fun task isTask => spared task (List.mem_append_right _ isTask)
        with ⟨stays, none⟩
      refine ⟨stays, ?_⟩
      rw [accepted, none, next.nothing, List.drop_nil]
      rfl

end IsStranger

/-! ## From the greeting on -/

theorem contains_run {id : ConnectionId} {threads : Threads} {turns : List Turn}
    (registered : threads.hub.registry.contains id = true)
    (stays : .call (.unregister id) ∉ threads.performed turns) :
    (threads.run turns).hub.registry.contains id = true := by
  induction turns generalizing threads with
  | nil => exact registered
  | cons turn turns induction =>
      rw [performed, List.mem_append, not_or] at stays
      apply induction _ stays.2
      rcases threads.step_cases turn with
        ⟨_, sameHub, _⟩ | ⟨moment, choice, task, _, isNext, _, nextHub, _⟩
      · rw [sameHub]
        exact registered
      · have notThis : task ≠ .call (.unregister id) := fun same =>
          stays.1 (Option.mem_toList.mpr (same ▸ isNext))
        rw [nextHub, Task.contains_perform, registered]
        simp [notThis]

theorem step_of_contains {threads : Threads} {connection : Connection}
    (registered : threads.hub.registry.contains connection.id = true) {turn : Turn}
    (isNext : threads.task? turn = some (.call (.registerWelcomed connection))) :
    (threads.step turn).hub = threads.hub := by
  rcases threads.step_cases turn with
    ⟨_, sameHub, _⟩ | ⟨moment, choice, task, _, isTask, _, nextHub, _⟩
  · exact sameHub
  · rw [isNext, Option.some.injEq] at isTask
    rw [nextHub, ← isTask]
    exact Hub.registerWelcomed_of_contains registered moment

theorem hub_step_of_task? {threads : Threads} {thread choice : Nat} {moment : Moment}
    {task : Task} (isNext : threads.task? (.work thread moment choice) = some task) :
    (threads.step (.work thread moment choice)).hub =
      (task.perform moment choice threads.hub).2 := by
  rcases Option.bind_eq_some_iff.mp isNext with ⟨tasks, found, isHead⟩
  rcases List.head?_eq_some_iff.mp isHead with ⟨rest, sameTasks⟩
  rw [sameTasks] at found
  rw [step_work found]

theorem queued_greeting {hub : Hub} {connection : Connection}
    (absent : hub.registry.contains connection.id = false)
    (isOpen : hub.mailboxes.accepts connection.id = true)
    (nothing : (hub.mailboxes.get connection.id).queued = []) (moment : Moment) :
    ((hub.registerWelcomed moment connection).mailboxes.get connection.id).queued =
      [.ofEnvelope (.welcome Hub.welcomeMessage ⟨hub.host, hub.port, moment.uptime,
        .ofNat (hub.registerWelcomed moment connection).registry.size⟩ moment.timestamp)] := by
  have grown : (hub.registerWelcomed moment connection).registry.size =
      hub.registry.size + 1 := by
    rw [Hub.registry_registerWelcomed, Registry.size,
      Registry.members_register_of_absent absent, List.length_append]
    rfl
  have isAccepting : (hub.mailboxes.get connection.id).isOpen = true := isOpen
  rw [grown, Hub.get_registerWelcomed, Hub.greetingFor, if_pos ⟨rfl, absent⟩,
    Mailbox.queued_postAll, nothing, isAccepting]
  rfl

/-- Whatever the threads do, a connection is greeted before anything else is queued for it,
if it is first registered with a greeting and has not been written to directly. As long as
it is registered it is not greeted again. -/
theorem run_greets_first (host : String) (port : UInt16) (before after : List Turn)
    (thread choice : Nat) (moment : Moment) (connection : Connection) :
    let fresh := start host port
    let opened := fresh.run before
    let turn := Turn.work thread moment choice
    let greeted := opened.step turn
    let id := connection.id
    opened.task? turn = some (.call (.registerWelcomed connection)) →
    opened.hub.mailboxes.accepts id = true →
    (∀ task ∈ fresh.performed before, task.registers id = false ∧ task.writesTo id = false) →
    let welcome : Envelope := .welcome Hub.welcomeMessage
      ⟨opened.hub.host, opened.hub.port, moment.uptime, .ofNat greeted.hub.registry.size⟩
      moment.timestamp
    greeted.hub.registry.contains id = true ∧
    greeted.queued id = [.ofEnvelope welcome] ∧
    (∃ later, fresh.accepted id (before ++ turn :: after) = .ofEnvelope welcome :: later) ∧
    (.call (.unregister id) ∉ greeted.performed after →
      ∀ next other, other.id = id →
        (greeted.run after).task? next = some (.call (.registerWelcomed other)) →
        ((greeted.run after).step next).hub = (greeted.run after).hub) := by
  intro fresh opened turn greeted id isNext isOpen spared welcome
  rcases (isStranger_start id host port).run spared with ⟨stranger, none⟩
  have nextHub : greeted.hub = opened.hub.registerWelcomed moment connection :=
    hub_step_of_task? isNext
  have registered : greeted.hub.registry.contains id = true := by
    rw [nextHub, Hub.registry_registerWelcomed, Registry.contains_register]
    simp [id]
  have queue : greeted.queued id = [.ofEnvelope welcome] := by
    have greeting := queued_greeting stranger.absent isOpen stranger.nothing moment
    rw [← nextHub] at greeting
    exact greeting
  refine ⟨registered, queue, ?_, ?_⟩
  · have nothing : opened.queued id = [] := stranger.nothing
    refine ⟨greeted.accepted id after, ?_⟩
    rw [accepted_append, none, List.nil_append, accepted]
    change (greeted.queued id).drop (opened.queued id).length ++ _ = _
    rw [queue, nothing]
    rfl
  · intro stays next other sameName isGreeting
    have remains : (greeted.run after).hub.registry.contains other.id = true := by
      rw [sameName]
      exact contains_run registered stays
    exact step_of_contains remains isGreeting

/-- A copy that was made before a connection is registered is delivered to afterwards, and
so is one that was made later. -/
theorem run_greets_first_beside_copies :
    let first : Connection := ⟨⟨0⟩, .v4 127 0 0 1 5000⟩
    let second : Connection := ⟨⟨1⟩, .v4 127 0 0 1 5001⟩
    let moment : Moment := ⟨"now", Double.zero⟩
    let before : List Turn :=
      [.begin (.openConnection first.address), .work 0 moment 0,
        .begin (.openConnection second.address), .work 1 moment 0,
        .begin (.register first), .work 2 moment 0,
        .begin (.broadcast .null none), .work 3 moment 0,
        .begin (.registerWelcomed second)]
    let after : List Turn :=
      [.work 3 moment 0, .begin (.broadcast .null none), .work 5 moment 0,
        .work 5 moment 1, .begin (.registerWelcomed second), .work 6 moment 0]
    let accepted := (start "localhost" 3004).accepted second.id
      (before ++ .work 4 moment 0 :: after)
    accepted.length = 2 ∧ ∃ later, accepted =
      .ofEnvelope (.welcome Hub.welcomeMessage ⟨"localhost", 3004, Double.zero, 2⟩ "now") ::
        later := by
  intro first second moment before after accepted
  have isHost : ((start "localhost" 3004).run before).hub.host = "localhost" := by
    decide +kernel
  have isPort : ((start "localhost" 3004).run before).hub.port = 3004 := by decide +kernel
  have isSize : (((start "localhost" 3004).run before).step
      (.work 4 moment 0)).hub.registry.size = 2 := by decide +kernel
  rcases run_greets_first "localhost" 3004 before after 4 0 moment second
    (by decide +kernel) (by decide +kernel) (by decide +kernel) with ⟨_, _, greeting, _⟩
  rw [isHost, isPort, isSize] at greeting
  exact ⟨by decide +kernel, greeting⟩

end Threads

end Relay
