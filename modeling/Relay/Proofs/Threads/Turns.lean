import Mathlib.Data.List.Perm.Basic
import Relay.Proofs.Hub.Posting

namespace Relay

/-! Threads that share a hub. A thread works on its tasks in turns, and between two turns
of one thread any other threads may have theirs. What the registry does under its lock is
done in one turn. A message for many is not: one turn makes a copy of the registry, and
each delivery to somebody on the copy is a turn of its own. Main statement: a thread that
is not interrupted does what the hub does in one step. -/

inductive Task where
  | call (step : Step)
  /-- Answers a message that has been counted. -/
  | answer (sender : Connection) (count : UInt64) (request : Request)
  | confirm (sender : Connection)
  | reply (sender : Connection) (envelope : Envelope)
  /-- Sends everybody the current figures. -/
  | update
  /-- Delivers an envelope to whoever is left on a copy of the registry. -/
  | deliver (left : List ConnectionId) (envelope : Envelope)
  deriving DecidableEq, Repr

namespace Task

def copy (envelope : Envelope) (exclude : Option ConnectionId) (hub : Hub) : Task :=
  .deliver (Mailboxes.addressees exclude hub.registry.members) envelope

def confirmation (moment : Moment) (hub : Hub) : Envelope :=
  .broadcastConfirm Hub.confirmation hub.othersCount moment.timestamp

/-- One turn: the tasks that are left of a task, and the hub after it. A copy of the
registry has no order, so it is a choice who comes next; a choice that is out of range
does nothing. -/
def perform (moment : Moment) (choice : Nat) (task : Task) (hub : Hub) : List Task × Hub :=
  match task with
  | .call (.route sender message) =>
      let hub := hub.recordMessage
      match message.request with
      | .ok (.broadcast payload) => ([.call (.broadcast payload (some sender))], hub)
      | _ => ([], hub)
  | .call (.dispatch sender message) =>
      let hub := hub.recordMessage
      match message.request with
      | .ok request => ([.answer sender hub.registry.messageCount request], hub)
      | .error error => ([.reply sender (Hub.refusal moment error)], hub)
  | .call (.broadcast payload sender) =>
      let envelope := hub.broadcastEnvelope moment payload sender
      ([copy envelope (sender.map Connection.id) hub], hub)
  | .call (.fanOut envelope exclude) => ([copy envelope exclude hub], hub)
  | .call .emit => (if hub.registry.isEmpty then [] else [.update], hub)
  | .call step => ([], (Exchange.hubStep moment step hub).2)
  | .answer sender _ (.broadcast payload) =>
      ([.call (.broadcast payload (some sender)), .confirm sender], hub)
  | .answer sender count request =>
      ([.reply sender (hub.respond moment sender count request).1], hub)
  | .confirm sender => ([.reply sender (confirmation moment hub)], hub)
  | .reply sender envelope => ([], hub.postEnvelope sender.id envelope)
  | .update => ([.call (.fanOut (hub.heartbeatEnvelope moment) none)], hub)
  | .deliver left envelope =>
      match left[choice]? with
      | some id => ([.deliver (left.eraseIdx choice) envelope], hub.postEnvelope id envelope)
      | none => (if left.isEmpty then [] else [.deliver left envelope], hub)

def whole (moment : Moment) (task : Task) (hub : Hub) : Hub :=
  match task with
  | .call step => (Exchange.hubStep moment step hub).2
  | .answer sender count request =>
      let (envelope, hub) := hub.respond moment sender count request
      hub.postEnvelope sender.id envelope
  | .confirm sender => hub.postEnvelope sender.id (confirmation moment hub)
  | .reply sender envelope => hub.postEnvelope sender.id envelope
  | .update => (hub.fanOut (hub.heartbeatEnvelope moment) none).2
  | .deliver left envelope =>
      left.foldl (fun hub id => hub.postEnvelope id envelope) hub

def wholeAll (moment : Moment) (tasks : List Task) (hub : Hub) : Hub :=
  tasks.foldl (fun hub task => task.whole moment hub) hub

end Task

structure Threads where
  hub : Hub
  tasks : List (List Task)
  deriving DecidableEq, Repr

inductive Turn where
  | begin (step : Step)
  | work (thread : Nat) (moment : Moment) (choice : Nat)
  deriving DecidableEq, Repr

namespace Threads

def start (host : String) (port : UInt16) : Threads := ⟨.start host port, []⟩

def task? (turn : Turn) (threads : Threads) : Option Task :=
  match turn with
  | .begin _ => none
  | .work thread _ _ => threads.tasks[thread]?.bind List.head?

def step (turn : Turn) (threads : Threads) : Threads :=
  match turn with
  | .begin step => { threads with tasks := threads.tasks ++ [[.call step]] }
  | .work thread moment choice =>
      match threads.tasks[thread]? with
      | some (task :: rest) =>
          let (more, hub) := task.perform moment choice threads.hub
          ⟨hub, threads.tasks.set thread (more ++ rest)⟩
      | _ => threads

def run (turns : List Turn) (threads : Threads) : Threads :=
  turns.foldl (fun threads turn => threads.step turn) threads

end Threads

/-! ## Tasks -/

namespace Mailboxes

theorem post_comm (first second : ConnectionId) (frame : Frame) (mailboxes : Mailboxes) :
    (mailboxes.post first frame).post second frame =
      (mailboxes.post second frame).post first frame := by
  by_cases same : first = second
  · rw [same]
  · have different : first.number ≠ second.number := by
      intro equal
      cases first
      cases second
      exact same (congrArg ConnectionId.mk equal)
    unfold post modify
    congr 1
    apply List.ext_getElem?
    intro position
    simp only [List.getElem?_modify]
    by_cases isFirst : first.number = position
    · have notSecond : second.number ≠ position := fun isSecond =>
        different (isFirst.trans isSecond.symm)
      simp [isFirst, notSecond]
    · simp [isFirst]

end Mailboxes

namespace Task

variable {moment : Moment}

theorem whole_deliver (left : List ConnectionId) (envelope : Envelope) (hub : Hub) :
    whole moment (.deliver left envelope) hub =
      { hub with
        mailboxes := left.foldl (fun mailboxes id => mailboxes.post id (.ofEnvelope envelope))
          hub.mailboxes } := by
  change left.foldl _ hub = _
  induction left generalizing hub with
  | nil => rfl
  | cons id left induction =>
      rw [List.foldl_cons, induction]
      rfl

/-- The rest of a copy can be gone through in any order. -/
theorem whole_deliver_of_perm {left other : List ConnectionId} (isPerm : left.Perm other)
    (envelope : Envelope) (hub : Hub) :
    whole moment (.deliver left envelope) hub = whole moment (.deliver other envelope) hub := by
  rw [whole_deliver, whole_deliver]
  congr 1
  apply isPerm.foldl_eq'
  intro first _ second _ mailboxes
  exact Mailboxes.post_comm first second _ mailboxes

theorem whole_copy (moment : Moment) (envelope : Envelope) (exclude : Option ConnectionId)
    (hub : Hub) :
    (copy envelope exclude hub).whole moment hub = (hub.fanOut envelope exclude).2 :=
  whole_deliver _ _ _

theorem wholeAll_perform (choice : Nat) (task : Task) (hub : Hub) :
    wholeAll moment (task.perform moment choice hub).1 (task.perform moment choice hub).2 =
      task.whole moment hub := by
  cases task with
  | call step =>
      cases step with
      | route sender message =>
          simp only [perform, whole, Exchange.hubStep, Hub.route]
          cases message.request with
          | error error => rfl
          | ok request =>
              cases request with
              | broadcast payload => rfl
              | _ => rfl
      | dispatch sender message =>
          simp only [perform, whole, Exchange.hubStep, Hub.dispatch, Hub.route]
          cases message.request with
          | error error => rfl
          | ok request => cases request <;> rfl
      | broadcast payload sender => exact whole_copy moment _ _ hub
      | fanOut envelope exclude => exact whole_copy moment envelope exclude hub
      | emit =>
          simp only [perform, whole, Exchange.hubStep, Hub.emit]
          split <;> rfl
      | _ => rfl
  | answer sender count request =>
      cases request with
      | broadcast payload => rfl
      | _ => rfl
  | confirm sender => rfl
  | reply sender envelope => rfl
  | update => rfl
  | deliver left envelope =>
      simp only [perform]
      cases chosen : left[choice]? with
      | none =>
          cases left with
          | nil => rfl
          | cons first rest => rfl
      | some id =>
          rcases List.getElem?_eq_some_iff.mp chosen with ⟨inRange, isId⟩
          have isPerm := List.getElem_cons_eraseIdx_perm inRange
          rw [isId] at isPerm
          exact whole_deliver_of_perm isPerm envelope hub

end Task

/-! ## A thread that is alone -/

namespace Threads

theorem step_work {thread : Nat} {threads : Threads} {task : Task} {rest : List Task}
    (isNext : threads.tasks[thread]? = some (task :: rest)) (moment : Moment)
    (choice : Nat) :
    threads.step (.work thread moment choice) =
      ⟨(task.perform moment choice threads.hub).2,
        threads.tasks.set thread
          ((task.perform moment choice threads.hub).1 ++ rest)⟩ := by
  simp only [step, isNext]

def Completes (moment : Moment) (task : Task) : Prop :=
  ∀ (threads : Threads) (thread : Nat) (rest : List Task),
    threads.tasks[thread]? = some (task :: rest) →
    ∃ count, threads.run (List.replicate count (.work thread moment 0)) =
      ⟨task.whole moment threads.hub, threads.tasks.set thread rest⟩

section Alone

variable {moment : Moment}

theorem exists_run_all {tasks : List Task} (complete : ∀ task ∈ tasks, Completes moment task)
    (threads : Threads) {thread : Nat} {rest : List Task}
    (areNext : threads.tasks[thread]? = some (tasks ++ rest)) :
    ∃ count, threads.run (List.replicate count (.work thread moment 0)) =
      ⟨Task.wholeAll moment tasks threads.hub, threads.tasks.set thread rest⟩ := by
  induction tasks generalizing threads with
  | nil =>
      refine ⟨0, ?_⟩
      rcases List.getElem?_eq_some_iff.mp areNext with ⟨inRange, isRest⟩
      rw [List.nil_append] at isRest
      rw [← isRest, List.set_getElem_self]
      rfl
  | cons task tasks induction =>
      rcases complete task List.mem_cons_self threads thread (tasks ++ rest) areNext
        with ⟨first, afterFirst⟩
      have inRange : thread < threads.tasks.length :=
        (List.getElem?_eq_some_iff.mp areNext).1
      rcases induction (fun other member => complete other (List.mem_cons_of_mem task member))
        ⟨task.whole moment threads.hub, threads.tasks.set thread (tasks ++ rest)⟩
        (List.getElem?_set_self inRange) with ⟨others, afterOthers⟩
      refine ⟨first + others, ?_⟩
      rw [← List.replicate_append_replicate, run, List.foldl_append]
      change run _ (run _ threads) = _
      rw [afterFirst, afterOthers, List.set_set]
      rfl

theorem completes_of_perform {task : Task}
    (complete : ∀ hub, ∀ other ∈ (task.perform moment 0 hub).1, Completes moment other) :
    Completes moment task := by
  intro threads thread rest isNext
  have inRange : thread < threads.tasks.length := (List.getElem?_eq_some_iff.mp isNext).1
  have areNext : (threads.step (.work thread moment 0)).tasks[thread]? =
      some ((task.perform moment 0 threads.hub).1 ++ rest) := by
    rw [step_work isNext]
    exact List.getElem?_set_self inRange
  rcases exists_run_all (complete threads.hub) _ areNext with ⟨count, after⟩
  refine ⟨count + 1, ?_⟩
  change (threads.step _).run (List.replicate count _) = _
  rw [after, step_work isNext, Task.wholeAll_perform, List.set_set]

theorem completes_of_done {task : Task}
    (done : ∀ hub, (task.perform moment 0 hub).1 = []) : Completes moment task := by
  apply completes_of_perform
  intro hub other member
  rw [done] at member
  cases member

theorem completes_of_one {task : Task} {next : Hub → Task}
    (one : ∀ hub, (task.perform moment 0 hub).1 = [next hub])
    (complete : ∀ hub, Completes moment (next hub)) : Completes moment task := by
  apply completes_of_perform
  intro hub other member
  rw [one, List.mem_singleton] at member
  rw [member]
  exact complete hub

-- The tasks that are left of a task belong to a later stage than the task itself, so the
-- last stage comes first here.

theorem completes_reply (sender : Connection) (envelope : Envelope) :
    Completes moment (.reply sender envelope) := completes_of_done fun _ => rfl

theorem completes_deliver (left : List ConnectionId) (envelope : Envelope) :
    Completes moment (.deliver left envelope) := by
  induction left with
  | nil => exact completes_of_done fun _ => rfl
  | cons first rest induction => exact completes_of_one (fun _ => rfl) fun _ => induction

theorem completes_fanOut (envelope : Envelope) (exclude : Option ConnectionId) :
    Completes moment (.call (.fanOut envelope exclude)) :=
  completes_of_one (fun _ => rfl) fun _ => completes_deliver _ envelope

theorem completes_broadcast (payload : Json) (sender : Option Connection) :
    Completes moment (.call (.broadcast payload sender)) :=
  completes_of_one (fun _ => rfl) fun _ => completes_deliver _ _

theorem completes_confirm (sender : Connection) : Completes moment (.confirm sender) :=
  completes_of_one (fun _ => rfl) fun _ => completes_reply sender _

theorem completes_answer (sender : Connection) (count : UInt64) (request : Request) :
    Completes moment (.answer sender count request) := by
  cases request with
  | broadcast payload =>
      apply completes_of_perform
      intro hub other member
      rcases List.mem_cons.mp member with isBroadcast | isConfirm
      · rw [isBroadcast]
        exact completes_broadcast payload (some sender)
      · rw [List.mem_singleton.mp isConfirm]
        exact completes_confirm sender
  | _ => exact completes_of_one (fun _ => rfl) fun _ => completes_reply sender _

theorem completes_update : Completes moment .update :=
  completes_of_one (fun _ => rfl) fun _ => completes_fanOut _ none

theorem completes (task : Task) : Completes moment task := by
  cases task with
  | answer sender count request => exact completes_answer sender count request
  | confirm sender => exact completes_confirm sender
  | reply sender envelope => exact completes_reply sender envelope
  | update => exact completes_update
  | deliver left envelope => exact completes_deliver left envelope
  | call step =>
      cases step with
      | broadcast payload sender => exact completes_broadcast payload sender
      | fanOut envelope exclude => exact completes_fanOut envelope exclude
      | route sender message =>
          apply completes_of_perform
          intro hub other member
          simp only [Task.perform] at member
          split at member
          · rw [List.mem_singleton.mp member]
            exact completes_broadcast _ (some sender)
          · cases member
      | dispatch sender message =>
          apply completes_of_perform
          intro hub other member
          simp only [Task.perform] at member
          split at member
          · rw [List.mem_singleton.mp member]
            exact completes_answer sender _ _
          · rw [List.mem_singleton.mp member]
            exact completes_reply sender _
      | emit =>
          apply completes_of_perform
          intro hub other member
          simp only [Task.perform] at member
          split at member
          · cases member
          · rw [List.mem_singleton.mp member]
            exact completes_update
      | _ => exact completes_of_done fun _ => rfl

end Alone

theorem exists_run_call (moment : Moment) (step : Step) {threads : Threads} {thread : Nat}
    (isNext : threads.tasks[thread]? = some [.call step]) :
    ∃ count, threads.run (List.replicate count (.work thread moment 0)) =
      ⟨(Exchange.hubStep moment step threads.hub).2, threads.tasks.set thread []⟩ :=
  completes (.call step) threads thread [] isNext

end Threads

end Relay
