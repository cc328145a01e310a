import Relay.Proofs.Server.Farewell
import Relay.Proofs.Server.Keepalive

namespace Relay.Server

/-! The end of a server. A shutdown closes all sessions. From then on the server is vacant
between events, waits for the peers that are still in their handshakes and stops, at the
latest when its time for them is over. A server that has stopped does nothing any more but
grow older. -/

variable {server : Server} {deadline : Nat}

structure IsVacant (server : Server) : Prop where
  nobody : server.sessions = []
  noMembers : server.hub.registry.members = []

theorem Mirrors.isVacant (mirrors : server.Mirrors) (nobody : server.sessions = []) :
    server.IsVacant where
  nobody := nobody
  noMembers := by
    rw [mirrors, nobody]
    rfl

namespace IsVacant

theorem mirrors (vacant : server.IsVacant) : server.Mirrors := by
  rw [Mirrors, vacant.noMembers, vacant.nobody]
  rfl

theorem numbered (vacant : server.IsVacant) :
    ∀ session ∈ server.sessions,
      session.connection.id.number < server.hub.mailboxes.boxes.length := by
  rw [vacant.nobody]
  intro session member
  cases member

theorem missing (vacant : server.IsVacant) (id : ConnectionId) : server.session? id = none := by
  rw [session?, vacant.nobody]
  rfl

end IsVacant

/-! ## Stopped servers -/

structure IsStopped (server : Server) : Prop extends server.IsVacant where
  phase : server.phase = .stopped
  nobodyWaits : server.pending = []
  noHeartbeat : server.heartbeat = none

theorem settle_of_stopped (stopped : server.phase = .stopped) : server.settle = server := by
  unfold settle
  split
  · rename_i deadline draining
    rw [stopped] at draining
    cases draining
  · rfl

namespace IsStopped

theorem withNow (stopped : server.IsStopped) (now : Nat) :
    ({ server with now } : Server).IsStopped where
  nobody := stopped.nobody
  noMembers := stopped.noMembers
  phase := stopped.phase
  nobodyWaits := stopped.nobodyWaits
  noHeartbeat := stopped.noHeartbeat

theorem step (stopped : server.IsStopped) (clock : Nat → Moment) (event : Event) :
    server.step clock event = { server with now := server.now + event.duration } := by
  cases event with
  | connect address =>
      change server.connect _ address = server
      rw [connect, stopped.phase]
  | approach address =>
      change server.approach address = server
      rw [approach, stopped.phase]
  | complete address =>
      change server.complete _ address = server
      rw [complete, if_neg]
      rw [stopped.nobodyWaits]
      exact List.not_mem_nil
  | abandon address =>
      change server.abandon address = server
      have nobodyLeaves : server.pending.erase address = server.pending := by
        rw [stopped.nobodyWaits]
        rfl
      rw [abandon, nobodyLeaves]
      exact settle_of_stopped stopped.phase
  | arrive id arrival => exact arrive_of_missing (stopped.missing id) _ arrival
  | advance milliseconds =>
      let older : Server := { server with now := server.now + milliseconds }
      have noTimers : older.timers = [] := by
        simp [older, timers, stopped.nobody, stopped.noHeartbeat]
      change settle (older.timers.foldl _ older) = older
      rw [noTimers, List.foldl_nil]
      exact settle_of_stopped stopped.phase
  | shutdown =>
      change server.shutdown = server
      rw [shutdown, stopped.phase]

theorem run (stopped : server.IsStopped) (clock : Nat → Moment) (events : List Event) :
    server.run clock events = { server with now := server.now + Event.elapsed events } := by
  induction events generalizing server with
  | nil => rfl
  | cons event events induction =>
      change (server.step clock event).run clock events = _
      rw [stopped.step, induction (stopped.withNow _), Event.elapsed, ← Nat.add_assoc]

end IsStopped

/-! ## Servers that have been shut down -/

/-- A server after its shutdown: it has stopped, or it waits for peers until a time that is
still to come. -/
def IsEnding (deadline : Nat) (server : Server) : Prop :=
  server.IsStopped ∨
    server.IsVacant ∧ server.phase = .draining deadline ∧ server.now < deadline

theorem IsEnding.isVacant (ending : server.IsEnding deadline) : server.IsVacant := by
  rcases ending with stopped | ⟨vacant, _, _⟩
  · exact stopped.toIsVacant
  · exact vacant

theorem IsEnding.not_serving (ending : server.IsEnding deadline) : server.phase ≠ .serving := by
  intro serving
  rcases ending with stopped | ⟨_, draining, _⟩
  · cases serving.symm.trans stopped.phase
  · cases serving.symm.trans draining

theorem IsEnding.stops (ending : server.IsEnding deadline) (late : deadline ≤ server.now) :
    server.phase = .stopped := by
  rcases ending with stopped | ⟨_, _, early⟩
  · exact stopped.phase
  · exact absurd early (Nat.not_lt_of_le late)

theorem isEnding_settle (vacant : server.IsVacant)
    (draining : server.phase = .draining deadline) : server.settle.IsEnding deadline := by
  rw [settle, draining]
  dsimp only
  split
  · exact .inl ⟨⟨vacant.nobody, vacant.noMembers⟩, rfl, rfl, rfl⟩
  · rename_i waits
    exact .inr ⟨vacant, draining, Nat.lt_of_not_le fun isOver => waits (.inr isOver)⟩

theorem isVacant_dismissAll (mirrors : server.Mirrors) : server.dismissAll.IsVacant := by
  rcases server.dismissAll_spec with ⟨_, dismissed, nobody⟩
  exact (dismissed mirrors).isVacant nobody

theorem isEnding_shutdown (mirrors : server.Mirrors) (serving : server.phase = .serving) :
    server.shutdown.IsEnding (server.now + drainTime) := by
  have vacant := isVacant_dismissAll mirrors
  rw [shutdown, serving]
  exact isEnding_settle ⟨vacant.nobody, vacant.noMembers⟩ rfl

theorem IsEnding.step (ending : server.IsEnding deadline) (clock : Nat → Moment)
    (event : Event) : (server.step clock event).IsEnding deadline := by
  rcases ending with stopped | ⟨vacant, draining, early⟩
  · rw [stopped.step]
    exact .inl (stopped.withNow _)
  · have stays : server.IsEnding deadline := .inr ⟨vacant, draining, early⟩
    cases event with
    | connect address =>
        change (server.connect _ address).IsEnding deadline
        rw [connect, draining]
        exact stays
    | approach address =>
        change (server.approach address).IsEnding deadline
        rw [approach, draining]
        exact stays
    | complete address =>
        change (server.complete _ address).IsEnding deadline
        by_cases isPending : address ∈ server.pending
        · have notServing : server.phase ≠ .serving := by
            rw [draining]
            exact Phase.noConfusion
          rw [complete_of_closed isPending notServing]
          apply isEnding_settle
          · exact isVacant_dismissAll (accept_spec vacant.mirrors vacant.numbered _ address).1
          · rw [(dismissAll_spec _).1.phase]
            exact draining
        · rw [complete, if_neg isPending]
          exact stays
    | abandon address => exact isEnding_settle ⟨vacant.nobody, vacant.noMembers⟩ draining
    | arrive id arrival =>
        change (server.arrive _ id arrival).IsEnding deadline
        rw [arrive_of_missing (vacant.missing id)]
        exact stays
    | advance milliseconds =>
        let older : Server := { server with now := server.now + milliseconds }
        have olderMirrors : older.Mirrors := vacant.mirrors
        rcases fireAll_spec clock older.timers olderMirrors with ⟨beside, mirrors, sessions⟩
        apply isEnding_settle
        · apply mirrors.isVacant
          rw [sessions]
          change server.sessions.filterMap _ = []
          rw [vacant.nobody]
          rfl
        · exact beside.phase.trans draining
    | shutdown =>
        change server.shutdown.IsEnding deadline
        rw [shutdown, draining]
        exact stays

theorem IsEnding.run (ending : server.IsEnding deadline) (clock : Nat → Moment)
    (events : List Event) : (server.run clock events).IsEnding deadline := by
  induction events generalizing server with
  | nil => exact ending
  | cons event events induction => exact induction (ending.step clock event)

/-- A server serves, or has been shut down not longer ago than it waits for peers, or has
stopped. -/
def IsUnderway (server : Server) : Prop :=
  server.phase = .serving ∨ ∃ deadline ≤ server.now + drainTime, server.IsEnding deadline

theorem IsUnderway.step (underway : server.IsUnderway) (mirrors : server.Mirrors)
    (clock : Nat → Moment) (event : Event) : (server.step clock event).IsUnderway := by
  have later : server.now ≤ (server.step clock event).now := by
    rw [(clock_step mirrors clock event).2]
    exact Nat.le_add_right _ _
  rcases underway with serving | ⟨deadline, soon, ending⟩
  · by_cases isShutdown : event = .shutdown
    · subst isShutdown
      exact .inr ⟨_, Nat.add_le_add_right later drainTime, isEnding_shutdown mirrors serving⟩
    · exact .inl ((serving_step_iff mirrors clock event).mpr ⟨serving, isShutdown⟩)
  · exact .inr ⟨deadline, Nat.le_trans soon (Nat.add_le_add_right later drainTime),
      ending.step clock event⟩

theorem IsUnderway.run {ledger : Ledger} (underway : server.IsUnderway)
    (attends : server.Attends ledger) (clock : Nat → Moment) (events : List Event) :
    (server.run clock events).IsUnderway := by
  induction events generalizing server ledger with
  | nil => exact underway
  | cons event events induction =>
      exact induction (underway.step attends.isRight.mirrors clock event)
        (attends.step clock event)

theorem IsUnderway.isStopped (underway : server.IsUnderway) (stopped : server.phase = .stopped) :
    server.IsStopped := by
  rcases underway with serving | ⟨deadline, _, isStopped | ⟨_, draining, _⟩⟩
  · cases serving.symm.trans stopped
  · exact isStopped
  · cases draining.symm.trans stopped

/-! ## Last frames -/

section Sessions

variable {ledger : Ledger} {session : Session}

theorem exists_visit (isRight : server.Matches ledger) (member : session ∈ server.sessions) :
    ∃ visit ∈ ledger.live, visit.connection = session.connection := by
  rw [isRight.sessions] at member
  rcases List.mem_map.mp member with ⟨visit, isLive, same⟩
  exact ⟨visit, isLive, congrArg Session.connection same⟩

theorem queued_shutdown (attends : server.Attends ledger) (member : session ∈ server.sessions) :
    (server.shutdown.mailbox session.connection.id).queued =
      (server.mailbox session.connection.id).queued ++ [.close (some goingAway)] := by
  rcases exists_visit attends.isRight member with ⟨visit, isLive, same⟩
  have isOpen : (server.mailbox session.connection.id).isOpen = true := by
    rw [← same]
    exact (attends.keeps visit isLive).isOpen
  have named : session.connection.id ∈
      server.sessions.map fun session => session.connection.id := List.mem_map_of_mem member
  rw [shutdown, attends.isRight.serving isLive, mailbox, hub_settle]
  change (server.dismissAll.mailbox _).queued = _
  rw [mailbox_dismissAll attends.isRight.mirrors, if_pos named]
  exact Mailbox.queued_post_of_open isOpen _

theorem isGone_shutdown (attends : server.Attends ledger) (member : session ∈ server.sessions) :
    server.shutdown.IsGone session.connection.id := by
  rcases exists_visit attends.isRight member with ⟨visit, isLive, _⟩
  have dismissed : server.dismissAll.IsGone session.connection.id :=
    isGone_dismissAll (attends.isRight.numbered attends.balanced session member)
  rw [shutdown, attends.isRight.serving isLive]
  exact .settle ⟨dismissed.made, dismissed.left⟩

/-- Nothing has closed a session that is there. -/
theorem countP_isClose_of_session {reasons : List (Option CloseReason)} {before : Server}
    (proceeds : Proceeds reasons session.connection.id before server)
    (empty : (before.mailbox session.connection.id).queued = [])
    (member : session ∈ server.sessions) :
    (server.mailbox session.connection.id).queued.countP Frame.isClose = 0 := by
  apply List.countP_eq_zero.mpr
  intro frame isQueued isClose
  cases frame with
  | text content => cases isClose
  | ping => cases isClose
  | close reason =>
      exact ((proceeds.last_of_close empty).2 reason isQueued).2.2.left session member rfl

end Sessions

theorem mailbox_accept_of_vacant (vacant : server.IsVacant) (moment : Moment)
    (address : Address) :
    (server.accept moment address).mailbox server.hub.mailboxes.fresh =
      ⟨true, [.ofEnvelope
        (server.hub.welcome moment ⟨1, server.hub.registry.messageCount⟩)]⟩ := by
  let opened := (server.hub.openConnection address).2
  let connection : Connection := ⟨server.hub.mailboxes.fresh, address⟩
  have greeted : (server.accept moment address).mailbox server.hub.mailboxes.fresh = _ :=
    opened.get_registerWelcomed moment connection server.hub.mailboxes.fresh
  have absent : opened.registry.contains server.hub.mailboxes.fresh = false := by
    change server.hub.registry.contains _ = false
    rw [Registry.contains, vacant.noMembers]
    rfl
  have noSize : opened.registry.size = 0 := congrArg List.length vacant.noMembers
  have isEmpty : opened.mailboxes.get server.hub.mailboxes.fresh = .empty :=
    Mailboxes.get_add_fresh _
  rw [greeted, isEmpty, Hub.greetingFor, if_pos ⟨rfl, absent⟩, noSize]
  rfl

theorem queued_complete_of_vacant (vacant : server.IsVacant)
    (notServing : server.phase ≠ .serving) {address : Address}
    (isPending : address ∈ server.pending) (moment : Moment) :
    ((server.complete moment address).mailbox server.hub.mailboxes.fresh).queued =
      [.ofEnvelope (server.hub.welcome moment ⟨1, server.hub.registry.messageCount⟩),
        .close (some goingAway)] := by
  rcases accept_spec vacant.mirrors vacant.numbered moment address with ⟨mirrors, _, sessions⟩
  let accepted : Server :=
    { server.accept moment address with pending := server.pending.erase address }
  have acceptedMirrors : accepted.Mirrors := mirrors
  have acceptedSessions : accepted.sessions = _ := sessions
  have starts : accepted.mailbox server.hub.mailboxes.fresh = _ :=
    mailbox_accept_of_vacant vacant moment address
  have named : server.hub.mailboxes.fresh ∈
      accepted.sessions.map fun session => session.connection.id := by
    rw [acceptedSessions]
    simp [Session.start]
  rw [complete_of_closed isPending notServing, mailbox, hub_settle]
  change (accepted.dismissAll.mailbox _).queued = _
  rw [mailbox_dismissAll acceptedMirrors, if_pos named, starts]
  rfl

/-- A server that is shut down closes every session, once and behind everything that is
queued for it, and nothing more is queued for those connections. A peer that ends its
handshake later is greeted and closed as well. The server stops in time. Once it has
stopped nobody is registered, and nothing that happens changes anything but the time: not
the registry, the count of messages or any mailbox. -/
theorem run_shuts_down (settings : Settings) (port : UInt16) (clock : Nat → Moment)
    (events : List Event) :
    let server := (start settings port).run clock events
    let closing := server.step clock .shutdown
    (∀ session ∈ server.sessions,
      let id := session.connection.id
      (server.mailbox id).queued.countP Frame.isClose = 0 ∧
        (closing.mailbox id).queued = (server.mailbox id).queued ++ [.close (some goingAway)] ∧
        ∀ later, (closing.run clock later).mailbox id = closing.mailbox id) ∧
      (∀ later, (closing.run clock later).sessions = [] ∧
        (closing.run clock later).hub.registry.members = []) ∧
      (∀ later address,
        let waiting := closing.run clock later
        let hub := waiting.hub
        address ∈ waiting.pending →
          ((waiting.step clock (.complete address)).mailbox hub.mailboxes.fresh).queued =
            [.ofEnvelope (hub.welcome (clock waiting.now) ⟨1, hub.registry.messageCount⟩),
              .close (some goingAway)]) ∧
      (∀ later, drainTime ≤ Event.elapsed later →
        (closing.run clock later).phase = .stopped) ∧
      (server.phase = .stopped →
        server.hub.registry.members = [] ∧
          ∀ later, server.run clock later =
            { server with now := server.now + Event.elapsed later }) := by
  intro server closing
  have attends := ((Attends.start settings port).run clock events).1
  have underway : server.IsUnderway :=
    IsUnderway.run (.inl rfl) (Attends.start settings port) clock events
  have mirrors := attends.isRight.mirrors
  have closes := attends.step clock .shutdown
  rcases underway.step mirrors clock .shutdown with serving | ⟨deadline, soon, ending⟩
  · exact absurd rfl ((serving_step_iff mirrors clock .shutdown).mp serving).2
  have vacant (later : List Event) : (closing.run clock later).IsVacant :=
    (ending.run clock later).isVacant
  refine ⟨?_, fun later => ⟨(vacant later).nobody, (vacant later).noMembers⟩, ?_, ?_, ?_⟩
  · intro session member id
    have noneYet : (server.mailbox id).queued.countP Frame.isClose = 0 :=
      countP_isClose_of_session (proceeds_always (matches_start settings port)
        Ledger.isBalanced_empty clock events) rfl member
    refine ⟨noneYet, queued_shutdown attends member, fun later => ?_⟩
    exact ((isGone_shutdown attends member).run closes.isRight closes.balanced clock later).2
  · intro later address waiting hub isPending
    exact queued_complete_of_vacant (vacant later) (ending.run clock later).not_serving
      isPending _
  · intro later late
    apply (ending.run clock later).stops
    rw [closes.now_run clock later]
    exact Nat.le_trans soon (Nat.add_le_add_left late _)
  · intro stopped
    have isStopped := underway.isStopped stopped
    exact ⟨isStopped.noMembers, isStopped.run clock⟩

/-- One peer has a session and one is still in its handshake when the server is shut down.
It stops when the second one is done, which has been greeted and closed by then. -/
theorem run_shuts_down_amid_handshake :
    let clock : Nat → Moment := fun _ => ⟨"now", Double.zero⟩
    let waiting : Address := .v4 127 0 0 1 5001
    let server := (start Settings.default 3004).run clock
      [.connect (.v4 127 0 0 1 5000), .approach waiting]
    let closing := server.step clock .shutdown
    let done := closing.step clock (.complete waiting)
    (closing.mailbox ⟨0⟩).queued = (server.mailbox ⟨0⟩).queued ++ [.close (some goingAway)] ∧
      waiting ∈ closing.pending ∧ (done.mailbox ⟨1⟩).queued.length = 2 ∧
      ∀ later, done.run clock later =
        { done with now := done.now + Event.elapsed later } := by
  intro clock waiting server closing done
  let session : Session := ⟨⟨⟨0⟩, .v4 127 0 0 1 5000⟩, 0, 20000⟩
  have member : session ∈ server.sessions := by decide +kernel
  have isPending : waiting ∈ closing.pending := by decide +kernel
  have stopped : done.phase = .stopped := by decide +kernel
  have isSecond : closing.hub.mailboxes.fresh = ⟨1⟩ := by decide +kernel
  rcases run_shuts_down Settings.default 3004 clock
    [.connect (.v4 127 0 0 1 5000), .approach waiting] with ⟨closes, _, greets, _, _⟩
  rcases run_shuts_down Settings.default 3004 clock
    [.connect (.v4 127 0 0 1 5000), .approach waiting, .shutdown, .complete waiting]
    with ⟨_, _, _, _, stays⟩
  have queued := greets [] waiting isPending
  refine ⟨(closes session member).2.1, isPending, ?_, (stays stopped).2⟩
  rw [← isSecond]
  exact congrArg List.length queued

end Relay.Server
