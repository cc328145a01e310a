import Relay.Proofs.Server.Sessions

namespace Relay

/-! The life of sessions. A ledger is kept beside a run of a server. It looks at the
events and at whether the server listens, waits or has stopped, but never at its
registry or its sessions: it says when a session starts, when something was last
heard in it, and when it ends. After every event the registry holds exactly the
sessions that have started and not ended. -/

structure Visit where
  connection : Connection
  started : Nat
  lastHeard : Nat
  deriving DecidableEq, Repr

namespace Visit

/-- Whether a jump of the clock ends a visit: a check becomes due in it, and the
peer has been silent for too long at its end. -/
def isGivenUp (keepalive : Keepalive) (before after : Nat) (visit : Visit) : Bool :=
  Session.checksDue keepalive visit.started before <
      Session.checksDue keepalive visit.started after ∧
    keepalive.patience < after - visit.lastHeard

def session (keepalive : Keepalive) (now : Nat) (visit : Visit) : Session :=
  ⟨visit.connection, visit.lastHeard,
    Session.checkTime keepalive visit.started
      (Session.checksDue keepalive visit.started now)⟩

end Visit

/-- All sessions of a run. `entered` lists the connections whose handshake has
succeeded and `ended` those whose session has ended. -/
structure Ledger where
  entered : List Connection
  live : List Visit
  ended : List Connection
  deriving DecidableEq, Repr

namespace Ledger

def empty : Ledger := ⟨[], [], []⟩

def enter (address : Address) (now : Nat) (ledger : Ledger) : Ledger :=
  let connection : Connection := ⟨⟨ledger.entered.length⟩, address⟩
  { ledger with
    entered := ledger.entered ++ [connection]
    live := ledger.live ++ [⟨connection, now, now⟩] }

def hear (id : ConnectionId) (now : Nat) (ledger : Ledger) : Ledger :=
  { ledger with
    live := ledger.live.map fun visit =>
      if visit.connection.id = id then { visit with lastHeard := now } else visit }

def leave (ends : Visit → Bool) (ledger : Ledger) : Ledger :=
  { ledger with
    live := ledger.live.filter fun visit => !ends visit
    ended := ledger.ended ++ (ledger.live.filter ends).map Visit.connection }

/-- What an event of a server means for its sessions. A handshake that is finished
after the shutdown starts a session that ends at once. -/
def record (server : Server) (event : Event) (ledger : Ledger) : Ledger :=
  match event with
  | .connect address =>
      if server.phase = .serving then ledger.enter address server.now else ledger
  | .complete address =>
      if address ∈ server.pending then
        let ledger := ledger.enter address server.now
        if server.phase = .serving then ledger else ledger.leave fun _ => true
      else ledger
  | .approach _ | .abandon _ => ledger
  | .arrive id (.message _) | .arrive id (.ping _) | .arrive id (.pong _) =>
      ledger.hear id server.now
  | .arrive id (.close _) | .arrive id .failure =>
      ledger.leave fun visit => visit.connection.id = id
  | .advance milliseconds =>
      ledger.leave (Visit.isGivenUp server.keepalive server.now (server.now + milliseconds))
  | .shutdown => if server.phase = .serving then ledger.leave fun _ => true else ledger

def follow (clock : Nat → Moment) : List Event → Server → Ledger → Ledger
  | [], _, ledger => ledger
  | event :: events, server, ledger =>
      follow clock events (server.step clock event) (ledger.record server event)

/-- A peer that says nothing for more than half a minute is given up. -/
example :
    let clock : Nat → Moment := fun _ => ⟨"now", Double.zero⟩
    let start := Server.start Settings.default 3004
    let connect : Event := .connect (.v4 127 0 0 1 5000)
    (empty.follow clock [connect, .advance 30000] start).ended.length = 0 ∧
      (empty.follow clock [connect, .advance 30001] start).ended.length = 1 := by
  decide +kernel

/-! ## Books -/

/-- Everybody who has entered is either there or has left, once, and the names are
given in order. -/
structure IsBalanced (ledger : Ledger) : Prop where
  balance : (ledger.live.map Visit.connection ++ ledger.ended).Perm ledger.entered
  numbered : ledger.entered.map (fun connection => connection.id.number) =
    List.range ledger.entered.length

theorem IsBalanced.enter {ledger : Ledger} (balanced : ledger.IsBalanced) (address : Address)
    (now : Nat) : (ledger.enter address now).IsBalanced where
  balance := by
    let connection : Connection := ⟨⟨ledger.entered.length⟩, address⟩
    have moved : ([connection] ++ ledger.ended).Perm (ledger.ended ++ [connection]) :=
      List.perm_append_comm
    change ((ledger.live ++ [Visit.mk connection now now]).map Visit.connection ++
      ledger.ended).Perm (ledger.entered ++ [connection])
    rw [List.map_append, List.append_assoc]
    apply (moved.append_left (ledger.live.map Visit.connection)).trans
    rw [← List.append_assoc]
    exact balanced.balance.append_right [connection]
  numbered := by
    simp [Ledger.enter, balanced.numbered, List.range_succ]

theorem IsBalanced.hear {ledger : Ledger} (balanced : ledger.IsBalanced) (id : ConnectionId)
    (now : Nat) : (ledger.hear id now).IsBalanced where
  balance := by
    have same : (ledger.hear id now).live.map Visit.connection =
        ledger.live.map Visit.connection := by
      rw [Ledger.hear, List.map_map]
      apply List.map_congr_left
      intro visit _
      simp only [Function.comp]
      split <;> rfl
    rw [same]
    exact balanced.balance
  numbered := balanced.numbered

theorem IsBalanced.leave {ledger : Ledger} (balanced : ledger.IsBalanced)
    (ends : Visit → Bool) : (ledger.leave ends).IsBalanced where
  balance := by
    let stay := (ledger.live.filter fun visit => !ends visit).map Visit.connection
    let gone := (ledger.live.filter ends).map Visit.connection
    have split : (gone ++ stay).Perm (ledger.live.map Visit.connection) := by
      rw [← List.map_append]
      exact (List.filter_append_perm ends ledger.live).map Visit.connection
    have front : (stay ++ gone).Perm (ledger.live.map Visit.connection) :=
      List.perm_append_comm.trans split
    change (stay ++ (ledger.ended ++ gone)).Perm ledger.entered
    apply (List.perm_append_comm.append_left stay).trans
    rw [← List.append_assoc]
    exact (front.append_right ledger.ended).trans balanced.balance
  numbered := balanced.numbered

/-- Every event is recorded by entering, hearing and leaving. -/
theorem record_preserves (holds : Ledger → Prop)
    (enter : ∀ ledger address now, holds ledger → holds (ledger.enter address now))
    (hear : ∀ ledger id now, holds ledger → holds (ledger.hear id now))
    (leave : ∀ ledger ends, holds ledger → holds (ledger.leave ends))
    (server : Server) (event : Event) {ledger : Ledger} (before : holds ledger) :
    holds (ledger.record server event) := by
  cases event with
  | connect address =>
      rw [record]
      split
      · exact enter _ _ _ before
      · exact before
  | approach address => exact before
  | complete address =>
      rw [record]
      split
      · split
        · exact enter _ _ _ before
        · exact leave _ _ (enter _ _ _ before)
      · exact before
  | abandon address => exact before
  | arrive id arrival =>
      cases arrival with
      | message message => exact hear _ _ _ before
      | ping payload => exact hear _ _ _ before
      | pong payload => exact hear _ _ _ before
      | close reason => exact leave _ _ before
      | failure => exact leave _ _ before
  | advance milliseconds => exact leave _ _ before
  | shutdown =>
      rw [record]
      split
      · exact leave _ _ before
      · exact before

theorem IsBalanced.record {ledger : Ledger} (balanced : ledger.IsBalanced) (server : Server)
    (event : Event) : (ledger.record server event).IsBalanced :=
  record_preserves IsBalanced (fun _ address now balanced => balanced.enter address now)
    (fun _ id now balanced => balanced.hear id now)
    (fun _ ends balanced => balanced.leave ends) server event balanced

theorem IsBalanced.number_lt_of_entered {ledger : Ledger} (balanced : ledger.IsBalanced)
    {connection : Connection} (entered : connection ∈ ledger.entered) :
    connection.id.number < ledger.entered.length := by
  have number := List.mem_map_of_mem (f := fun (connection : Connection) =>
    connection.id.number) entered
  rw [balanced.numbered] at number
  exact List.mem_range.mp number

theorem IsBalanced.number_lt {ledger : Ledger} (balanced : ledger.IsBalanced) {visit : Visit}
    (isLive : visit ∈ ledger.live) :
    visit.connection.id.number < ledger.entered.length :=
  balanced.number_lt_of_entered
    (balanced.balance.subset (List.mem_append_left _ (List.mem_map_of_mem isLive)))

theorem ended_prefix_record (server : Server) (event : Event) (ledger : Ledger) :
    ledger.ended <+: (ledger.record server event).ended :=
  record_preserves (fun later => ledger.ended <+: later.ended) (fun _ _ _ grown => grown)
    (fun _ _ _ grown => grown) (fun _ _ grown => grown.trans (List.prefix_append _ _))
    server event List.prefix_rfl

end Ledger

/-! ## Steps -/

structure Server.Matches (server : Server) (ledger : Ledger) : Prop where
  mirrors : server.Mirrors
  sessions : server.sessions = ledger.live.map (Visit.session server.keepalive server.now)
  count : server.hub.mailboxes.boxes.length = ledger.entered.length
  started : ∀ visit ∈ ledger.live, visit.started ≤ server.now
  closed : server.phase ≠ .serving → ledger.live = []

namespace Server

theorem Matches.settle {server : Server} {ledger : Ledger} (isRight : server.Matches ledger) :
    server.settle.Matches ledger := by
  rcases server.settle_spec with ⟨sessions, hub, keepalive, now, phase⟩
  refine ⟨?_, ?_, ?_, ?_, ?_⟩
  · rw [Mirrors, hub, sessions]
    exact isRight.mirrors
  · rw [sessions, keepalive, now]
    exact isRight.sessions
  · rw [hub]
    exact isRight.count
  · rw [now]
    exact isRight.started
  · intro notServing
    exact isRight.closed fun serving => notServing (phase.mpr serving)

section Steps

variable {server : Server} {ledger : Ledger}

theorem Matches.numbered (isRight : server.Matches ledger) (balanced : ledger.IsBalanced) :
    ∀ session ∈ server.sessions,
      session.connection.id.number < server.hub.mailboxes.boxes.length := by
  intro session member
  rw [isRight.sessions] at member
  rcases List.mem_map.mp member with ⟨visit, isLive, same⟩
  rw [← same, isRight.count]
  exact balanced.number_lt isLive

theorem session_of_start (keepalive : Keepalive) (connection : Connection) (now : Nat) :
    Visit.session keepalive now ⟨connection, now, now⟩ =
      .start keepalive connection now := by
  simp [Visit.session, Session.start, Session.checkTime, Session.checksDue]

theorem Matches.accept (isRight : server.Matches ledger) (balanced : ledger.IsBalanced)
    (serving : server.phase = .serving) (moment : Moment) (address : Address) :
    (server.accept moment address).Matches (ledger.enter address server.now) := by
  rcases accept_spec isRight.mirrors (isRight.numbered balanced) moment address
    with ⟨mirrors, count, sessions⟩
  refine ⟨mirrors, ?_, ?_, ?_, fun notServing => absurd serving notServing⟩
  · rw [sessions, isRight.sessions, Mailboxes.fresh, isRight.count]
    change _ = (ledger.live ++ [Visit.mk _ _ _]).map
      (Visit.session server.keepalive server.now)
    rw [List.map_append, List.map_singleton, session_of_start]
  · rw [count, isRight.count]
    simp [Ledger.enter]
  · intro visit isLive
    rcases List.mem_append.mp isLive with isOld | isNew
    · exact isRight.started visit isOld
    · rw [List.mem_singleton.mp isNew]
      exact Nat.le_refl _

theorem leave_all (ledger : Ledger) : (ledger.leave fun _ => true).live = [] := by
  simp [Ledger.leave]

theorem matches_nobody (ledger : Ledger) (mirrors : server.Mirrors)
    (nobody : server.sessions = [])
    (count : server.hub.mailboxes.boxes.length = ledger.entered.length) :
    server.Matches (ledger.leave fun _ => true) := by
  refine ⟨mirrors, ?_, count, ?_, fun _ => leave_all ledger⟩
  · rw [nobody, leave_all]
    rfl
  · rw [leave_all]
    intro visit isLive
    cases isLive

theorem Matches.shutdown (isRight : server.Matches ledger)
    (serving : server.phase = .serving) :
    server.shutdown.Matches (ledger.leave fun _ => true) := by
  rcases server.dismissAll_spec with ⟨beside, mirrors, nobody⟩
  rw [Server.shutdown, serving]
  apply Matches.settle
  exact matches_nobody ledger (mirrors isRight.mirrors) nobody
    (beside.connected.trans isRight.count)

theorem Matches.withPending (isRight : server.Matches ledger) (pending : List Address) :
    ({ server with pending } : Server).Matches ledger :=
  ⟨isRight.mirrors, isRight.sessions, isRight.count, isRight.started, isRight.closed⟩

theorem complete_of_serving {address : Address} (isPending : address ∈ server.pending)
    (serving : server.phase = .serving) (moment : Moment) :
    server.complete moment address =
      { server.accept moment address with pending := server.pending.erase address } := by
  have phase : (server.accept moment address).phase = .serving := serving
  simp only [Server.complete, if_pos isPending, phase]
  rfl

theorem complete_of_closed {address : Address} (isPending : address ∈ server.pending)
    (closed : server.phase ≠ .serving) (moment : Moment) :
    server.complete moment address =
      ({ server.accept moment address with
        pending := server.pending.erase address } : Server).dismissAll.settle := by
  have phase : (server.accept moment address).phase = server.phase := rfl
  simp only [Server.complete, if_pos isPending, phase]
  rfl

theorem Matches.complete (isRight : server.Matches ledger) (balanced : ledger.IsBalanced)
    (moment : Moment) (address : Address) :
    (server.complete moment address).Matches (ledger.record server (.complete address)) := by
  rw [Ledger.record]
  by_cases isPending : address ∈ server.pending
  · rw [if_pos isPending]
    by_cases serving : server.phase = .serving
    · rw [complete_of_serving isPending serving]
      simp only [if_pos serving]
      exact (isRight.accept balanced serving moment address).withPending _
    · -- The handshake ends after the shutdown: the new session is dismissed at once.
      rw [complete_of_closed isPending serving]
      simp only [if_neg serving]
      apply Matches.settle
      rcases accept_spec isRight.mirrors (isRight.numbered balanced) moment address
        with ⟨mirrors, count, _⟩
      let accepted : Server :=
        { server.accept moment address with pending := server.pending.erase address }
      have acceptedMirrors : accepted.Mirrors := mirrors
      rcases accepted.dismissAll_spec with ⟨beside, dismissed, nobody⟩
      apply matches_nobody _ (dismissed acceptedMirrors) nobody
      rw [beside.connected]
      change (server.accept moment address).hub.mailboxes.boxes.length = _
      rw [count, isRight.count]
      simp [Ledger.enter]
  · rw [if_neg isPending, Server.complete, if_neg isPending]
    exact isRight

theorem Matches.hear (isRight : server.Matches ledger) {after : Server} {id : ConnectionId}
    (beside : Beside server after) (mirrors : after.Mirrors)
    (sessions : after.sessions = server.sessions.map (server.heard id)) :
    after.Matches (ledger.hear id server.now) := by
  refine ⟨mirrors, ?_, beside.connected.trans isRight.count, ?_, ?_⟩
  · rw [sessions, isRight.sessions, beside.keepalive, beside.now, Ledger.hear, List.map_map,
      List.map_map]
    apply List.map_congr_left
    intro visit _
    simp only [Function.comp, heard]
    by_cases same : visit.connection.id = id
    · rw [if_pos same]
      exact if_pos same
    · rw [if_neg same]
      exact if_neg same
  · intro visit isLive
    rw [beside.now]
    rcases List.mem_map.mp isLive with ⟨before, wasLive, same⟩
    subst same
    split <;> exact isRight.started before wasLive
  · intro notServing
    rw [beside.phase] at notServing
    rw [Ledger.hear, isRight.closed notServing]
    rfl

theorem Matches.leave (isRight : server.Matches ledger) {after : Server}
    {ends : Visit → Bool} (keepalive : after.keepalive = server.keepalive)
    (later : server.now ≤ after.now)
    (phase : after.phase = .serving ↔ server.phase = .serving)
    (connected : after.hub.mailboxes.boxes.length = server.hub.mailboxes.boxes.length)
    (mirrors : after.Mirrors)
    (sessions : after.sessions = (ledger.live.filter fun visit => !ends visit).map
      (Visit.session server.keepalive after.now)) :
    after.Matches (ledger.leave ends) := by
  refine ⟨mirrors, ?_, connected.trans isRight.count, ?_, ?_⟩
  · rw [sessions, keepalive]
    rfl
  · intro visit isLive
    exact Nat.le_trans (isRight.started visit (List.mem_of_mem_filter isLive)) later
  · intro notServing
    rw [Ledger.leave, isRight.closed fun serving => notServing (phase.mpr serving)]
    rfl

theorem Matches.arrive (isRight : server.Matches ledger) (moment : Moment) (id : ConnectionId)
    (arrival : Arrival) :
    (server.arrive moment id arrival).Matches (ledger.record server (.arrive id arrival)) := by
  rcases arrive_spec isRight.mirrors moment id arrival with ⟨beside, mirrors, sessions⟩
  have left : ∀ after : Server, Beside server after → after.Mirrors →
      (after.sessions = server.sessions.filter fun session => session.connection.id ≠ id) →
      after.Matches (ledger.leave fun visit => visit.connection.id = id) := by
    intro after beside mirrors sessions
    apply isRight.leave beside.keepalive (Nat.le_of_eq beside.now.symm) (by rw [beside.phase])
      beside.connected mirrors
    rw [sessions, isRight.sessions, List.filter_map, beside.now]
    congr 1
    apply List.filter_congr
    intro visit _
    exact decide_not
  cases arrival with
  | message message => exact isRight.hear beside mirrors sessions
  | ping payload => exact isRight.hear beside mirrors sessions
  | pong payload => exact isRight.hear beside mirrors sessions
  | close reason => exact left _ beside mirrors sessions
  | failure => exact left _ beside mirrors sessions

theorem expire_session (keepalive : Keepalive) (visit : Visit) {before after : Nat}
    (later : before ≤ after) :
    (visit.session keepalive before).expire keepalive after =
      if visit.isGivenUp keepalive before after then ([.close none], none)
      else
        (List.replicate (Session.checksDue keepalive visit.started after -
            Session.checksDue keepalive visit.started before) .ping,
          some (visit.session keepalive after)) := by
  have made : Session.checksDue keepalive visit.started before ≤
      Session.checksDue keepalive visit.started after :=
    Nat.div_le_div_right (Nat.sub_le_sub_right later visit.started)
  rw [Visit.session, Session.expire_mk visit.connection visit.lastHeard made]
  simp only [Visit.isGivenUp, Visit.session, decide_eq_true_eq]

theorem Matches.advance (isRight : server.Matches ledger) (clock : Nat → Moment)
    (milliseconds : Nat) :
    (server.advance clock milliseconds).Matches
      (ledger.record server (.advance milliseconds)) := by
  rcases advance_spec isRight.mirrors clock milliseconds
    with ⟨keepalive, now, phase, connected, mirrors, sessions⟩
  have later : server.now ≤ (server.advance clock milliseconds).now := by
    rw [now]
    exact Nat.le_add_right _ _
  apply isRight.leave keepalive later phase connected mirrors
  rw [sessions, isRight.sessions, now, List.filterMap_map, ← List.filterMap_eq_map,
    List.filterMap_filter]
  apply List.filterMap_congr
  intro visit isLive
  simp only [Function.comp]
  rw [expire_session server.keepalive visit (Nat.le_add_right _ _)]
  cases visit.isGivenUp server.keepalive server.now (server.now + milliseconds) <;> rfl

/-- One event, whatever it is. -/
theorem Matches.step (isRight : server.Matches ledger) (balanced : ledger.IsBalanced)
    (clock : Nat → Moment) (event : Event) :
    (server.step clock event).Matches (ledger.record server event) := by
  cases event with
  | connect address =>
      change (server.connect (clock server.now) address).Matches _
      rw [Server.connect, Ledger.record]
      split
      · rename_i serving
        rw [if_pos serving]
        exact isRight.accept balanced serving _ address
      · rename_i notServing
        rw [if_neg notServing]
        exact isRight
  | approach address =>
      change (server.approach address).Matches ledger
      rw [Server.approach]
      split
      · exact isRight.withPending _
      · exact isRight
  | complete address => exact isRight.complete balanced _ address
  | abandon address => exact (isRight.withPending _).settle
  | arrive id arrival => exact isRight.arrive _ id arrival
  | advance milliseconds => exact isRight.advance clock milliseconds
  | shutdown =>
      change server.shutdown.Matches _
      rw [Ledger.record]
      by_cases serving : server.phase = .serving
      · rw [if_pos serving]
        exact isRight.shutdown serving
      · rw [if_neg serving, Server.shutdown]
        split
        · contradiction
        · exact isRight

end Steps

/-! ## Runs -/

theorem matches_start (settings : Settings) (port : UInt16) :
    (start settings port).Matches .empty := by
  refine ⟨rfl, rfl, rfl, ?_, fun _ => rfl⟩
  intro visit isLive
  cases isLive

theorem Matches.run {server : Server} {ledger : Ledger} (isRight : server.Matches ledger)
    (balanced : ledger.IsBalanced) (clock : Nat → Moment) (events : List Event) :
    (server.run clock events).Matches (ledger.follow clock events server) ∧
      (ledger.follow clock events server).IsBalanced := by
  induction events generalizing server ledger with
  | nil => exact ⟨isRight, balanced⟩
  | cons event events induction =>
      exact induction (isRight.step balanced clock event) (balanced.record server event)

theorem hub_approach (server : Server) (clock : Nat → Moment) (address : Address) :
    (server.step clock (.approach address)).hub = server.hub := by
  change (server.approach address).hub = server.hub
  unfold approach
  split <;> rfl

theorem hub_abandon (server : Server) (clock : Nat → Moment) (address : Address) :
    (server.step clock (.abandon address)).hub = server.hub :=
  (settle_spec _).2.1

theorem members_message {server : Server} (mirrors : server.Mirrors) (clock : Nat → Moment)
    (id : ConnectionId) (message : Message) :
    (server.step clock (.arrive id (.message message))).hub.registry.members =
      server.hub.registry.members := by
  rcases arrive_spec mirrors (clock server.now) id (.message message)
    with ⟨_, afterMirrors, sessions⟩
  change (server.arrive (clock server.now) id (.message message)).hub.registry.members = _
  rw [afterMirrors, sessions, mirrors, List.map_map]
  apply List.map_congr_left
  intro session _
  exact server.connection_heard id session

end Server

namespace Ledger

theorem follow_append (clock : Nat → Moment) (before after : List Event) (server : Server)
    (ledger : Ledger) :
    ledger.follow clock (before ++ after) server =
      (ledger.follow clock before server).follow clock after (server.run clock before) := by
  induction before generalizing server ledger with
  | nil => rfl
  | cons event before induction => exact induction _ _

theorem ended_prefix_follow (clock : Nat → Moment) (events : List Event) (server : Server)
    (ledger : Ledger) : ledger.ended <+: (ledger.follow clock events server).ended := by
  induction events generalizing server ledger with
  | nil => exact List.prefix_rfl
  | cons event events induction =>
      exact (ledger.ended_prefix_record server event).trans (induction _ _)

theorem isBalanced_empty : empty.IsBalanced := ⟨.nil, rfl⟩

theorem IsBalanced.distinct {ledger : Ledger} (balanced : ledger.IsBalanced) :
    (ledger.entered.map Connection.id).Nodup := by
  have numbers : ((ledger.entered.map Connection.id).map ConnectionId.number).Nodup := by
    rw [List.map_map]
    exact balanced.numbered ▸ List.nodup_range
  exact List.Nodup.of_map _ numbers

end Ledger

/-- After every event the registry holds the sessions that have started and not
ended, each once. Whoever has entered is there or has left, once, and nobody who
has left comes back. Handshakes that are not finished and the contents of messages
change nothing. -/
theorem Server.run_registers_sessions (settings : Settings) (port : UInt16)
    (clock : Nat → Moment) (events : List Event) :
    let start := Server.start settings port
    let server := start.run clock events
    let ledger := Ledger.empty.follow clock events start
    server.hub.registry.members = ledger.live.map Visit.connection ∧
      (ledger.live.map Visit.connection ++ ledger.ended).Perm ledger.entered ∧
      (ledger.entered.map Connection.id).Nodup ∧
      (∀ more, ledger.ended <+: (Ledger.empty.follow clock (events ++ more) start).ended) ∧
      (∀ address, (server.step clock (.approach address)).hub = server.hub ∧
        (server.step clock (.abandon address)).hub = server.hub) ∧
      ∀ id message,
        (server.step clock (.arrive id (.message message))).hub.registry.members =
          server.hub.registry.members := by
  intro start server ledger
  have both : server.Matches ledger ∧ ledger.IsBalanced :=
    (Server.matches_start settings port).run Ledger.isBalanced_empty clock events
  rcases both with ⟨isRight, balanced⟩
  refine ⟨?_, balanced.balance, balanced.distinct, ?_, ?_, ?_⟩
  · rw [isRight.mirrors, isRight.sessions, List.map_map]
    rfl
  · intro more
    rw [Ledger.follow_append]
    exact Ledger.ended_prefix_follow clock more server ledger
  · intro address
    exact ⟨server.hub_approach clock address, server.hub_abandon clock address⟩
  · intro id message
    exact Server.members_message isRight.mirrors clock id message

end Relay
