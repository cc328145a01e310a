import Relay.Proofs.Server.Departures

namespace Relay

/-! The keepalive over whole runs of a server. A check of a session either pings its peer
or closes the session. What is known of a session that goes on is `Server.Keeps`: it has
been pinged once for every check that was due, and at the last check its peer had not been
silent for too long. Main statements: the keepalive closes a session exactly when a check
finds its peer silent for too long, and a session whose peer says nothing more either goes
on as it is or has ended with a close. -/

/-! ## What an event means for a session -/

def Event.duration : Event → Nat
  | .advance milliseconds => milliseconds
  | _ => 0

def Event.elapsed : List Event → Nat
  | [] => 0
  | event :: events => event.duration + elapsed events

namespace Visit

def heard (server : Server) (event : Event) (visit : Visit) : Visit :=
  match event with
  | .arrive id _ =>
      if visit.connection.id = id then { visit with lastHeard := server.now } else visit
  | _ => visit

def goesOn (server : Server) (event : Event) (visit : Visit) : Bool :=
  match event with
  | .arrive id arrival => !(arrival.isLast && id = visit.connection.id)
  | .advance milliseconds =>
      !visit.isGivenUp server.keepalive server.now (server.now + milliseconds)
  | .shutdown => false
  | _ => true

def signalled (server : Server) (event : Event) (visit : Visit) : List Frame :=
  match event with
  | .advance milliseconds =>
      if visit.isGivenUp server.keepalive server.now (server.now + milliseconds) then
        [.close none]
      else
        List.replicate
          (Session.checksDue server.keepalive visit.started (server.now + milliseconds) -
            Session.checksDue server.keepalive visit.started server.now) .ping
  | .shutdown => [.close (some Server.goingAway)]
  | _ => []

section Silence

variable {server : Server} {event : Event} (visit : Visit)
  (silent : ∀ arrival, event ≠ .arrive visit.connection.id arrival)

include silent

theorem heard_of_silent : visit.heard server event = visit := by
  unfold heard
  split
  · rename_i id arrival
    have isOther : visit.connection.id ≠ id := fun same => silent arrival (same ▸ rfl)
    exact if_neg isOther
  · rfl

theorem signalled_of_ended (ended : visit.goesOn server event = false) :
    ∃ reason, visit.signalled server event = [.close reason] ∧
      (event ≠ .shutdown → reason = none) := by
  cases event with
  | advance milliseconds =>
      have givenUp : visit.isGivenUp server.keepalive server.now
          (server.now + milliseconds) = true := by simpa [goesOn] using ended
      exact ⟨none, if_pos givenUp, fun _ => rfl⟩
  | shutdown => exact ⟨some Server.goingAway, rfl, fun notShutdown => absurd rfl notShutdown⟩
  | arrive id arrival =>
      have isOther : id ≠ visit.connection.id := fun same => silent arrival (same ▸ rfl)
      simp [goesOn, isOther] at ended
  | connect address => cases ended
  | approach address => cases ended
  | complete address => cases ended
  | abandon address => cases ended

end Silence

end Visit

namespace Ledger

def newcomers (server : Server) (event : Event) (ledger : Ledger) : List Visit :=
  let visit (address : Address) : Visit :=
    ⟨⟨⟨ledger.entered.length⟩, address⟩, server.now, server.now⟩
  match event with
  | .connect address => if server.phase = .serving then [visit address] else []
  | .complete address =>
      if address ∈ server.pending ∧ server.phase = .serving then [visit address] else []
  | _ => []

section Record

variable {server : Server} {ledger : Ledger} {event : Event} {visit : Visit}

theorem mem_newcomers (isNew : visit ∈ ledger.newcomers server event) :
    server.phase = .serving ∧ ∃ address,
      visit = ⟨⟨⟨ledger.entered.length⟩, address⟩, server.now, server.now⟩ ∧
        (event = .connect address ∨ event = .complete address ∧ address ∈ server.pending) := by
  cases event with
  | connect address =>
      rw [newcomers] at isNew
      split at isNew
      · rename_i serving
        exact ⟨serving, address, List.mem_singleton.mp isNew, .inl rfl⟩
      · cases isNew
  | complete address =>
      rw [newcomers] at isNew
      split at isNew
      · rename_i accepted
        exact ⟨accepted.2, address, List.mem_singleton.mp isNew, .inr ⟨rfl, accepted.1⟩⟩
      · cases isNew
  | _ => cases isNew

theorem live_record (closed : server.phase ≠ .serving → ledger.live = []) (event : Event) :
    (ledger.record server event).live =
      (ledger.live.filter (Visit.goesOn server event)).map (Visit.heard server event) ++
        ledger.newcomers server event := by
  have unheard (same : ∀ visit : Visit, visit.goesOn server event = true →
      visit.heard server event = visit) :
      (ledger.live.filter (Visit.goesOn server event)).map (Visit.heard server event) =
        ledger.live.filter (Visit.goesOn server event) := by
    rw [List.map_congr_left fun visit isKept => same visit (List.mem_filter.mp isKept).2,
      List.map_id']
  have undisturbed (goesOn : ∀ visit, Visit.goesOn server event visit = true) :
      ledger.live.filter (Visit.goesOn server event) = ledger.live :=
    List.filter_eq_self.mpr fun visit _ => goesOn visit
  cases event with
  | connect address =>
      rw [unheard fun _ _ => rfl, undisturbed fun _ => rfl, record, newcomers]
      split
      · rfl
      · exact (List.append_nil _).symm
  | approach address =>
      rw [unheard fun _ _ => rfl, undisturbed fun _ => rfl]
      exact (List.append_nil _).symm
  | complete address =>
      rw [unheard fun _ _ => rfl, undisturbed fun _ => rfl, record, newcomers]
      by_cases isPending : address ∈ server.pending
      · by_cases serving : server.phase = .serving
        · simp [isPending, serving, enter]
        · simp [isPending, serving, Server.leave_all, closed serving]
      · simp [isPending]
  | abandon address =>
      rw [unheard fun _ _ => rfl, undisturbed fun _ => rfl]
      exact (List.append_nil _).symm
  | arrive id arrival =>
      have hears (notLast : arrival.isLast = false) :
          (ledger.hear id server.now).live =
            (ledger.live.filter (Visit.goesOn server (.arrive id arrival))).map
              (Visit.heard server (.arrive id arrival)) ++ [] := by
        rw [undisturbed fun _ => by rw [Visit.goesOn, notLast]; rfl, List.append_nil]
        rfl
      have leaves (isLast : arrival.isLast = true) :
          (ledger.leave fun visit => visit.connection.id = id).live =
            (ledger.live.filter (Visit.goesOn server (.arrive id arrival))).map
              (Visit.heard server (.arrive id arrival)) ++ [] := by
        have isOther (visit : Visit) : Visit.goesOn server (.arrive id arrival) visit =
            !decide (visit.connection.id = id) := by
          simp [Visit.goesOn, isLast, eq_comm]
        rw [unheard fun visit kept => if_neg (by simpa [isOther] using kept), List.append_nil]
        exact List.filter_congr fun visit _ => (isOther visit).symm
      cases arrival with
      | message message => exact hears rfl
      | ping payload => exact hears rfl
      | pong payload => exact hears rfl
      | close reason => exact leaves rfl
      | failure => exact leaves rfl
  | advance milliseconds =>
      rw [unheard fun _ _ => rfl]
      exact (List.append_nil _).symm
  | shutdown =>
      have nobody : ledger.live.filter (Visit.goesOn server .shutdown) = [] :=
        List.filter_eq_nil_iff.mpr fun _ _ => Bool.false_ne_true
      rw [nobody, record]
      split
      · exact Server.leave_all ledger
      · rename_i notServing
        exact closed notServing

theorem mem_live_record (closed : server.phase ≠ .serving → ledger.live = [])
    (isLive : visit ∈ ledger.live) (goesOn : visit.goesOn server event = true) :
    visit.heard server event ∈ (ledger.record server event).live := by
  rw [live_record closed]
  exact List.mem_append_left _
    (List.mem_map_of_mem (List.mem_filter.mpr ⟨isLive, goesOn⟩))

theorem mem_ended_record (serving : server.phase = .serving) (isLive : visit ∈ ledger.live)
    (ends : visit.goesOn server event = false) :
    visit.connection ∈ (ledger.record server event).ended := by
  have leaves {gone : Visit → Bool} (isGone : gone visit = true) :
      visit.connection ∈ (ledger.leave gone).ended :=
    List.mem_append_right _ (List.mem_map_of_mem (List.mem_filter.mpr ⟨isLive, isGone⟩))
  cases event with
  | arrive id arrival =>
      cases arrival with
      | close reason =>
          have same : id = visit.connection.id := by
            simpa [Visit.goesOn, Arrival.isLast] using ends
          exact leaves (decide_eq_true same.symm)
      | failure =>
          have same : id = visit.connection.id := by
            simpa [Visit.goesOn, Arrival.isLast] using ends
          exact leaves (decide_eq_true same.symm)
      | _ => cases ends
  | advance milliseconds =>
      apply leaves
      simpa [Visit.goesOn] using ends
  | shutdown =>
      rw [record, if_pos serving]
      exact leaves rfl
  | _ => cases ends

end Record

end Ledger

/-! ## One event -/

namespace Server

theorem clock_step {server : Server} (mirrors : server.Mirrors) (clock : Nat → Moment)
    (event : Event) :
    (server.step clock event).keepalive = server.keepalive ∧
      (server.step clock event).now = server.now + event.duration := by
  cases event with
  | connect address =>
      change (server.connect _ address).keepalive = _ ∧ (server.connect _ address).now = _
      unfold connect
      split <;> exact ⟨rfl, rfl⟩
  | approach address =>
      change (server.approach address).keepalive = _ ∧ (server.approach address).now = _
      unfold approach
      split <;> exact ⟨rfl, rfl⟩
  | complete address =>
      change (server.complete _ address).keepalive = _ ∧ (server.complete _ address).now = _
      unfold complete
      split
      · dsimp only
        split
        · exact ⟨rfl, rfl⟩
        · rw [(settle_spec _).2.2.1, (settle_spec _).2.2.2.1, (dismissAll_spec _).1.keepalive,
            (dismissAll_spec _).1.now]
          exact ⟨rfl, rfl⟩
      · exact ⟨rfl, rfl⟩
  | abandon address =>
      exact ⟨(settle_spec _).2.2.1, (settle_spec _).2.2.2.1⟩
  | arrive id arrival =>
      have beside := (arrive_spec mirrors (clock server.now) id arrival).1
      exact ⟨beside.keepalive, beside.now⟩
  | advance milliseconds =>
      have advanced := advance_spec mirrors clock milliseconds
      exact ⟨advanced.1, advanced.2.1⟩
  | shutdown =>
      change server.shutdown.keepalive = _ ∧ server.shutdown.now = _
      unfold shutdown
      split
      · rw [(settle_spec _).2.2.1, (settle_spec _).2.2.2.1]
        exact ⟨(dismissAll_spec server).1.keepalive, (dismissAll_spec server).1.now⟩
      · exact ⟨rfl, rfl⟩

section Steps

variable {server : Server} {ledger : Ledger} {visit : Visit}

theorem Matches.serving (isRight : server.Matches ledger) (isLive : visit ∈ ledger.live) :
    server.phase = .serving := by
  apply Decidable.byContradiction
  intro notServing
  rw [isRight.closed notServing] at isLive
  cases isLive

theorem Matches.made (isRight : server.Matches ledger) (balanced : ledger.IsBalanced)
    {connection : Connection} (entered : connection ∈ ledger.entered) :
    connection.id.number < server.hub.mailboxes.boxes.length := by
  rw [isRight.count]
  exact balanced.number_lt_of_entered entered

/-- What an event queues for a session that is there, and whether the session goes on. -/
theorem gains_step (isRight : server.Matches ledger) (balanced : ledger.IsBalanced)
    (isLive : visit ∈ ledger.live) (clock : Nat → Moment) (event : Event) :
    (server.mailbox visit.connection.id).Gains (visit.signalled server event)
      (visit.goesOn server event) ((server.step clock event).mailbox visit.connection.id) := by
  have serving := isRight.serving isLive
  have made := isRight.made balanced
    (balanced.balance.subset (List.mem_append_left _ (List.mem_map_of_mem isLive)))
  have member : visit.session server.keepalive server.now ∈ server.sessions := by
    rw [isRight.sessions]
    exact List.mem_map_of_mem isLive
  cases event with
  | connect address =>
      change Mailbox.Gains [] true _ ((server.connect _ address).mailbox _)
      rw [connect, serving]
      change Mailbox.Gains [] true _ ((server.accept _ address).mailbox _)
      rw [mailbox_accept_other _ address made]
      exact .refl _
  | approach address =>
      rw [mailbox, mailbox, hub_approach]
      exact .refl _
  | complete address =>
      change Mailbox.Gains [] true _ ((server.complete _ address).mailbox _)
      by_cases isPending : address ∈ server.pending
      · rw [complete_of_serving isPending serving]
        change Mailbox.Gains [] true _ ((server.accept _ address).mailbox _)
        rw [mailbox_accept_other _ address made]
        exact .refl _
      · rw [complete, if_neg isPending]
        exact .refl _
  | abandon address =>
      rw [mailbox, mailbox, hub_abandon]
      exact .refl _
  | arrive id arrival =>
      change Mailbox.Gains [] _ _ ((server.arrive _ id arrival).mailbox _)
      cases found : server.session? id with
      | none =>
          have different : id ≠ visit.connection.id := fun same =>
            id_ne_of_session?_eq_none found _ member same.symm
          rw [arrive_of_missing found]
          simpa [Visit.goesOn, different] using
            Mailbox.Gains.refl (server.mailbox visit.connection.id)
      | some session => exact gains_arrive found _ arrival visit.connection.id
  | advance milliseconds =>
      have gains := gains_advance isRight.mirrors member clock milliseconds
      rw [expire_session server.keepalive visit (Nat.le_add_right _ _)] at gains
      simp only [Visit.signalled, Visit.goesOn]
      cases givenUp : visit.isGivenUp server.keepalive server.now
          (server.now + milliseconds) with
      | true =>
          rw [givenUp] at gains
          exact gains
      | false =>
          rw [givenUp] at gains
          exact gains
  | shutdown =>
      change Mailbox.Gains _ false _ (server.shutdown.mailbox _)
      rw [shutdown, serving, mailbox, mailbox, hub_settle]
      exact gains_dismissAll isRight.mirrors member

end Steps

structure Keeps (server : Server) (visit : Visit) : Prop where
  isOpen : (server.mailbox visit.connection.id).isOpen = true
  pings : server.signals visit.connection.id = List.replicate
    (Session.checksDue server.keepalive visit.started server.now) .ping
  started_le : visit.started ≤ visit.lastHeard
  heard_le : visit.lastHeard ≤ server.now
  /-- At the last check the peer had not been silent for too long. -/
  patient : visit.started +
      Session.checksDue server.keepalive visit.started server.now * server.keepalive.period ≤
    visit.lastHeard + server.keepalive.patience

namespace Keeps

variable {server : Server} {ledger : Ledger} {visit : Visit}

theorem now_lt (keeps : server.Keeps visit) :
    server.now < visit.lastHeard + (server.keepalive.patience + server.keepalive.period) := by
  have isStarted := Nat.le_trans keeps.started_le keeps.heard_le
  have notDue : ¬Session.checkTime server.keepalive visit.started
      (Session.checksDue server.keepalive visit.started server.now) ≤ server.now := by
    rw [Session.checkTime_le_iff isStarted]
    exact Nat.lt_irrefl _
  have patient := keeps.patient
  rw [Session.checkTime, Nat.add_mul, Nat.one_mul] at notDue
  omega

theorem of_gains (keeps : server.Keeps visit) {after : Server}
    (keepalive : after.keepalive = server.keepalive) (now : after.now = server.now)
    (gains : (server.mailbox visit.connection.id).Gains [] true
      (after.mailbox visit.connection.id)) : after.Keeps visit where
  isOpen := by rw [gains.isOpen, keeps.isOpen]; rfl
  pings := by
    have same : after.signals visit.connection.id = _ := gains.gained keeps.isOpen
    rw [same, List.append_nil, keepalive, now]
    exact keeps.pings
  started_le := keeps.started_le
  heard_le := by rw [now]; exact keeps.heard_le
  patient := by rw [keepalive, now]; exact keeps.patient

theorem hear (keeps : server.Keeps visit) :
    server.Keeps { visit with lastHeard := server.now } where
  isOpen := keeps.isOpen
  pings := keeps.pings
  started_le := Nat.le_trans keeps.started_le keeps.heard_le
  heard_le := Nat.le_refl _
  patient := by
    have isStarted := Nat.le_trans keeps.started_le keeps.heard_le
    have made : Session.checksDue server.keepalive visit.started server.now *
        server.keepalive.period ≤ server.now - visit.started := Nat.div_mul_le_self _ _
    change visit.started +
      Session.checksDue server.keepalive visit.started server.now * server.keepalive.period ≤
        server.now + server.keepalive.patience
    omega

theorem advance (keeps : server.Keeps visit) {after : Server} {milliseconds : Nat}
    (keepalive : after.keepalive = server.keepalive)
    (now : after.now = server.now + milliseconds)
    (kept : visit.isGivenUp server.keepalive server.now (server.now + milliseconds) = false)
    (gains : (server.mailbox visit.connection.id).Gains
      (visit.signalled server (.advance milliseconds)) true
      (after.mailbox visit.connection.id)) : after.Keeps visit where
  isOpen := by rw [gains.isOpen, keeps.isOpen]; rfl
  pings := by
    have grown : Session.checksDue server.keepalive visit.started server.now ≤
        Session.checksDue server.keepalive visit.started (server.now + milliseconds) :=
      Nat.div_le_div_right (Nat.sub_le_sub_right (Nat.le_add_right _ _) visit.started)
    have signals : after.signals visit.connection.id = _ := gains.gained keeps.isOpen
    change _ = server.signals visit.connection.id ++ _ at signals
    rw [signals, keeps.pings, Visit.signalled, if_neg (by rw [kept]; decide),
      List.replicate_append_replicate, keepalive, now, Nat.add_sub_cancel' grown]
  started_le := keeps.started_le
  heard_le := by
    rw [now]
    exact Nat.le_trans keeps.heard_le (Nat.le_add_right _ _)
  patient := by
    have before := keeps.patient
    have isStarted := Nat.le_trans keeps.started_le keeps.heard_le
    have made : Session.checksDue server.keepalive visit.started
        (server.now + milliseconds) * server.keepalive.period ≤
          server.now + milliseconds - visit.started := Nat.div_mul_le_self _ _
    simp only [Visit.isGivenUp, decide_eq_false_iff_not, not_and, Nat.not_lt] at kept
    rw [keepalive, now]
    -- Either no check has become due, or the last one has found that the peer is there.
    rcases Nat.lt_or_ge (Session.checksDue server.keepalive visit.started server.now)
      (Session.checksDue server.keepalive visit.started (server.now + milliseconds))
      with more | none
    · have heard := kept more
      omega
    · exact Nat.le_trans
        (Nat.add_le_add_left (Nat.mul_le_mul_right server.keepalive.period none) _) before

theorem step (keeps : server.Keeps visit) (isRight : server.Matches ledger)
    (balanced : ledger.IsBalanced) (isLive : visit ∈ ledger.live) (clock : Nat → Moment)
    {event : Event} (goesOn : visit.goesOn server event = true) :
    (server.step clock event).Keeps (visit.heard server event) := by
  rcases clock_step isRight.mirrors clock event with ⟨keepalive, now⟩
  have gains := gains_step isRight balanced isLive clock event
  rw [goesOn] at gains
  cases event with
  | arrive id arrival =>
      have stays := keeps.of_gains keepalive now gains
      simp only [Visit.heard]
      split
      · have heard := stays.hear
        rw [now] at heard
        exact heard
      · exact stays
  | advance milliseconds =>
      have kept : visit.isGivenUp server.keepalive server.now (server.now + milliseconds) =
          false := by simpa [Visit.goesOn] using goesOn
      exact keeps.advance keepalive now kept gains
  | shutdown => cases goesOn
  | connect address => exact keeps.of_gains keepalive now gains
  | approach address => exact keeps.of_gains keepalive now gains
  | complete address => exact keeps.of_gains keepalive now gains
  | abandon address => exact keeps.of_gains keepalive now gains

end Keeps

theorem keeps_newcomer {server after : Server} {moment : Moment} {address : Address}
    (keepalive : after.keepalive = server.keepalive) (now : after.now = server.now)
    (accepted : after.hub = (server.accept moment address).hub) :
    after.Keeps ⟨⟨server.hub.mailboxes.fresh, address⟩, server.now, server.now⟩ := by
  have starts := server.mailbox_accept_fresh moment address
  have none : Session.checksDue server.keepalive server.now server.now = 0 := by
    simp [Session.checksDue]
  refine ⟨?_, ?_, Nat.le_refl _, Nat.le_of_eq now.symm, ?_⟩
  · rw [mailbox, accepted]
    exact starts.1
  · rw [signals, mailbox, accepted, keepalive, now, none]
    exact starts.2
  · rw [keepalive, now, none, Nat.zero_mul, Nat.add_zero]
    exact Nat.le_add_right _ _

/-- A server with its ledger, all of whose sessions are kept. -/
structure Attends (server : Server) (ledger : Ledger) : Prop where
  isRight : server.Matches ledger
  balanced : ledger.IsBalanced
  keeps : ∀ visit ∈ ledger.live, server.Keeps visit

namespace Attends

variable {server : Server} {ledger : Ledger} {visit : Visit}

theorem start (settings : Settings) (port : UInt16) :
    (Server.start settings port).Attends .empty where
  isRight := matches_start settings port
  balanced := Ledger.isBalanced_empty
  keeps := by
    intro visit isLive
    cases isLive

theorem step (attends : server.Attends ledger) (clock : Nat → Moment) (event : Event) :
    (server.step clock event).Attends (ledger.record server event) where
  isRight := attends.isRight.step attends.balanced clock event
  balanced := attends.balanced.record server event
  keeps := by
    intro visit isLive
    rcases clock_step attends.isRight.mirrors clock event with ⟨keepalive, now⟩
    rw [Ledger.live_record attends.isRight.closed, List.mem_append] at isLive
    rcases isLive with goesOn | isNew
    · rcases List.mem_map.mp goesOn with ⟨old, isKept, same⟩
      rcases List.mem_filter.mp isKept with ⟨isOld, goesOn⟩
      rw [← same]
      exact (attends.keeps old isOld).step attends.isRight attends.balanced isOld clock goesOn
    · rcases Ledger.mem_newcomers isNew with ⟨serving, address, same, arrives⟩
      have accepted : (server.step clock event).hub =
          (server.accept (clock server.now) address).hub ∧ event.duration = 0 := by
        rcases arrives with isConnect | ⟨isComplete, isPending⟩
        · subst isConnect
          refine ⟨?_, rfl⟩
          change (server.connect _ address).hub = _
          rw [connect, serving]
        · subst isComplete
          refine ⟨?_, rfl⟩
          change (server.complete _ address).hub = _
          rw [complete_of_serving isPending serving]
      rw [accepted.2] at now
      rw [same, ← attends.isRight.count]
      exact keeps_newcomer keepalive now accepted.1

theorem run (attends : server.Attends ledger) (clock : Nat → Moment) (events : List Event) :
    (server.run clock events).Attends (ledger.follow clock events server) ∧
      (server.run clock events).keepalive = server.keepalive := by
  induction events generalizing server ledger with
  | nil => exact ⟨attends, rfl⟩
  | cons event events induction =>
      rcases induction (attends.step clock event) with ⟨stays, keepalive⟩
      exact ⟨stays, keepalive.trans (clock_step attends.isRight.mirrors clock event).1⟩

theorem now_run (attends : server.Attends ledger) (clock : Nat → Moment)
    (events : List Event) :
    (server.run clock events).now = server.now + Event.elapsed events := by
  induction events generalizing server ledger with
  | nil => rfl
  | cons event events induction =>
      change ((server.step clock event).run clock events).now = _
      rw [induction (attends.step clock event), (clock_step attends.isRight.mirrors clock event).2,
        Event.elapsed, Nat.add_assoc]

theorem signals_step (attends : server.Attends ledger) (isLive : visit ∈ ledger.live)
    (clock : Nat → Moment) (event : Event) :
    (server.step clock event).signals visit.connection.id =
      server.signals visit.connection.id ++ visit.signalled server event :=
  (gains_step attends.isRight attends.balanced isLive clock event).gained
    (attends.keeps visit isLive).isOpen

/-- The keepalive closes a session exactly in a jump of the clock in which a check finds
its peer silent for too long. -/
theorem close_mem_signals_iff (attends : server.Attends ledger) (isLive : visit ∈ ledger.live)
    (clock : Nat → Moment) (event : Event) :
    .close none ∈ (server.step clock event).signals visit.connection.id ↔
      ∃ milliseconds, event = .advance milliseconds ∧
        visit.isGivenUp server.keepalive server.now (server.now + milliseconds) = true := by
  have onlyPings : .close none ∉ server.signals visit.connection.id := by
    rw [(attends.keeps visit isLive).pings]
    simp
  rw [attends.signals_step isLive, List.mem_append, or_iff_right onlyPings]
  cases event with
  | advance milliseconds =>
      simp only [Visit.signalled]
      split
      · rename_i givenUp
        simp [givenUp]
      · rename_i kept
        simp [kept]
  | shutdown => simp [Visit.signalled]
  | connect address => simp [Visit.signalled]
  | approach address => simp [Visit.signalled]
  | complete address => simp [Visit.signalled]
  | abandon address => simp [Visit.signalled]
  | arrive id arrival => simp [Visit.signalled]

theorem members_eq (attends : server.Attends ledger) :
    server.hub.registry.members = ledger.live.map Visit.connection := by
  rw [attends.isRight.mirrors, attends.isRight.sessions, List.map_map]
  rfl

theorem contains_iff (attends : server.Attends ledger) {id : ConnectionId} :
    server.hub.registry.contains id = true ↔ ∃ visit ∈ ledger.live, visit.connection.id = id := by
  rw [Registry.contains_iff, attends.members_eq, List.map_map]
  exact List.mem_map

/-! ## Sessions that have ended -/

theorem isGone_of_ended (attends : server.Attends ledger) {connection : Connection}
    (hasEnded : connection ∈ ledger.ended) : server.IsGone connection.id where
  made := attends.isRight.made attends.balanced
    (attends.balanced.balance.subset (List.mem_append_right _ hasEnded))
  left := by
    intro session member same
    have distinct := (attends.balanced.balance.map Connection.id).nodup_iff.mpr
      attends.balanced.distinct
    rw [List.map_append, List.nodup_append] at distinct
    rw [attends.isRight.sessions] at member
    rcases List.mem_map.mp member with ⟨visit, isLive, rfl⟩
    have isVisit := List.mem_map_of_mem (f := Connection.id)
      (List.mem_map_of_mem (f := Visit.connection) isLive)
    exact distinct.2.2 _ isVisit _ (List.mem_map_of_mem hasEnded) same

theorem not_contains_of_ended (attends : server.Attends ledger) {connection : Connection}
    (hasEnded : connection ∈ ledger.ended) :
    server.hub.registry.contains connection.id = false :=
  (attends.isGone_of_ended hasEnded).absent attends.isRight.mirrors

theorem run_of_ended (attends : server.Attends ledger) {connection : Connection}
    (hasEnded : connection ∈ ledger.ended) (clock : Nat → Moment) (events : List Event) :
    connection ∈ (ledger.follow clock events server).ended ∧
      (server.run clock events).mailbox connection.id = server.mailbox connection.id :=
  ⟨(ledger.ended_prefix_follow clock events server).subset hasEnded,
    ((attends.isGone_of_ended hasEnded).run attends.isRight attends.balanced clock events).2⟩

/-- A session in which nothing arrives any more goes on as it is, or its last signal is a
close. -/
theorem run_of_silent (attends : server.Attends ledger) (isLive : visit ∈ ledger.live)
    (clock : Nat → Moment) (events : List Event)
    (silent : ∀ arrival, .arrive visit.connection.id arrival ∉ events) :
    visit ∈ (ledger.follow clock events server).live ∨
      visit.connection ∈ (ledger.follow clock events server).ended ∧
        ((server.run clock events).mailbox visit.connection.id).isOpen = false ∧
        ∃ reason, ((server.run clock events).signals visit.connection.id).getLast? =
            some (.close reason) ∧
          (.shutdown ∉ events → reason = none) := by
  induction events generalizing server ledger with
  | nil => exact .inl isLive
  | cons event events induction =>
      have notHeard (arrival : Arrival) : event ≠ .arrive visit.connection.id arrival :=
        fun same => silent arrival (same ▸ List.mem_cons_self)
      have restSilent (arrival : Arrival) : .arrive visit.connection.id arrival ∉ events :=
        fun later => silent arrival (List.mem_cons_of_mem event later)
      cases goesOn : visit.goesOn server event with
      | true =>
          have stays := Ledger.mem_live_record attends.isRight.closed isLive goesOn
          rw [visit.heard_of_silent notHeard] at stays
          rcases induction (attends.step clock event) stays restSilent with
            stays | ⟨ended, closed, reason, last, unlessShutdown⟩
          · exact .inl stays
          · exact .inr ⟨ended, closed, reason, last,
              fun kept => unlessShutdown fun later => kept (List.mem_cons_of_mem event later)⟩
      | false =>
          have hasEnded := Ledger.mem_ended_record (attends.isRight.serving isLive) isLive goesOn
          have gains := gains_step attends.isRight attends.balanced isLive clock event
          have closed : ((server.step clock event).mailbox visit.connection.id).isOpen =
              false := by rw [gains.isOpen, goesOn, Bool.and_false]
          rcases visit.signalled_of_ended notHeard goesOn with ⟨reason, farewell, cause⟩
          rcases (attends.step clock event).run_of_ended hasEnded clock events
            with ⟨ended, unchanged⟩
          have signals : (server.run clock (event :: events)).signals visit.connection.id =
              server.signals visit.connection.id ++ [.close reason] := by
            rw [← farewell, ← attends.signals_step isLive clock event]
            exact congrArg Mailbox.signals unchanged
          refine .inr ⟨ended, (congrArg Mailbox.isOpen unchanged).trans closed, reason, ?_,
            fun kept => cause fun same => kept (same ▸ List.mem_cons_self)⟩
          rw [signals, List.getLast?_concat]

end Attends

end Server

end Relay
