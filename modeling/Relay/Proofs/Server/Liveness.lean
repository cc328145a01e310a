import Relay.Proofs.Server.Keepalive

namespace Relay

/-! Which peers the keepalive keeps. A peer that falls silent is closed within its
patience and one period more, and no peer is closed before its patience is over. A peer
that answers every ping before the next check is kept under all settings but one: without
an interval and without a timeout a peer has no patience at all, while the checks are a
second apart, and the first of them closes the session before it has been pinged. -/

namespace Visit

/-- The checks that a jump of the clock makes of a visit find what arrived in time: no
check is put off, and when a check is made that is not the first one, something has
arrived since the ping of the check before it. -/
structure IsPrompt (keepalive : Keepalive) (before after : Nat) (visit : Visit) : Prop where
  onTime : after ≤ Session.checkTime keepalive visit.started
    (Session.checksDue keepalive visit.started before)
  answered : ∀ pinged,
    Session.checksDue keepalive visit.started before = pinged + 1 →
    after = Session.checkTime keepalive visit.started (pinged + 1) →
    Session.checkTime keepalive visit.started pinged ≤ visit.lastHeard

theorem not_isGivenUp_of_isPrompt {keepalive : Keepalive} {before after : Nat} {visit : Visit}
    (prompt : visit.IsPrompt keepalive before after)
    (isStarted : visit.started ≤ visit.lastHeard) (isHeard : visit.lastHeard ≤ after)
    (patient : keepalive.period ≤ keepalive.patience) :
    visit.isGivenUp keepalive before after = false := by
  simp only [isGivenUp, decide_eq_false_iff_not, not_and, Nat.not_lt]
  intro due
  have reached := (Session.checkTime_le_iff (Nat.le_trans isStarted isHeard)).mpr due
  have exactly := Nat.le_antisymm prompt.onTime reached
  have recent : after ≤ visit.lastHeard + keepalive.period := by
    cases made : Session.checksDue keepalive visit.started before with
    | zero =>
        rw [made, Session.checkTime, Nat.zero_add, Nat.one_mul] at exactly
        omega
    | succ pinged =>
        rw [made] at exactly
        have answered := prompt.answered pinged made exactly
        rw [Session.checkTime, Nat.add_mul, Nat.one_mul] at exactly
        rw [Session.checkTime] at answered
        omega
  omega

end Visit

namespace Server

/-- The peer of a connection answers every ping in a run before the next check. -/
def Answers (clock : Nat → Moment) (id : ConnectionId) (events : List Event)
    (server : Server) : Prop :=
  ∀ before milliseconds after, events = before ++ .advance milliseconds :: after →
    ∀ visit ∈ (Ledger.empty.follow clock before server).live, visit.connection.id = id →
      visit.IsPrompt server.keepalive (server.run clock before).now
        ((server.run clock before).now + milliseconds)

def NeverGivesUp (clock : Nat → Moment) (id : ConnectionId) (events : List Event)
    (server : Server) : Prop :=
  ∀ before milliseconds after, events = before ++ .advance milliseconds :: after →
    (server.run clock before).hub.registry.contains id = true →
      ((server.run clock before).step clock (.advance milliseconds)).hub.registry.contains
        id = true ∧
      .close none ∉ ((server.run clock before).step clock (.advance milliseconds)).signals id

namespace Attends

variable {server : Server} {ledger : Ledger} {visit : Visit}

theorem advance_of_kept (attends : server.Attends ledger) (isLive : visit ∈ ledger.live)
    (clock : Nat → Moment) {milliseconds : Nat}
    (kept : visit.isGivenUp server.keepalive server.now (server.now + milliseconds) = false) :
    (server.step clock (.advance milliseconds)).hub.registry.contains visit.connection.id =
        true ∧
      .close none ∉
        (server.step clock (.advance milliseconds)).signals visit.connection.id := by
  have next := attends.step clock (.advance milliseconds)
  constructor
  · have goesOn : visit.goesOn server (.advance milliseconds) = true := by
      simp [Visit.goesOn, kept]
    have stays := Ledger.mem_live_record attends.isRight.closed isLive goesOn
    exact next.contains_iff.mpr ⟨visit, stays, rfl⟩
  · rw [attends.close_mem_signals_iff isLive]
    rintro ⟨other, same, givenUp⟩
    cases same
    rw [kept] at givenUp
    contradiction

theorem farewell (attends : server.Attends ledger) (isLive : visit ∈ ledger.live)
    {clock : Nat → Moment} {event : Event}
    (closes : .close none ∈ (server.step clock event).signals visit.connection.id) :
    (server.step clock event).signals visit.connection.id =
        server.signals visit.connection.id ++ [.close none] ∧
      (server.step clock event).hub.registry.contains visit.connection.id = false ∧
      (server.step clock event).hub.mailboxes.accepts visit.connection.id = false := by
  rcases (attends.close_mem_signals_iff isLive clock event).mp closes with
    ⟨milliseconds, isAdvance, givenUp⟩
  subst isAdvance
  have ends : visit.goesOn server (.advance milliseconds) = false := by
    simp [Visit.goesOn, givenUp]
  have hasEnded := Ledger.mem_ended_record (attends.isRight.serving isLive) isLive ends
  have gains := gains_step attends.isRight attends.balanced isLive clock
    (.advance milliseconds)
  refine ⟨?_, (attends.step clock _).not_contains_of_ended hasEnded, ?_⟩
  · rw [attends.signals_step isLive, Visit.signalled, if_pos givenUp]
  · change ((server.step clock _).mailbox visit.connection.id).isOpen = false
    rw [gains.isOpen, ends, Bool.and_false]

theorem run_of_patience (attends : server.Attends ledger) (isLive : visit ∈ ledger.live)
    (clock : Nat → Moment) (events : List Event)
    (silent : ∀ arrival, .arrive visit.connection.id arrival ∉ events)
    (late : visit.lastHeard + (server.keepalive.patience + server.keepalive.period) ≤
      (server.run clock events).now) :
    (server.run clock events).hub.registry.contains visit.connection.id = false ∧
      (server.run clock events).hub.mailboxes.accepts visit.connection.id = false ∧
      ∃ reason, ((server.run clock events).signals visit.connection.id).getLast? =
          some (.close reason) ∧
        (.shutdown ∉ events → reason = none) := by
  rcases attends.run clock events with ⟨stays, keepalive⟩
  rcases attends.run_of_silent isLive clock events silent with
    goesOn | ⟨hasEnded, closed, farewell⟩
  · have recent := (stays.keeps visit goesOn).now_lt
    rw [keepalive] at recent
    exact absurd recent (Nat.not_lt_of_le late)
  · exact ⟨stays.not_contains_of_ended hasEnded, closed, farewell⟩

end Attends

end Server

/-! ## Silent peers -/

theorem Visit.isGivenUp_iff {keepalive : Keepalive} {before after : Nat} {visit : Visit} :
    visit.isGivenUp keepalive before after = true ↔
      (before - visit.started) / keepalive.period < (after - visit.started) / keepalive.period ∧
        visit.lastHeard + keepalive.patience < after := by
  unfold isGivenUp Session.checksDue
  rw [decide_eq_true_iff, Nat.lt_sub_iff_add_lt']

namespace Server

/-- The law of the keepalive. A session has been pinged once for each check that was due
and has not closed it, and a check closes it exactly if its peer has been silent for more
than the patience. So a peer that falls silent is closed within the patience and one
period more. -/
theorem run_closes_silent (settings : Settings) (port : UInt16) (clock : Nat → Moment)
    (events : List Event) :
    let server := (start settings port).run clock events
    let ledger := Ledger.empty.follow clock events (start settings port)
    let period := max settings.pingInterval.toNat 1 * 1000
    let patience := (settings.pingInterval.toNat + settings.pingTimeout.toNat) * 1000
    server.hub.registry.members = ledger.live.map Visit.connection ∧
    ∀ visit ∈ ledger.live,
      let id := visit.connection.id
      let checks := fun time => (time - visit.started) / period
      server.now < visit.lastHeard + (patience + period) ∧
      server.signals id = List.replicate (checks server.now) .ping ∧
      (∀ event, .close none ∈ (server.step clock event).signals id ↔
        ∃ milliseconds, event = .advance milliseconds ∧
          checks server.now < checks (server.now + milliseconds) ∧
          visit.lastHeard + patience < server.now + milliseconds) ∧
      (∀ event, .close none ∈ (server.step clock event).signals id →
        (server.step clock event).signals id = server.signals id ++ [.close none] ∧
          (server.step clock event).hub.registry.contains id = false ∧
          (server.step clock event).hub.mailboxes.accepts id = false) ∧
      ∀ later, (∀ arrival, .arrive id arrival ∉ later) →
        visit.lastHeard + (patience + period) ≤ (server.run clock later).now →
        (server.run clock later).hub.registry.contains id = false ∧
          (server.run clock later).hub.mailboxes.accepts id = false ∧
          ∃ reason, ((server.run clock later).signals id).getLast? = some (.close reason) ∧
            (.shutdown ∉ later → reason = none) := by
  intro server ledger period patience
  rcases (Attends.start settings port).run clock events with ⟨attends, keepalive⟩
  have isPeriod : server.keepalive.period = period := by
    rw [keepalive]
    rfl
  have isPatience : server.keepalive.patience = patience := by
    rw [keepalive]
    rfl
  refine ⟨attends.members_eq, ?_⟩
  intro visit isLive id checks
  have keeps := attends.keeps visit isLive
  refine ⟨?_, ?_, ?_, fun event closes => attends.farewell isLive closes, ?_⟩
  · rw [← isPeriod, ← isPatience]
    exact keeps.now_lt
  · have pings := keeps.pings
    rw [Session.checksDue, isPeriod] at pings
    exact pings
  · intro event
    have closes : .close none ∈ (server.step clock event).signals id ↔
        ∃ milliseconds, event = .advance milliseconds ∧
          visit.isGivenUp server.keepalive server.now (server.now + milliseconds) = true :=
      attends.close_mem_signals_iff isLive clock event
    simp only [Visit.isGivenUp_iff, isPeriod, isPatience] at closes
    exact closes
  · intro later silent late
    rw [← isPeriod, ← isPatience] at late
    exact attends.run_of_patience isLive clock later silent late

/-- With checks every twenty seconds and a patience of thirty, a peer that says nothing at
all is pinged once and then closed. -/
theorem run_closes_silent_unheard :
    let clock : Nat → Moment := fun _ => ⟨"now", Double.zero⟩
    let server := (start Settings.default 3004).run clock
      [.connect (.v4 127 0 0 1 5000), .advance 20000]
    let later := server.run clock [.advance 30000]
    server.hub.registry.contains ⟨0⟩ = true ∧ server.signals ⟨0⟩ = [.ping] ∧
      later.hub.registry.contains ⟨0⟩ = false ∧
      (later.signals ⟨0⟩).getLast? = some (.close none) := by
  intro clock server later
  let visit : Visit := ⟨⟨⟨0⟩, .v4 127 0 0 1 5000⟩, 0, 0⟩
  let events : List Event := [.connect (.v4 127 0 0 1 5000), .advance 20000]
  have law := run_closes_silent Settings.default 3004 clock events
  have period : max Settings.default.pingInterval.toNat 1 * 1000 = 20000 := by decide
  have patience : (Settings.default.pingInterval.toNat +
    Settings.default.pingTimeout.toNat) * 1000 = 30000 := by decide
  simp only [period, patience] at law
  have isLive : visit ∈
      (Ledger.empty.follow clock events (start Settings.default 3004)).live := by
    decide +kernel
  have attends := (Attends.start Settings.default 3004).run clock events
  have now : server.now = 20000 := by
    have moved : server.now = 0 + Event.elapsed events :=
      (Attends.start Settings.default 3004).now_run clock events
    have total : Event.elapsed events = 20000 := by
      simp [events, Event.elapsed, Event.duration]
    rw [moved, total]
  have laterNow : later.now = 50000 := by
    have moved : later.now = server.now + Event.elapsed [.advance 30000] :=
      attends.1.now_run clock [.advance 30000]
    have total : Event.elapsed [.advance 30000] = 30000 := by
      simp [Event.elapsed, Event.duration]
    rw [moved, total, now]
  rcases law.2 visit isLive with ⟨_, pings, _, _, closes⟩
  have registered : server.hub.registry.contains ⟨0⟩ = true :=
    attends.1.contains_iff.mpr ⟨visit, isLive, rfl⟩
  have late : 0 + (30000 + 20000) ≤ later.now := by
    apply Nat.le_of_eq
    rw [laterNow]
  rcases closes [.advance 30000] (by simp) late with ⟨left, _, reason, last, cause⟩
  refine ⟨registered, ?_, left, ?_⟩
  · change server.signals ⟨0⟩ = List.replicate ((server.now - 0) / 20000) .ping at pings
    rw [pings, now]
    rfl
  · rw [cause (by simp)] at last
    exact last

end Server

/-! ## Responsive peers -/

theorem Keepalive.period_le_patience_iff (settings : Settings) :
    (ofSettings settings).period ≤ (ofSettings settings).patience ↔
      ¬(settings.pingInterval = 0 ∧ settings.pingTimeout = 0) := by
  rw [← UInt64.toNat_inj, ← UInt64.toNat_inj]
  simp only [period, patience, ofSettings, minimalInterval, Settings.idleTimeout,
    UInt64.toNat_zero]
  omega

namespace Server

section FirstCheck

variable (settings : Settings) (port : UInt16) (clock : Nat → Moment) (address : Address)

theorem live_of_connect :
    (Ledger.empty.follow clock [.connect address] (start settings port)).live =
      [⟨⟨⟨0⟩, address⟩, 0, 0⟩] := rfl

theorem unchecked_of_connect :
    Session.checksDue (Keepalive.ofSettings settings) 0 0 = 0 := by
  simp [Session.checksDue]

theorem answers_first_check :
    (start settings port).Answers clock ⟨0⟩
      [.connect address, .advance (Keepalive.ofSettings settings).period] := by
  intro before milliseconds after split visit isLive _
  -- The only jump of the clock is the second event.
  rcases before with _ | ⟨first, _ | ⟨second, rest⟩⟩
  · simp at split
  · simp only [List.singleton_append, List.cons.injEq, Event.advance.injEq] at split
    rcases split with ⟨rfl, rfl, _⟩
    rw [live_of_connect, List.mem_singleton] at isLive
    subst isLive
    constructor
    · change 0 + _ ≤ Session.checkTime _ 0
        (Session.checksDue (Keepalive.ofSettings settings) 0 0)
      rw [unchecked_of_connect, Session.checkTime, Nat.one_mul]
      exact Nat.le_refl _
    · intro pinged isPinged
      change Session.checksDue (Keepalive.ofSettings settings) 0 0 = _ at isPinged
      rw [unchecked_of_connect] at isPinged
      contradiction
  · simp at split

/-- A patience that is shorter than the time between two checks does not survive the first
check, which comes before the first ping. -/
theorem gives_up_impatient
    (impatient : (Keepalive.ofSettings settings).patience <
      (Keepalive.ofSettings settings).period) :
    let events := [.connect address, .advance (Keepalive.ofSettings settings).period]
    ¬(start settings port).NeverGivesUp clock ⟨0⟩ events ∧
      ((start settings port).run clock events).signals ⟨0⟩ = [.close none] := by
  intro events
  let connected := (start settings port).run clock [.connect address]
  let visit : Visit := ⟨⟨⟨0⟩, address⟩, 0, 0⟩
  have attends := ((Attends.start settings port).run clock [.connect address]).1
  have isLive : visit ∈
      (Ledger.empty.follow clock [.connect address] (start settings port)).live := by
    rw [live_of_connect]
    exact List.mem_singleton_self visit
  have givenUp : visit.isGivenUp (Keepalive.ofSettings settings) 0
      (0 + (Keepalive.ofSettings settings).period) = true := by
    have due := (Keepalive.ofSettings settings).period_pos
    simp [Visit.isGivenUp, Session.checksDue, visit, Nat.div_self due, impatient]
  constructor
  · intro never
    have kept := never [.connect address] (Keepalive.ofSettings settings).period [] rfl
      (attends.contains_iff.mpr ⟨visit, isLive, rfl⟩)
    exact kept.2 ((attends.close_mem_signals_iff isLive clock _).mpr ⟨_, rfl, givenUp⟩)
  · have pings : connected.signals ⟨0⟩ = List.replicate
        (Session.checksDue (Keepalive.ofSettings settings) 0 0) .ping :=
      (attends.keeps visit isLive).pings
    have farewell : visit.signalled connected
        (.advance (Keepalive.ofSettings settings).period) = [.close none] := if_pos givenUp
    change (connected.step clock (.advance _)).signals visit.connection.id = _
    rw [attends.signals_step isLive, farewell]
    change connected.signals ⟨0⟩ ++ _ = _
    rw [pings, unchecked_of_connect]
    rfl

end FirstCheck

/-- Peers that answer in time are kept exactly if the settings leave them any time at
all. -/
theorem keeps_responsive_iff (settings : Settings) :
    (∀ port clock id events, (start settings port).Answers clock id events →
      (start settings port).NeverGivesUp clock id events) ↔
    ¬(settings.pingInterval = 0 ∧ settings.pingTimeout = 0) := by
  rw [← Keepalive.period_le_patience_iff]
  constructor
  · intro kept
    apply Nat.le_of_not_lt
    intro impatient
    have clock : Nat → Moment := fun _ => ⟨"now", Double.zero⟩
    let address : Address := .v4 127 0 0 1 5000
    have dropped := gives_up_impatient settings 0 clock address impatient
    exact dropped.1 (kept 0 clock ⟨0⟩ _ (answers_first_check settings 0 clock address))
  · intro patient port clock id events answers before milliseconds after split registered
    rcases (Attends.start settings port).run clock before with ⟨attends, keepalive⟩
    rcases attends.contains_iff.mp registered with ⟨visit, isLive, same⟩
    have keeps := attends.keeps visit isLive
    have prompt := answers before milliseconds after split visit isLive same
    have kept := visit.not_isGivenUp_of_isPrompt prompt keeps.started_le
      (Nat.le_trans keeps.heard_le (Nat.le_add_right _ _)) patient
    rw [← same]
    apply attends.advance_of_kept isLive
    rw [keepalive]
    exact kept

/-- A peer that has not even been pinged is closed after one second. -/
theorem gives_up_unpinged :
    let settings : Settings := { Settings.default with pingInterval := 0, pingTimeout := 0 }
    let clock : Nat → Moment := fun _ => ⟨"now", Double.zero⟩
    let events := [.connect (.v4 127 0 0 1 5000), .advance 1000]
    (start settings 3004).Answers clock ⟨0⟩ events ∧
      ¬(start settings 3004).NeverGivesUp clock ⟨0⟩ events ∧
      ((start settings 3004).run clock events).signals ⟨0⟩ = [.close none] := by
  intro settings clock events
  have second : (Keepalive.ofSettings settings).period = 1000 := by decide
  have answers := answers_first_check settings 3004 clock (.v4 127 0 0 1 5000)
  have dropped := gives_up_impatient settings 3004 clock (.v4 127 0 0 1 5000) (by decide)
  rw [second] at answers dropped
  exact ⟨answers, dropped⟩

end Server

end Relay
