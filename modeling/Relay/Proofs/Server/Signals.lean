import Relay.Proofs.Server.Lifecycle

namespace Relay

/-! Signals: the pings and closes that a server queues. The texts between them are the
business of the hub and are left aside here. For every operation of a server this module
says which signals it queues for a connection, and whether it ends the session. -/

def Frame.isSignal : Frame → Bool
  | .text _ => false
  | .ping | .close _ => true

def Arrival.isLast : Arrival → Bool
  | .message _ | .ping _ | .pong _ => false
  | .close _ | .failure => true

/-! ## One mailbox -/

namespace Mailbox

def signals (mailbox : Mailbox) : List Frame := mailbox.queued.filter Frame.isSignal

/-- What becomes of a mailbox. An open one gains the signals, among any texts, and stays
open or is finished. A closed one stays as it is. -/
structure Gains (signals : List Frame) (stays : Bool) (before after : Mailbox) : Prop where
  gained : before.isOpen = true → after.signals = before.signals ++ signals
  isOpen : after.isOpen = (before.isOpen && stays)
  unchanged : before.isOpen = false → after = before

namespace Gains

variable {first second : List Frame} {stays remains : Bool} {mailbox before after : Mailbox}

theorem refl (mailbox : Mailbox) : Gains [] true mailbox mailbox :=
  ⟨fun _ => (List.append_nil _).symm, (Bool.and_true _).symm, fun _ => rfl⟩

theorem trans (front : Gains first stays before mailbox)
    (back : Gains second remains mailbox after) :
    Gains (first ++ if stays then second else []) (stays && remains) before after where
  gained := by
    intro isOpen
    have between := front.isOpen
    rw [isOpen, Bool.true_and] at between
    cases stays with
    | true =>
        rw [back.gained between, front.gained isOpen]
        simp
    | false =>
        rw [back.unchanged between, front.gained isOpen]
        simp
  isOpen := by rw [back.isOpen, front.isOpen, Bool.and_assoc]
  unchanged := by
    intro closed
    have same := front.unchanged closed
    subst same
    exact back.unchanged closed

theorem postAll (frames : List Frame) (mailbox : Mailbox) :
    Gains (frames.filter Frame.isSignal) true mailbox (mailbox.postAll frames) where
  gained := by
    intro isOpen
    rw [signals, queued_postAll, if_pos isOpen, List.filter_append]
    rfl
  isOpen := by rw [isOpen_postAll, Bool.and_true]
  unchanged := fun closed => postAll_of_closed closed frames

theorem texts (envelopes : List Envelope) (mailbox : Mailbox) :
    Gains [] true mailbox (mailbox.postAll (envelopes.map .ofEnvelope)) := by
  have none : (envelopes.map Frame.ofEnvelope).filter Frame.isSignal = [] := by
    apply List.filter_eq_nil_iff.mpr
    intro frame member
    rcases List.mem_map.mp member with ⟨envelope, _, same⟩
    rw [← same]
    exact Bool.false_ne_true
  have posted := postAll (envelopes.map .ofEnvelope) mailbox
  rw [none] at posted
  exact posted

theorem finish (mailbox : Mailbox) : Gains [] false mailbox mailbox.finish where
  gained := fun _ => (List.append_nil _).symm
  isOpen := (Bool.and_false _).symm
  unchanged := by
    intro closed
    cases mailbox
    cases closed
    rfl

end Gains

end Mailbox

namespace Server

def mailbox (id : ConnectionId) (server : Server) : Mailbox := server.hub.mailboxes.get id

def signals (id : ConnectionId) (server : Server) : List Frame := (server.mailbox id).signals

/-! ## Ends -/

theorem mailbox_post (other : ConnectionId) (frame : Frame) (id : ConnectionId)
    (server : Server) :
    (server.post other frame).mailbox id =
      (server.mailbox id).postAll (if other = id then [frame] else []) :=
  Mailboxes.get_post frame other id server.hub.mailboxes

theorem mailbox_postAll (other : ConnectionId) (frames : List Frame) (id : ConnectionId)
    (server : Server) :
    (server.postAll other frames).mailbox id =
      (server.mailbox id).postAll (if other = id then frames else []) := by
  induction frames generalizing server with
  | nil => simp [Server.postAll]
  | cons frame frames induction =>
      change ((server.post other frame).postAll other frames).mailbox id = _
      rw [induction, mailbox_post]
      split <;> rfl

theorem mailbox_endSession (other id : ConnectionId) (server : Server) :
    (server.endSession other).mailbox id =
      if other = id then (server.mailbox id).finish else server.mailbox id :=
  Mailboxes.get_modify .finish rfl other id server.hub.mailboxes

theorem gains_endSession {id : ConnectionId} (server : Server) (other : ConnectionId) :
    (server.mailbox id).Gains [] (other ≠ id) ((server.endSession other).mailbox id) := by
  rw [mailbox_endSession]
  by_cases same : other = id
  · simpa [same] using Mailbox.Gains.finish (server.mailbox id)
  · simpa [same] using Mailbox.Gains.refl (server.mailbox id)

/-! ## Dismissals -/

theorem mailbox_dismiss (frame : Frame) (other id : ConnectionId) (server : Server) :
    (server.dismiss frame other).mailbox id =
      if other = id then ((server.mailbox id).post frame).finish else server.mailbox id := by
  rw [dismiss, mailbox_endSession, mailbox_post]
  split <;> rfl

theorem mailbox_dismiss_all (frame : Frame) {dismissed : List Session}
    (distinct : (dismissed.map fun session => session.connection.id).Nodup)
    (id : ConnectionId) (server : Server) :
    (dismissed.foldl (fun server session =>
      server.dismiss frame session.connection.id) server).mailbox id =
      if id ∈ dismissed.map (fun session => session.connection.id) then
        ((server.mailbox id).post frame).finish
      else server.mailbox id := by
  induction dismissed generalizing server with
  | nil => rfl
  | cons first others induction =>
      rcases List.nodup_cons.mp distinct with ⟨once, restDistinct⟩
      rw [List.foldl_cons, induction restDistinct, mailbox_dismiss]
      by_cases same : first.connection.id = id
      · subst same
        simp [once]
      · simp [same, Ne.symm same]

theorem mailbox_dismissAll {server : Server} (mirrors : server.Mirrors) (id : ConnectionId) :
    server.dismissAll.mailbox id =
      if id ∈ server.sessions.map (fun session => session.connection.id) then
        ((server.mailbox id).post (.close (some goingAway))).finish
      else server.mailbox id :=
  mailbox_dismiss_all _ mirrors.distinct id server

theorem gains_dismissAll {server : Server} (mirrors : server.Mirrors) {session : Session}
    (member : session ∈ server.sessions) :
    (server.mailbox session.connection.id).Gains [.close (some goingAway)] false
      (server.dismissAll.mailbox session.connection.id) := by
  have named : session.connection.id ∈
      server.sessions.map fun session => session.connection.id := List.mem_map_of_mem member
  rw [mailbox_dismissAll mirrors, if_pos named]
  exact (Mailbox.Gains.postAll [.close (some goingAway)] _).trans (.finish _)

/-! ## Checks -/

theorem filter_expire (keepalive : Keepalive) (now : Nat) (session : Session) :
    (session.expire keepalive now).1.filter Frame.isSignal =
      (session.expire keepalive now).1 := by
  rw [Session.expire_eq]
  split
  · rfl
  · exact List.filter_replicate_of_pos rfl

section Checks

variable {id : ConnectionId} {server : Server} {session : Session}

theorem gains_check (found : server.session? id = some session) :
    (server.mailbox id).Gains (session.expire server.keepalive server.now).1
      (session.expire server.keepalive server.now).2.isSome
      ((server.check id).mailbox id) := by
  have posted : (server.mailbox id).Gains (session.expire server.keepalive server.now).1 true
      ((server.postAll id (session.expire server.keepalive server.now).1).mailbox id) := by
    rw [mailbox_postAll, if_pos rfl]
    have gains := Mailbox.Gains.postAll (session.expire server.keepalive server.now).1
      (server.mailbox id)
    rw [filter_expire] at gains
    exact gains
  cases left : (session.expire server.keepalive server.now).2 with
  | none =>
      rw [check_of_closed found left]
      simpa using posted.trans (gains_endSession _ id)
  | some rest =>
      rw [check_of_left found left]
      exact posted

theorem mailbox_check_other {other : ConnectionId} (different : other ≠ id) :
    (server.check other).mailbox id = server.mailbox id := by
  cases found : server.session? other with
  | none => rw [check_of_missing found]
  | some session =>
      have posted (frames : List Frame) :
          (server.postAll other frames).mailbox id = server.mailbox id := by
        rw [mailbox_postAll, if_neg different]
        rfl
      cases left : (session.expire server.keepalive server.now).2 with
      | none => rw [check_of_closed found left, mailbox_endSession, if_neg different, posted]
      | some rest =>
          rw [check_of_left found left]
          exact posted _

theorem exists_gains_check (other : ConnectionId) :
    ∃ signals stays, (server.mailbox id).Gains signals stays
      ((server.check other).mailbox id) := by
  by_cases same : other = id
  · subst same
    cases found : server.session? other with
    | none =>
        rw [check_of_missing found]
        exact ⟨_, _, .refl _⟩
    | some session => exact ⟨_, _, gains_check found⟩
  · rw [mailbox_check_other same]
    exact ⟨_, _, .refl _⟩

/-! ## Timers -/

theorem gains_beat (moment : Moment) :
    (server.mailbox id).Gains [] true ((server.beat moment).mailbox id) := by
  unfold beat
  cases server.heartbeat with
  | none => exact .refl _
  | some heartbeat =>
      have fired := server.hub.get_emitTimes moment (heartbeat.expire server.now).1 id
      change (server.mailbox id).Gains [] true (Mailboxes.get id (Hub.mailboxes _))
      rw [fired]
      exact .texts _ _

theorem exists_gains_fire (moment : Moment) (timer : Timer) :
    ∃ signals stays, (server.mailbox id).Gains signals stays
      ((server.fire moment timer).mailbox id) := by
  cases timer with
  | heartbeat => exact ⟨_, _, gains_beat moment⟩
  | check other => exact exists_gains_check other

theorem gains_fire_other {timer : Timer} (different : timer ≠ .check id) (moment : Moment) :
    (server.mailbox id).Gains [] true ((server.fire moment timer).mailbox id) := by
  cases timer with
  | heartbeat => exact gains_beat moment
  | check other =>
      have isOther : other ≠ id := fun same => different (congrArg Timer.check same)
      change (server.mailbox id).Gains [] true ((server.check other).mailbox id)
      rw [mailbox_check_other isOther]
      exact .refl _

end Checks

theorem exists_gains_fireAll (clock : Nat → Moment) (due : List (Nat × Timer))
    (id : ConnectionId) (server : Server) :
    ∃ signals stays, (server.mailbox id).Gains signals stays ((due.foldl
      (fun server (_, timer) => server.fire (clock server.now) timer) server).mailbox id) := by
  induction due generalizing server with
  | nil => exact ⟨_, _, .refl _⟩
  | cons first due induction =>
      rcases exists_gains_fire (clock server.now) first.2 with ⟨_, _, front⟩
      rcases induction (server.fire (clock server.now) first.2) with ⟨_, _, back⟩
      exact ⟨_, _, front.trans back⟩

/-- The checks of a session are made when the first of its timers fires. Its other timers
find nothing more to do. -/
theorem gains_fireAll (clock : Nat → Moment) (due : List (Nat × Timer)) {server : Server}
    (mirrors : server.Mirrors) {session : Session} (member : session ∈ server.sessions) :
    let id := session.connection.id
    let checks := session.expire server.keepalive server.now
    let isDue := Timer.check id ∈ due.map Prod.snd
    (server.mailbox id).Gains (if isDue then checks.1 else [])
      (!isDue || checks.2.isSome) ((due.foldl
        (fun server (_, timer) => server.fire (clock server.now) timer) server).mailbox id) := by
  induction due generalizing server session with
  | nil => simpa using Mailbox.Gains.refl (server.mailbox session.connection.id)
  | cons first due induction =>
      rcases first with ⟨time, timer⟩
      rcases server.fire_spec mirrors (clock server.now) timer
        with ⟨beside, firedMirrors, firedSessions⟩
      have left {rest : Session} (isLeft : server.afterTimers [timer] session = some rest) :
          rest ∈ (server.fire (clock server.now) timer).sessions := by
        rw [firedSessions]
        exact List.mem_filterMap.mpr ⟨session, member, isLeft⟩
      by_cases isCheck : timer = .check session.connection.id
      · subst isCheck
        have front : (server.mailbox session.connection.id).Gains _ _
            ((server.fire (clock server.now) (.check session.connection.id)).mailbox _) :=
          gains_check (session?_of_mem mirrors member)
        have checked : server.afterTimers [.check session.connection.id] session =
            (session.expire server.keepalive server.now).2 := by
          simp [afterTimers]
        cases outcome : (session.expire server.keepalive server.now).2 with
        | none =>
            rcases exists_gains_fireAll clock due session.connection.id
              (server.fire (clock server.now) (.check session.connection.id))
              with ⟨_, _, back⟩
            rw [outcome] at front
            simpa [outcome] using front.trans back
        | some rest =>
            have same := Session.connection_of_expire outcome
            have back := induction firedMirrors (left (checked.trans outcome))
            rw [beside.keepalive, beside.now, same,
              Session.expire_of_early (Session.early_of_expire outcome)] at back
            rw [outcome] at front
            simpa [outcome] using front.trans back
      · have front : (server.mailbox session.connection.id).Gains [] true
            ((server.fire (clock server.now) timer).mailbox _) :=
          gains_fire_other isCheck (clock server.now)
        have unchecked : server.afterTimers [timer] session = some session := by
          simp [afterTimers, Ne.symm isCheck]
        have sameDue : Timer.check session.connection.id ∈
            ((time, timer) :: due).map Prod.snd ↔
              Timer.check session.connection.id ∈ due.map Prod.snd := by
          simp [Ne.symm isCheck]
        have back := induction firedMirrors (left unchecked)
        rw [beside.keepalive, beside.now] at back
        simp only [sameDue]
        simpa using front.trans back

theorem hub_settle (server : Server) : server.settle.hub = server.hub :=
  (settle_spec server).2.1

/-- A jump of the clock makes all checks of a session that have become due. -/
theorem gains_advance {server : Server} (mirrors : server.Mirrors) {session : Session}
    (member : session ∈ server.sessions) (clock : Nat → Moment) (milliseconds : Nat) :
    let id := session.connection.id
    let checks := session.expire server.keepalive (server.now + milliseconds)
    (server.mailbox id).Gains checks.1 checks.2.isSome
      ((server.advance clock milliseconds).mailbox id) := by
  intro id checks
  let moved : Server := { server with now := server.now + milliseconds }
  have movedMirrors : moved.Mirrors := mirrors
  have movedMember : session ∈ moved.sessions := member
  have fired := gains_fireAll clock moved.timers movedMirrors movedMember
  have isDue : Timer.check session.connection.id ∈ moved.timers.map Prod.snd :=
    check_mem_timers movedMember
  simp only [isDue, if_true, decide_true, Bool.not_true, Bool.false_or] at fired
  rw [mailbox, mailbox, advance, hub_settle]
  exact fired

/-! ## Arrivals and starts -/

theorem gains_arrive {server : Server} {other : ConnectionId} {session : Session}
    (found : server.session? other = some session) (moment : Moment) (arrival : Arrival)
    (id : ConnectionId) :
    (server.mailbox id).Gains [] (!(arrival.isLast && other = id))
      ((server.arrive moment other arrival).mailbox id) := by
  unfold arrive
  rw [found]
  have ended : (server.mailbox id).Gains [] (other ≠ id)
      (((server.update (session.seenAt server.now)).endSession other).mailbox id) :=
    gains_endSession _ other
  cases arrival with
  | message message =>
      change (server.mailbox id).Gains [] true
        ((server.hub.dispatch moment session.connection message).mailboxes.get id)
      rw [Hub.get_dispatch]
      exact .texts _ _
  | ping payload => exact .refl _
  | pong payload => exact .refl _
  | close reason => simpa [Arrival.isLast] using ended
  | failure => simpa [Arrival.isLast] using ended

section Starts

variable {id : ConnectionId} {server : Server} (moment : Moment) (address : Address)

theorem mailbox_accept_other (made : id.number < server.hub.mailboxes.boxes.length) :
    (server.accept moment address).mailbox id = server.mailbox id := by
  have notFresh : id ≠ server.hub.mailboxes.fresh := by
    intro isFresh
    exact Nat.ne_of_lt made (congrArg ConnectionId.number isFresh)
  have registered := (server.hub.openConnection address).2.get_registerWelcomed moment
    ⟨server.hub.mailboxes.fresh, address⟩ id
  rw [Hub.greetingFor, if_neg fun greeted => notFresh greeted.1.symm] at registered
  exact registered.trans (Mailboxes.get_add_other notFresh)

theorem mailbox_accept_fresh :
    ((server.accept moment address).mailbox server.hub.mailboxes.fresh).isOpen = true ∧
      (server.accept moment address).signals server.hub.mailboxes.fresh = [] := by
  have registered := (server.hub.openConnection address).2.get_registerWelcomed moment
    ⟨server.hub.mailboxes.fresh, address⟩ server.hub.mailboxes.fresh
  have opened : (server.hub.openConnection address).2.mailboxes.get
      server.hub.mailboxes.fresh = .empty := Mailboxes.get_add_fresh _
  rw [opened] at registered
  have greeted : (server.accept moment address).mailbox server.hub.mailboxes.fresh = _ :=
    registered
  have gains := Mailbox.Gains.texts ((server.hub.openConnection address).2.greetingFor moment
    ⟨server.hub.mailboxes.fresh, address⟩ server.hub.mailboxes.fresh) .empty
  rw [signals, greeted]
  exact ⟨gains.isOpen, gains.gained rfl⟩

end Starts

end Server

end Relay
