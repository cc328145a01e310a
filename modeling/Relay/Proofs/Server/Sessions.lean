import Mathlib.Data.List.Nodup
import Relay.Proofs.Hub.Posting
import Relay.Proofs.Session.Expiry
import Relay.Server

namespace Relay.Server

/-! What the operations of a server do to its sessions. The registry always holds
exactly the connections of the sessions, in the order in which they started, and
no operation but the passing of time and the end of the server touches the clock,
the phase or the peers that have not finished their handshake. -/

def Mirrors (server : Server) : Prop :=
  server.hub.registry.members = server.sessions.map Session.connection

/-- Two states differ at most in the sessions and in what the hub has queued and
counted for those that were connected. -/
structure Beside (before after : Server) : Prop where
  keepalive : after.keepalive = before.keepalive
  now : after.now = before.now
  phase : after.phase = before.phase
  pending : after.pending = before.pending
  connected : after.hub.mailboxes.boxes.length = before.hub.mailboxes.boxes.length

theorem Beside.refl (server : Server) : Beside server server := ⟨rfl, rfl, rfl, rfl, rfl⟩

theorem Beside.trans {first second third : Server} (front : Beside first second)
    (back : Beside second third) : Beside first third where
  keepalive := back.keepalive.trans front.keepalive
  now := back.now.trans front.now
  phase := back.phase.trans front.phase
  pending := back.pending.trans front.pending
  connected := back.connected.trans front.connected

theorem Mirrors.distinct {server : Server} (mirrors : server.Mirrors) :
    (server.sessions.map fun session => session.connection.id).Nodup := by
  have distinct := server.hub.registry.distinct
  rw [mirrors, List.map_map] at distinct
  exact distinct

/-! ## Ends -/

theorem beside_post (id : ConnectionId) (frame : Frame) (server : Server) :
    Beside server (server.post id frame) :=
  ⟨rfl, rfl, rfl, rfl, Mailboxes.length_post _ _ _⟩

theorem beside_endSession (id : ConnectionId) (server : Server) :
    Beside server (server.endSession id) :=
  ⟨rfl, rfl, rfl, rfl, Mailboxes.length_modify _ _ _⟩

theorem beside_dismiss (frame : Frame) (id : ConnectionId) (server : Server) :
    Beside server (server.dismiss frame id) :=
  (server.beside_post id frame).trans ((server.post id frame).beside_endSession id)

theorem Mirrors.endSession {server : Server} (mirrors : server.Mirrors) (id : ConnectionId) :
    (server.endSession id).Mirrors := by
  change server.hub.registry.members.filter _ = (server.sessions.filter _).map _
  rw [mirrors, List.filter_map]
  rfl

theorem Mirrors.dismiss {server : Server} (mirrors : server.Mirrors) (frame : Frame)
    (id : ConnectionId) : (server.dismiss frame id).Mirrors := by
  have posted : (server.post id frame).Mirrors := mirrors
  exact posted.endSession id

theorem dismiss_all (frame : Frame) (dismissed : List Session) (server : Server) :
    let after := dismissed.foldl (fun server session =>
      server.dismiss frame session.connection.id) server
    Beside server after ∧ (server.Mirrors → after.Mirrors) ∧
      after.sessions = server.sessions.filter fun session =>
        session.connection.id ∉ dismissed.map fun other => other.connection.id := by
  induction dismissed generalizing server with
  | nil =>
      refine ⟨Beside.refl server, id, (List.filter_eq_self.mpr ?_).symm⟩
      intro session _
      simp
  | cons first others induction =>
      have step := induction (server.dismiss frame first.connection.id)
      refine ⟨(server.beside_dismiss frame first.connection.id).trans step.1,
        fun mirrors => step.2.1 (mirrors.dismiss frame first.connection.id), ?_⟩
      rw [List.foldl_cons, step.2.2]
      change (server.sessions.filter _).filter _ = _
      rw [List.filter_filter]
      apply List.filter_congr
      intro session _
      rw [Bool.eq_iff_iff]
      simp [and_comm]

theorem dismissAll_spec (server : Server) :
    Beside server server.dismissAll ∧ (server.Mirrors → server.dismissAll.Mirrors) ∧
      server.dismissAll.sessions = [] := by
  have all := dismiss_all (.close (some goingAway)) server.sessions server
  refine ⟨all.1, all.2.1, all.2.2.trans ?_⟩
  apply List.filter_eq_nil_iff.mpr
  intro session member
  have onList := List.mem_map_of_mem (f := fun (other : Session) => other.connection.id) member
  simp [onList]

/-! ## Single sessions -/

theorem mem_of_session? {id : ConnectionId} {server : Server} {session : Session}
    (found : server.session? id = some session) :
    session ∈ server.sessions ∧ session.connection.id = id :=
  ⟨List.mem_of_find?_eq_some found, by simpa using List.find?_some found⟩

theorem session?_of_mem {server : Server} (mirrors : server.Mirrors) {session : Session}
    (member : session ∈ server.sessions) :
    server.session? session.connection.id = some session := by
  cases found : server.session? session.connection.id with
  | none => simp [session?] at found; exact absurd rfl (found session member)
  | some other =>
      rcases mem_of_session? found with ⟨otherMember, same⟩
      rw [List.inj_on_of_nodup_map mirrors.distinct otherMember member same]

theorem id_ne_of_session?_eq_none {id : ConnectionId} {server : Server}
    (missing : server.session? id = none) :
    ∀ session ∈ server.sessions, session.connection.id ≠ id := by
  intro session member same
  exact List.find?_eq_none.mp missing session member (by simpa using same)

theorem beside_update (session : Session) (server : Server) :
    Beside server (server.update session) :=
  ⟨rfl, rfl, rfl, rfl, rfl⟩

/-- A new state of a session has its old connection, so that the registry is still
right. -/
theorem Mirrors.update {server : Server} (mirrors : server.Mirrors) {old new : Session}
    (member : old ∈ server.sessions) (same : new.connection = old.connection) :
    (server.update new).Mirrors := by
  change server.hub.registry.members = (server.sessions.map _).map _
  rw [mirrors, List.map_map]
  apply List.map_congr_left
  intro other otherMember
  simp only [Function.comp]
  split
  · rename_i isOld
    rw [same] at isOld ⊢
    rw [List.inj_on_of_nodup_map mirrors.distinct otherMember member isOld]
  · rfl

/-! ## Checks -/

def afterCheck (id : ConnectionId) (server : Server) (session : Session) : Option Session :=
  if session.connection.id = id then (session.expire server.keepalive server.now).2
  else some session

def postAll (id : ConnectionId) (frames : List Frame) (server : Server) : Server :=
  frames.foldl (fun server frame => server.post id frame) server

theorem postAll_spec (id : ConnectionId) (frames : List Frame) (server : Server) :
    Beside server (server.postAll id frames) ∧
      (server.postAll id frames).sessions = server.sessions ∧
      (server.postAll id frames).hub.registry = server.hub.registry := by
  induction frames generalizing server with
  | nil => exact ⟨Beside.refl server, rfl, rfl⟩
  | cons frame frames induction =>
      have rest := induction (server.post id frame)
      exact ⟨(server.beside_post id frame).trans rest.1, rest.2.1, rest.2.2⟩

section Check

variable {id : ConnectionId} {server : Server} {session : Session}

theorem check_of_missing (missing : server.session? id = none) : server.check id = server := by
  rw [check, missing]

theorem check_of_closed (found : server.session? id = some session)
    (closed : (session.expire server.keepalive server.now).2 = none) :
    server.check id =
      (server.postAll id (session.expire server.keepalive server.now).1).endSession id := by
  rw [check, found]
  simp only [closed]
  rfl

theorem check_of_left {rest : Session} (found : server.session? id = some session)
    (left : (session.expire server.keepalive server.now).2 = some rest) :
    server.check id =
      (server.postAll id (session.expire server.keepalive server.now).1).update rest := by
  rw [check, found]
  simp only [left]
  rfl

theorem check_spec (mirrors : server.Mirrors) (id : ConnectionId) :
    Beside server (server.check id) ∧ (server.check id).Mirrors ∧
      (server.check id).sessions = server.sessions.filterMap (server.afterCheck id) := by
  cases found : server.session? id with
  | none =>
      rw [check_of_missing found]
      refine ⟨Beside.refl server, mirrors, ?_⟩
      have kept : ∀ session ∈ server.sessions,
          server.afterCheck id session = some session :=
        fun session member => if_neg (id_ne_of_session?_eq_none found session member)
      rw [List.filterMap_congr kept, List.filterMap_some]
  | some session =>
      rcases mem_of_session? found with ⟨member, isSession⟩
      have only : ∀ other ∈ server.sessions,
          other.connection.id = id → other = session := by
        intro other otherMember same
        exact List.inj_on_of_nodup_map mirrors.distinct otherMember member
          (same.trans isSession.symm)
      rcases server.postAll_spec id (session.expire server.keepalive server.now).1
        with ⟨beside, sameSessions, sameRegistry⟩
      have posted : (server.postAll id
          (session.expire server.keepalive server.now).1).Mirrors := by
        rw [Mirrors, sameRegistry, sameSessions]
        exact mirrors
      cases left : (session.expire server.keepalive server.now).2 with
      | none =>
          rw [check_of_closed found left]
          refine ⟨beside.trans (beside_endSession id _), posted.endSession id, ?_⟩
          change List.filter _ (postAll id _ server).sessions = _
          rw [sameSessions, ← List.filterMap_eq_filter]
          apply List.filterMap_congr
          intro other otherMember
          by_cases same : other.connection.id = id
          · rw [only other otherMember same]
            simp [afterCheck, isSession, left]
          · simp [afterCheck, same]
      | some rest =>
          have same : rest.connection = session.connection := Session.connection_of_expire left
          rw [check_of_left found left]
          refine ⟨beside.trans (beside_update rest _),
            posted.update (by rw [sameSessions]; exact member) same, ?_⟩
          change List.map _ (postAll id _ server).sessions = _
          rw [sameSessions, ← List.filterMap_eq_map]
          apply List.filterMap_congr
          intro other otherMember
          by_cases isId : other.connection.id = id
          · rw [only other otherMember isId]
            simp [afterCheck, isSession, left, same]
          · simp [afterCheck, isId, same, isSession]

end Check

/-! ## Timers -/

def afterTimers (due : List Timer) (server : Server) (session : Session) : Option Session :=
  if .check session.connection.id ∈ due then
    (session.expire server.keepalive server.now).2
  else some session

theorem beside_beat (moment : Moment) (server : Server) :
    Beside server (server.beat moment) := by
  unfold beat
  cases server.heartbeat with
  | none => exact Beside.refl server
  | some heartbeat => exact ⟨rfl, rfl, rfl, rfl, Hub.length_emitTimes _ _ _⟩

theorem beat_spec (moment : Moment) (server : Server) :
    (server.beat moment).sessions = server.sessions ∧
      (server.beat moment).hub.registry = server.hub.registry := by
  unfold beat
  cases server.heartbeat with
  | none => exact ⟨rfl, rfl⟩
  | some heartbeat => exact ⟨rfl, Hub.registry_emitTimes _ _ _⟩

theorem fire_spec {server : Server} (mirrors : server.Mirrors) (moment : Moment)
    (timer : Timer) :
    Beside server (server.fire moment timer) ∧ (server.fire moment timer).Mirrors ∧
      (server.fire moment timer).sessions =
        server.sessions.filterMap (server.afterTimers [timer]) := by
  cases timer with
  | heartbeat =>
      rcases server.beat_spec moment with ⟨sameSessions, sameRegistry⟩
      refine ⟨server.beside_beat moment, ?_, ?_⟩
      · change (server.beat moment).Mirrors
        rw [Mirrors, sameSessions, sameRegistry]
        exact mirrors
      · have kept : server.afterTimers [.heartbeat] = some := by
          funext session
          simp [afterTimers]
        rw [kept, List.filterMap_some]
        exact sameSessions
  | check id =>
      have same : server.afterTimers [.check id] = server.afterCheck id := by
        funext session
        simp [afterTimers, afterCheck]
      rw [same]
      exact server.check_spec mirrors id

/-- Timers may fire in any order and more than once: nothing is due any more in a
session that has been checked. -/
theorem afterTimers_cons (timer : Timer) (due : List Timer) (server : Server)
    (session : Session) :
    (server.afterTimers [timer] session).bind (server.afterTimers due) =
      server.afterTimers (timer :: due) session := by
  by_cases first : Timer.check session.connection.id = timer
  · have fires : server.afterTimers [timer] session =
        (session.expire server.keepalive server.now).2 := by
      simp [afterTimers, first]
    have all : server.afterTimers (timer :: due) session =
        (session.expire server.keepalive server.now).2 := by
      simp [afterTimers, first]
    rw [fires, all]
    cases left : (session.expire server.keepalive server.now).2 with
    | none => rfl
    | some rest =>
        have early := Session.early_of_expire left
        simp [afterTimers, Session.expire_of_early early]
  · simp [afterTimers, first]

theorem afterTimers_of_beside {before after : Server} (beside : Beside before after)
    (due : List Timer) : after.afterTimers due = before.afterTimers due := by
  funext session
  rw [afterTimers, afterTimers, beside.keepalive, beside.now]

theorem fireAll_spec (clock : Nat → Moment) (due : List (Nat × Timer)) {server : Server}
    (mirrors : server.Mirrors) :
    let after := due.foldl
      (fun server (_, timer) => server.fire (clock server.now) timer) server
    Beside server after ∧ after.Mirrors ∧
      after.sessions = server.sessions.filterMap (server.afterTimers (due.map Prod.snd)) := by
  induction due generalizing server with
  | nil =>
      have kept : server.afterTimers [] = some := by
        funext session
        simp [afterTimers]
      refine ⟨Beside.refl server, mirrors, ?_⟩
      rw [List.map_nil, kept, List.filterMap_some]
      rfl
  | cons first due induction =>
      rcases first with ⟨time, timer⟩
      rcases server.fire_spec mirrors (clock server.now) timer
        with ⟨beside, firstMirrors, firstSessions⟩
      rcases induction firstMirrors with ⟨rest, restMirrors, restSessions⟩
      refine ⟨beside.trans rest, restMirrors, ?_⟩
      rw [List.foldl_cons, restSessions, firstSessions, List.filterMap_filterMap,
        afterTimers_of_beside beside]
      apply List.filterMap_congr
      intro session _
      exact server.afterTimers_cons timer (due.map Prod.snd) session

theorem check_mem_timers {server : Server} {session : Session}
    (member : session ∈ server.sessions) :
    Timer.check session.connection.id ∈ server.timers.map Prod.snd := by
  apply List.mem_map.mpr
  refine ⟨(session.nextCheck, .check session.connection.id), ?_, rfl⟩
  apply List.mem_mergeSort.mpr
  apply List.mem_append_right
  exact List.mem_map.mpr ⟨session, member, rfl⟩

/-! ## The end -/

theorem settle_spec (server : Server) :
    server.settle.sessions = server.sessions ∧ server.settle.hub = server.hub ∧
      server.settle.keepalive = server.keepalive ∧ server.settle.now = server.now ∧
      (server.settle.phase = .serving ↔ server.phase = .serving) := by
  unfold settle
  split
  · rename_i deadline draining
    split
    · simp [draining]
    · simp
  · simp

/-- The clock has jumped, and everything that was due has happened. -/
theorem advance_spec {server : Server} (mirrors : server.Mirrors) (clock : Nat → Moment)
    (milliseconds : Nat) :
    (server.advance clock milliseconds).keepalive = server.keepalive ∧
      (server.advance clock milliseconds).now = server.now + milliseconds ∧
      ((server.advance clock milliseconds).phase = .serving ↔ server.phase = .serving) ∧
      (server.advance clock milliseconds).hub.mailboxes.boxes.length =
        server.hub.mailboxes.boxes.length ∧
      (server.advance clock milliseconds).Mirrors ∧
      (server.advance clock milliseconds).sessions = server.sessions.filterMap fun session =>
        (session.expire server.keepalive (server.now + milliseconds)).2 := by
  let moved : Server := { server with now := server.now + milliseconds }
  have movedMirrors : moved.Mirrors := mirrors
  rcases fireAll_spec clock moved.timers movedMirrors
    with ⟨beside, firedMirrors, firedSessions⟩
  have settled : server.advance clock milliseconds = settle (moved.timers.foldl
      (fun server (_, timer) => server.fire (clock server.now) timer) moved) := rfl
  rw [settled]
  -- Of the state after the timers only what `fireAll_spec` says is needed.
  generalize moved.timers.foldl (fun server (_, timer) => server.fire (clock server.now) timer)
    moved = after at beside firedMirrors firedSessions ⊢
  rcases after.settle_spec with ⟨sessions, hub, keepalive, now, phase⟩
  refine ⟨keepalive.trans beside.keepalive, now.trans beside.now, ?_, ?_, ?_, ?_⟩
  · rw [phase, beside.phase]
  · rw [hub]
    exact beside.connected
  · rw [Mirrors, hub, sessions]
    exact firedMirrors
  · rw [sessions, firedSessions]
    apply List.filterMap_congr
    intro session member
    exact if_pos (check_mem_timers member)

/-! ## Starts -/

theorem accept_spec {server : Server} (mirrors : server.Mirrors)
    (numbered : ∀ session ∈ server.sessions,
      session.connection.id.number < server.hub.mailboxes.boxes.length)
    (moment : Moment) (address : Address) :
    (server.accept moment address).Mirrors ∧
      (server.accept moment address).hub.mailboxes.boxes.length =
        server.hub.mailboxes.boxes.length + 1 ∧
      (server.accept moment address).sessions = server.sessions ++
        [.start server.keepalive ⟨server.hub.mailboxes.fresh, address⟩ server.now] := by
  have isNew : server.hub.registry.contains server.hub.mailboxes.fresh = false := by
    apply Bool.eq_false_iff.mpr
    intro present
    have member := Registry.contains_iff.mp present
    rw [mirrors, List.map_map] at member
    rcases List.mem_map.mp member with ⟨session, isSession, same⟩
    have bound := numbered session isSession
    have number : session.connection.id.number = server.hub.mailboxes.boxes.length :=
      congrArg ConnectionId.number same
    omega
  have registered := Hub.registry_registerWelcomed moment
    ⟨server.hub.mailboxes.fresh, address⟩ (server.hub.openConnection address).2
  refine ⟨?_, ?_, rfl⟩
  · change ((server.hub.openConnection address).2.registerWelcomed moment
      ⟨server.hub.mailboxes.fresh, address⟩).registry.members = _
    rw [registered]
    change (server.hub.registry.register _).members = List.map _ (server.sessions ++ _)
    rw [Registry.members_register_of_absent isNew, mirrors, List.map_append]
    rfl
  · change
      ((server.hub.openConnection address).2.registerWelcomed moment _).mailboxes.boxes.length
        = _
    rw [Hub.length_registerWelcomed]
    simp [Hub.openConnection, Mailboxes.add]

/-! ## Arrivals -/

def heard (id : ConnectionId) (server : Server) (session : Session) : Session :=
  if session.connection.id = id then session.seenAt server.now else session

theorem connection_heard (id : ConnectionId) (server : Server) (session : Session) :
    (server.heard id session).connection = session.connection := by
  unfold heard
  split <;> rfl

section Arrivals

variable {id : ConnectionId} {server : Server}

theorem arrive_of_missing (missing : server.session? id = none) (moment : Moment)
    (arrival : Arrival) : server.arrive moment id arrival = server := by
  rw [arrive, missing]

theorem heard_of_missing (missing : server.session? id = none) :
    server.sessions.map (server.heard id) = server.sessions := by
  have same : ∀ session ∈ server.sessions, server.heard id session = session :=
    fun session member => if_neg (id_ne_of_session?_eq_none missing session member)
  rw [List.map_congr_left same, List.map_id']

theorem filter_of_missing (missing : server.session? id = none) :
    server.sessions.filter (fun session => session.connection.id ≠ id) =
      server.sessions := by
  apply List.filter_eq_self.mpr
  intro session member
  exact decide_eq_true (id_ne_of_session?_eq_none missing session member)

theorem update_seenAt_spec (mirrors : server.Mirrors) {session : Session}
    (found : server.session? id = some session) :
    (server.update (session.seenAt server.now)).Mirrors ∧
      (server.update (session.seenAt server.now)).sessions =
        server.sessions.map (server.heard id) := by
  rcases mem_of_session? found with ⟨member, isSession⟩
  refine ⟨mirrors.update member rfl, ?_⟩
  apply List.map_congr_left
  intro other otherMember
  have sameId : (session.seenAt server.now).connection.id = id := isSession
  rw [sameId, heard]
  split
  · rename_i isId
    rw [List.inj_on_of_nodup_map mirrors.distinct otherMember member
      (isId.trans isSession.symm)]
  · rfl

theorem arrive_spec (mirrors : server.Mirrors) (moment : Moment) (id : ConnectionId)
    (arrival : Arrival) :
    Beside server (server.arrive moment id arrival) ∧
      (server.arrive moment id arrival).Mirrors ∧
      (server.arrive moment id arrival).sessions =
        match arrival with
        | .message _ | .ping _ | .pong _ => server.sessions.map (server.heard id)
        | .close _ | .failure =>
            server.sessions.filter fun session => session.connection.id ≠ id := by
  cases found : server.session? id with
  | none =>
      rw [arrive_of_missing found]
      refine ⟨Beside.refl server, mirrors, ?_⟩
      cases arrival with
      | message message => exact (heard_of_missing found).symm
      | ping payload => exact (heard_of_missing found).symm
      | pong payload => exact (heard_of_missing found).symm
      | close reason => exact (filter_of_missing found).symm
      | failure => exact (filter_of_missing found).symm
  | some session =>
      rcases update_seenAt_spec mirrors found with ⟨seenMirrors, seenSessions⟩
      have seenBeside := server.beside_update (session.seenAt server.now)
      have ended : ((server.update (session.seenAt server.now)).endSession id).sessions =
          server.sessions.filter fun session => session.connection.id ≠ id := by
        change List.filter _ (server.update (session.seenAt server.now)).sessions = _
        rw [seenSessions, List.filter_map]
        have sameTest : (fun (other : Session) => decide (other.connection.id ≠ id)) ∘
            server.heard id = fun other => decide (other.connection.id ≠ id) := by
          funext other
          rw [Function.comp, connection_heard]
        rw [sameTest]
        have kept : ∀ other ∈
            server.sessions.filter (fun session => session.connection.id ≠ id),
            server.heard id other = other := by
          intro other member
          exact if_neg (by simpa using List.of_mem_filter member)
        rw [List.map_congr_left kept, List.map_id']
      unfold arrive
      rw [found]
      cases arrival with
      | message message =>
          refine ⟨⟨rfl, rfl, rfl, rfl, Hub.length_dispatch _ _ _ _⟩, ?_, seenSessions⟩
          change (Hub.dispatch _ _ _ _).registry.members = _
          rw [Hub.registry_dispatch]
          exact seenMirrors
      | ping payload => exact ⟨seenBeside, seenMirrors, seenSessions⟩
      | pong payload => exact ⟨seenBeside, seenMirrors, seenSessions⟩
      | close reason =>
          exact ⟨seenBeside.trans (beside_endSession id _), seenMirrors.endSession id,
            ended⟩
      | failure =>
          exact ⟨seenBeside.trans (beside_endSession id _), seenMirrors.endSession id,
            ended⟩

end Arrivals

end Relay.Server
