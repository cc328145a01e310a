import Relay.Proofs.Server.Signals

namespace Relay

/-! Connections whose session is over. The frames of a connection come from its own session,
from the sessions of others and from the heartbeat. All of them find it by its session or by
the registry, so that a connection whose session is over is out of their reach, whether or
not its mailbox is still open: this is what `Server.Proceeds` says of every operation of a
server. It also says that an operation that queues a close queues nothing behind it and ends
the session. -/

def Frame.isClose : Frame → Bool
  | .text _ | .ping => false
  | .close _ => true

theorem Session.exists_expire_eq (keepalive : Keepalive) (now : Nat) (session : Session) :
    ∃ pings, (∀ frame ∈ pings, frame = .ping) ∧
      (session.expire keepalive now).1 = pings ++
        if (session.expire keepalive now).2.isSome then [] else [.close none] := by
  rw [expire_eq]
  split
  · exact ⟨[], List.forall_mem_nil _, rfl⟩
  · exact ⟨_, fun _ => List.eq_of_mem_replicate, (List.append_nil _).symm⟩

namespace Server

/-! ## Connections whose session is over -/

/-- A connection that has been made and has no session. -/
structure IsGone (id : ConnectionId) (server : Server) : Prop where
  made : id.number < server.hub.mailboxes.boxes.length
  left : ∀ session ∈ server.sessions, session.connection.id ≠ id

section Gone

variable {id : ConnectionId} {server : Server}

theorem IsGone.missing (gone : server.IsGone id) : server.session? id = none := by
  apply List.find?_eq_none.mpr
  intro session member
  simpa using gone.left session member

theorem IsGone.absent (gone : server.IsGone id) (mirrors : server.Mirrors) :
    server.hub.registry.contains id = false := by
  apply Bool.eq_false_iff.mpr
  intro present
  have member := Registry.contains_iff.mp present
  rw [mirrors, List.map_map] at member
  rcases List.mem_map.mp member with ⟨session, isSession, same⟩
  exact gone.left session isSession same

/-- Whoever starts a session gets a new name, so that nobody who is gone comes back. -/
theorem IsGone.of_sessions {after : Server} (gone : server.IsGone id)
    (connected : server.hub.mailboxes.boxes.length ≤ after.hub.mailboxes.boxes.length)
    (old : ∀ session ∈ after.sessions, session.connection.id = id →
      ∃ before ∈ server.sessions, before.connection = session.connection) :
    after.IsGone id where
  made := Nat.lt_of_lt_of_le gone.made connected
  left := by
    intro session member same
    rcases old session member same with ⟨before, isSession, connection⟩
    exact gone.left before isSession (connection ▸ same)

theorem made_of_isOpen (isOpen : (server.mailbox id).isOpen = true) :
    id.number < server.hub.mailboxes.boxes.length := by
  apply Nat.lt_of_not_le
  intro unmade
  rw [mailbox, Mailboxes.get_of_unmade unmade] at isOpen
  cases isOpen

end Gone

/-- What an operation means for a connection. If its session is over, it stays over and
nothing is queued. Otherwise frames may be queued, the last of which may be a close for one
of the given reasons, and then the session is over. -/
structure Proceeds (reasons : List (Option CloseReason)) (id : ConnectionId)
    (before after : Server) : Prop where
  rests : before.IsGone id → after.IsGone id ∧ after.mailbox id = before.mailbox id
  grows : ∃ front last,
    (after.mailbox id).queued = (before.mailbox id).queued ++ (front ++ last) ∧
      (∀ frame ∈ front, frame.isClose = false) ∧
      (last = [] ∨ after.IsGone id ∧ ∃ reason ∈ reasons, last = [.close reason])

namespace Proceeds

variable {reasons : List (Option CloseReason)} {id : ConnectionId}
  {before middle after : Server}

theorem mono {more : List (Option CloseReason)} (proceeds : Proceeds reasons id before after)
    (included : reasons ⊆ more) : Proceeds more id before after where
  rests := proceeds.rests
  grows := by
    rcases proceeds.grows with ⟨front, last, queued, plain, ends⟩
    refine ⟨front, last, queued, plain, ends.imp_right ?_⟩
    rintro ⟨gone, reason, isReason, isClose⟩
    exact ⟨gone, reason, included isReason, isClose⟩

theorem of_queued (frames : List Frame)
    (rests : before.IsGone id → after.IsGone id ∧ after.mailbox id = before.mailbox id)
    (queued : (after.mailbox id).queued = (before.mailbox id).queued ++ frames)
    (plain : ∀ frame ∈ frames, frame.isClose = false) : Proceeds reasons id before after where
  rests := rests
  grows := ⟨frames, [], by rw [queued, List.append_nil], plain, .inl rfl⟩

theorem of_same (mailbox : after.mailbox id = before.mailbox id)
    (gone : before.IsGone id → after.IsGone id) : Proceeds reasons id before after :=
  of_queued [] (fun isGone => ⟨gone isGone, mailbox⟩)
    (by rw [mailbox, List.append_nil]) (List.forall_mem_nil _)

theorem refl (reasons : List (Option CloseReason)) (id : ConnectionId) (server : Server) :
    Proceeds reasons id server server :=
  of_same rfl fun gone => gone

theorem trans (front : Proceeds reasons id before middle)
    (back : Proceeds reasons id middle after) : Proceeds reasons id before after where
  rests := by
    intro gone
    rcases front.rests gone with ⟨stillGone, same⟩
    rcases back.rests stillGone with ⟨stays, unchanged⟩
    exact ⟨stays, unchanged.trans same⟩
  grows := by
    rcases front.grows with ⟨first, close, queued, plain, rfl | ⟨gone, ends⟩⟩
    · rcases back.grows with ⟨second, last, more, alsoPlain, ends⟩
      refine ⟨first ++ second, last, ?_, ?_, ends⟩
      · rw [more, queued]
        simp [List.append_assoc]
      · intro frame member
        rcases List.mem_append.mp member with isFirst | isSecond
        · exact plain frame isFirst
        · exact alsoPlain frame isSecond
    · -- The session is over, so nothing comes behind the close.
      rcases back.rests gone with ⟨stays, unchanged⟩
      refine ⟨first, close, ?_, plain, .inr ⟨stays, ends⟩⟩
      rw [unchanged, queued]

end Proceeds

/-! ## Frames that close nothing -/

section Plain

variable {reasons : List (Option CloseReason)} {id : ConnectionId} {before after : Server}

theorem Proceeds.of_postAll {frames : List Frame}
    (posted : after.mailbox id = (before.mailbox id).postAll frames)
    (plain : ∀ frame ∈ frames, frame.isClose = false)
    (nothing : before.IsGone id → frames = [])
    (gone : before.IsGone id → after.IsGone id) : Proceeds reasons id before after := by
  have queued : (after.mailbox id).queued = (before.mailbox id).queued ++
      if (before.mailbox id).isOpen then frames else [] := by
    rw [posted, Mailbox.queued_postAll]
  refine .of_queued _ ?_ queued ?_
  · intro isGone
    refine ⟨gone isGone, ?_⟩
    rw [posted, nothing isGone]
    rfl
  · intro frame member
    split at member
    · exact plain frame member
    · cases member

theorem isClose_of_mem_texts {envelopes : List Envelope} {frame : Frame}
    (member : frame ∈ envelopes.map Frame.ofEnvelope) : frame.isClose = false := by
  rcases List.mem_map.mp member with ⟨envelope, _, same⟩
  rw [← same]
  rfl

theorem Proceeds.of_texts {envelopes : List Envelope}
    (posted : after.mailbox id = (before.mailbox id).postAll (envelopes.map .ofEnvelope))
    (nothing : before.IsGone id → envelopes = [])
    (gone : before.IsGone id → after.IsGone id) : Proceeds reasons id before after := by
  refine .of_postAll posted (fun _ member => isClose_of_mem_texts member) ?_ gone
  intro isGone
  rw [nothing isGone]
  rfl

end Plain

section Operations

variable {reasons : List (Option CloseReason)} {id : ConnectionId} {server : Server}

/-! ## Timers -/

theorem isGone_endSession (made : id.number < server.hub.mailboxes.boxes.length) :
    (server.endSession id).IsGone id where
  made := by
    rw [(server.beside_endSession id).connected]
    exact made
  left := by
    intro session member
    simpa using List.of_mem_filter member

theorem connection_of_afterTimers {due : List Timer} {session rest : Session}
    (isLeft : server.afterTimers due session = some rest) :
    rest.connection = session.connection := by
  unfold afterTimers at isLeft
  split at isLeft
  · exact Session.connection_of_expire isLeft
  · cases isLeft
    rfl

theorem IsGone.fire (gone : server.IsGone id) (mirrors : server.Mirrors) (moment : Moment)
    (timer : Timer) : (server.fire moment timer).IsGone id := by
  rcases server.fire_spec mirrors moment timer with ⟨beside, _, sessions⟩
  apply gone.of_sessions (Nat.le_of_eq beside.connected.symm)
  intro session member _
  rw [sessions] at member
  rcases List.mem_filterMap.mp member with ⟨before, isSession, isLeft⟩
  exact ⟨before, isSession, (connection_of_afterTimers isLeft).symm⟩

theorem proceeds_beat (mirrors : server.Mirrors) (moment : Moment) :
    Proceeds reasons id server (server.beat moment) := by
  have gone : server.IsGone id → (server.beat moment).IsGone id :=
    fun isGone => isGone.fire mirrors moment .heartbeat
  unfold beat at gone ⊢
  cases running : server.heartbeat with
  | none => exact .refl _ _ _
  | some heartbeat =>
      rw [running] at gone
      refine .of_texts (server.hub.get_emitTimes moment (heartbeat.expire server.now).1 id)
        ?_ gone
      intro isGone
      have nothing : server.hub.updateFor moment id = [] := by
        rw [Hub.updateFor, Hub.copyFor, isGone.absent mirrors]
        rfl
      rw [nothing, List.flatten_replicate_nil]

theorem proceeds_check_self {session : Session} (found : server.session? id = some session) :
    Proceeds [none] id server (server.check id) := by
  have isHere : ¬server.IsGone id := by
    intro gone
    rw [gone.missing] at found
    cases found
  rcases session.exists_expire_eq server.keepalive server.now with ⟨pings, arePings, frames⟩
  have plain : ∀ frame ∈ pings, frame.isClose = false := by
    intro frame member
    rw [arePings frame member]
    rfl
  have posted := server.mailbox_postAll id (session.expire server.keepalive server.now).1 id
  rw [if_pos rfl] at posted
  cases left : (session.expire server.keepalive server.now).2 with
  | some rest =>
      rw [left, Option.isSome_some, if_pos rfl, List.append_nil] at frames
      rw [check_of_left found left]
      rw [frames] at posted ⊢
      exact .of_postAll posted plain (fun gone => absurd gone isHere)
        fun gone => absurd gone isHere
  | none =>
      rw [left] at frames
      rw [check_of_closed found left]
      have queued : (((server.postAll id
          (session.expire server.keepalive server.now).1).endSession id).mailbox id).queued =
            (server.mailbox id).queued ++
              if (server.mailbox id).isOpen then pings ++ [.close none] else [] := by
        rw [mailbox_endSession, if_pos rfl]
        change ((server.postAll id _).mailbox id).queued = _
        rw [posted, Mailbox.queued_postAll, frames]
        rfl
      refine ⟨fun gone => absurd gone isHere, ?_⟩
      cases isOpen : (server.mailbox id).isOpen with
      | false =>
          rw [isOpen] at queued
          exact ⟨[], [], queued, List.forall_mem_nil _, .inl rfl⟩
      | true =>
          rw [isOpen] at queued
          refine ⟨pings, [.close none], queued, plain,
            .inr ⟨?_, none, List.mem_singleton_self none, rfl⟩⟩
          apply isGone_endSession
          rw [(server.postAll_spec id _).1.connected]
          exact made_of_isOpen isOpen

theorem proceeds_fire (mirrors : server.Mirrors) (moment : Moment) (timer : Timer) :
    Proceeds [none] id server (server.fire moment timer) := by
  cases timer with
  | heartbeat => exact proceeds_beat mirrors moment
  | check other =>
      change Proceeds [none] id server (server.check other)
      by_cases same : other = id
      · subst same
        cases found : server.session? other with
        | none =>
            rw [check_of_missing found]
            exact .refl _ _ _
        | some session => exact proceeds_check_self found
      · exact .of_same (mailbox_check_other same)
          fun gone => gone.fire mirrors moment (.check other)

theorem proceeds_fireAll (clock : Nat → Moment) (due : List (Nat × Timer)) {server : Server}
    (mirrors : server.Mirrors) :
    Proceeds [none] id server (due.foldl
      (fun server (_, timer) => server.fire (clock server.now) timer) server) := by
  induction due generalizing server with
  | nil => exact .refl _ _ _
  | cons first due induction =>
      have fired := (server.fire_spec mirrors (clock server.now) first.2).2.1
      exact (proceeds_fire mirrors (clock server.now) first.2).trans (induction fired)

theorem IsGone.settle (gone : server.IsGone id) : server.settle.IsGone id where
  made := by
    rw [hub_settle]
    exact gone.made
  left := by
    rw [server.settle_spec.1]
    exact gone.left

theorem proceeds_settle (server : Server) : Proceeds reasons id server server.settle :=
  .of_same (congrArg (fun hub : Hub => hub.mailboxes.get id) server.hub_settle)
    fun gone => gone.settle

theorem proceeds_advance (mirrors : server.Mirrors) (clock : Nat → Moment)
    (milliseconds : Nat) :
    Proceeds [none] id server (server.advance clock milliseconds) := by
  let moved : Server := { server with now := server.now + milliseconds }
  have movedMirrors : moved.Mirrors := mirrors
  have moves : Proceeds [none] id server moved :=
    .of_same rfl fun gone => ⟨gone.made, gone.left⟩
  exact (moves.trans (proceeds_fireAll clock moved.timers movedMirrors)).trans
    (proceeds_settle _)

/-! ## Arrivals -/

theorem IsGone.endSession (gone : server.IsGone id) (other : ConnectionId) :
    (server.endSession other).IsGone id := by
  apply gone.of_sessions (Nat.le_of_eq (server.beside_endSession other).connected.symm)
  intro session member _
  exact ⟨session, List.mem_of_mem_filter member, rfl⟩

theorem proceeds_endSession {other : ConnectionId} (isOther : server.IsGone id → other ≠ id) :
    Proceeds reasons id server (server.endSession other) := by
  refine .of_queued [] ?_ ?_ (List.forall_mem_nil _)
  · intro gone
    rw [mailbox_endSession, if_neg (isOther gone)]
    exact ⟨gone.endSession other, rfl⟩
  · rw [mailbox_endSession, List.append_nil]
    split <;> rfl

theorem proceeds_dispatch (mirrors : server.Mirrors) (moment : Moment) {session : Session}
    (member : session ∈ server.sessions) (message : Message) :
    Proceeds reasons id server
      { server with hub := server.hub.dispatch moment session.connection message } := by
  have connected := server.hub.length_dispatch moment session.connection message
  refine .of_texts (server.hub.get_dispatch moment session.connection message id) ?_
    fun gone => ⟨by rw [connected]; exact gone.made, gone.left⟩
  intro gone
  rw [Hub.outgoing, if_neg (gone.left session member), List.append_nil]
  unfold Hub.passedOn
  split
  · rw [Hub.copyFor, gone.absent mirrors]
    rfl
  · rfl

theorem proceeds_arrive (mirrors : server.Mirrors) (moment : Moment) (other : ConnectionId)
    (arrival : Arrival) : Proceeds reasons id server (server.arrive moment other arrival) := by
  unfold arrive
  cases found : server.session? other with
  | none => exact .refl _ _ _
  | some session =>
      rcases update_seenAt_spec mirrors found with ⟨seenMirrors, seenSessions⟩
      let seen := server.update (session.seenAt server.now)
      have stays : server.IsGone id → seen.IsGone id := by
        intro gone
        apply gone.of_sessions (Nat.le_of_eq (server.beside_update _).connected.symm)
        intro later member _
        rw [seenSessions] at member
        rcases List.mem_map.mp member with ⟨before, isSession, same⟩
        exact ⟨before, isSession, same ▸ (server.connection_heard other before).symm⟩
      have noted : Proceeds reasons id server seen := .of_same rfl stays
      rcases mem_of_session? found with ⟨member, isSession⟩
      have isHere : session.seenAt server.now ∈ seen.sessions := by
        rw [seenSessions]
        exact List.mem_map.mpr ⟨session, member, if_pos isSession⟩
      have isOther : seen.IsGone id → other ≠ id := by
        intro gone
        have left := gone.left _ isHere
        rw [← isSession]
        exact left
      cases arrival with
      | message message => exact noted.trans (proceeds_dispatch seenMirrors moment isHere message)
      | ping payload => exact noted
      | pong payload => exact noted
      | close reason => exact noted.trans (proceeds_endSession isOther)
      | failure => exact noted.trans (proceeds_endSession isOther)

theorem isGone_dismissAll (made : id.number < server.hub.mailboxes.boxes.length) :
    server.dismissAll.IsGone id where
  made := by
    rw [server.dismissAll_spec.1.connected]
    exact made
  left := by
    rw [server.dismissAll_spec.2.2]
    intro session member
    cases member

end Operations

/-! ## Starts and ends -/

section Starts

variable {reasons : List (Option CloseReason)} {id : ConnectionId} {server : Server}
  (mirrors : server.Mirrors)
  (numbered : ∀ session ∈ server.sessions,
    session.connection.id.number < server.hub.mailboxes.boxes.length)

include mirrors numbered

theorem numbered_accept (moment : Moment) (address : Address) :
    ∀ session ∈ (server.accept moment address).sessions, session.connection.id.number <
      (server.accept moment address).hub.mailboxes.boxes.length := by
  rcases accept_spec mirrors numbered moment address with ⟨_, count, sessions⟩
  rw [sessions, count]
  intro session member
  rcases List.mem_append.mp member with isOld | isNew
  · exact Nat.lt_succ_of_lt (numbered session isOld)
  · rw [List.mem_singleton.mp isNew]
    exact Nat.lt_succ_self _

theorem IsGone.accept (gone : server.IsGone id) (moment : Moment) (address : Address) :
    (server.accept moment address).IsGone id := by
  rcases accept_spec mirrors numbered moment address with ⟨_, count, sessions⟩
  refine ⟨?_, ?_⟩
  · rw [count]
    exact Nat.lt_succ_of_lt gone.made
  · rw [sessions]
    intro session member
    rcases List.mem_append.mp member with isOld | isNew
    · exact gone.left session isOld
    · rw [List.mem_singleton.mp isNew]
      intro same
      exact Nat.ne_of_gt gone.made (congrArg ConnectionId.number same)

theorem proceeds_accept (moment : Moment) (address : Address) :
    Proceeds reasons id server (server.accept moment address) := by
  let opened := (server.hub.openConnection address).2
  let connection : Connection := ⟨server.hub.mailboxes.fresh, address⟩
  have sameQueue : (opened.mailboxes.get id).queued = (server.mailbox id).queued := by
    change (server.hub.mailboxes.add.get id).queued = (server.hub.mailboxes.get id).queued
    by_cases isFresh : id = server.hub.mailboxes.fresh
    · have unmade : server.hub.mailboxes.get server.hub.mailboxes.fresh = .closed :=
        Mailboxes.get_of_unmade (Nat.le_refl _)
      rw [isFresh, Mailboxes.get_add_fresh, unmade]
      rfl
    · rw [Mailboxes.get_add_other isFresh]
  have greeted : (server.accept moment address).mailbox id = _ :=
    opened.get_registerWelcomed moment connection id
  refine .of_queued (if (opened.mailboxes.get id).isOpen then
    (opened.greetingFor moment connection id).map .ofEnvelope else []) ?_ ?_ ?_
  · intro gone
    exact ⟨.accept mirrors numbered gone moment address,
      mailbox_accept_other moment address gone.made⟩
  · rw [greeted, Mailbox.queued_postAll, sameQueue]
  · intro frame member
    split at member
    · exact isClose_of_mem_texts member
    · cases member

theorem proceeds_dismissAll :
    Proceeds [some goingAway] id server server.dismissAll := by
  have box := server.mailbox_dismissAll mirrors id
  by_cases member : id ∈ server.sessions.map fun session => session.connection.id
  · rcases List.mem_map.mp member with ⟨session, isSession, same⟩
    have made := numbered session isSession
    rw [same] at made
    rw [if_pos member] at box
    refine ⟨fun gone => absurd same (gone.left session isSession), ?_⟩
    cases isOpen : (server.mailbox id).isOpen with
    | true =>
        refine ⟨[], [.close (some goingAway)], ?_, List.forall_mem_nil _,
          .inr ⟨isGone_dismissAll made, some goingAway, List.mem_singleton_self _, rfl⟩⟩
        rw [box]
        exact Mailbox.queued_post_of_open isOpen _
    | false =>
        refine ⟨[], [], ?_, List.forall_mem_nil _, .inl rfl⟩
        rw [box, Mailbox.post_of_closed isOpen]
        exact (List.append_nil _).symm
  · rw [if_neg member] at box
    exact .of_same box fun gone => isGone_dismissAll gone.made

theorem proceeds_connect (moment : Moment) (address : Address) :
    Proceeds reasons id server (server.connect moment address) := by
  unfold connect
  split
  · exact proceeds_accept mirrors numbered moment address
  · exact .refl _ _ _

theorem proceeds_shutdown :
    Proceeds [some goingAway] id server server.shutdown := by
  unfold shutdown
  split
  · let draining : Server :=
      { server.dismissAll with phase := .draining (server.now + drainTime) }
    have drains : Proceeds [some goingAway] id server.dismissAll draining :=
      .of_same rfl fun gone => ⟨gone.made, gone.left⟩
    exact ((proceeds_dismissAll mirrors numbered).trans drains).trans (proceeds_settle draining)
  · exact .refl _ _ _

theorem proceeds_complete (moment : Moment) (address : Address) :
    Proceeds (if server.phase = .serving then [] else [some goingAway]) id server
      (server.complete moment address) := by
  by_cases isPending : address ∈ server.pending
  · let accepted : Server :=
      { server.accept moment address with pending := server.pending.erase address }
    have greeted {reasons : List (Option CloseReason)} : Proceeds reasons id server accepted :=
      (proceeds_accept mirrors numbered moment address).trans
        (.of_same rfl fun gone => ⟨gone.made, gone.left⟩)
    by_cases serving : server.phase = .serving
    · rw [complete_of_serving isPending serving]
      exact greeted
    · have acceptedMirrors : accepted.Mirrors :=
        (accept_spec mirrors numbered moment address).1
      have dismissed : Proceeds [some goingAway] id accepted accepted.dismissAll :=
        proceeds_dismissAll acceptedMirrors (numbered_accept mirrors numbered moment address)
      rw [complete_of_closed isPending serving, if_neg serving]
      exact (greeted.trans dismissed).trans (proceeds_settle _)
  · rw [complete, if_neg isPending]
    exact .refl _ _ _

/-! ## Events -/

def farewells (server : Server) (event : Event) : List (Option CloseReason) :=
  match event with
  | .advance _ => [none]
  | .shutdown => [some goingAway]
  | .complete _ => if server.phase = .serving then [] else [some goingAway]
  | .connect _ | .approach _ | .abandon _ | .arrive _ _ => []

theorem proceeds_step (clock : Nat → Moment) (event : Event) :
    Proceeds (server.farewells event) id server (server.step clock event) := by
  cases event with
  | connect address => exact proceeds_connect mirrors numbered _ address
  | approach address =>
      change Proceeds [] id server (server.approach address)
      unfold approach
      split
      · exact .of_same rfl fun gone => ⟨gone.made, gone.left⟩
      · exact .refl _ _ _
  | complete address => exact proceeds_complete mirrors numbered _ address
  | abandon address =>
      let without : Server := { server with pending := server.pending.erase address }
      have leaves : Proceeds [] id server without :=
        .of_same rfl fun gone => ⟨gone.made, gone.left⟩
      exact leaves.trans (proceeds_settle without)
  | arrive other arrival => exact proceeds_arrive mirrors _ other arrival
  | advance milliseconds => exact proceeds_advance mirrors clock milliseconds
  | shutdown => exact proceeds_shutdown mirrors numbered

end Starts

/-! ## Runs -/

section Runs

variable {reasons : List (Option CloseReason)} {id : ConnectionId} {server : Server}
  {ledger : Ledger}

theorem farewells_subset (server : Server) (event : Event) :
    server.farewells event ⊆ [none, some goingAway] := by
  intro reason member
  cases event with
  | complete address =>
      rw [farewells] at member
      split at member
      · cases member
      · exact List.mem_cons_of_mem none member
  | advance milliseconds => exact List.mem_cons.mpr (.inl (List.mem_singleton.mp member))
  | shutdown => exact List.mem_cons_of_mem none member
  | _ => cases member

theorem proceeds_run (isRight : server.Matches ledger) (balanced : ledger.IsBalanced)
    (clock : Nat → Moment) (events : List Event)
    (included : ∀ before event, before ++ [event] <+: events →
      (server.run clock before).farewells event ⊆ reasons) :
    Proceeds reasons id server (server.run clock events) := by
  induction events generalizing server ledger with
  | nil => exact .refl _ _ _
  | cons event events induction =>
      have front : Proceeds _ id server (server.step clock event) :=
        proceeds_step isRight.mirrors (isRight.numbered balanced) clock event
      apply (front.mono (included [] event (List.prefix_append [event] events))).trans
      apply induction (isRight.step balanced clock event) (balanced.record server event)
      intro before next isPrefix
      exact included (event :: before) next (List.cons_prefix_cons.mpr ⟨rfl, isPrefix⟩)

/-- Whatever happens, only the keepalive and a shutdown close sessions. -/
theorem proceeds_always (isRight : server.Matches ledger) (balanced : ledger.IsBalanced)
    (clock : Nat → Moment) (events : List Event) :
    Proceeds [none, some goingAway] id server (server.run clock events) :=
  proceeds_run isRight balanced clock events fun _ event _ => farewells_subset _ event

/-- The session of whoever is gone never comes back, and nothing more is queued. -/
theorem IsGone.run (gone : server.IsGone id) (isRight : server.Matches ledger)
    (balanced : ledger.IsBalanced) (clock : Nat → Moment) (events : List Event) :
    (server.run clock events).IsGone id ∧
      (server.run clock events).mailbox id = server.mailbox id :=
  (proceeds_always isRight balanced clock events).rests gone

end Runs

end Server

end Relay
