import Relay.Proofs.Server.Departures

namespace Relay.Server

/-! Nothing follows a close. Main statement: a queue holds at most one close, at its end, and
nothing is queued any more for a connection that has been closed. -/

section Runs

variable {reasons : List (Option CloseReason)} {id : ConnectionId} {server : Server}
  {ledger : Ledger}

theorem farewells_of_serving (serving : server.phase = .serving) {event : Event}
    (notShutdown : event ≠ .shutdown) : server.farewells event ⊆ [none] := by
  intro reason member
  cases event with
  | complete address =>
      rw [farewells, if_pos serving] at member
      cases member
  | advance milliseconds => exact member
  | shutdown => exact absurd rfl notShutdown
  | _ => cases member

theorem serving_step_iff (mirrors : server.Mirrors) (clock : Nat → Moment) (event : Event) :
    (server.step clock event).phase = .serving ↔
      server.phase = .serving ∧ event ≠ .shutdown := by
  cases event with
  | connect address =>
      change (server.connect _ address).phase = .serving ↔ _
      unfold connect
      split
      · rename_i serving
        simp [accept, serving]
      · simp
  | approach address =>
      change (server.approach address).phase = .serving ↔ _
      unfold approach
      split
      · rename_i serving
        simp [serving]
      · simp
  | complete address =>
      change (server.complete _ address).phase = .serving ↔ _
      by_cases isPending : address ∈ server.pending
      · by_cases serving : server.phase = .serving
        · rw [complete_of_serving isPending serving]
          simp [accept, serving]
        · rw [complete_of_closed isPending serving, (settle_spec _).2.2.2.2,
            (dismissAll_spec _).1.phase]
          simp [accept]
      · rw [complete, if_neg isPending]
        simp
  | abandon address =>
      change (settle _).phase = .serving ↔ _
      rw [(settle_spec _).2.2.2.2]
      simp
  | arrive id arrival =>
      change (server.arrive _ id arrival).phase = .serving ↔ _
      rw [(arrive_spec mirrors _ id arrival).1.phase]
      simp
  | advance milliseconds =>
      change (server.advance clock milliseconds).phase = .serving ↔ _
      rw [(advance_spec mirrors clock milliseconds).2.2.1]
      simp
  | shutdown =>
      change server.shutdown.phase = .serving ↔ _
      unfold shutdown
      split
      · rw [(settle_spec _).2.2.2.2]
        simp
      · rename_i notServing
        exact iff_of_false notServing fun both => notServing both.1

theorem serving_run_iff (isRight : server.Matches ledger) (balanced : ledger.IsBalanced)
    (clock : Nat → Moment) (events : List Event) :
    (server.run clock events).phase = .serving ↔
      server.phase = .serving ∧ .shutdown ∉ events := by
  induction events generalizing server ledger with
  | nil => simp [run]
  | cons event events induction =>
      change ((server.step clock event).run clock events).phase = .serving ↔ _
      rw [induction (isRight.step balanced clock event) (balanced.record server event),
        serving_step_iff isRight.mirrors, List.mem_cons]
      tauto

theorem proceeds_without_shutdown (isRight : server.Matches ledger)
    (balanced : ledger.IsBalanced) (serving : server.phase = .serving) (clock : Nat → Moment)
    {events : List Event} (quiet : .shutdown ∉ events) :
    Proceeds [none] id server (server.run clock events) := by
  apply proceeds_run isRight balanced
  intro before event isPrefix
  have quietSoFar : .shutdown ∉ before ++ [event] := fun member =>
    quiet (isPrefix.subset member)
  rw [List.mem_append, not_or, List.mem_singleton] at quietSoFar
  exact farewells_of_serving
    ((serving_run_iff isRight balanced clock before).mpr ⟨serving, quietSoFar.1⟩)
    (Ne.symm quietSoFar.2)

/-- What is known of a queue that was empty at first. -/
theorem Proceeds.last_of_close {after : Server}
    (proceeds : Proceeds reasons id server after)
    (empty : (server.mailbox id).queued = []) :
    (after.mailbox id).queued.countP Frame.isClose ≤ 1 ∧
      ∀ reason, .close reason ∈ (after.mailbox id).queued →
        (after.mailbox id).queued.getLast? = some (.close reason) ∧ reason ∈ reasons ∧
          after.IsGone id := by
  rcases proceeds.grows with ⟨front, last, queued, plain, ends⟩
  rw [empty, List.nil_append] at queued
  rw [queued]
  have noneInFront : front.countP Frame.isClose = 0 := by
    apply List.countP_eq_zero.mpr
    intro frame member
    rw [plain frame member]
    exact Bool.false_ne_true
  have notInFront (reason : Option CloseReason) : .close reason ∉ front := fun member =>
    Bool.noConfusion (plain _ member)
  rcases ends with rfl | ⟨gone, reason, isReason, rfl⟩
  · rw [List.append_nil, noneInFront]
    exact ⟨Nat.zero_le 1, fun reason member => absurd member (notInFront reason)⟩
  · refine ⟨?_, ?_⟩
    · rw [List.countP_append, noneInFront]
      exact Nat.le_refl 1
    · intro other member
      have same : other = reason := by
        rcases List.mem_append.mp member with inFront | isLast
        · exact absurd inFront (notInFront other)
        · exact Frame.close.inj (List.mem_singleton.mp isLast)
      rw [same, List.getLast?_concat]
      exact ⟨rfl, isReason, gone⟩

end Runs

/-! ## Whatever the mailbox is -/

def replaceMailbox (id : ConnectionId) (mailbox : Mailbox) (server : Server) : Server :=
  { server with hub := { server.hub with
      mailboxes := server.hub.mailboxes.modify id fun _ => mailbox } }

section Replacement

variable {id : ConnectionId} {server : Server} {ledger : Ledger}

theorem Matches.replaceMailbox (isRight : server.Matches ledger) (id : ConnectionId)
    (mailbox : Mailbox) : (server.replaceMailbox id mailbox).Matches ledger where
  mirrors := isRight.mirrors
  sessions := isRight.sessions
  count := (Mailboxes.length_modify _ _ _).trans isRight.count
  started := isRight.started
  closed := isRight.closed

theorem IsGone.replaceMailbox (gone : server.IsGone id) (mailbox : Mailbox) :
    (server.replaceMailbox id mailbox).IsGone id where
  made := by
    change _ < (Mailboxes.modify _ _ _).boxes.length
    rw [Mailboxes.length_modify]
    exact gone.made
  left := gone.left

theorem mailbox_replaceMailbox (made : id.number < server.hub.mailboxes.boxes.length)
    (mailbox : Mailbox) : (server.replaceMailbox id mailbox).mailbox id = mailbox := by
  simp [Server.mailbox, Server.replaceMailbox, Mailboxes.get, Mailboxes.modify, made]

end Replacement

/-- A queue holds at most one close, which is its last frame and comes from the keepalive or
from a shutdown. Whoever has been closed is not registered and has no session any more, and
whatever happens later is not addressed to that connection: its mailbox stays as it is, and
would stay as it is if it were open, or empty. -/
theorem run_ends_with_close (settings : Settings) (port : UInt16) (clock : Nat → Moment)
    (events : List Event) (id : ConnectionId) :
    let server := (start settings port).run clock events
    let queue := (server.mailbox id).queued
    queue.countP Frame.isClose ≤ 1 ∧
      ∀ reason, .close reason ∈ queue →
        queue.getLast? = some (.close reason) ∧
        (reason = none ∨ reason = some goingAway ∧ .shutdown ∈ events) ∧
        server.hub.registry.contains id = false ∧ server.session? id = none ∧
        ∀ later,
          (server.run clock later).mailbox id = server.mailbox id ∧
          (server.run clock later).hub.registry.contains id = false ∧
          ∀ mailbox, ((server.replaceMailbox id mailbox).run clock later).mailbox id =
            mailbox := by
  intro server queue
  have isRight := matches_start settings port
  have balanced := Ledger.isBalanced_empty
  rcases (proceeds_always isRight balanced clock events).last_of_close rfl with ⟨once, last⟩
  refine ⟨once, ?_⟩
  intro reason member
  rcases last reason member with ⟨isLast, isReason, gone⟩
  rcases isRight.run balanced clock events with ⟨isStillRight, stillBalanced⟩
  refine ⟨isLast, ?_, gone.absent isStillRight.mirrors, gone.missing, ?_⟩
  · by_cases isShutdown : .shutdown ∈ events
    · exact (List.mem_pair.mp isReason).imp_right fun same => ⟨same, isShutdown⟩
    · have quiet : Proceeds [none] id (start settings port) server :=
        proceeds_without_shutdown isRight balanced rfl clock isShutdown
      exact .inl (List.mem_singleton.mp ((quiet.last_of_close rfl).2 reason member).2.1)
  · intro later
    rcases gone.run isStillRight stillBalanced clock later with ⟨stays, unchanged⟩
    have laterRight := (isStillRight.run stillBalanced clock later).1
    refine ⟨unchanged, stays.absent laterRight.mirrors, ?_⟩
    intro mailbox
    have replaced := (gone.replaceMailbox mailbox).run (isStillRight.replaceMailbox id mailbox)
      stillBalanced clock later
    rw [replaced.2, mailbox_replaceMailbox gone.made]

/-- A peer that leaves by itself is not closed when the server is shut down, and the other
one is. -/
theorem run_ends_with_close_after_leave :
    let clock : Nat → Moment := fun _ => ⟨"now", Double.zero⟩
    let server := (start Settings.default 3004).run clock
      [.connect (.v4 127 0 0 1 5000), .connect (.v4 127 0 0 1 5001), .arrive ⟨1⟩ .failure,
        .shutdown]
    (server.mailbox ⟨1⟩).queued.countP Frame.isClose = 0 ∧
      .close (some goingAway) ∈ (server.mailbox ⟨0⟩).queued ∧
      (server.mailbox ⟨0⟩).queued.getLast? = some (.close (some goingAway)) ∧
      ∀ later, (server.run clock later).mailbox ⟨0⟩ = server.mailbox ⟨0⟩ := by
  intro clock server
  have closed : .close (some goingAway) ∈ (server.mailbox ⟨0⟩).queued := by decide +kernel
  rcases run_ends_with_close Settings.default 3004 clock
    [.connect (.v4 127 0 0 1 5000), .connect (.v4 127 0 0 1 5001), .arrive ⟨1⟩ .failure,
      .shutdown] ⟨0⟩ with ⟨_, ends⟩
  rcases ends (some goingAway) closed with ⟨isLast, _, _, _, stays⟩
  exact ⟨by decide +kernel, closed, isLast, fun later => (stays later).1⟩

end Relay.Server
