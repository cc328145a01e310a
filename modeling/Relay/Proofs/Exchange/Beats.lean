import Mathlib.Data.List.Forall2
import Relay.Proofs.Exchange.Copies
import Relay.Proofs.Exchange.Isolation
import Relay.Proofs.Heartbeat

namespace Relay

/-! The heartbeat in a run. The clock moves in jumps, and a heartbeat that falls due in a
jump fires at the end of it. Main statement: as long as no jump passes the next beat, a
heartbeat fires exactly when it is due, once in each period since it was started, and it
tells everybody who takes part the figures of that time. -/

def Step.isSteady : Step → Bool
  | .startHeartbeat _ | .stopHeartbeat => false
  | _ => true

namespace Hub

/-- What one firing does, seen from outside: nobody joins or leaves and nothing is counted.
Without anybody who takes part there is no report and no change at all, otherwise everybody
who takes part gets one envelope with the figures. -/
def IsFiring (moment : Moment) (hub : Hub) (fired : Option Report × Hub) : Prop :=
  fired.2.registry = hub.registry ∧
  if hub.registry.isEmpty then fired = (none, hub)
  else
    ∃ report, fired.1 = some report ∧
      report.deliveries.length = hub.registry.size ∧
      (∀ id, (report.deliveries.map Delivery.recipient).count id =
        if hub.registry.contains id then 1 else 0) ∧
      (∀ delivery ∈ report.deliveries,
        delivery.failure = hub.mailboxes.failure? delivery.recipient) ∧
      ∀ id, fired.2.mailboxes.get id = (hub.mailboxes.get id).postAll
        (if hub.registry.contains id then
          [.ofEnvelope (.periodicUpdate heartbeatMessage
            ⟨.ofNat hub.registry.size, hub.registry.messageCount, moment.uptime⟩
            moment.timestamp)]
        else [])

theorem isFiring_emit (moment : Moment) (hub : Hub) : hub.IsFiring moment (hub.emit moment) := by
  refine ⟨hub.registry_emit moment, ?_⟩
  split
  · rename_i isEmpty
    exact if_pos isEmpty
  · rename_i notEmpty
    let envelope := hub.heartbeatEnvelope moment
    have isFanOut : hub.emit moment =
        (some (hub.fanOut envelope none).1, (hub.fanOut envelope none).2) := if_neg notEmpty
    have everybody : Mailboxes.addressees none hub.registry.members =
        hub.registry.members.map Connection.id := List.filter_eq_self.mpr fun _ _ => rfl
    have named : (hub.fanOut envelope none).1.deliveries.map Delivery.recipient =
        hub.registry.members.map Connection.id :=
      (Mailboxes.recipients_deliver hub.registry.members envelope none hub.mailboxes).trans
        everybody
    have all : (hub.fanOut envelope none).1.recipients = hub.registry.size := by
      have sameLength := congrArg List.length named
      rwa [List.length_map, List.length_map] at sameLength
    refine ⟨(hub.fanOut envelope none).1, congrArg Prod.fst isFanOut, all, ?_, ?_, ?_⟩
    · intro id
      rw [named, hub.registry.distinct.count]
      simp only [Registry.contains_iff]
    · intro delivery member
      have delivered : delivery ∈
          (hub.mailboxes.deliver hub.registry.members envelope none).1.deliveries := member
      exact Mailboxes.failure_of_mem_deliver delivered
    · intro id
      have queued := hub.get_fanOut envelope none id
      rw [isFanOut, queued, copyFor]
      simp only [ne_eq, reduceCtorEq, not_false_eq_true, and_true]
      split <;> rfl

theorem foldl_emit (clock : Nat → Moment) (count time : Nat) (hub : Hub) :
    (List.replicate count time).foldl (fun hub time => (hub.emit (clock time)).2) hub =
      hub.emitTimes (clock time) count := by
  induction count generalizing hub with
  | zero => rfl
  | succ count induction => exact induction _

end Hub

namespace Exchange

def firingTimesOf (step : Step) (exchange : Exchange) : List Nat :=
  match step with
  | .advance milliseconds =>
      List.replicate (exchange.firings milliseconds) (exchange.now + milliseconds)
  | _ => []

def firingTimes (clock : Nat → Moment) : List Step → Exchange → List Nat
  | [], _ => []
  | step :: rest, exchange =>
      exchange.firingTimesOf step ++ firingTimes clock rest (exchange.step clock step).2

def Meets (lateness : Nat) (step : Step) (exchange : Exchange) : Prop :=
  match step, exchange.heartbeat with
  | .advance milliseconds, some heartbeat =>
      exchange.now + milliseconds ≤ heartbeat.due + lateness
  | _, _ => True

def KeepsPace (clock : Nat → Moment) (lateness : Nat) : List Step → Exchange → Prop
  | [], _ => True
  | step :: rest, exchange =>
      exchange.Meets lateness step ∧
        KeepsPace clock lateness rest (exchange.step clock step).2

instance (lateness : Nat) (step : Step) (exchange : Exchange) :
    Decidable (exchange.Meets lateness step) := by
  unfold Meets
  split <;> infer_instance

instance instDecidableKeepsPace (clock : Nat → Moment) (lateness : Nat) :
    (steps : List Step) → (exchange : Exchange) →
      Decidable (exchange.KeepsPace clock lateness steps)
  | [], _ => .isTrue trivial
  | step :: rest, exchange =>
      have (exchange : Exchange) := instDecidableKeepsPace clock lateness rest exchange
      inferInstanceAs (Decidable (exchange.Meets lateness step ∧
        KeepsPace clock lateness rest (exchange.step clock step).2))

variable {clock : Nat → Moment} {steps : List Step} {exchange : Exchange}

/-! ## One step -/

theorem steady_cases (clock : Nat → Moment) (exchange : Exchange) {step : Step}
    (steady : step.isSteady = true) :
    (∃ milliseconds, step = .advance milliseconds) ∨
      ((exchange.step clock step).2.now = exchange.now ∧
        (exchange.step clock step).2.heartbeat = exchange.heartbeat ∧
        exchange.firingTimesOf step = [] ∧ ∀ lateness, exchange.Meets lateness step) := by
  cases step with
  | advance milliseconds => exact .inl ⟨milliseconds, rfl⟩
  | startHeartbeat period => cases steady
  | stopHeartbeat => cases steady
  | _ => exact .inr ⟨rfl, rfl, rfl, fun _ => trivial⟩

/-- A jump of the clock does nothing to the hub but let it send its figures at each of the
times at which the heartbeat fires. -/
theorem hub_advance (clock : Nat → Moment) (milliseconds : Nat) (exchange : Exchange) :
    (exchange.step clock (.advance milliseconds)).2.hub =
      (exchange.firingTimesOf (.advance milliseconds)).foldl
        (fun hub time => (hub.emit (clock time)).2) exchange.hub := by
  rw [firingTimesOf, Hub.foldl_emit]
  cases running : exchange.heartbeat with
  | none => simp [Exchange.step, advance, firings, running, Hub.emitTimes]
  | some heartbeat => simp [Exchange.step, advance, firings, running]

theorem firings_of_running {heartbeat : Heartbeat}
    (running : exchange.heartbeat = some heartbeat) (milliseconds : Nat) :
    exchange.firings milliseconds =
      (heartbeat.expire (exchange.now + milliseconds)).1 := by
  rw [firings, running]

theorem advance_of_running (clock : Nat → Moment) {heartbeat : Heartbeat}
    (running : exchange.heartbeat = some heartbeat) (milliseconds : Nat) :
    (exchange.step clock (.advance milliseconds)).2.now = exchange.now + milliseconds ∧
      (exchange.step clock (.advance milliseconds)).2.heartbeat =
        some (heartbeat.expire (exchange.now + milliseconds)).2 := by
  have moved := exchange.time_advance clock milliseconds
  rw [running] at moved
  exact moved

theorem unready_step (clock : Nat → Moment) {step : Step} {earliest : Nat}
    (steady : step.isSteady = true) {heartbeat : Heartbeat}
    (running : exchange.heartbeat = some heartbeat)
    (unready : earliest ≤ heartbeat.due) :
    (∀ time ∈ exchange.firingTimesOf step, earliest ≤ time) ∧
      ∃ next, (exchange.step clock step).2.heartbeat = some next ∧ earliest ≤ next.due := by
  rcases steady_cases clock exchange steady
    with ⟨milliseconds, rfl⟩ | ⟨_, sameHeartbeat, none, _⟩
  · refine ⟨?_, _, (advance_of_running clock running milliseconds).2,
      Nat.le_trans unready (heartbeat.expire_spec _).2.1⟩
    intro time member
    rcases List.mem_replicate.mp member with ⟨fires, isEnd⟩
    rw [firings_of_running running] at fires
    rw [isEnd]
    apply Nat.le_trans unready
    apply Nat.le_of_not_lt
    intro early
    rw [Heartbeat.expire_of_early early] at fires
    exact fires rfl
  · rw [none, sameHeartbeat]
    exact ⟨nofun, heartbeat, running, unready⟩

/-- The heartbeat was started at a time, and no beat since then has been left out or put
off. -/
def IsOnBeat (started period : Nat) (exchange : Exchange) : Prop :=
  started ≤ exchange.now ∧
    ∃ heartbeat, exchange.heartbeat = some heartbeat ∧ heartbeat.period = period ∧
      heartbeat.due = Heartbeat.beatTime started period
        (Heartbeat.beatsDue started period exchange.now)

/-- A step makes the beats that become due in it, each of them at most so late as the jump
is. -/
theorem IsOnBeat.step (clock : Nat → Moment) {started period lateness : Nat} {step : Step}
    (isOnBeat : exchange.IsOnBeat started period) (tolerable : lateness ≤ Heartbeat.tolerance)
    (steady : step.isSteady = true) (meets : exchange.Meets lateness step) :
    let next := (exchange.step clock step).2
    let made := Heartbeat.beatsDue started period exchange.now
    let due := Heartbeat.beatsDue started period next.now
    next.IsOnBeat started period ∧ made ≤ due ∧
      List.Forall₂ (Heartbeat.IsBeat started period lateness)
        (exchange.firingTimesOf step) (List.range' made (due - made)) := by
  intro next made due
  rcases isOnBeat with ⟨isStarted, heartbeat, running, rfl, isNext⟩
  rcases steady_cases clock exchange steady
    with ⟨milliseconds, rfl⟩ | ⟨sameTime, sameHeartbeat, none, _⟩
  · rcases advance_of_running clock running milliseconds with ⟨isNow, isLeft⟩
    have isEnd : next.now = exchange.now + milliseconds := isNow
    have isLater : started ≤ next.now := by omega
    have grows : made ≤ due := Nat.div_le_div_right (by omega)
    have inTime : next.now ≤ heartbeat.due + lateness := by
      simp only [Meets, running] at meets
      omega
    have fired := Heartbeat.expire_of_tolerable isLater grows isNext (by omega)
    rw [isEnd] at fired
    rw [fired, ← isEnd] at isLeft
    refine ⟨⟨isLater, _, isLeft, rfl, rfl⟩, grows, ?_⟩
    rw [firingTimesOf, firings_of_running running, fired, ← isEnd]
    apply Heartbeat.isBeat_replicate
    · exact isNext ▸ inTime
    · intro number isDue
      rw [Heartbeat.beatTime_le_iff heartbeat.period_pos isLater]
      change number < due
      omega
  · have sameDue : due = made := congrArg (Heartbeat.beatsDue started heartbeat.period) sameTime
    refine ⟨⟨sameTime ▸ isStarted, heartbeat, sameHeartbeat.trans running, rfl, ?_⟩,
      Nat.le_of_eq sameDue.symm, ?_⟩
    · rw [isNext, sameTime]
    · rw [none, sameDue, Nat.sub_self]
      exact .nil

/-! ## Runs -/

theorem le_of_mem_firingTimes {earliest : Nat} (steady : ∀ step ∈ steps, step.isSteady = true)
    {heartbeat : Heartbeat} (running : exchange.heartbeat = some heartbeat)
    (unready : earliest ≤ heartbeat.due) :
    ∀ time ∈ exchange.firingTimes clock steps, earliest ≤ time := by
  induction steps generalizing exchange heartbeat with
  | nil => nofun
  | cons step rest induction =>
      rcases unready_step clock (steady step List.mem_cons_self) running unready
        with ⟨here, next, stillRunning, stillUnready⟩
      intro time member
      rcases List.mem_append.mp member with isHere | isLater
      · exact here time isHere
      · exact induction (fun other isStep => steady other (List.mem_cons_of_mem step isStep))
          stillRunning stillUnready time isLater

theorem firingTimes_of_stopped (unstarted : ∀ period, .startHeartbeat period ∉ steps)
    (stopped : exchange.heartbeat = none) : exchange.firingTimes clock steps = [] := by
  induction steps generalizing exchange with
  | nil => rfl
  | cons step rest induction =>
      have silent : exchange.firingTimesOf step = [] := by
        cases step with
        | advance milliseconds => simp [firingTimesOf, firings, stopped]
        | _ => rfl
      have stays : (exchange.step clock step).2.heartbeat = none := by
        cases step with
        | startHeartbeat period => exact absurd List.mem_cons_self (unstarted period)
        | stopHeartbeat => rfl
        | advance milliseconds =>
            have moved := (exchange.time_advance clock milliseconds).2
            rw [stopped] at moved
            exact moved
        | _ => exact stopped
      rw [firingTimes, silent, List.nil_append]
      exact induction (fun period member => unstarted period (List.mem_cons_of_mem step member))
        stays

/-- The beats of a run are those that become due in it, each of them at most so late as the
jumps are. -/
theorem IsOnBeat.run {started period lateness : Nat} (isOnBeat : exchange.IsOnBeat started period)
    (tolerable : lateness ≤ Heartbeat.tolerance)
    (steady : ∀ step ∈ steps, step.isSteady = true)
    (paced : exchange.KeepsPace clock lateness steps) :
    let made := Heartbeat.beatsDue started period exchange.now
    let due := Heartbeat.beatsDue started period (exchange.run clock steps).2.now
    made ≤ due ∧
      List.Forall₂ (Heartbeat.IsBeat started period lateness)
        (exchange.firingTimes clock steps) (List.range' made (due - made)) := by
  induction steps generalizing exchange with
  | nil =>
      refine ⟨Nat.le_refl _, ?_⟩
      rw [run, Nat.sub_self]
      exact .nil
  | cons step rest induction =>
      intro made due
      rcases isOnBeat.step clock tolerable (steady step List.mem_cons_self) paced.1
        with ⟨isOnBeatNext, grows, here⟩
      rcases induction isOnBeatNext
        (fun other isStep => steady other (List.mem_cons_of_mem step isStep)) paced.2
        with ⟨growsOn, later⟩
      -- The beats of the first step and those of the others have neighbouring numbers.
      let between := Heartbeat.beatsDue started period (exchange.step clock step).2.now
      have isEnd : Heartbeat.beatsDue started period
          ((exchange.step clock step).2.run clock rest).2.now = due := by
        change _ = Heartbeat.beatsDue started period
          (exchange.run clock (step :: rest)).2.now
        rw [run_cons]
      rw [isEnd] at growsOn later
      refine ⟨Nat.le_trans grows growsOn, ?_⟩
      have split : List.range' made (due - made) =
          List.range' made (between - made) ++ List.range' between (due - between) := by
        have joined := List.range'_append_1 (s := made) (m := between - made)
          (n := due - between)
        rw [Nat.add_sub_cancel' grows] at joined
        rw [joined]
        congr 1
        omega
      rw [split]
      exact List.rel_append here later

theorem keepsPace_of_ticks {heartbeat : Heartbeat}
    (steady : ∀ step ∈ steps, step.isSteady = true)
    (ticks : ∀ milliseconds, .advance milliseconds ∈ steps → milliseconds ≤ 1)
    (running : exchange.heartbeat = some heartbeat) (early : exchange.now < heartbeat.due) :
    exchange.KeepsPace clock 0 steps := by
  -- After each step the next beat lies ahead, so that one millisecond cannot pass it.
  induction steps generalizing exchange heartbeat with
  | nil => trivial
  | cons step rest induction =>
      have goesOn {next : Exchange} {heartbeat : Heartbeat}
          (running : next.heartbeat = some heartbeat) (early : next.now < heartbeat.due) :
          next.KeepsPace clock 0 rest :=
        induction (fun other isStep => steady other (List.mem_cons_of_mem step isStep))
          (fun milliseconds isStep => ticks milliseconds (List.mem_cons_of_mem step isStep))
          running early
      rcases steady_cases clock exchange
        (steady step List.mem_cons_self) with ⟨milliseconds, rfl⟩ |
          ⟨sameTime, sameHeartbeat, _, meets⟩
      · rcases advance_of_running clock running milliseconds with ⟨isNow, isLeft⟩
        have tick := ticks milliseconds List.mem_cons_self
        refine ⟨?_, goesOn isLeft ?_⟩
        · simp only [Meets, running]
          omega
        · rw [isNow]
          exact (heartbeat.expire_spec _).2.2
      · exact ⟨meets 0, goesOn (sameHeartbeat.trans running) (sameTime ▸ early)⟩

/-- A heartbeat over a whole run of steps of any kind. It does not fire within its first
period. If no jump of the clock passes a beat it fires at the end of each period and at no
other time. If the jumps are late by no more than the tolerance it still fires as often as
periods have passed. Once it is stopped it does not fire again. The clock does nothing to the
hub but let it send its figures at these times, and each time it does so everybody who takes
part gets one envelope with the figures. -/
theorem run_fires_on_time (clock : Nat → Moment) (exchange : Exchange) (period : Nat)
    (during after : List Step) (steady : ∀ step ∈ during, step.isSteady = true)
    (unstarted : ∀ period, .startHeartbeat period ∉ after) :
    let started := (exchange.step clock (.startHeartbeat period)).2
    let ended := (started.run clock during).2
    let stopped := (ended.step clock .stopHeartbeat).2
    let length := max period 1
    let times := started.firingTimes clock during
    let due := (ended.now - exchange.now) / length
    (∀ time ∈ times, exchange.now + length ≤ time) ∧
    (started.KeepsPace clock 0 during →
      times = (List.range due).map fun number => exchange.now + (number + 1) * length) ∧
    ((∀ milliseconds, .advance milliseconds ∈ during → milliseconds ≤ 1) →
      started.KeepsPace clock 0 during) ∧
    (∀ lateness ≤ Heartbeat.tolerance, started.KeepsPace clock lateness during →
      times.length = due) ∧
    stopped.firingTimes clock after = [] ∧
    (∀ (exchange : Exchange) milliseconds,
      (exchange.step clock (.advance milliseconds)).2.hub =
        (exchange.firingTimesOf (.advance milliseconds)).foldl
          (fun hub time => (hub.emit (clock time)).2) exchange.hub) ∧
    ∀ moment (hub : Hub), hub.IsFiring moment (hub.emit moment) := by
  intro started ended stopped length times due
  let heartbeat := Heartbeat.start period exchange.now
  have running : started.heartbeat = some heartbeat := rfl
  have positive : 0 < length := Nat.le_max_right period 1
  have noneDue : Heartbeat.beatsDue exchange.now length started.now = 0 := by
    change (exchange.now - exchange.now) / length = 0
    rw [Nat.sub_self, Nat.zero_div]
  have isOnBeat : started.IsOnBeat exchange.now length := by
    refine ⟨Nat.le_refl _, heartbeat, running, rfl, ?_⟩
    rw [noneDue]
    change exchange.now + length = exchange.now + (0 + 1) * length
    omega
  have beats {lateness : Nat} (tolerable : lateness ≤ Heartbeat.tolerance)
      (paced : started.KeepsPace clock lateness during) :
      List.Forall₂ (Heartbeat.IsBeat exchange.now length lateness) times (List.range due) := by
    have made := (isOnBeat.run tolerable steady paced).2
    rw [noneDue, Nat.sub_zero, ← List.range_eq_range'] at made
    exact made
  refine ⟨le_of_mem_firingTimes steady running (Nat.le_refl _), ?_, ?_, ?_,
    firingTimes_of_stopped unstarted rfl, fun exchange milliseconds =>
      hub_advance clock milliseconds exchange, fun moment hub => hub.isFiring_emit moment⟩
  · intro paced
    rw [← List.forall₂_eq_eq_eq, List.forall₂_map_right_iff]
    refine (beats (Nat.zero_le _) paced).imp fun time number isBeat => ?_
    exact Nat.le_antisymm isBeat.2 isBeat.1
  · intro ticks
    exact keepsPace_of_ticks steady ticks running (Nat.lt_add_of_pos_right positive)
  · intro lateness tolerable paced
    rw [(beats tolerable paced).length_eq, List.length_range]

/-- A heartbeat of forty milliseconds that is started at seven. Somebody joins before its
first beat and is gone before the last, and it is stopped after the third one. -/
theorem run_fires_on_time_thrice :
    let clock : Nat → Moment := fun _ => ⟨"now", Double.zero⟩
    let member : Connection := ⟨⟨0⟩, .v4 127 0 0 1 5000⟩
    let exchange := ((start "localhost" 3004).run clock [.advance 7]).2
    let started := (exchange.step clock (.startHeartbeat 40)).2
    let during : List Step :=
      [.advance 15, .register member, .advance 25, .recordMessage, .advance 40, .advance 30,
        .unregister member.id, .advance 10, .advance 39]
    let after : List Step := [.advance 1, .advance 1000]
    let stopped := ((started.run clock during).2.step clock .stopHeartbeat).2
    (∀ step ∈ during, step.isSteady = true) ∧ (∀ period, .startHeartbeat period ∉ after) ∧
      started.KeepsPace clock 0 during ∧
      started.firingTimes clock during = [47, 87, 127] ∧
      stopped.firingTimes clock after = [] := by
  intro clock member exchange started during after stopped
  have steady : ∀ step ∈ during, step.isSteady = true := by decide
  have unstarted : ∀ period, .startHeartbeat period ∉ after := by simp [after]
  have paced : started.KeepsPace clock 0 during := by decide +kernel
  rcases run_fires_on_time clock exchange 40 during after steady unstarted
    with ⟨_, onTime, _, _, silent, _⟩
  exact ⟨steady, unstarted, paced, (onTime paced).trans (by decide +kernel), silent⟩

end Exchange

end Relay
