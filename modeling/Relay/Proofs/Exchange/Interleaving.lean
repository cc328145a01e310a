import Mathlib.Data.List.GetD
import Relay.Proofs.Exchange.Membership

namespace Relay

/-! Threads that work on the registry, each on connections of its own. What a step does
under a name depends on the steps under this name only, and these belong to one thread.
So it does not matter in which order the threads get their turns, except for the numbers
of the messages that they count; these are shared, and handed out one after the other.
Main statement: all interleavings lead to the same registry. -/

def Step.isCall : Step → Bool
  | .register _ | .unregister _ | .recordMessage => true
  | _ => false

def Outcome.number? : Outcome → Option UInt64
  | .count number => some number
  | _ => none

abbrev Schedule := List (Nat × Step)

namespace Schedule

def steps (schedule : Schedule) : List Step := schedule.map Prod.snd

def share (thread : Nat) (schedule : Schedule) : List Step :=
  (schedule.filter fun entry => entry.1 = thread).map Prod.snd

def outcomesOf (thread : Nat) (schedule : Schedule) (outcomes : List Outcome) : List Outcome :=
  ((schedule.zip outcomes).filter fun entry => entry.1.1 = thread).map Prod.snd

def Interleaves (schedule : Schedule) (threads : List (List Step)) : Prop :=
  ∀ thread, schedule.share thread = threads.getD thread []

end Schedule

/-- No two threads register or unregister the same connection. -/
def AreApart (threads : List (List Step)) : Prop :=
  threads.Pairwise fun first second =>
    (first.filterMap Step.subject?).Disjoint (second.filterMap Step.subject?)

/-! ## Labelled lists -/

theorem perm_flatMap_filter {α : Type} (label : α → Nat) {bound : Nat} {entries : List α}
    (bounded : ∀ entry ∈ entries, label entry < bound) :
    ((List.range bound).flatMap fun number =>
      entries.filter fun entry => label entry = number).Perm entries := by
  induction bound generalizing entries with
  | zero =>
      have none : entries = [] := by
        apply List.eq_nil_iff_forall_not_mem.mpr
        intro entry member
        exact Nat.not_lt_zero _ (bounded entry member)
      rw [none]
      exact .refl _
  | succ bound induction =>
      let others := entries.filter fun entry => !decide (label entry = bound)
      have fewer : ∀ entry ∈ others, label entry < bound := by
        intro entry member
        rcases List.mem_filter.mp member with ⟨isEntry, different⟩
        have := bounded entry isEntry
        simp only [Bool.not_eq_true', decide_eq_false_iff_not] at different
        omega
      have parts : ∀ number ∈ List.range bound,
          (others.filter fun entry => label entry = number) =
            entries.filter fun entry => label entry = number := by
        intro number inRange
        have := List.mem_range.mp inRange
        rw [List.filter_filter]
        apply List.filter_congr
        intro entry _
        simp only [Bool.and_eq_left_iff_imp, decide_eq_true_eq, Bool.not_eq_true',
          decide_eq_false_iff_not]
        omega
      rw [List.range_succ, List.flatMap_append, List.flatMap_singleton,
        ← List.flatMap_congr parts]
      exact ((induction fewer).append_right _).trans
        (List.perm_append_comm.trans (List.filter_append_perm _ entries))

namespace Schedule

variable {threads : List (List Step)} {schedule : Schedule}

theorem share_cons (thread : Nat) (entry : Nat × Step) (rest : Schedule) :
    share thread (entry :: rest) =
      if entry.1 = thread then entry.2 :: rest.share thread else rest.share thread := by
  unfold share
  by_cases same : entry.1 = thread <;> simp [same]

theorem outcomesOf_cons (thread : Nat) (entry : Nat × Step) (rest : Schedule)
    (outcome : Outcome) (outcomes : List Outcome) :
    outcomesOf thread (entry :: rest) (outcome :: outcomes) =
      if entry.1 = thread then outcome :: rest.outcomesOf thread outcomes
      else rest.outcomesOf thread outcomes := by
  unfold outcomesOf
  by_cases same : entry.1 = thread <;> simp [same]

theorem mem_share {entry : Nat × Step} (member : entry ∈ schedule) :
    entry.2 ∈ schedule.share entry.1 :=
  List.mem_map_of_mem (List.mem_filter.mpr ⟨member, decide_eq_true rfl⟩)

theorem Interleaves.mem (interleaves : schedule.Interleaves threads) {entry : Nat × Step}
    (member : entry ∈ schedule) : entry.2 ∈ threads.getD entry.1 [] :=
  interleaves entry.1 ▸ mem_share member

theorem lt_length_of_mem {thread : Nat} {step : Step}
    (member : step ∈ threads.getD thread []) : thread < threads.length := by
  by_contra beyond
  rw [List.getD_eq_default _ _ (Nat.le_of_not_lt beyond)] at member
  cases member

theorem Interleaves.thread_lt (interleaves : schedule.Interleaves threads)
    {entry : Nat × Step} (member : entry ∈ schedule) : entry.1 < threads.length :=
  lt_length_of_mem (interleaves.mem member)

theorem Interleaves.perm_steps (interleaves : schedule.Interleaves threads) :
    schedule.steps.Perm threads.flatten := by
  have parts := (perm_flatMap_filter Prod.fst fun _ => interleaves.thread_lt).map Prod.snd
  rw [List.map_flatMap] at parts
  have threadwise : (List.range threads.length).map
      (fun thread => (schedule.filter fun entry => entry.1 = thread).map Prod.snd) =
        threads := by
    apply List.ext_getElem
    · simp
    · intro position _ inRange
      have own := interleaves position
      rw [List.getD_eq_getElem _ _ inRange] at own
      simpa [share] using own
  rw [List.flatMap_def, threadwise] at parts
  exact parts.symm

theorem Interleaves.perm_outcomes (interleaves : schedule.Interleaves threads)
    {outcomes : List Outcome} (all : outcomes.length = schedule.length) :
    ((List.range threads.length).flatMap fun thread =>
      schedule.outcomesOf thread outcomes).Perm outcomes := by
  have bounded : ∀ entry ∈ schedule.zip outcomes, entry.1.1 < threads.length := by
    intro entry member
    exact interleaves.thread_lt (List.of_mem_zip member).1
  have parts := (perm_flatMap_filter (fun entry : (Nat × Step) × Outcome => entry.1.1)
    bounded).map Prod.snd
  rw [List.map_flatMap, List.map_snd_zip (Nat.le_of_eq all)] at parts
  exact parts

theorem sublist_outcomesOf (thread : Nat) {outcomes : List Outcome}
    (all : outcomes.length = schedule.length) :
    (schedule.outcomesOf thread outcomes).Sublist outcomes := by
  have part := (List.filter_sublist (p := fun entry => decide (entry.1.1 = thread))
    (l := schedule.zip outcomes)).map Prod.snd
  rwa [List.map_snd_zip (Nat.le_of_eq all)] at part

theorem exists_owner (apart : AreApart threads) (id : ConnectionId) :
    ∃ owner, ∀ schedule : Schedule, schedule.Interleaves threads →
      ∀ entry ∈ schedule, entry.2.subject? = some id → entry.1 = owner := by
  by_cases touched : ∃ owner, ∃ step ∈ threads.getD owner [], step.subject? = some id
  · rcases touched with ⟨owner, step, isStep, isSubject⟩
    refine ⟨owner, fun schedule interleaves entry member sameSubject => ?_⟩
    have isOther := interleaves.mem member
    have mine : id ∈ (threads.getD owner []).filterMap Step.subject? :=
      List.mem_filterMap.mpr ⟨step, isStep, isSubject⟩
    have yours : id ∈ (threads.getD entry.1 []).filterMap Step.subject? :=
      List.mem_filterMap.mpr ⟨entry.2, isOther, sameSubject⟩
    have inRange := interleaves.thread_lt member
    have ownerInRange := lt_length_of_mem isStep
    rw [List.getD_eq_getElem _ _ ownerInRange] at mine
    rw [List.getD_eq_getElem _ _ inRange] at yours
    have apart := List.pairwise_iff_getElem.mp apart
    rcases Nat.lt_trichotomy entry.1 owner with before | same | after
    · exact (apart _ _ inRange ownerInRange before yours mine).elim
    · exact same
    · exact (apart _ _ ownerInRange inRange after mine yours).elim
  · refine ⟨0, fun schedule interleaves entry member sameSubject => ?_⟩
    exact absurd ⟨entry.1, entry.2, interleaves.mem member, sameSubject⟩ touched

end Schedule

namespace Exchange

variable {clock : Nat → Moment}

/-- What somebody else's steps do is of no account under a name. -/
theorem handle?_run_of_owner {schedule : Schedule} {id : ConnectionId} {owner : Nat}
    (owned : ∀ entry ∈ schedule, entry.2.subject? = some id → entry.1 = owner)
    (exchange : Exchange) :
    (exchange.run clock schedule.steps).2.hub.registry.handle? id =
      (schedule.share owner).foldl (fun handle? step => step.onHandle id handle?)
        (exchange.hub.registry.handle? id) := by
  induction schedule generalizing exchange with
  | nil => rfl
  | cons entry rest induction =>
      have ownedRest := fun other member => owned other (List.mem_cons_of_mem entry member)
      change
        (run clock (Schedule.steps rest) (exchange.step clock entry.2).2).2.hub.registry.handle?
          id = _
      rw [induction ownedRest, handle?_step, Schedule.share_cons]
      split
      · rfl
      · rename_i notOwner
        have notSubject : entry.2.subject? ≠ some id := fun isSubject =>
          notOwner (owned entry List.mem_cons_self isSubject)
        rw [Step.onHandle, if_neg notSubject]

/-- A thread is told whether somebody took part by what it has done itself. -/
theorem outcomesOf_unregister {schedule : Schedule} {id : ConnectionId} {owner : Nat}
    (owned : ∀ entry ∈ schedule, entry.2.subject? = some id → entry.1 = owner)
    (exchange : Exchange) {position : Nat}
    (isCall : (schedule.share owner)[position]? = some (.unregister id)) :
    (schedule.outcomesOf owner (exchange.run clock schedule.steps).1)[position]? =
      some (.flag (((schedule.share owner).take position).foldl
        (fun handle? step => step.onHandle id handle?)
          (exchange.hub.registry.handle? id)).isSome) := by
  induction schedule generalizing exchange position with
  | nil => cases isCall
  | cons entry rest induction =>
      have ownedRest := fun other member => owned other (List.mem_cons_of_mem entry member)
      rw [Schedule.share_cons] at isCall ⊢
      change (Schedule.outcomesOf owner (entry :: rest)
        ((exchange.step clock entry.2).1 ::
          (run clock (Schedule.steps rest) (exchange.step clock entry.2).2).1))[position]? = _
      rw [Schedule.outcomesOf_cons]
      split at isCall
      · rename_i isOwner
        rw [if_pos isOwner, if_pos isOwner]
        cases position with
        | zero =>
            have isUnregister : entry.2 = .unregister id := Option.some.inj isCall
            rw [isUnregister]
            exact congrArg (fun present => some (Outcome.flag present))
              (Registry.contains_eq id exchange.hub.registry)
        | succ position =>
            have later := induction ownedRest (exchange.step clock entry.2).2 isCall
            rw [handle?_step] at later
            exact later
      · rename_i notOwner
        have notSubject : entry.2.subject? ≠ some id := fun isSubject =>
          notOwner (owned entry List.mem_cons_self isSubject)
        rw [if_neg notOwner, if_neg notOwner, induction ownedRest _ isCall, handle?_step,
          Step.onHandle, if_neg notSubject]

/-! ## Numbers -/

theorem length_run (steps : List Step) (exchange : Exchange) :
    (exchange.run clock steps).1.length = steps.length := by
  induction steps generalizing exchange with
  | nil => rfl
  | cons step rest induction => rw [run_cons, List.length_cons, induction, List.length_cons]

theorem numbers_run {steps : List Step} (calls : ∀ step ∈ steps, step.isCall)
    (exchange : Exchange) :
    (exchange.run clock steps).1.filterMap Outcome.number? =
      (List.range (steps.count .recordMessage)).map fun earlier =>
        exchange.hub.registry.messageCount + 1 + .ofNat earlier := by
  induction steps generalizing exchange with
  | nil => rfl
  | cons step rest induction =>
      have callsRest := fun other member => calls other (List.mem_cons_of_mem step member)
      have isCall := calls step List.mem_cons_self
      have later := induction callsRest (exchange.step clock step).2
      rw [messageCount_step] at later
      rw [run_cons]
      have uncounted (other : step ≠ .recordMessage) (isUncounted : step.isCounted = false)
          (isSilent : (exchange.step clock step).1.number? = none) :
          ((exchange.step clock step).1 ::
              (run clock rest (exchange.step clock step).2).1).filterMap Outcome.number? =
            (List.range ((step :: rest).count .recordMessage)).map fun earlier =>
              exchange.hub.registry.messageCount + 1 + .ofNat earlier := by
        rw [List.filterMap_cons_none isSilent, List.count_cons_of_ne other, later, isUncounted]
        simp
      cases step with
      | register connection => exact uncounted nofun rfl rfl
      | unregister id => exact uncounted nofun rfl rfl
      | recordMessage =>
          have shifted : (fun earlier : Nat =>
              exchange.hub.registry.messageCount + 1 + .ofNat earlier) ∘ Nat.succ =
              fun earlier => exchange.hub.registry.messageCount + 1 + 1 + .ofNat earlier := by
            funext earlier
            rw [Function.comp_apply, Nat.succ_eq_add_one, Nat.add_comm, UInt64.ofNat_add,
              ← UInt64.add_assoc]
            rfl
          rw [List.count_cons_self, List.range_succ_eq_map, List.map_cons, List.map_map, shifted]
          exact congrArg₂ List.cons (UInt64.add_zero _).symm later
      | _ => cases isCall

theorem toNat_number {count : UInt64} {earlier : Nat}
    (few : count.toNat + (earlier + 1) < UInt64.size) :
    (count + 1 + .ofNat earlier).toNat = count.toNat + 1 + earlier := by
  have one : (1 : UInt64).toNat = 1 := rfl
  rw [UInt64.toNat_add, UInt64.toNat_add, one, UInt64.toNat_ofNat_of_lt' (by omega),
    Nat.mod_eq_of_lt (a := count.toNat + 1) (by change _ < UInt64.size; omega)]
  exact Nat.mod_eq_of_lt (by change _ < UInt64.size; omega)

theorem toNat_numbers {count : UInt64} {counted : Nat}
    (few : count.toNat + counted < UInt64.size) :
    ((List.range counted).map fun earlier => count + 1 + .ofNat earlier).map UInt64.toNat =
      List.range' (count.toNat + 1) counted := by
  rw [List.range'_eq_map_range, List.map_map]
  apply List.map_congr_left
  intro earlier inRange
  have := List.mem_range.mp inRange
  exact toNat_number (by omega)

/-- Threads that work on connections of their own can be interleaved in any way: the same
connections take part afterwards, as many messages are counted, and every unregistration
has the same outcome. The messages get the next numbers after the count, each of them one
of its own, and every thread gets its numbers in order. -/
theorem run_interleaved (clock : Nat → Moment) (exchange : Exchange)
    (threads : List (List Step)) (calls : ∀ thread ∈ threads, ∀ step ∈ thread, step.isCall)
    (apart : AreApart threads) :
    (∀ first second : Schedule, first.Interleaves threads → second.Interleaves threads →
      let one := (exchange.run clock first.steps).2.hub.registry
      let other := (exchange.run clock second.steps).2.hub.registry
      one.members.Perm other.members ∧
      (∀ id, one.contains id = other.contains id) ∧
      one.size = other.size ∧
      one.messageCount = other.messageCount) ∧
    (∀ (thread position : Nat) (id : ConnectionId),
      (threads.getD thread [])[position]? = some (.unregister id) →
      ∃ removed, ∀ schedule : Schedule, schedule.Interleaves threads →
        (schedule.outcomesOf thread (exchange.run clock schedule.steps).1)[position]? =
          some (.flag removed)) ∧
    ∀ schedule : Schedule, schedule.Interleaves threads →
      let outcomes := (exchange.run clock schedule.steps).1
      let numbers := fun thread =>
        (schedule.outcomesOf thread outcomes).filterMap Outcome.number?
      let all := (List.range threads.length).flatMap numbers
      let count := exchange.hub.registry.messageCount
      let counted := threads.flatten.count .recordMessage
      all.Perm ((List.range counted).map fun earlier => count + 1 + .ofNat earlier) ∧
      (count.toNat + counted < UInt64.size →
        (all.map UInt64.toNat).Perm (List.range' (count.toNat + 1) counted) ∧
        ∀ thread, (numbers thread).Pairwise (· < ·)) := by
  refine ⟨?_, ?_, ?_⟩
  · intro first second isFirst isSecond one other
    have same (id : ConnectionId) : one.handle? id = other.handle? id := by
      rcases Schedule.exists_owner apart id with ⟨owner, owned⟩
      rw [handle?_run_of_owner (owned first isFirst), isFirst owner,
        handle?_run_of_owner (owned second isSecond), isSecond owner]
    have samePeople := Registry.perm_members same
    refine ⟨samePeople, ?_, samePeople.length_eq, ?_⟩
    · intro id
      rw [Registry.contains_eq, Registry.contains_eq, same]
    · have sameSteps := isFirst.perm_steps.trans isSecond.perm_steps.symm
      rw [messageCount_run, messageCount_run, sameSteps.countP_eq]
  · intro thread position id isCall
    rcases Schedule.exists_owner apart id with ⟨owner, owned⟩
    refine ⟨(((threads.getD thread []).take position).foldl
      (fun handle? step => step.onHandle id handle?)
        (exchange.hub.registry.handle? id)).isSome, ?_⟩
    intro schedule interleaves
    rw [← interleaves thread] at isCall ⊢
    rcases List.mem_map.mp (List.mem_of_getElem? isCall) with ⟨entry, isEntry, isUnregister⟩
    rcases List.mem_filter.mp isEntry with ⟨member, isThread⟩
    have isOwner : thread = owner :=
      (of_decide_eq_true isThread).symm.trans
        (owned schedule interleaves entry member (by rw [isUnregister]; rfl))
    rw [isOwner] at isCall ⊢
    exact outcomesOf_unregister (owned schedule interleaves) exchange isCall
  · intro schedule interleaves outcomes numbers all count counted
    have allOutcomes : outcomes.length = schedule.length := by
      rw [length_run, Schedule.steps, List.length_map]
    have callsAll : ∀ step ∈ schedule.steps, step.isCall := by
      intro step member
      rcases List.mem_flatten.mp (interleaves.perm_steps.mem_iff.mp member)
        with ⟨thread, isThread, isStep⟩
      exact calls thread isThread step isStep
    have inOrder : outcomes.filterMap Outcome.number? =
        (List.range counted).map fun earlier => count + 1 + .ofNat earlier := by
      rw [numbers_run callsAll, interleaves.perm_steps.count_eq]
    have parts : all.Perm ((List.range counted).map fun earlier =>
        count + 1 + .ofNat earlier) := by
      rw [← inOrder]
      have split := (interleaves.perm_outcomes allOutcomes).filterMap Outcome.number?
      rwa [List.filterMap_flatMap] at split
    refine ⟨parts, fun few => ⟨?_, ?_⟩⟩
    · rw [← toNat_numbers few]
      exact parts.map UInt64.toNat
    · intro thread
      have increasing : (outcomes.filterMap Outcome.number?).Pairwise (· < ·) := by
        have ascending : (List.range' (count.toNat + 1) counted).Pairwise (· < ·) :=
          List.pairwise_lt_range'
        rw [← toNat_numbers few, ← inOrder, List.pairwise_map] at ascending
        exact ascending.imp UInt64.lt_iff_toNat_lt.mpr
      exact increasing.sublist
        ((Schedule.sublist_outcomesOf thread allOutcomes).filterMap Outcome.number?)

/-- Two threads, one of which removes somebody who takes part from the beginning, one after
the other and in turns. -/
theorem run_interleaved_in_turns :
    let clock : Nat → Moment := fun _ => ⟨"now", Double.zero⟩
    let member : Connection := ⟨⟨0⟩, .v4 127 0 0 1 5000⟩
    let first : Connection := ⟨⟨1⟩, .v4 127 0 0 1 5001⟩
    let second : Connection := ⟨⟨2⟩, .v4 127 0 0 1 5001⟩
    let exchange := ((start "localhost" 3004).run clock [.register member, .recordMessage]).2
    let threads : List (List Step) :=
      [[.register first, .recordMessage, .unregister first.id, .unregister first.id],
        [.unregister member.id, .recordMessage, .register second, .recordMessage]]
    let inSequence : Schedule :=
      [(0, .register first), (0, .recordMessage), (0, .unregister first.id),
        (0, .unregister first.id), (1, .unregister member.id), (1, .recordMessage),
        (1, .register second), (1, .recordMessage)]
    let inTurns : Schedule :=
      [(1, .unregister member.id), (0, .register first), (1, .recordMessage),
        (0, .recordMessage), (1, .register second), (0, .unregister first.id),
        (1, .recordMessage), (0, .unregister first.id)]
    let outcomes := (exchange.run clock inTurns.steps).1
    (∀ thread ∈ threads, ∀ step ∈ thread, step.isCall) ∧ AreApart threads ∧
      inSequence.Interleaves threads ∧ inTurns.Interleaves threads ∧
      (exchange.run clock inSequence.steps).2.hub.registry.members.Perm
        (exchange.run clock inTurns.steps).2.hub.registry.members ∧
      (inTurns.outcomesOf 0 outcomes).filterMap Outcome.number? = [3] ∧
      ((inTurns.outcomesOf 1 outcomes).filterMap Outcome.number?).Pairwise (· < ·) := by
  intro clock member first second exchange threads inSequence inTurns outcomes
  have calls : ∀ thread ∈ threads, ∀ step ∈ thread, step.isCall := by decide
  have apart : AreApart threads := by
    simp [AreApart, threads, List.Disjoint, Step.subject?, Step.newcomer?, member, first, second]
  have isSequence : inSequence.Interleaves threads := by
    intro thread
    rcases thread with _ | _ | thread <;> simp [Schedule.share, inSequence, threads]
  have isTurns : inTurns.Interleaves threads := by
    intro thread
    rcases thread with _ | _ | thread <;> simp [Schedule.share, inTurns, threads]
  rcases run_interleaved clock exchange threads calls apart with ⟨same, _, counted⟩
  exact ⟨calls, apart, isSequence, isTurns, (same inSequence inTurns isSequence isTurns).1,
    by decide +kernel, ((counted inTurns isTurns).2 (by decide +kernel)).2 1⟩

end Exchange

end Relay
