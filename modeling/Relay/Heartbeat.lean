import Relay.Hub

namespace Relay

/-! The heartbeat: a timer that lets a hub send its figures again and again. All
times are in milliseconds and have no end; nothing is said about periods beyond
the end of a machine's clock. -/

def Heartbeat.minimalPeriod : Nat := 1

structure Heartbeat where
  period : Nat
  minimal_le : Heartbeat.minimalPeriod ≤ period
  due : Nat
  deriving DecidableEq, Repr

namespace Heartbeat

/-- A firing that is late by more than this puts off all later ones. -/
def tolerance : Nat := 5

def start (period now : Nat) : Heartbeat :=
  let period := max period minimalPeriod
  ⟨period, by simp only [period]; omega, now + period⟩

/-- The timer after a firing at a time. The next firing is due one period after
this one was, or one period from now if this one was late. -/
def next (now : Nat) (heartbeat : Heartbeat) : Heartbeat :=
  let base := if heartbeat.due + tolerance < now then now else heartbeat.due
  { heartbeat with due := base + heartbeat.period }

theorem due_lt_next {now : Nat} {heartbeat : Heartbeat} (isDue : heartbeat.due ≤ now) :
    heartbeat.due < (heartbeat.next now).due := by
  have := heartbeat.minimal_le
  simp only [next, minimalPeriod] at *
  split <;> omega

def expire (now : Nat) (heartbeat : Heartbeat) : Nat × Heartbeat :=
  if _ : heartbeat.due ≤ now then
    let (count, heartbeat) := expire now (heartbeat.next now)
    (count + 1, heartbeat)
  else (0, heartbeat)
termination_by now + 1 - heartbeat.due
decreasing_by have := due_lt_next ‹heartbeat.due ≤ now›; omega

/-- A jump over three periods lets the timer fire once. -/
example : ((start 1000 0).expire 3000).1 = 1 ∧ ((start 1000 0).expire 3000).2.due = 4000 := by
  decide +kernel

/-- A short delay does not put off the firing after it. -/
example : ((start 2 0).expire 5).1 = 2 ∧ ((start 2 0).expire 5).2.due = 6 := by
  decide +kernel

end Heartbeat

def Hub.emitTimes (moment : Moment) : Nat → Hub → Hub
  | 0, hub => hub
  | count + 1, hub => emitTimes moment count (hub.emit moment).2

end Relay
