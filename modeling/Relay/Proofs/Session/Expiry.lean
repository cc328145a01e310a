import Relay.Session

namespace Relay.Session

/-! What is left of a session when the clock has reached a time. Checks are due one
period after each other, counted from the start of the session. If one of them has
become due, it closes the session of a silent peer; otherwise the next check that
is not due yet is waited for. -/

variable {keepalive : Keepalive} {now : Nat}

/-! ## All due checks -/

def overdue (keepalive : Keepalive) (now : Nat) (session : Session) : Nat :=
  (now + keepalive.period - session.nextCheck) / keepalive.period

theorem overdue_of_early {session : Session} (early : now < session.nextCheck) :
    session.overdue keepalive now = 0 := by
  have := keepalive.period_pos
  exact Nat.div_eq_of_lt (by omega)

theorem overdue_of_due {session : Session} (due : session.nextCheck ≤ now) :
    session.overdue keepalive now = (session.checked keepalive).overdue keepalive now + 1 := by
  have rest : now + keepalive.period - session.nextCheck =
      now + keepalive.period - (session.nextCheck + keepalive.period) + keepalive.period := by
    omega
  rw [overdue, overdue, rest, Nat.add_div_right _ keepalive.period_pos]
  rfl

theorem lt_add_overdue (session : Session) :
    now < session.nextCheck + session.overdue keepalive now * keepalive.period := by
  have less := Nat.lt_div_mul_add (a := now + keepalive.period - session.nextCheck)
    keepalive.period_pos
  rw [overdue]
  omega

/-- The first overdue check closes a silent session, and all of them ping one that is not
silent. -/
theorem expire_eq (session : Session) :
    session.expire keepalive now =
      if session.overdue keepalive now ≠ 0 ∧ session.isSilent keepalive now then
        ([.close none], none)
      else
        (List.replicate (session.overdue keepalive now) .ping,
          some { session with
            nextCheck :=
              session.nextCheck + session.overdue keepalive now * keepalive.period }) := by
  induction session using expire.induct keepalive now with
  | case1 session due silent =>
      rw [expire, dif_pos due, if_pos silent, overdue_of_due due,
        if_pos ⟨Nat.succ_ne_zero _, silent⟩]
  | case2 session due heard frames rest result induction =>
      -- All checks are made at one time, so that they agree on whether the session is silent.
      have stillHeard : ¬(session.checked keepalive).isSilent keepalive now := heard
      rw [if_neg fun silent => stillHeard silent.2] at induction
      rw [expire, dif_pos due, if_neg heard, induction, overdue_of_due due,
        if_neg fun silent => heard silent.2, List.replicate_succ, Nat.add_mul, Nat.one_mul,
        ← Nat.add_assoc, Nat.add_right_comm]
      rfl
  | case3 session early =>
      rw [expire, dif_neg early, overdue_of_early (Nat.lt_of_not_le early), if_neg (by simp),
        Nat.zero_mul]
      rfl

theorem expire_of_early {session : Session} (early : now < session.nextCheck) :
    session.expire keepalive now = ([], some session) := by
  rw [expire, dif_neg (Nat.not_le_of_lt early)]

theorem eq_of_expire {session rest : Session}
    (left : (session.expire keepalive now).2 = some rest) :
    rest = { session with
      nextCheck := session.nextCheck + session.overdue keepalive now * keepalive.period } := by
  rw [expire_eq] at left
  split at left
  · cases left
  · cases left
    rfl

theorem connection_of_expire {session rest : Session}
    (left : (session.expire keepalive now).2 = some rest) :
    rest.connection = session.connection := by
  rw [eq_of_expire left]

theorem early_of_expire {session rest : Session}
    (left : (session.expire keepalive now).2 = some rest) : now < rest.nextCheck := by
  rw [eq_of_expire left]
  exact session.lt_add_overdue

/-! ## Checks by their numbers -/

def checksDue (keepalive : Keepalive) (started now : Nat) : Nat :=
  (now - started) / keepalive.period

def checkTime (keepalive : Keepalive) (started number : Nat) : Nat :=
  started + (number + 1) * keepalive.period

theorem checkTime_le_iff {started number : Nat} (isStarted : started ≤ now) :
    checkTime keepalive started number ≤ now ↔
      number < checksDue keepalive started now := by
  have least :=
    Nat.le_div_iff_mul_le (x := number + 1) (y := now - started) keepalive.period_pos
  unfold checkTime checksDue
  rw [Nat.lt_iff_add_one_le, least]
  omega

theorem overdue_checkTime (connection : Connection) (lastSeen started made : Nat) :
    (Session.mk connection lastSeen (checkTime keepalive started made)).overdue keepalive now =
      checksDue keepalive started now - made := by
  have rest : now + keepalive.period - checkTime keepalive started made =
      now - started - made * keepalive.period := by
    rw [checkTime, Nat.add_mul, Nat.one_mul]
    omega
  rw [overdue, rest, checksDue, Nat.mul_comm, Nat.sub_mul_div]

/-- What all due checks do, if those before the given number have been made: the first
one closes a silent session, and each of them pings one that is not silent. -/
theorem expire_mk (connection : Connection) (lastSeen : Nat) {started made : Nat}
    (bound : made ≤ checksDue keepalive started now) :
    (Session.mk connection lastSeen (checkTime keepalive started made)).expire keepalive now =
      if made < checksDue keepalive started now ∧ keepalive.patience < now - lastSeen then
        ([.close none], none)
      else
        (List.replicate (checksDue keepalive started now - made) .ping,
          some ⟨connection, lastSeen,
            checkTime keepalive started (checksDue keepalive started now)⟩) := by
  have next : checkTime keepalive started made +
      (checksDue keepalive started now - made) * keepalive.period =
        checkTime keepalive started (checksDue keepalive started now) := by
    rw [checkTime, checkTime, Nat.add_assoc, ← Nat.add_mul]
    congr 2
    omega
  rw [expire_eq, overdue_checkTime]
  simp only [next, isSilent, decide_eq_true_eq, Nat.sub_ne_zero_iff_lt]

end Relay.Session
