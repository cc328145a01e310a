import Mathlib.Data.List.Forall2
import Relay.Heartbeat

namespace Relay.Heartbeat

/-! When a heartbeat fires. It is due one period after it was started and one period after
each time it was due, as long as it is not late: a firing that comes in time, or nearly so,
leaves the later ones where they are. -/

variable {now : Nat}

def beatsDue (started period now : Nat) : Nat := (now - started) / period

def beatTime (started period number : Nat) : Nat := started + (number + 1) * period

theorem beatTime_succ (started period number : Nat) :
    beatTime started period (number + 1) = beatTime started period number + period := by
  unfold beatTime
  rw [Nat.add_mul (number + 1), Nat.one_mul, Nat.add_assoc]

theorem beatTime_le_iff {started period number : Nat} (positive : 0 < period)
    (isStarted : started ≤ now) :
    beatTime started period number ≤ now ↔ number < beatsDue started period now := by
  have least := Nat.le_div_iff_mul_le (x := number + 1) (y := now - started) positive
  unfold beatTime beatsDue
  rw [Nat.lt_iff_add_one_le, least]
  omega

theorem beatTime_mono (started period : Nat) {first second : Nat} (ordered : first ≤ second) :
    beatTime started period first ≤ beatTime started period second :=
  Nat.add_le_add_left (Nat.mul_le_mul_right period (Nat.succ_le_succ ordered)) started

def IsBeat (started period lateness time number : Nat) : Prop :=
  beatTime started period number ≤ time ∧ time ≤ beatTime started period number + lateness

theorem isBeat_replicate {started period lateness made others : Nat}
    (inTime : now ≤ beatTime started period made + lateness)
    (due : ∀ number < made + others, beatTime started period number ≤ now) :
    List.Forall₂ (IsBeat started period lateness) (List.replicate others now)
      (List.range' made others) := by
  induction others generalizing made with
  | zero => exact .nil
  | succ others induction =>
      refine .cons ⟨due made (by omega), inTime⟩ (induction ?_ fun number isDue => ?_)
      · have later := beatTime_mono started period (Nat.le_add_right made 1)
        omega
      · exact due number (by omega)

theorem period_pos (heartbeat : Heartbeat) : 0 < heartbeat.period := heartbeat.minimal_le

/-! ## One heartbeat -/

theorem expire_of_early {heartbeat : Heartbeat} (early : now < heartbeat.due) :
    heartbeat.expire now = (0, heartbeat) := by
  rw [expire, dif_neg (Nat.not_le_of_lt early)]

theorem expire_of_due {heartbeat : Heartbeat} (due : heartbeat.due ≤ now) :
    heartbeat.expire now =
      (((heartbeat.next now).expire now).1 + 1, ((heartbeat.next now).expire now).2) := by
  rw [expire, dif_pos due]

/-- A heartbeat that is over with its firings fires later than it would have, with the same
period, and not at once. -/
theorem expire_spec (now : Nat) (heartbeat : Heartbeat) :
    (heartbeat.expire now).2.period = heartbeat.period ∧
      heartbeat.due ≤ (heartbeat.expire now).2.due ∧
      now < (heartbeat.expire now).2.due := by
  induction heartbeat using expire.induct now with
  | case1 heartbeat due count after result induction =>
      rw [expire_of_due due]
      exact ⟨induction.1, Nat.le_trans (Nat.le_of_lt (due_lt_next due)) induction.2.1,
        induction.2.2⟩
  | case2 heartbeat early =>
      rw [expire_of_early (Nat.lt_of_not_le early)]
      exact ⟨rfl, Nat.le_refl _, Nat.lt_of_not_le early⟩

/-- If the last beat that was made is followed by one that is not late by more than the
tolerance, all due beats are made and none is put off. -/
theorem expire_of_tolerable {started made : Nat} {heartbeat : Heartbeat}
    (isStarted : started ≤ now) (bound : made ≤ beatsDue started heartbeat.period now)
    (isNext : heartbeat.due = beatTime started heartbeat.period made)
    (tolerable : now ≤ heartbeat.due + tolerance) :
    heartbeat.expire now =
      (beatsDue started heartbeat.period now - made,
        { heartbeat with
          due := beatTime started heartbeat.period
            (beatsDue started heartbeat.period now) }) := by
  -- By the number of beats that are left: a firing that is in time moves the timer to the very
  -- next beat, which is in time as well.
  induction left : beatsDue started heartbeat.period now - made generalizing made heartbeat with
  | zero =>
      have all : beatsDue started heartbeat.period now = made := by omega
      have early : now < heartbeat.due := by
        rw [isNext]
        apply Nat.lt_of_not_le
        rw [beatTime_le_iff heartbeat.period_pos isStarted]
        omega
      rw [expire_of_early early, all, ← isNext]
  | succ others induction =>
      have due : heartbeat.due ≤ now := by
        rw [isNext, beatTime_le_iff heartbeat.period_pos isStarted]
        omega
      have isInTime : ¬heartbeat.due + tolerance < now := Nat.not_lt_of_le tolerable
      let following : Heartbeat := { heartbeat with due := heartbeat.due + heartbeat.period }
      have isNextOne : heartbeat.next now = following := by
        rw [next, if_neg isInTime]
      have isDueThen : following.due = beatTime started following.period (made + 1) := by
        change heartbeat.due + heartbeat.period = beatTime started heartbeat.period (made + 1)
        rw [beatTime_succ, isNext]
      have bound : made + 1 ≤ beatsDue started following.period now := by
        change made + 1 ≤ beatsDue started heartbeat.period now
        omega
      have tolerable : now ≤ following.due + tolerance := by
        change now ≤ heartbeat.due + heartbeat.period + tolerance
        omega
      have left : beatsDue started following.period now - (made + 1) = others := by
        change beatsDue started heartbeat.period now - (made + 1) = others
        omega
      rw [expire_of_due due, isNextOne, induction bound isDueThen tolerable left]

end Relay.Heartbeat
