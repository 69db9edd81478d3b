/-
  Timers by the time that is left.

  A countdown is a timer without a clock: its handle, its period and the time until it is due. How
  often timers come due in a span, and what starting, stopping and the passing of time make of them,
  is told by their countdowns alone, so it is the same on two clocks that show different times. Main
  statements: `Schedule.length_due` and `Schedule.running_advance`.
-/
import Mathlib.Algebra.GroupWithZero.Nat
import LoginAdmission.Proofs.Timers.Due

namespace LoginAdmission

/-- A running timer, by the time that is left until it is due. -/
structure Countdown where
  handle : String
  period : Nat
  left : Int
deriving DecidableEq

namespace Countdown

/-- How often it comes due in a span. -/
def fires (c : Countdown) (millis : Nat) : Nat :=
  if c.left ≤ millis then ((millis - c.left) / c.period).toNat + 1 else 0

/-- The countdown once a span has passed. -/
def later (c : Countdown) (millis : Nat) : Countdown :=
  { c with left := c.left + c.fires millis * c.period - millis }

end Countdown

/-- The countdown of a timer on a clock. -/
def Timer.countdown (now : Nat) (t : Timer) : Countdown := ⟨t.handle, t.period, t.next - now⟩

theorem Timer.fires_countdown (t : Timer) (now millis : Nat) :
    (t.countdown now).fires millis = t.count (now + millis) := by
  unfold countdown Countdown.fires count
  dsimp only
  by_cases h : t.next ≤ now + millis
  · have hspan : (millis : Int) - (t.next - now) = ((now + millis - t.next : Nat) : Int) := by omega
    rw [if_pos h, if_pos (by omega), hspan, ← Int.natCast_ediv, Int.toNat_natCast]
  · rw [if_neg h, if_neg (by omega)]

theorem Timer.later_countdown (t : Timer) (now millis : Nat) :
    (t.countdown now).later millis = (t.advance (now + millis)).countdown (now + millis) := by
  unfold Countdown.later
  rw [t.fires_countdown, t.advance_eq]
  simp only [countdown, Countdown.mk.injEq, true_and]
  push_cast
  omega

namespace Schedule

/-- The running timers by the time that is left. -/
def running (s : Schedule) : List Countdown := s.timers.map (·.countdown s.now)

theorem isRunning_eq (s : Schedule) (handle : String) :
    s.isRunning handle = s.running.any (·.handle = handle) := by
  unfold isRunning running
  rw [List.any_map]
  rfl

theorem running_stop (s : Schedule) (handle : String) :
    (s.stop handle).running = s.running.filter (·.handle ≠ handle) := by
  unfold stop running
  rw [List.filter_map]
  rfl

theorem running_start (s : Schedule) (handle : String) {period : Nat} (h : 0 < period) :
    (s.start handle period h).running =
      s.running.filter (·.handle ≠ handle) ++ [⟨handle, period, period⟩] := by
  have hnew : Timer.countdown s.now ⟨handle, period, s.now + period, h⟩ =
      ⟨handle, period, period⟩ := by
    simp only [Timer.countdown, Countdown.mk.injEq, true_and]
    omega
  rw [← s.running_stop, ← hnew]
  exact List.map_append

theorem running_advance (s : Schedule) (millis : Nat) :
    (s.advance millis).running = s.running.map (·.later millis) := by
  unfold advance running
  rw [List.map_map, List.map_map]
  exact List.map_congr_left fun t _ => (t.later_countdown s.now millis).symm

/-- How many timers come due in a span is told by the countdowns. -/
theorem length_due (s : Schedule) (millis : Nat) :
    (s.due millis).length = (s.running.map (·.fires millis)).sum := by
  have hcount : ∀ t : Timer, (t.stamped (s.now + millis)).length =
      (t.countdown s.now).fires millis := fun t => by
    rw [t.fires_countdown, Timer.stamped, List.length_map, t.length_dues]
  rw [due_eq, List.length_mergeSort, pending, List.length_flatMap, running, List.map_map]
  exact congrArg List.sum (List.map_congr_left fun t _ => hcount t)

/-- Two clocks that show different times, and one timer that has a second left on both. -/
example : (Schedule.mk 7000 [⟨"nightly", 3000, 8000, by decide⟩]).running =
    (Schedule.mk 0 [⟨"nightly", 3000, 1000, by decide⟩]).running := by decide

end Schedule

end LoginAdmission
