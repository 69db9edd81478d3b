/-
  Timers for the periodic flush, on a clock that only moves when it is told to.

  A timer that starts at time `s` with period `p` is first due at `s + p`. Whenever it comes due it
  ticks, and waits for another period, until it is stopped. Time passes in steps: a timer ticks as
  long as it is due within the step. `due` lists the ticks of all timers in the order of time, and
  `advance` moves the clock and the timers past them.
-/
import LoginAdmission.Failure

namespace LoginAdmission

/-- A running timer: its handle, its period, and when it is due next. Times are milliseconds. -/
structure Timer where
  handle : String
  period : Nat
  next : Nat
  period_pos : 0 < period

namespace Timer

/-- The timer comes due, and waits for another period. -/
def tick (t : Timer) : Timer := { t with next := t.next + t.period }

theorem lt_tick (t : Timer) : t.next < t.tick.next := Nat.lt_add_of_pos_right t.period_pos

/-- When the timer ticks, as long as it is due by a time. -/
def dues (t : Timer) (time : Nat) : List Nat :=
  if t.next ≤ time then t.next :: t.tick.dues time else []
termination_by time + 1 - t.next
decreasing_by
  have := t.lt_tick
  omega

/-- The timer after it ticked as long as it was due by a time. -/
def advance (t : Timer) (time : Nat) : Timer :=
  if t.next ≤ time then t.tick.advance time else t
termination_by time + 1 - t.next
decreasing_by
  have := t.lt_tick
  omega

end Timer

/-- The time, and the timers that run, in the order in which they were started. -/
structure Schedule where
  now : Nat
  timers : List Timer

namespace Schedule

/-- Time zero and no timer. -/
def empty : Schedule := ⟨0, []⟩

/-- Whether a timer runs under this handle. -/
def isRunning (s : Schedule) (handle : String) : Bool := s.timers.any (·.handle = handle)

/-- Stops the timer of a handle. -/
def stop (s : Schedule) (handle : String) : Schedule :=
  { s with timers := s.timers.filter (·.handle ≠ handle) }

/-- Starts a timer, in place of the one that runs under its handle. It is due one period from
now. -/
def start (s : Schedule) (handle : String) (period : Nat) (h : 0 < period) : Schedule :=
  { s with timers := (s.stop handle).timers ++ [⟨handle, period, s.now + period, h⟩] }

/-- Starts a timer where a clock runs. An interval of zero is refused before the clock is looked
for. -/
def start? (clock : Option Schedule) (handle : String) (period : Nat) :
    Except SettingsError Schedule :=
  if h : 0 < period then
    match clock with
    | some s => .ok (s.start handle period h)
    | none => .error .noRuntime
  else .error .zeroInterval

/-- What comes due in the next `millis` milliseconds, with the handles, in the order of time. -/
def due (s : Schedule) (millis : Nat) : List (Nat × String) :=
  (s.timers.flatMap fun t => (t.dues (s.now + millis)).map fun time => (time, t.handle)).mergeSort
    fun a b => a.1 ≤ b.1

/-- The schedule `millis` milliseconds later. -/
def advance (s : Schedule) (millis : Nat) : Schedule :=
  ⟨s.now + millis, s.timers.map (·.advance (s.now + millis))⟩

end Schedule

end LoginAdmission
