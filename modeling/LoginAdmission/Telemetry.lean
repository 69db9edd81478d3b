/-
  Sinks: where announced events go.

  The buffer keeps the newest events and counts those it had to drop; the count is a word, and
  begins anew when it is full. The log writes each event down. The other sinks lose every event,
  whether they take it, fail on it or are never ready for it. No sink can hold an operation up.
-/
import LoginAdmission.Recent
import LoginAdmission.LogLine

namespace LoginAdmission

/-- The newest events, and the number of those that were dropped for want of room. -/
structure EventBuffer where
  recent : Recent Event
  evicted : UInt64

namespace EventBuffer

/-- An empty buffer. -/
def ofCapacity (capacity : Nat) : EventBuffer := ⟨.ofCapacity capacity, 0⟩

/-- Takes an event. -/
def push (b : EventBuffer) (event : Event) : EventBuffer :=
  ⟨b.recent.push event, if b.recent.isFull then b.evicted + 1 else b.evicted⟩

/-- Drops the events; the count of those dropped for want of room stays. -/
def clear (b : EventBuffer) : EventBuffer := { b with recent := b.recent.clear }

end EventBuffer

/-- Where events go. -/
inductive Sink where
  | buffer (events : EventBuffer)
  | discard
  | log
  | failing
  | unready

namespace Sink

/-- What becomes of the sink and the log when an event is announced. -/
def hear (event : Event) : Sink → Sink × List LogLine
  | buffer events => (buffer (events.push event), [])
  | log => (log, [.telemetry event])
  | sink => (sink, [])

end Sink

end LoginAdmission
