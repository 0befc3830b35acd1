import Courier.Document.Value
import Courier.Outcome
import Courier.Statistics.Running
/-!
# Statistics of deliveries

What a run tells about its deliveries at its end: how many were resolved and
how many failed, how many events they delivered and refused, how many attempts
they took and how long they lasted.
-/

namespace Courier.Statistics

/-- **Statistics of the deliveries so far.** -/
structure Deliveries where
  /-- Deliveries resolved. -/
  completed : Nat := 0
  /-- Records that could not be delivered. -/
  failed : Nat := 0
  /-- Events delivered. -/
  delivered : Nat := 0
  /-- Events refused. -/
  dropped : Nat := 0
  /-- Attempts that were not the first. -/
  retries : Nat := 0
  /-- The attempts that resolved deliveries took. -/
  attempts : Running := {}
  /-- The milliseconds that deliveries lasted. -/
  duration : Running := {}
  /-- The events delivered to each sink, in the order of names. -/
  perSink : List (String × Nat) := []
deriving Repr, Inhabited

namespace Deliveries

/-- **A delivery resolved**, after so many milliseconds. -/
def resolve (d : Deliveries) (sink : String) (r : Report) (millis : Float) : Deliveries where
  completed := d.completed + 1
  failed := d.failed
  delivered := d.delivered + r.delivered
  dropped := d.dropped + r.dropped
  retries := d.retries + r.retries
  attempts := d.attempts.push (Float.ofNat r.attempts)
  duration := d.duration.push millis
  perSink :=
    Document.insertSorted sink ((d.perSink.lookup sink).getD 0 + r.delivered) d.perSink

/-- **A record that could not be delivered**, after so many milliseconds. -/
def fail (d : Deliveries) (millis : Float) : Deliveries :=
  { d with failed := d.failed + 1, duration := d.duration.push millis }

/-- The failures in a hundred. -/
def failureRate (d : Deliveries) : Float :=
  let total := d.completed + d.failed
  if total = 0 then 0.0 else Float.ofNat d.failed / Float.ofNat total * 100.0

/-- **The statistics in words**, a line for each. -/
def lines (d : Deliveries) : List String :=
  ["=== Delivery Summary ===",
    s!"Sessions: {d.completed} completed, {d.failed} failed (" ++
      Decimal.fixed 2 d.failureRate ++ "%)",
    s!"Events delivered: {d.delivered}",
    s!"Events dropped: {d.dropped}",
    s!"Retries: {d.retries}",
    "Attempts per session: " ++ d.attempts.describe,
    "Session duration (ms): " ++ d.duration.describe] ++
  (if d.perSink.isEmpty then []
    else "Delivered per sink:" :: d.perSink.map fun (sink, n) => s!"  {sink}: {n}")

/-- The lines as a text. -/
def describe (d : Deliveries) : String :=
  String.join (d.lines.map (· ++ "\n"))

end Deliveries

end Courier.Statistics
