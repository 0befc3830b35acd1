import Courier.Consumer
import Courier.Statistics.Delivery
/-!
# Statistics of a run

Everything that a run has to tell at its end, and the text it is told in.
-/

namespace Courier.Statistics

/-- **Statistics of a run.** -/
structure Run where
  /-- The events that the source has handed over. -/
  eventsRead : Nat
  /-- What the consumer has done. -/
  consumer : ConsumerSummary
  /-- Its deliveries. -/
  deliveries : Deliveries
  /-- The line after which the source began. -/
  resumedAfter : Nat
  /-- How long the run lasted, in milliseconds. -/
  duration : Nat
deriving Repr, Inhabited

namespace Run

/-- The seconds that the run lasted. -/
def seconds (r : Run) : Float :=
  Float.ofNat (r.duration / 1000) + Float.ofNat (r.duration % 1000 * 1000000) / 1000000000.0

/-- **Events delivered in a second.** -/
def throughput (r : Run) : Float :=
  if r.seconds > 0.0 then Float.ofNat r.deliveries.delivered / r.seconds else 0.0

/-- **The statistics in words.** -/
def describe (r : Run) : String :=
  let c := r.consumer
  String.join ((["",
    "╔══════════════════════════════════════════════════════════════╗",
    "║                      Run Statistics                          ║",
    "╚══════════════════════════════════════════════════════════════╝",
    "",
    "📊 Overview",
    "   ├─ Duration: " ++ Decimal.fixed 2 r.seconds ++ "s",
    s!"   ├─ Resumed after line: {r.resumedAfter}",
    s!"   ├─ Events read: {r.eventsRead}",
    s!"   ├─ Records: {c.records} ({c.acknowledged} acknowledged, {c.failed} failed)",
    s!"   ├─ Checkpoints: {c.committed} committed, {c.checkpointFailures} failed",
    "   ├─ Last acknowledged line: " ++ c.lastPosition.getD "none",
    "   └─ Throughput: " ++ Decimal.fixed 2 r.throughput ++ " events/s"] ++
    (if c.interrupted then ["", "⚠️  Run interrupted by shutdown"] else []) ++
    [""] ++ r.deliveries.lines ++ [""]).map (· ++ "\n"))

end Run

end Courier.Statistics
