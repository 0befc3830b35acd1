import Courier.Document.Value
/-!
# Counted series

What a run reports of itself while it goes on: series with a name and labels,
each counted up from zero. A series that was never counted does not show.
-/

namespace Courier

/-- **A counted series.** -/
inductive Series
  /-- Requests about to be sent to a sink. -/
  | attempts (sink : String)
  /-- Items of a sink by what their answers meant. -/
  | items (sink status : String)
  /-- Batches given up at a sink. -/
  | exhausted (sink : String)
  /-- Batches resolved at a sink, each with its duration. -/
  | duration (sink : String)
  /-- Positions offered to the store, by what came of it. -/
  | checkpoint (status : String)
deriving DecidableEq, Repr

namespace Series

/-- The name of a series, with its labels in braces. -/
def render : Series → String
  | attempts sink => "batchline_dispatch_attempts_total\x7bsink=" ++ sink ++ "\x7d"
  | items sink status =>
    "batchline_items_total\x7bsink=" ++ sink ++ ",status=" ++ status ++ "\x7d"
  | exhausted sink => "batchline_dispatch_exhausted_total\x7bsink=" ++ sink ++ "\x7d"
  | duration sink => "batchline_dispatch_duration_ms\x7bsink=" ++ sink ++ "\x7d"
  | checkpoint status => "batchline_checkpoint_total\x7bstatus=" ++ status ++ "\x7d"

end Series

/-- **Counts of series**, in the order of their names. -/
abbrev Telemetry := List (String × Nat)

namespace Telemetry

/-- The count of a series; zero when it was never counted. -/
def count (t : Telemetry) (s : Series) : Nat :=
  (t.lookup s.render).getD 0

/-- **Counting a series up.** A count of zero leaves no trace. -/
def add (t : Telemetry) (s : Series) (n : Nat) : Telemetry :=
  if n = 0 then t
  else Document.insertSorted s.render (t.count s + n) t

/-- Counting several series up. -/
def addAll (t : Telemetry) (counts : List (Series × Nat)) : Telemetry :=
  counts.foldl (fun t (s, n) => t.add s n) t

end Telemetry

end Courier
