import Courier.Failure.Basic
import Courier.Record
/-!
# One record, several sinks

A record is delivered when every sink has delivered it. The deliveries end in
any order; their reports are put into the places of their sinks, so that the
order in which they end does not show. The first delivery that fails, in the
order in which they end, makes the failure of the whole, and the others count
for nothing.

The reports can as well be collected as they come, each with the index of its
sink, and put in the order of the sinks when all are there (`Fanout.gather`).
-/

namespace Courier

/-- **Deliveries of one record**: each sink with its report, once it has one. -/
structure Fanout where
  /-- The sinks, in the order of the configuration. -/
  slots : List (String × Option Report)
deriving DecidableEq, Repr, Inhabited

namespace Fanout

/-- Nothing has ended. -/
def start (sinks : List String) : Fanout :=
  ⟨sinks.map fun s => (s, none)⟩

/-- **The delivery of the sink at an index has ended.** -/
def arrive (f : Fanout) (index : Nat) (result : Except Failure Report) : Except Failure Fanout :=
  match result with
  | .error e => .error e
  | .ok report => .ok ⟨f.slots.modify index fun (s, _) => (s, some report)⟩

/-- The deliveries that have ended, in the order in which they did. -/
def arriveAll (f : Fanout) : List (Nat × Except Failure Report) → Except Failure Fanout
  | [] => .ok f
  | (index, result) :: rest =>
    match f.arrive index result with
    | .error e => .error e
    | .ok f => f.arriveAll rest

/-- The reports of slots, if all are filled. -/
def filled? : List (String × Option Report) → Option (List (String × Report))
  | [] => some []
  | (_, none) :: _ => none
  | (s, some r) :: rest => (filled? rest).map ((s, r) :: ·)

/-- **The reports of all sinks**, in the order of the configuration, once all
have ended. -/
def reports? (f : Fanout) : Option (List (String × Report)) :=
  filled? f.slots

/-! ## Reports as they come -/

/-- **The reports of deliveries that have ended**, in the order in which they did, each
with the index of its sink and the sink; or the first failure. -/
def collect : List (Nat × String × Except Failure Report) →
    Except Failure (List (Nat × String × Report))
  | [] => .ok []
  | (_, _, .error f) :: _ => .error f
  | (index, sink, .ok report) :: rest => (collect rest).map ((index, sink, report) :: ·)

/-- **The reports of all deliveries**, collected as they came and sorted by the indices of
the sinks. -/
def gather (ended : List (Nat × String × Except Failure Report)) :
    Except Failure (List (String × Report)) :=
  (collect ended).map fun reports => (reports.mergeSort fun a b => a.1 ≤ b.1).map (·.2)

end Fanout

end Courier
