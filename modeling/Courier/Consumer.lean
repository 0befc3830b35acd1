import Courier.Checkpoint.Keeper
import Courier.Fanout
/-!
# Consuming records

A consumer takes records one at a time from a channel. A record is delivered;
then its position is offered to the store, by a task of its own; or, when it
could not be delivered, the failure is handed to a handler. Then the next
record is taken.

The consumer is a machine, and what happens to it comes from outside. At every
point it can be told to shut down, and then it stops where it is: a record
being delivered stays unacknowledged. A task that is offering a position is
not part of the consumer, though, and goes on without it.
-/

namespace Courier

open Courier.Checkpoint (Status)

/-- **What a consumer has done.** -/
structure ConsumerSummary where
  /-- Records taken. -/
  records : Nat := 0
  /-- Records delivered whose offer of a position has ended. -/
  acknowledged : Nat := 0
  /-- Records that were not delivered, or whose offer broke down. -/
  failed : Nat := 0
  /-- Positions stored. -/
  committed : Nat := 0
  /-- Positions that could not be stored. -/
  checkpointFailures : Nat := 0
  /-- Whether the consumer was told to shut down. -/
  interrupted : Bool := false
  /-- The position of the last record acknowledged. -/
  lastPosition : Option String := none
deriving DecidableEq, Repr, Inhabited

namespace ConsumerSummary

/-- **A record acknowledged** with a status. -/
def acknowledge (s : ConsumerSummary) (position : String) (status : Status) : ConsumerSummary :=
  let s := { s with acknowledged := s.acknowledged + 1, lastPosition := some position }
  match status with
  | .committed => { s with committed := s.committed + 1 }
  | .skipped => s
  | .abandoned => { s with checkpointFailures := s.checkpointFailures + 1 }
  | .exhausted => { s with checkpointFailures := s.checkpointFailures + 1 }

/-- A record not acknowledged. -/
def fail (s : ConsumerSummary) : ConsumerSummary :=
  { s with failed := s.failed + 1 }

end ConsumerSummary

/-- **How an offer of a position ends**: with a status, or by breaking down. -/
inductive AckEnd
  /-- With a status. -/
  | status (s : Status)
  /-- It broke down. -/
  | crash
deriving DecidableEq, Repr, Inhabited

/-- The failure of an offer that broke down. -/
def AckEnd.failure : Failure :=
  .pipeline "ack" "ack task failed: the task broke down"

/-- **How a unit of work ends.** -/
inductive UnitOutcome
  /-- The record is delivered, and the offer of its position has ended. -/
  | acknowledged (reports : List (String × Report)) (status : Status)
  /-- The record is not delivered, or the offer broke down. -/
  | failed (f : Failure)
deriving Inhabited

/-- The end of a unit whose record is delivered. -/
def UnitOutcome.ofAck (reports : List (String × Report)) : AckEnd → UnitOutcome
  | .status s => .acknowledged reports s
  | .crash => .failed AckEnd.failure

namespace Consumer

/-- **What a consumer is doing.** -/
inductive Phase
  /-- Waiting for a record. -/
  | waiting
  /-- Having a record delivered. -/
  | delivering (r : Record)
  /-- Waiting for the offer of a position to end. -/
  | acking (r : Record)
  /-- Waiting for the handler. -/
  | handling (r : Record)
  /-- Done. -/
  | done
deriving DecidableEq, Repr, Inhabited

/-- **What happens to a consumer.** -/
inductive Signal
  /-- A record has come. -/
  | record (r : Record)
  /-- No record will come. -/
  | closed
  /-- It is told to shut down. -/
  | shutdown
  /-- The record is delivered. -/
  | delivered
  /-- The record is not delivered. -/
  | failed (f : Failure)
  /-- The offer of the position has ended. -/
  | acked (e : AckEnd)
  /-- The handler is done. -/
  | handled
deriving Inhabited

/-- **What a consumer asks for.** -/
inductive Demand
  /-- A record is to be delivered. -/
  | deliver (r : Record)
  /-- A position is to be offered to the store. -/
  | offer (position : String)
  /-- A failure is to be handled. -/
  | handle (position : String) (f : Failure)

end Consumer

/-- **A consumer.** -/
structure Consumer where
  /-- What it is doing. -/
  phase : Consumer.Phase := .waiting
  /-- What it has done. -/
  summary : ConsumerSummary := {}
deriving DecidableEq, Repr, Inhabited

namespace Consumer

/-- **One signal.** A signal that means nothing in a phase leaves the consumer as
it is. -/
def step (c : Consumer) (s : Signal) : Consumer × List Demand :=
  match c.phase, s with
  | .done, _ => (c, [])
  | _, .shutdown => (⟨.done, { c.summary with interrupted := true }⟩, [])
  | .waiting, .record r =>
    (⟨.delivering r, { c.summary with records := c.summary.records + 1 }⟩, [.deliver r])
  | .waiting, .closed => ({ c with phase := .done }, [])
  | .delivering r, .delivered => ({ c with phase := .acking r }, [.offer r.position])
  | .delivering r, .failed f => ({ c with phase := .handling r }, [.handle r.position f])
  | .acking r, .acked (.status status) =>
    (⟨.waiting, c.summary.acknowledge r.position status⟩, [])
  | .acking _, .acked .crash => (⟨.waiting, c.summary.fail⟩, [])
  | .handling _, .handled => (⟨.waiting, c.summary.fail⟩, [])
  | _, _ => (c, [])

/-- Several signals, one after another. -/
def run (c : Consumer) : List Signal → Consumer × List Demand
  | [] => (c, [])
  | s :: rest =>
    let (c, demands) := c.step s
    let (c, more) := c.run rest
    (c, demands ++ more)

end Consumer

end Courier
