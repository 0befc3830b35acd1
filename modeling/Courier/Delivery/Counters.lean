import Courier.Telemetry
/-!
# What a delivery reports of itself

A delivery leaves notes as it goes: a request about to be sent, events
delivered, refused or left over by an answer, another attempt made, a batch
resolved, given up or called off. The counters of a sink and the counted
series are two summaries of the same notes.
-/

namespace Courier.Delivery

/-- **A note left by a delivery.** -/
inductive Note
  /-- A request is about to be sent. -/
  | attempted
  /-- An answer settled and left over so many events. -/
  | answered (delivered dropped left : Nat)
  /-- Another attempt begins. -/
  | retried
  /-- The batch is resolved. -/
  | resolved
  /-- The batch is given up. -/
  | exhausted
  /-- The delivery is called off. -/
  | cancelled
deriving DecidableEq, Repr, Inhabited

/-- **The counters of a sink**, shared by all its deliveries. -/
structure Counters where
  /-- Attempts begun. -/
  attempts : Nat := 0
  /-- Attempts that were not the first of their batch. -/
  retries : Nat := 0
  /-- Events delivered. -/
  delivered : Nat := 0
  /-- Events refused. -/
  dropped : Nat := 0
  /-- Batches given up. -/
  exhausted : Nat := 0
  /-- Deliveries called off. -/
  cancelled : Nat := 0
deriving DecidableEq, Repr, Inhabited

namespace Counters

/-- The counters after a note. -/
def record (c : Counters) : Note → Counters
  | .attempted => { c with attempts := c.attempts + 1 }
  | .answered delivered dropped _ =>
    { c with delivered := c.delivered + delivered, dropped := c.dropped + dropped }
  | .retried => { c with retries := c.retries + 1 }
  | .resolved => c
  | .exhausted => { c with exhausted := c.exhausted + 1 }
  | .cancelled => { c with cancelled := c.cancelled + 1 }

/-- The counters after several notes. -/
def recordAll (c : Counters) (notes : List Note) : Counters :=
  notes.foldl record c

/-- Counters added up. -/
def add (a b : Counters) : Counters where
  attempts := a.attempts + b.attempts
  retries := a.retries + b.retries
  delivered := a.delivered + b.delivered
  dropped := a.dropped + b.dropped
  exhausted := a.exhausted + b.exhausted
  cancelled := a.cancelled + b.cancelled

end Counters

/-- **The series that a note counts up**, for a sink. -/
def Note.series (sink : String) : Note → List (Series × Nat)
  | .attempted => [(.attempts sink, 1)]
  | .answered delivered dropped left =>
    [(.items sink "delivered", delivered), (.items sink "dropped", dropped),
      (.items sink "retried", left)]
  | .retried => []
  | .resolved => [(.duration sink, 1)]
  | .exhausted => [(.exhausted sink, 1)]
  | .cancelled => []

/-- The series that several notes count up. -/
def seriesOf (sink : String) (notes : List Note) : List (Series × Nat) :=
  notes.flatMap (Note.series sink)

end Courier.Delivery
