import Courier.Event
/-!
# Answers and outcomes

A sink answers a request with one status per item: a code, perhaps a reason,
and perhaps the identity of the event it is about. What is recorded of an
event is an `Outcome`, which always has an identity: the code it was answered
with, in which attempt, and whether that settles it. A `Report` holds the
final outcomes of a batch.
-/

namespace Courier

open Courier.Document

/-- **What an answer means for its event.** -/
inductive ItemClass
  /-- The event is delivered. -/
  | success
  /-- The event is refused and dropped. -/
  | fatal
  /-- The event may be sent again. -/
  | retryable
deriving DecidableEq, Repr, Inhabited

namespace ItemClass

/-- The name of a class in documents. -/
def name : ItemClass → String
  | success => "success"
  | fatal => "fatal"
  | retryable => "retryable"

/-- All classes, in the order in which faults list them. -/
def all : List ItemClass := [success, fatal, retryable]

/-- The class of a name. -/
def ofName? (s : String) : Option ItemClass :=
  all.find? (·.name = s)

/-- Classes and their documents. -/
def codec : Codec ItemClass where
  schema := .choice (all.map name)
  toDatum c := .choice c.name
  ofDatum?
    | .choice s => ofName? s
    | _ => none

/-- **The class of a status code**: two hundred and up to three hundred is a
success, four hundred itself a refusal, and everything else may be tried
again. -/
def ofStatus (status : Nat) : ItemClass :=
  if 200 ≤ status ∧ status ≤ 299 then success
  else if status = 400 then fatal
  else retryable

end ItemClass

/-- **The answer to one item of a request.** -/
structure ItemStatus where
  /-- The event it is about, when the sink says so. -/
  id : Option EventId
  /-- The status code. -/
  status : Nat
  /-- The reason given. -/
  error : Option String
deriving DecidableEq, Repr, Inhabited

namespace ItemStatus

/-- The class of an answer by its code. -/
def classify (s : ItemStatus) : ItemClass :=
  .ofStatus s.status

/-- Answers and their documents. -/
def codec : Codec ItemStatus where
  schema := .record "ItemStatus"
    (.optional "id" .text (.required "status" (.natural .u16) (.optional "error" .text .nil)))
  toDatum s := .record [Datum.ofText? (s.id.map (·.text)), .natural s.status, Datum.ofText? s.error]
  ofDatum?
    | .record [id, .natural status, error] => do
      let id ← id.toText?
      let error ← error.toText?
      some ⟨id.map (⟨·⟩), status, error⟩
    | _ => none

end ItemStatus

/-- **What is recorded of an event.** -/
structure Outcome where
  /-- The event. -/
  id : EventId
  /-- Whether it is delivered. -/
  success : Bool
  /-- The status code of its answer; zero when there was none. -/
  status : Nat
  /-- Whether it may be sent again. -/
  retryable : Bool
  /-- The attempt that the answer belongs to. -/
  attempt : Nat
  /-- The reason given. -/
  message : Option String
deriving DecidableEq, Repr, Inhabited

namespace Outcome

/-- The outcome of an answer of a class. -/
def classified (id : EventId) (s : ItemStatus) (c : ItemClass) (attempt : Nat) : Outcome where
  id := id
  success := c = .success
  status := s.status
  retryable := c = .retryable
  attempt := attempt
  message := s.error

/-- The outcome of an event without an answer. It may be sent again. -/
def missing (id : EventId) (attempt : Nat) (message : String) : Outcome :=
  ⟨id, false, 0, true, attempt, some message⟩

/-- **An event that was refused**: neither delivered nor to be sent again. -/
def isDropped (o : Outcome) : Bool :=
  !o.success && !o.retryable

/-- Outcomes and their documents. -/
def codec : Codec Outcome where
  schema := .record "Outcome"
    (.required "event_id" .text (.required "success" .flag (.required "status_code" (.natural .u16)
      (.required "retryable" .flag (.required "attempt" (.natural .u32)
        (.sparing "message" .text .nil))))))
  toDatum o := .record [.text o.id.text, .flag o.success, .natural o.status, .flag o.retryable,
    .natural o.attempt, Datum.ofText? o.message]
  ofDatum?
    | .record [.text id, .flag success, .natural status, .flag retryable, .natural attempt,
        message] => do
      let message ← message.toText?
      some ⟨⟨id⟩, success, status, retryable, attempt, message⟩
    | _ => none

end Outcome

/-- **The report of a batch.** -/
structure Report where
  /-- The outcome of every event, in the order of the batch. -/
  outcomes : List Outcome
  /-- How many requests were sent. -/
  attempts : Nat
  /-- How many of them were sent again. -/
  retries : Nat
deriving DecidableEq, Repr, Inhabited

namespace Report

/-- The report of a batch without events. -/
def empty : Report := ⟨[], 0, 0⟩

/-- How many events were delivered. -/
def delivered (r : Report) : Nat :=
  r.outcomes.countP (·.success)

/-- How many events were refused. -/
def dropped (r : Report) : Nat :=
  r.outcomes.countP (·.isDropped)

/-- Whether every event was delivered. -/
def allDelivered (r : Report) : Bool :=
  r.outcomes.all (·.success)

/-- Reports and their documents. -/
def codec : Codec Report where
  schema := .record "DispatchReport"
    (.required "outcomes" (.sequence Outcome.codec.schema)
      (.required "attempts" (.natural .u32) (.required "retries" (.natural .u32) .nil)))
  toDatum r := .record [.sequence (r.outcomes.map Outcome.codec.toDatum), .natural r.attempts,
    .natural r.retries]
  ofDatum?
    | .record [.sequence outcomes, .natural attempts, .natural retries] => do
      let outcomes ← outcomes.mapM Outcome.codec.ofDatum?
      some ⟨outcomes, attempts, retries⟩
    | _ => none

end Report

end Courier
