import Mathlib.Data.Finmap
import Courier.Delivery.Ledger
/-!
# A ledger in tables

What is known of a batch need not be kept event by event. `Tables` keeps it in three
collections beside the batch: the identities that are outstanding, the final outcomes
of those that are settled, and the last outcomes of those that are not. Nothing in the
type keeps the three in step. An answer changes them status by status, on a different
branch for each class, and an event that is settled has to leave two of them when it
enters the third.

In the end the two tables of outcomes are emptied into one list, in the order of the
batch.
-/

namespace Courier.Delivery

/-- Outcomes, each under an identity. -/
abbrev OutcomeTable := Finmap fun _ : EventId => Outcome

/-- **A ledger in tables.** -/
structure Tables where
  /-- The events of the batch, in its order. -/
  batch : List Event
  /-- The attempt under way. -/
  attempt : Nat
  /-- The identities that are not settled. -/
  outstanding : Finset EventId
  /-- The final outcomes of those that are. -/
  resolved : OutcomeTable
  /-- The outcomes of the last answers of those that are not. -/
  pending : OutcomeTable

namespace Tables

/-- The tables of a batch of which nothing is known. -/
def fresh (batch : List Event) : Tables :=
  ⟨batch, 1, (batch.map (·.id)).toFinset, ∅, ∅⟩

/-- **An event is settled**, with its final outcome. -/
def resolve (t : Tables) (id : EventId) (o : Outcome) : Tables :=
  { t with
    outstanding := t.outstanding.erase id
    pending := t.pending.erase id
    resolved := t.resolved.insert id o }

/-- **An event may be sent again**, with the outcome that says so. -/
def suspend (t : Tables) (id : EventId) (o : Outcome) : Tables :=
  { t with pending := t.pending.insert id o }

/-- An answer being taken in. -/
structure Intake where
  /-- The tables so far. -/
  tables : Tables
  /-- The events that a status was about. -/
  answered : Finset EventId
  /-- What the answer did so far. -/
  tally : Tally

namespace Intake

/-- A status ignored. -/
def ignore (i : Intake) : Intake :=
  { i with tally := { i.tally with ignored := i.tally.ignored + 1 } }

/-- One status, about a given event or about none. -/
def take (classify : ItemStatus → ItemClass) (i : Intake) (about : Option EventId)
    (s : ItemStatus) : Intake :=
  match about with
  | none => i.ignore
  | some id =>
    if id ∉ i.tables.outstanding then i.ignore
    else if id ∈ i.answered then i.ignore
    else
      let o := Outcome.classified id s (classify s) i.tables.attempt
      match classify s with
      | .success =>
        { tables := i.tables.resolve id o
          answered := insert id i.answered
          tally := { i.tally with succeeded := i.tally.succeeded + 1 } }
      | .fatal =>
        { tables := i.tables.resolve id o
          answered := insert id i.answered
          tally := { i.tally with dropped := i.tally.dropped + 1 } }
      | .retryable =>
        { tables := i.tables.suspend id o
          answered := insert id i.answered
          tally := { i.tally with retryable := i.tally.retryable + 1 } }

/-- The statuses from a position of the answer on. -/
def takeAll (classify : ItemStatus → ItemClass) (sent : List Event) (position : Nat) (i : Intake) :
    List ItemStatus → Intake
  | [] => i
  | s :: rest =>
    takeAll classify sent (position + 1) (i.take classify (aboutEvent sent position s) s) rest

/-- An event of the request that no status was about. -/
def miss (i : Intake) (e : Event) : Intake :=
  if e.id ∈ i.tables.outstanding ∧ e.id ∉ i.answered then
    { i with
      tables := i.tables.suspend e.id (.missing e.id i.tables.attempt "no status in response")
      tally := { i.tally with retryable := i.tally.retryable + 1 } }
  else i

end Intake

/-- **Taking in the answer to a request.** -/
def answer (t : Tables) (classify : ItemStatus → ItemClass) (sent : List Event)
    (statuses : List ItemStatus) : Tables × Tally :=
  let i := sent.foldl Intake.miss (Intake.takeAll classify sent 0 ⟨t, ∅, {}⟩ statuses)
  (i.tables, i.tally)

/-- **Taking in that a request got no answer.** -/
def unanswered (t : Tables) (sent : List Event) (f : Failure) : Tables :=
  sent.foldl
    (fun t e =>
      if e.id ∈ t.outstanding then t.suspend e.id (.missing e.id t.attempt f.message) else t)
    t

/-- The tables at a given attempt. -/
def advance (t : Tables) (attempt : Nat) : Tables :=
  { t with attempt := attempt }

/-- What two tables hold of events, each outcome taken out once: the final one, or
else the last one. -/
def drain (resolved pending : OutcomeTable) : List Event → List Outcome
  | [] => []
  | e :: rest =>
    match resolved.lookup e.id with
    | some o => o :: drain (resolved.erase e.id) pending rest
    | none =>
      match pending.lookup e.id with
      | some o => o :: drain resolved (pending.erase e.id) rest
      | none => drain resolved pending rest

/-- **Everything known of the batch**, in its order. -/
def diagnostics (t : Tables) : List Outcome :=
  drain t.resolved t.pending t.batch

end Tables

end Courier.Delivery
