import Courier.Failure.Basic
/-!
# The ledger of a batch

While a batch is being delivered, a ledger says of every event how it stands:
it is **settled**, with its final outcome, or it is **outstanding**, with the
outcome of its last answer if it has had one. The events stay in the order of
the batch, and the next request is what is outstanding, in that order.

An answer is taken in status by status. Each status is about the event whose
identity it echoes, or else about the event at its own position in the
request. A status about no outstanding event is ignored, and so is a second
status about the same event: the first one counts. When all statuses are taken
in, the events of the request that none was about are outstanding with a
missing answer.

An event is settled at most once. What is settled is not touched by any later
answer, since every step looks at outstanding events only.
-/

namespace Courier.Delivery

/-- **How an event stands.** -/
inductive Standing
  /-- Not settled; the outcome of its last answer, if there was one. -/
  | outstanding (last : Option Outcome)
  /-- Settled, with its final outcome. -/
  | settled (final : Outcome)
deriving DecidableEq, Repr, Inhabited

/-- **An event and how it stands.** -/
structure Entry where
  /-- The event. -/
  event : Event
  /-- How it stands. -/
  standing : Standing
deriving DecidableEq, Repr, Inhabited

namespace Entry

/-- Whether an entry is outstanding. -/
def isOutstanding (e : Entry) : Bool :=
  match e.standing with
  | .outstanding _ => true
  | .settled _ => false

/-- The outcome of the last answer, while the event is outstanding. -/
def pending? (e : Entry) : Option Outcome :=
  match e.standing with
  | .outstanding last => last
  | .settled _ => none

/-- The final outcome, once there is one. -/
def final? (e : Entry) : Option Outcome :=
  match e.standing with
  | .outstanding _ => none
  | .settled o => some o

/-- What is known of an event: its final outcome, or that of its last answer. -/
def known? (e : Entry) : Option Outcome :=
  match e.standing with
  | .outstanding last => last
  | .settled o => some o

end Entry

/-- **The ledger of a batch.** -/
structure Ledger where
  /-- The sink that the batch goes to. -/
  sink : String
  /-- The events of the batch, in its order. -/
  entries : List Entry
  /-- The attempt under way, counted from one. -/
  attempt : Nat
deriving DecidableEq, Repr, Inhabited

/-- **What an answer did**, in numbers of events and statuses. -/
structure Tally where
  /-- Events delivered. -/
  succeeded : Nat := 0
  /-- Events refused. -/
  dropped : Nat := 0
  /-- Events left outstanding. -/
  retryable : Nat := 0
  /-- Statuses that were about no outstanding event, or not the first about
  theirs. -/
  ignored : Nat := 0
deriving DecidableEq, Repr, Inhabited

/-- The first identity that stands in a list a second time. -/
def firstRepeated : (seen : List EventId) → List EventId → Option EventId
  | _, [] => none
  | seen, id :: rest => if seen.contains id then some id else firstRepeated (id :: seen) rest

namespace Ledger

/-- **The ledger of a batch at its first attempt.** Identities must not repeat. -/
def start (sink : String) (batch : List Event) : Except Failure Ledger :=
  match firstRepeated [] (batch.map (·.id)) with
  | some id => .error (.client sink s!"duplicate event id '{id.text}' in batch")
  | none => .ok ⟨sink, batch.map fun e => ⟨e, .outstanding none⟩, 1⟩

/-- The batch. -/
def batch (l : Ledger) : List Event :=
  l.entries.map (·.event)

/-- **The next request**: the outstanding events, in the order of the batch. -/
def request (l : Ledger) : List Event :=
  (l.entries.filter (·.isOutstanding)).map (·.event)

/-- How many events are outstanding. -/
def outstanding (l : Ledger) : Nat :=
  l.entries.countP (·.isOutstanding)

/-- Whether nothing is outstanding. -/
def isResolved (l : Ledger) : Bool :=
  l.outstanding = 0

/-- Whether an event is outstanding. -/
def isOutstanding (l : Ledger) (id : EventId) : Bool :=
  l.entries.any fun e => e.event.id = id && e.isOutstanding

/-- **A new standing for an outstanding event.** Settled events keep theirs. -/
def update (l : Ledger) (id : EventId) (s : Standing) : Ledger :=
  { l with
    entries := l.entries.map fun e =>
      if e.event.id = id && e.isOutstanding then { e with standing := s } else e }

/-- The ledger at a given attempt. -/
def advance (l : Ledger) (attempt : Nat) : Ledger :=
  { l with attempt := attempt }

end Ledger

/-! ## Answers -/

/-- **An answer being taken in.** -/
structure Intake where
  /-- The ledger so far. -/
  ledger : Ledger
  /-- The events that a status was about. -/
  answered : List EventId
  /-- What the answer did so far. -/
  tally : Tally
deriving Inhabited

/-- **The event a status is about**: the one it echoes, or else the one at its
position in the request. -/
def aboutEvent (sent : List Event) (position : Nat) (s : ItemStatus) : Option EventId :=
  match s.id with
  | some id => some id
  | none => sent[position]?.map (·.id)

namespace Intake

/-- One status, about a given event or about none. -/
def take (classify : ItemStatus → ItemClass) (i : Intake) (about : Option EventId)
    (s : ItemStatus) : Intake :=
  match about with
  | none => { i with tally := { i.tally with ignored := i.tally.ignored + 1 } }
  | some id =>
    if !i.ledger.isOutstanding id || i.answered.contains id then
      { i with tally := { i.tally with ignored := i.tally.ignored + 1 } }
    else
      let c := classify s
      let o := Outcome.classified id s c i.ledger.attempt
      match c with
      | .success =>
        { ledger := i.ledger.update id (.settled o)
          answered := id :: i.answered
          tally := { i.tally with succeeded := i.tally.succeeded + 1 } }
      | .fatal =>
        { ledger := i.ledger.update id (.settled o)
          answered := id :: i.answered
          tally := { i.tally with dropped := i.tally.dropped + 1 } }
      | .retryable =>
        { ledger := i.ledger.update id (.outstanding (some o))
          answered := id :: i.answered
          tally := { i.tally with retryable := i.tally.retryable + 1 } }

/-- The statuses from a position of the answer on. -/
def takeAll (classify : ItemStatus → ItemClass) (sent : List Event) (position : Nat) (i : Intake) :
    List ItemStatus → Intake
  | [] => i
  | s :: rest =>
    takeAll classify sent (position + 1) (i.take classify (aboutEvent sent position s) s) rest

/-- An event of the request that no status was about has a missing answer. -/
def miss (i : Intake) (e : Event) : Intake :=
  if i.ledger.isOutstanding e.id && !i.answered.contains e.id then
    { i with
      ledger := i.ledger.update e.id
        (.outstanding (some (.missing e.id i.ledger.attempt "no status in response")))
      tally := { i.tally with retryable := i.tally.retryable + 1 } }
  else i

end Intake

namespace Ledger

/-- **Taking in the answer to a request.** -/
def answer (l : Ledger) (classify : ItemStatus → ItemClass) (sent : List Event)
    (statuses : List ItemStatus) : Ledger × Tally :=
  let i := Intake.takeAll classify sent 0 ⟨l, [], {}⟩ statuses
  let i := sent.foldl Intake.miss i
  (i.ledger, i.tally)

/-- **Taking in that a request got no answer**: its events stay outstanding, with
the failure as the reason. -/
def unanswered (l : Ledger) (sent : List Event) (f : Failure) : Ledger :=
  sent.foldl
    (fun l e =>
      if l.isOutstanding e.id then
        l.update e.id (.outstanding (some (.missing e.id l.attempt f.message)))
      else l)
    l

/-! ## What the ledger says -/

/-- The codes of the last answers of outstanding events. -/
def pendingCodes (l : Ledger) : List Nat :=
  (l.entries.filterMap (·.pending?)).map (·.status)

/-- A code by which a sink says that it is not able to answer. -/
def isServerCode (code : Nat) : Bool :=
  500 ≤ code && code ≤ 599

/-- **The failure that events left outstanding amount to.** When all of them were
throttled it is that; when all were throttled or the sink was not able to
answer, it is the latter, with the greatest of its codes; in every other case,
missing answers among them, it is a partial failure. -/
def failure (l : Ledger) : Failure :=
  let codes := l.pendingCodes
  let n := l.outstanding
  if codes.isEmpty || codes.length ≠ n then .partialFailure l.sink n l.attempt
  else if codes.all (· = 429) then
    .throttled l.sink s!"{n} item(s) throttled on attempt {l.attempt}"
  else if codes.all fun c => c = 429 || isServerCode c then
    .serverBusy l.sink ((codes.filter isServerCode).foldl max 0)
      s!"{n} item(s) failed on attempt {l.attempt}"
  else .partialFailure l.sink n l.attempt

/-- **The report of a resolved batch**, in its order. -/
def report (l : Ledger) (retries : Nat) : Report where
  outcomes := l.entries.filterMap (·.final?)
  attempts := l.attempt
  retries := retries

/-- **Everything known of the batch**, in its order. -/
def diagnostics (l : Ledger) : List Outcome :=
  l.entries.filterMap (·.known?)

end Ledger

end Courier.Delivery
