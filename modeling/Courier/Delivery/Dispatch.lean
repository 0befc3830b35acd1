import Mathlib.Logic.Function.Iterate
import Courier.Delivery.Counters
import Courier.Delivery.Machine
/-!
# Deliveries and what is around them

A delivery has a token, which is outside: that it is cancelled is one step, between two
times that the delivery is run. `Task` is a delivery with its token.

A delivery says what it is about to do, and how long it waits; when that happens is up to
what drives it. On a clock it sends at once when it is about to send, it takes an answer
when the sink has answered, however long that takes, and it goes on when its wait is over
(`Transport.next`). `Moment` is a delivery with the time.

A delivery takes an answer in, and puts the failure that comes of it to its strategy: two
things, between which something else can happen. `Call` is a delivery in these smaller
steps, with such a failure in its hands in between.

Several calls deliver batches through clones of one dispatcher. They share what answers
their requests, the strategy, the counters and the token; what is left is each call's own.
`Dispatch` is all of them together, and somebody else decides which is run next, and when
the token is cancelled.
-/

namespace Courier.Delivery

/-! ## A delivery with its token -/

/-- **What a delivery finds when it is run.** -/
inductive Found
  /-- Nothing of what it waits for. -/
  | nothing
  /-- Nothing that holds it up: it is about to send, or its wait has passed. -/
  | clear
  /-- The answer to its request. -/
  | answer (a : Answer)

/-- What it makes of that. -/
def Found.signal? : Found → Option Signal
  | nothing => none
  | clear => some .go
  | answer a => some (.answered a)

/-- **A delivery with its token.** -/
structure Task where
  /-- The delivery. -/
  machine : Machine
  /-- Whether the token is cancelled. -/
  calledOff : Bool := false

/-- **What happens to a task.** -/
inductive Occurrence
  /-- It is run, and finds something. -/
  | run (found : Found)
  /-- Its token is cancelled. -/
  | cancel

namespace Task

/-- **What a task hears when it is run**: that it is called off, before everything
else. -/
def hears (t : Task) (found : Found) : Option Signal :=
  if t.calledOff then some .cancel else found.signal?

/-- **One occurrence.** -/
def step (t : Task) : Occurrence → Task × List Note
  | .cancel => ({ t with calledOff := true }, [])
  | .run found =>
    match t.hears found with
    | none => (t, [])
    | some s => ({ t with machine := (t.machine.step s).1 }, (t.machine.step s).2)

/-- **The request that begins** between two phases of a delivery. -/
def begun : Phase → Phase → List (List Event)
  | .inFlight _, _ => []
  | _, .inFlight request => [request]
  | _, _ => []

/-- **What becomes of a task.** -/
structure Course where
  /-- The task. -/
  task : Task
  /-- The requests made, in their order. -/
  requests : List (List Event)
  /-- The notes left, in their order. -/
  notes : List Note

/-- **A task after several occurrences.** -/
def run (t : Task) : List Occurrence → Course
  | [] => ⟨t, [], []⟩
  | o :: rest =>
    let later := (t.step o).1.run rest
    { later with
      requests := begun t.machine.phase (t.step o).1.machine.phase ++ later.requests
      notes := (t.step o).2 ++ later.notes }

/-- **A task that begins.** -/
def start (sink : String) (classify : ItemStatus → ItemClass) (strategy : Retry.Strategy)
    (batch : List Event) : Task :=
  ⟨.start sink classify strategy batch, false⟩

end Task

/-! ## A delivery on the clock -/

/-- **What answers requests, and how long it takes** to, in milliseconds. -/
structure Transport (σ : Type) where
  /-- The answer to a request. -/
  exchange : σ → List Event → σ × Answer
  /-- The time until it comes. -/
  took : σ → List Event → Nat

/-- **A delivery at some time.** -/
structure Moment (σ : Type) where
  /-- The time, in milliseconds. -/
  time : Nat
  /-- What answers its requests. -/
  state : σ
  /-- The delivery. -/
  machine : Machine

variable {σ : Type}

namespace Transport

/-- **The next thing that happens to a delivery**, and when. -/
def next (t : Transport σ) (c : Moment σ) : Moment σ :=
  match c.machine.phase with
  | .ready => { c with machine := (c.machine.step .go).1 }
  | .inFlight request =>
    { time := c.time + t.took c.state request
      state := (t.exchange c.state request).1
      machine := (c.machine.step (.answered (t.exchange c.state request).2)).1 }
  | .waiting delay _ =>
    { c with
      time := c.time + delay
      machine := (c.machine.step .go).1 }
  | .ended _ => c

/-- **The moment after so many steps.** -/
def after (t : Transport σ) (n : Nat) (c : Moment σ) : Moment σ :=
  t.next^[n] c

end Transport

/-! ## A delivery in smaller steps -/

/-- **A call for a batch to be delivered**: the delivery, and the failure that it has met
and not yet put to its strategy. -/
structure Call where
  /-- The delivery. -/
  machine : Machine
  /-- The failure in its hands. -/
  failing : Option Failure := none

namespace Call

/-- **The answer to a request taken in**, up to the failure that it makes. -/
def take (m : Machine) (request : List Event) (a : Answer) : Call × List Note :=
  match a with
  | .ok statuses =>
    let (ledger, tally) := m.ledger.answer m.classify request statuses
    let note := Note.answered tally.succeeded tally.dropped tally.retryable
    if ledger.isResolved then
      (⟨{ m with ledger := ledger, phase := .ended (.ok (ledger.report (ledger.attempt - 1))) },
        none⟩, [note, .resolved])
    else (⟨{ m with ledger := ledger }, some ledger.failure⟩, [note])
  | .error f =>
    if f.kind.isTransient then (⟨{ m with ledger := m.ledger.unanswered request f }, some f⟩, [])
    else (⟨{ m with phase := .ended (.error f) }, none⟩, [])

/-- A signal to a call with a failure in its hands: it puts it to its strategy, or is
called off before that. -/
def stepFailing (m : Machine) (f : Failure) : Signal → Call × List Note
  | .go => (⟨(m.judge f).1, none⟩, (m.judge f).2)
  | .cancel => (⟨m.cancelled, none⟩, [.cancelled])
  | .answered _ => (⟨m, some f⟩, [])

/-- A signal to any other call: only an answer is taken in differently. -/
def stepClear (m : Machine) (s : Signal) : Call × List Note :=
  match m.phase, s with
  | .inFlight request, .answered a => take m request a
  | _, s => (⟨(m.step s).1, none⟩, (m.step s).2)

/-- **One signal.** -/
def step (c : Call) (s : Signal) : Call × List Note :=
  match c.failing with
  | some f => stepFailing c.machine f s
  | none => stepClear c.machine s

/-- The failure in the hands of a call put to its strategy, if there is one. -/
def judged (c : Call) : Machine × List Note :=
  match c.failing with
  | some f => c.machine.judge f
  | none => (c.machine, [])

/-- **A call that begins.** -/
def start (sink : String) (classify : ItemStatus → ItemClass) (strategy : Retry.Strategy)
    (batch : List Event) : Call :=
  ⟨.start sink classify strategy batch, none⟩

end Call

/-! ## Deliveries side by side -/

variable {ι : Type} [DecidableEq ι]

/-- The request of a call that is waiting for the answer to it. -/
def Call.asking? (c : Call) : Option (List Event) :=
  match c.failing, c.machine.phase with
  | none, .inFlight request => some request
  | _, _ => none

/-- **What answers requests**: by all the requests that have been made, and whose request it
is that is answered. -/
abbrev Replies (ι : Type) : Type :=
  List (ι × List Event) → ι → Answer

/-- **Calls that share a dispatcher.** -/
structure Dispatch (ι : Type) where
  /-- The calls. -/
  calls : ι → Call
  /-- The requests made, in their order. -/
  asked : List (ι × List Event)
  /-- The notes left, in their order. -/
  noted : List (ι × Note)
  /-- The counters. -/
  counters : Counters
  /-- Whether the token is cancelled. -/
  calledOff : Bool

namespace Dispatch

/-- **What happens.** -/
inductive Move (ι : Type)
  /-- A call is run. -/
  | run (i : ι)
  /-- The token is cancelled. -/
  | cancel
deriving DecidableEq

/-- **What a call hears when it is run**: that it is called off, before everything else; or
the answer to its request, if it has made one; or that it may go on. -/
def hears (reply : Replies ι) (d : Dispatch ι) (i : ι) : Signal :=
  if d.calledOff then .cancel
  else if (d.calls i).asking?.isSome then .answered (reply d.asked i) else .go

/-- **One move.** -/
def step (reply : Replies ι) (d : Dispatch ι) : Move ι → Dispatch ι
  | .cancel => { d with calledOff := true }
  | .run i =>
    let (c, notes) := (d.calls i).step (d.hears reply i)
    { d with
      calls := Function.update d.calls i c
      asked := d.asked ++ (Task.begun (d.calls i).machine.phase c.machine.phase).map (i, ·)
      noted := d.noted ++ notes.map (i, ·)
      counters := d.counters.recordAll notes }

/-- **The calls after several moves.** -/
def run (reply : Replies ι) (d : Dispatch ι) (schedule : List (Move ι)) : Dispatch ι :=
  schedule.foldl (step reply) d

/-- **Calls that begin**, with counters that stand somewhere already. -/
def start (sink : String) (classify : ItemStatus → ItemClass) (strategy : Retry.Strategy)
    (batches : ι → List Event) (counters : Counters) : Dispatch ι :=
  ⟨fun i => .start sink classify strategy (batches i), [], [], counters, false⟩

end Dispatch

end Courier.Delivery
