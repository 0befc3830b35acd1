import Courier.Delivery.Ledger
import Courier.Delivery.Counters
import Courier.Retry.Strategy
/-!
# Delivering a batch

A delivery is a machine: it holds the ledger of its batch and its course of
attempts, and it is about to send a request, has one in flight, waits for the
next attempt, or has ended. What happens to it comes from outside, as a
`Signal`: that it may go on, that the answer to its request has come, or that
it is called off. So nothing here depends on a clock or on what runs beside
it, and any order of the signals of several deliveries is an order in which
they can happen.

A call to stop is looked at before everything else, whenever the machine is
about to go on. The note of an attempt comes first, so a delivery that is
called off before its request has counted an attempt without sending one.

The failure of an answer that leaves events outstanding, or of a request that
was not answered, is put to the strategy. A request that fails for a reason
that does not pass by itself ends the delivery at once.
-/

namespace Courier.Delivery

/-- **The answer to a request**: statuses, or the failure of the exchange. -/
abbrev Answer := Except Failure (List ItemStatus)

/-- **What a delivery is doing.** -/
inductive Phase
  /-- About to send the next request. -/
  | ready
  /-- Waiting for the answer to a request. -/
  | inFlight (request : List Event)
  /-- Waiting, for so many milliseconds, before the attempt of a number. -/
  | waiting (delay next : Nat)
  /-- Ended. -/
  | ended (result : Except Failure Report)
deriving Inhabited

/-- **A delivery.** -/
structure Machine where
  /-- What the answers of the sink mean. -/
  classify : ItemStatus → ItemClass
  /-- The ledger of the batch. -/
  ledger : Ledger
  /-- The course of attempts. -/
  retry : Retry.Session
  /-- What is being done. -/
  phase : Phase

/-- **What happens to a delivery.** -/
inductive Signal
  /-- It may go on. -/
  | go
  /-- The answer to its request has come. -/
  | answered (a : Answer)
  /-- It is called off. -/
  | cancel
deriving Inhabited

namespace Machine

/-- What is called off, in words. -/
def operation (sink : String) : String :=
  s!"dispatch to '{sink}'"

/-- A delivery called off. -/
def cancelled (m : Machine) : Machine :=
  { m with phase := .ended (.error (.cancelled (operation m.ledger.sink))) }

/-- **A failure put to the strategy**: the delivery waits for the next attempt,
or is given up with all that is known. -/
def judge (m : Machine) (f : Failure) : Machine × List Note :=
  match m.retry.verdict f with
  | .proceed delay next => ({ m with phase := .waiting delay next }, [])
  | .terminal reason =>
    ({ m with phase := .ended (.error (.exhausted reason.attempts m.ledger.diagnostics f)) },
      [.exhausted])

/-- **The answer to a request taken in.** -/
def take (m : Machine) (request : List Event) (a : Answer) : Machine × List Note :=
  match a with
  | .ok statuses =>
    let (ledger, tally) := m.ledger.answer m.classify request statuses
    let note := Note.answered tally.succeeded tally.dropped tally.retryable
    if ledger.isResolved then
      ({ m with ledger := ledger, phase := .ended (.ok (ledger.report (ledger.attempt - 1))) },
        [note, .resolved])
    else
      let (m, notes) := { m with ledger := ledger }.judge ledger.failure
      (m, note :: notes)
  | .error f =>
    if f.kind.isTransient then
      { m with ledger := m.ledger.unanswered request f }.judge f
    else ({ m with phase := .ended (.error f) }, [])

/-- **One signal.** A signal that means nothing in a phase leaves the delivery as
it is. -/
def step (m : Machine) (s : Signal) : Machine × List Note :=
  match m.phase, s with
  | .ready, .go => ({ m with phase := .inFlight m.ledger.request }, [.attempted])
  | .ready, .cancel => (m.cancelled, [.attempted, .cancelled])
  | .inFlight request, .answered a => m.take request a
  | .inFlight _, .cancel => (m.cancelled, [.cancelled])
  | .waiting _ next, .go =>
    ({ m with
        ledger := m.ledger.advance next
        retry := { m.retry with attempt := next }
        phase := .ready },
      [.retried])
  | .waiting _ _, .cancel => (m.cancelled, [.cancelled])
  | _, _ => (m, [])

/-- **A delivery of a batch.** A batch without events is resolved by itself, and
one with a repeated identity has failed; neither leaves a note. -/
def start (sink : String) (classify : ItemStatus → ItemClass) (strategy : Retry.Strategy)
    (batch : List Event) : Machine :=
  let idle : Ledger := ⟨sink, [], 1⟩
  if batch.isEmpty then ⟨classify, idle, strategy.session, .ended (.ok .empty)⟩
  else
    match Ledger.start sink batch with
    | .error f => ⟨classify, idle, strategy.session, .ended (.error f)⟩
    | .ok ledger => ⟨classify, ledger, strategy.session, .ready⟩

/-- The result, once the delivery has ended. -/
def result? (m : Machine) : Option (Except Failure Report) :=
  match m.phase with
  | .ended r => some r
  | _ => none

end Machine

end Courier.Delivery
