import Courier.Pipeline.Basic
/-!
# Running a pipeline to its end

Of all the orders in which the parts of a pipeline can be run, this is one: the
reader reads until there is a record, every delivery of a record goes on to its
end, the results are taken in the order of the sinks, and the position is
offered before the next record is taken. The sinks and the store are outside;
they are given as functions that answer, and that may keep something to
themselves from one answer to the next.
-/

namespace Courier.Pipeline

/-- **What is outside a pipeline.** -/
structure World (σ : Type) where
  /-- The answer of the sink at an index to a request. -/
  send : σ → (index : Nat) → List Event → σ × Delivery.Answer
  /-- The answer of the store to the offer of a position. -/
  store : σ → String → σ × Except Failure Unit

/-- **What is to be done next.** -/
inductive Task
  /-- Run the reader. -/
  | reader
  /-- Run the consumer. -/
  | consumer
  /-- Run the delivery to the sink at an index. -/
  | delivery (index : Nat)
  /-- Have the request of a delivery answered. -/
  | request (index : Nat) (events : List Event)
  /-- Take the result of a delivery. -/
  | settle (index : Nat)
  /-- Have the store answer. -/
  | store (position : String)
  /-- Have the handler of failures do what it does. -/
  | handle

/-- The first delivery from an index on that has not ended. -/
def pending : (index : Nat) → List Delivery.Machine → Option Task
  | _, [] => none
  | index, m :: rest =>
    match m.phase with
    | .ended _ => pending (index + 1) rest
    | .inFlight events => some (.request index events)
    | _ => some (.delivery index)

/-- The first result from an index on that has not been taken. -/
def untaken : (index : Nat) → List (String × Option Report) → Option Task
  | _, [] => none
  | index, (_, none) :: _ => some (.settle index)
  | index, (_, some _) :: rest => untaken (index + 1) rest

/-- **What a pipeline has to do next**; nothing when it is done. -/
def task? (p : Pipeline) : Option Task :=
  match p.consumer.phase with
  | .done => if p.reader.phase = .done then none else some .reader
  | .waiting =>
    if p.shutDown || !p.channel.isEmpty || p.reader.phase = .done then some .consumer
    else some .reader
  | .delivering _ =>
    if p.shutDown then some .consumer
    else
      match pending 0 p.deliveries with
      | some task => some task
      | none => untaken 0 p.fanout.slots
  | .acking _ =>
    match p.shutDown, p.offer with
    | false, some ⟨position, _, none⟩ => some (.store position)
    | _, _ => some .consumer
  | .handling _ => if p.shutDown then some .consumer else some .handle

/-- **How a run ends.** -/
inductive Ending
  /-- The source is read, or the run was shut down. -/
  | finished
  /-- The process ends because of a failure. -/
  | exited
  /-- Nothing more is done because of a failure. -/
  | blocked
deriving DecidableEq, Repr, Inhabited

/-- What the handler of failures makes of a run. -/
def intervene : ExceptionStrategy → Option Ending
  | .exit => some .exited
  | .block => some .blocked
  | .continue => none

/-- **One task done**: by the part of the pipeline that is run, or by what is
outside, and then the pipeline takes the answer. -/
def perform {σ : Type} (w : World σ) (s : σ) (p : Pipeline) : Task → σ × Pipeline
  | .reader => (s, (p.step .reader).1)
  | .consumer => (s, (p.step .consumer).1)
  | .delivery index => (s, (p.step (.delivery index none)).1)
  | .request index events =>
    let (s, answer) := w.send s index events
    (s, (p.step (.delivery index (some answer))).1)
  | .settle index => (s, (p.step (.settle index)).1)
  | .store position =>
    let (s, answer) := w.store s position
    (s, (p.step (.store answer)).1)
  | .handle => (s, (p.step .handled).1)

/-- **Going on for a number of tasks**, or until the end. -/
def drive {σ : Type} (w : World σ) (e : ExceptionStrategy) :
    (tasks : Nat) → σ → Pipeline → σ × Pipeline × Ending
  | 0, s, p => (s, p, .finished)
  | tasks + 1, s, p =>
    match p.task? with
    | none => (s, p, .finished)
    | some task =>
      match task, intervene e with
      | .handle, some ending => (s, p, ending)
      | task, _ =>
        let (s, p) := perform w s p task
        drive w e tasks s p

/-- The tasks of a record at most: it is taken, delivered to each sink in all
attempts, each result is taken, its position is offered in all attempts, and what
has come of it is noticed. -/
def tasksOfRecord (p : Pipeline) : Nat :=
  1 + p.sinks.length * (3 * (p.strategy.maxAttempts + 1) + 1) + (p.keeper.strategy.maxAttempts + 1) + 1

/-- **The tasks of a pipeline at most**: each line is read and may have a record
taken, and in the end it is noticed that there are no more. -/
def tasksLeft (p : Pipeline) : Nat :=
  (p.reader.rest.length + 1) * (p.tasksOfRecord + 2) + 4

/-- **A pipeline run to its end.** -/
def complete {σ : Type} (w : World σ) (e : ExceptionStrategy) (s : σ) (p : Pipeline) :
    σ × Pipeline × Ending :=
  drive w e p.tasksLeft s p

end Courier.Pipeline
