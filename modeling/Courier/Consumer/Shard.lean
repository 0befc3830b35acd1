import Courier.Consumer
/-!
# A consumer at its channel

A shard is a consumer with what it works on: the channel that its records
arrive in, and the task that offers the position of a delivered record to the
store. Deliveries, the handler of failures and the store are outside; what
they do comes in as events, in any order and with any results. A handler that
ends the process or never comes back is one that is not heard of again.

The consumer notices that it is to shut down before everything else, whenever
it is run. The task that offers a position does not notice: it is asked for
once, and goes on by itself until the store has answered for the last time.
-/

namespace Courier

open Courier.Checkpoint (Keeper)

/-! ## The task that offers a position -/

/-- **A task that offers a position to the store.** -/
structure Ack where
  /-- The position. -/
  position : String
  /-- The course of attempts. -/
  session : Retry.Session
  /-- How it has ended, if it has. -/
  ended : Option AckEnd := none

namespace Ack

/-- **A task that begins.** A keeper that stores nothing is done with it at once. -/
def start (k : Keeper) (position : String) : Ack :=
  ⟨position, k.strategy.session, if k.dry then some (.status .skipped) else none⟩

/-- How a task ends after a failure that ends the course of attempts. -/
def failedEnd (reason : Retry.Reason) (f : Failure) : AckEnd :=
  .status (Keeper.statusOf (.error (reason.surfaced f) : Except Failure Unit))

/-- **The store has answered.** When it cannot be used it is asked again, as often as
the keeper asks. -/
def answered (a : Ack) (answer : Except Failure Unit) : Ack :=
  match a.ended, answer with
  | some _, _ => a
  | none, .ok () => { a with ended := some (.status .committed) }
  | none, .error f =>
    match a.session.verdict f with
    | .proceed delay next => { a with session := a.session.after (.proceed delay next) }
    | .terminal reason => { a with ended := some (failedEnd reason f) }

/-- The store has broken down over the position. -/
def broken (a : Ack) : Ack :=
  match a.ended with
  | some _ => a
  | none => { a with ended := some .crash }

end Ack

/-! ## The shard -/

/-- **A consumer with its channel and the task that offers a position.** -/
structure Shard where
  /-- What offers positions. -/
  keeper : Keeper
  /-- The consumer. -/
  consumer : Consumer := {}
  /-- The records that have arrived and are not taken. -/
  channel : List Record := []
  /-- Whether no more records can arrive. -/
  closed : Bool := false
  /-- The task that offers a position. -/
  ack : Option Ack := none
  /-- Whether the consumer is to shut down. -/
  shutDown : Bool := false

namespace Shard

/-- **What happens to a shard.** -/
inductive Event
  /-- A record has arrived. -/
  | arrived (r : Record)
  /-- No more records will. -/
  | closed
  /-- The consumer is run: it takes a record, or the end of the task that offers a
  position, or it notices that there is nothing more to do. -/
  | run
  /-- The record is delivered to all sinks. -/
  | delivered
  /-- The record is not delivered. -/
  | failed (f : Failure)
  /-- The handler of failures is done. -/
  | handled
  /-- The store has answered. -/
  | answered (answer : Except Failure Unit)
  /-- The store has broken down. -/
  | broken
  /-- The consumer is to shut down. -/
  | shutdown

/-- What a consumer notices when it is run. -/
def notices (p : Shard) : Option Consumer.Signal :=
  match p.consumer.phase, p.shutDown with
  | .done, _ => none
  | _, true => some .shutdown
  | .waiting, false =>
    match p.channel with
    | r :: _ => some (.record r)
    | [] => if p.closed then some .closed else none
  | .acking _, false => (p.ack.bind (·.ended)).map .acked
  | _, false => none

/-- **What the consumer hears of an event.** Once it is to shut down it hears of nothing
else. -/
def hears (p : Shard) : Event → Option Consumer.Signal
  | .run => p.notices
  | .delivered =>
    match p.consumer.phase, p.shutDown with
    | .delivering _, false => some .delivered
    | _, _ => none
  | .failed f =>
    match p.consumer.phase, p.shutDown with
    | .delivering _, false => some (.failed f)
    | _, _ => none
  | .handled =>
    match p.consumer.phase, p.shutDown with
    | .handling _, false => some .handled
    | _, _ => none
  | _ => none

/-- The channel after the consumer has heard a signal. -/
def channelAfter (p : Shard) : Consumer.Signal → List Record
  | .record _ => p.channel.tail
  | _ => p.channel

/-- The task that offers a position, after the consumer has heard a signal. -/
def ackAfter (p : Shard) : Consumer.Signal → Option Ack
  | .delivered =>
    match p.consumer.phase with
    | .delivering r => some (.start p.keeper r.position)
    | _ => p.ack
  | .acked _ => none
  | _ => p.ack

/-- **The consumer hears a signal.** What it asks for begins: a delivered record has its
position offered. -/
def tell (p : Shard) (s : Consumer.Signal) : Shard :=
  { p with
    consumer := (p.consumer.step s).1
    channel := p.channelAfter s
    ack := p.ackAfter s }

/-- **What happens outside of the consumer.** -/
def outside (p : Shard) : Event → Shard
  | .arrived r => if p.closed then p else { p with channel := p.channel ++ [r] }
  | .closed => { p with closed := true }
  | .answered answer => { p with ack := p.ack.map (·.answered answer) }
  | .broken => { p with ack := p.ack.map Ack.broken }
  | .shutdown => { p with shutDown := true }
  | _ => p

/-- **One event.** -/
def step (p : Shard) (e : Event) : Shard :=
  match p.hears e with
  | some s => p.tell s
  | none => p.outside e

/-- **A shard at the start.** -/
def start (k : Keeper) : Shard where
  keeper := k

/-- A shard after several events. -/
def after (p : Shard) (events : List Event) : Shard :=
  events.foldl step p

end Shard

end Courier
