import Courier.Checkpoint.Keeper
import Courier.Consumer
import Courier.Delivery.Machine
import Courier.Fanout
import Courier.Source.Reader
import Courier.Statistics.Delivery
/-!
# Pipelines

A pipeline is a run under way: a reader that offers records to a channel, a
consumer that takes them out of it, a delivery of the record to each sink, and
the position that is being offered to the store. Each of these is a machine of
its own. They are run one at a time and in any order, and what a pipeline does
is what all of these orders have in common.

Being told to shut down is one step, and from then on each part that is run
notices it before everything else. Only the position that is being offered is
offered to its end. So a failure that comes of shutting down never gets as far
as the consumer, which has noticed it by then.
-/

namespace Courier

open Courier.Checkpoint (Keeper Status)
open Courier.Delivery (Machine)

/-- **A position that is being offered to the store.** -/
structure Offer where
  /-- The position. -/
  position : String
  /-- The course of attempts. -/
  session : Retry.Session
  /-- What has come of it. -/
  status : Option Status := none
deriving Inhabited

/-- **A run under way.** -/
structure Pipeline where
  /-- The names of the sinks. -/
  sinks : List String
  /-- When requests to them are made again. -/
  strategy : Retry.Strategy
  /-- What offers positions to the store. -/
  keeper : Keeper
  /-- How many records the channel holds. -/
  capacity : Nat
  /-- The reader. -/
  reader : Reader
  /-- The records in the channel. -/
  channel : List Record := []
  /-- The consumer. -/
  consumer : Consumer := {}
  /-- The deliveries of the record that the consumer is having delivered. -/
  deliveries : List Machine := []
  /-- Their results. -/
  fanout : Fanout := ⟨[]⟩
  /-- The position that is being offered. -/
  offer : Option Offer := none
  /-- Whether the pipeline has been told to shut down. -/
  shutDown : Bool := false
  /-- Statistics of the deliveries. -/
  statistics : Statistics.Deliveries := {}
  /-- What has been counted up. -/
  series : List (Series × Nat) := []

namespace Pipeline

/-- **What happens to a pipeline.** -/
inductive Signal
  /-- The reader is run. -/
  | reader
  /-- The consumer is run. -/
  | consumer
  /-- The delivery to the sink at an index is run; the answer to its request may
  have come. -/
  | delivery (index : Nat) (answer : Option Delivery.Answer)
  /-- The consumer takes the result of the delivery to the sink at an index. -/
  | settle (index : Nat)
  /-- The store has answered. -/
  | store (answer : Except Failure Unit)
  /-- The handler of failures is done. -/
  | handled
  /-- The pipeline is told to shut down. -/
  | shutdown
deriving Inhabited

/-- **What a pipeline shows.** -/
inductive Effect
  /-- All sinks have delivered a record. -/
  | delivered (r : Record) (reports : List (String × Report))
  /-- A record is not delivered, and the handler is told of it. -/
  | failed (r : Record) (f : Failure)
  /-- A position is stored. -/
  | stored (position : String)
deriving Inhabited

/-- A signal to the consumer. -/
def tell (p : Pipeline) (s : Consumer.Signal) : Pipeline :=
  { p with consumer := (p.consumer.step s).1 }

/-- **The reader is run.** It goes on reading; or the channel takes the record it
offers, if there is room, or there is nobody left to take it. -/
def runReader (p : Pipeline) : Pipeline :=
  let after (s : Reader.Signal) : Pipeline := { p with reader := p.reader.step s }
  if p.shutDown then after .shutdown
  else
    match p.reader.phase with
    | .offering r _ =>
      if p.consumer.phase = .done then after .refused
      else if p.channel.length < p.capacity then
        { after .taken with channel := p.channel ++ [r] }
      else p
    | _ => after .go

/-- Statistics of a record that all sinks have delivered. -/
def resolveAll (d : Statistics.Deliveries) (reports : List (String × Report)) :
    Statistics.Deliveries :=
  reports.foldl (fun d (sink, report) => d.resolve sink report 0.0) d

/-- **The offer of the position of a record.** A keeper that stores nothing is done
with it at once. -/
def offerOf (k : Keeper) (position : String) : Offer :=
  ⟨position, k.strategy.session, if k.dry then some .skipped else none⟩

/-- What an offer has counted up at its beginning. -/
def Offer.series (o : Offer) : List (Series × Nat) :=
  (o.status.map fun s => (s.series, 1)).toList

/-- **A record whose deliveries have all ended** is delivered, and its position is
offered to the store. -/
def conclude (p : Pipeline) : Pipeline × List Effect :=
  match p.consumer.phase, p.fanout.reports? with
  | .delivering r, some reports =>
    let o := offerOf p.keeper r.position
    let p := p.tell .delivered
    ({ p with
        deliveries := []
        statistics := resolveAll p.statistics reports
        offer := some o
        series := p.series ++ Offer.series o },
      [.delivered r reports])
  | _, _ => (p, [])

/-- **The consumer is run** and takes a record, or notices that there will be none,
or what has come of the offer of a position. -/
def runConsumer (p : Pipeline) : Pipeline × List Effect :=
  if p.shutDown then ({ p.tell .shutdown with deliveries := [] }, [])
  else
    match p.consumer.phase, p.channel, p.offer with
    | .waiting, r :: rest, _ =>
      let p := p.tell (.record r)
      { p with
        channel := rest
        deliveries := p.sinks.map fun sink =>
          Machine.start sink ItemStatus.classify p.strategy r.events
        fanout := .start p.sinks }.conclude
    | .waiting, [], _ => (if p.reader.phase = .done then p.tell .closed else p, [])
    | .acking _, _, some ⟨_, _, some status⟩ =>
      ({ p.tell (.acked (.status status)) with offer := none }, [])
    | _, _, _ => (p, [])

/-- What being run means to a delivery. -/
def deliverySignal (shutDown : Bool) (m : Machine) (answer : Option Delivery.Answer) :
    Option Delivery.Signal :=
  if shutDown then some .cancel
  else
    match m.phase, answer with
    | .inFlight _, some a => some (.answered a)
    | .inFlight _, none => none
    | _, _ => some .go

/-- **A delivery is run.** -/
def runDelivery (p : Pipeline) (index : Nat) (answer : Option Delivery.Answer) : Pipeline :=
  match p.deliveries[index]? with
  | none => p
  | some m =>
    match deliverySignal p.shutDown m answer with
    | none => p
    | some s =>
      let (m', notes) := m.step s
      { p with
        deliveries := p.deliveries.set index m'
        series := p.series ++ Delivery.seriesOf m.ledger.sink notes }

/-- **The consumer takes the result of a delivery.** The first failure ends the
others. -/
def settle (p : Pipeline) (index : Nat) : Pipeline × List Effect :=
  match p.shutDown, p.consumer.phase, (p.deliveries[index]?).bind (·.result?) with
  | false, .delivering r, some result =>
    match p.fanout.arrive index result with
    | .error f =>
      ({ p.tell (.failed f) with deliveries := [], statistics := p.statistics.fail 0.0 },
        [.failed r f])
    | .ok fanout => { p with fanout := fanout }.conclude
  | _, _, _ => (p, [])

/-- What has come of an offer. -/
def endOffer (p : Pipeline) (o : Offer) (status : Status) : Pipeline :=
  { p with
    offer := some { o with status := some status }
    series := p.series ++ [(status.series, 1)] }

/-- **The store has answered.** When it cannot be used it is asked again, as often
as the keeper asks. -/
def takeAnswer (p : Pipeline) (answer : Except Failure Unit) : Pipeline × List Effect :=
  match p.offer with
  | some ⟨position, session, none⟩ =>
    let o : Offer := ⟨position, session, none⟩
    match answer with
    | .ok () => (p.endOffer o .committed, [.stored position])
    | .error f =>
      match session.verdict f with
      | .proceed delay next =>
        ({ p with offer := some { o with session := session.after (.proceed delay next) } }, [])
      | .terminal reason =>
        (p.endOffer o (Keeper.statusOf (.error (reason.surfaced f) : Except Failure Unit)), [])
  | _ => (p, [])

/-- **One signal.** -/
def step (p : Pipeline) (s : Signal) : Pipeline × List Effect :=
  match s with
  | .reader => (p.runReader, [])
  | .consumer => p.runConsumer
  | .delivery index answer => (p.runDelivery index answer, [])
  | .settle index => p.settle index
  | .store answer => p.takeAnswer answer
  | .handled => (if p.shutDown then p else p.tell .handled, [])
  | .shutdown => ({ p with shutDown := true }, [])

/-- Several signals, one after another. -/
def run (p : Pipeline) : List Signal → Pipeline × List Effect
  | [] => (p, [])
  | s :: rest =>
    let (p, effects) := p.step s
    let (p, more) := p.run rest
    (p, effects ++ more)

end Pipeline

end Courier
