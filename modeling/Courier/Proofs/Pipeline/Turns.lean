import Courier.Pipeline.Basic
/-!
# What a pipeline can do

A signal lets one part of a pipeline have its turn. What that part does depends on
what it finds: there are a good many things that can be done (`Pipeline.Turn`), and
each of them is said once here, with what it needs and what the pipeline is
afterwards. A signal comes to one turn, or to two when a record has no deliveries
left to wait for and is concluded at once (`Pipeline.turns_step`).

So what every turn keeps, every run keeps (`Pipeline.run_keeps`).
-/

namespace Courier.Pipeline

open Courier.Checkpoint (Keeper Status)
open Courier.Delivery (Machine)

/-! ## What the consumer is told -/

/-- A consumer that is told to shut down is done. -/
theorem phase_tell_shutdown (p : Pipeline) : (p.tell .shutdown).consumer.phase = .done := by
  show (p.consumer.step .shutdown).1.phase = .done
  unfold Consumer.step
  cases hp : p.consumer.phase with
  | done => exact hp
  | waiting => rfl
  | delivering r => rfl
  | acking r => rfl
  | handling r => rfl

/-- A consumer that waits takes the record it is told of. -/
theorem phase_tell_record {p : Pipeline} (h : p.consumer.phase = .waiting) (r : Record) :
    (p.tell (.record r)).consumer.phase = .delivering r := by
  show (p.consumer.step (.record r)).1.phase = _
  unfold Consumer.step
  rw [h]

/-- A consumer that waits is done when it is told that no record will come. -/
theorem phase_tell_closed {p : Pipeline} (h : p.consumer.phase = .waiting) :
    (p.tell .closed).consumer.phase = .done := by
  show (p.consumer.step .closed).1.phase = _
  unfold Consumer.step
  rw [h]

/-- A consumer whose record is delivered has its position offered. -/
theorem phase_tell_delivered {p : Pipeline} {r : Record}
    (h : p.consumer.phase = .delivering r) : (p.tell .delivered).consumer.phase = .acking r := by
  show (p.consumer.step .delivered).1.phase = _
  unfold Consumer.step
  rw [h]

/-- A consumer whose record is not delivered has its failure handled. -/
theorem phase_tell_failed {p : Pipeline} {r : Record} (h : p.consumer.phase = .delivering r)
    (f : Failure) : (p.tell (.failed f)).consumer.phase = .handling r := by
  show (p.consumer.step (.failed f)).1.phase = _
  unfold Consumer.step
  rw [h]

/-- A consumer waits once the offer of its position has ended. -/
theorem phase_tell_acked {p : Pipeline} {r : Record} (h : p.consumer.phase = .acking r)
    (status : Checkpoint.Status) :
    (p.tell (.acked (.status status))).consumer.phase = .waiting := by
  show (p.consumer.step (.acked (.status status))).1.phase = _
  unfold Consumer.step
  rw [h]

/-- A consumer waits once the handler of failures is done. -/
theorem phase_tell_handled {p : Pipeline} {r : Record} (h : p.consumer.phase = .handling r) :
    (p.tell .handled).consumer.phase = .waiting := by
  show (p.consumer.step .handled).1.phase = _
  unfold Consumer.step
  rw [h]

/-! ## Turns -/

/-- **One thing that is done on a signal**: what it needs, what the pipeline is then, and
what is shown. -/
inductive Turn (p : Pipeline) : Signal → Pipeline → List Effect → Prop
  /-- There is nothing to do. -/
  | idle (s : Signal) : Turn p s p []
  /-- The reader goes on reading. -/
  | reads (hopen : p.shutDown = false)
    (hphase : ∀ record last, p.reader.phase ≠ .offering record last) :
    Turn p .reader { p with reader := p.reader.step .go } []
  /-- The channel takes the record that the reader offers. -/
  | hands {record : Record} {last : Bool} (hopen : p.shutDown = false)
    (hphase : p.reader.phase = .offering record last) (hheard : p.consumer.phase ≠ .done)
    (hroom : p.channel.length < p.capacity) :
    Turn p .reader
      { p with reader := p.reader.step .taken, channel := p.channel ++ [record] } []
  /-- Nobody is left to take it. -/
  | refuses {record : Record} {last : Bool} (hopen : p.shutDown = false)
    (hphase : p.reader.phase = .offering record last) (hdone : p.consumer.phase = .done) :
    Turn p .reader { p with reader := p.reader.step .refused } []
  /-- The reader notices that the pipeline is to shut down. -/
  | stops (hshut : p.shutDown = true) :
    Turn p .reader { p with reader := p.reader.step .shutdown } []
  /-- The consumer notices it, and the deliveries are over. -/
  | notices (hshut : p.shutDown = true) :
    Turn p .consumer { p.tell .shutdown with deliveries := [] } []
  /-- The consumer takes a record, and it begins to be delivered to each sink. -/
  | takes {r : Record} {rest : List Record} (hopen : p.shutDown = false)
    (hphase : p.consumer.phase = .waiting) (hchannel : p.channel = r :: rest) :
    Turn p .consumer
      { p.tell (.record r) with
        channel := rest
        deliveries := p.sinks.map fun sink =>
          Machine.start sink ItemStatus.classify p.strategy r.events
        fanout := .start p.sinks } []
  /-- The consumer notices that no record will come. -/
  | closes (hopen : p.shutDown = false) (hphase : p.consumer.phase = .waiting)
    (hchannel : p.channel = []) (hreader : p.reader.phase = .done) :
    Turn p .consumer (p.tell .closed) []
  /-- The consumer hears what has come of the offer of a position. -/
  | hears {r : Record} {position : String} {session : Retry.Session} {status : Status}
    (hopen : p.shutDown = false) (hphase : p.consumer.phase = .acking r)
    (hoffer : p.offer = some ⟨position, session, some status⟩) :
    Turn p .consumer { p.tell (.acked (.status status)) with offer := none } []
  /-- A delivery is run. -/
  | runs {index : Nat} {answer : Option Delivery.Answer} {m : Machine} {signal : Delivery.Signal}
    (hm : p.deliveries[index]? = some m)
    (hsignal : deliverySignal p.shutDown m answer = some signal) :
    Turn p (.delivery index answer)
      { p with
        deliveries := p.deliveries.set index (m.step signal).1
        series := p.series ++ Delivery.seriesOf m.ledger.sink (m.step signal).2 } []
  /-- The consumer takes the report of a delivery that has ended well. -/
  | reports {index : Nat} {r : Record} {m : Machine} {report : Report} (hopen : p.shutDown = false)
    (hphase : p.consumer.phase = .delivering r) (hm : p.deliveries[index]? = some m)
    (hr : m.result? = some (.ok report)) :
    Turn p (.settle index)
      { p with fanout := ⟨p.fanout.slots.modify index fun x => (x.1, some report)⟩ } []
  /-- There are the reports of all sinks: the record is delivered, and its position is
  offered. -/
  | concludes {s : Signal} {r : Record} {reports : List (String × Report)}
    (hopen : p.shutDown = false) (hphase : p.consumer.phase = .delivering r)
    (hreports : p.fanout.reports? = some reports) :
    Turn p s
      { p.tell .delivered with
        deliveries := []
        statistics := resolveAll p.statistics reports
        offer := some (offerOf p.keeper r.position)
        series := p.series ++ Offer.series (offerOf p.keeper r.position) }
      [.delivered r reports]
  /-- The consumer takes the failure of a delivery, and the others are over. -/
  | fails {index : Nat} {r : Record} {m : Machine} {f : Failure} (hopen : p.shutDown = false)
    (hphase : p.consumer.phase = .delivering r) (hm : p.deliveries[index]? = some m)
    (hr : m.result? = some (.error f)) :
    Turn p (.settle index)
      { p.tell (.failed f) with deliveries := [], statistics := p.statistics.fail 0.0 }
      [.failed r f]
  /-- The position that is offered is stored. -/
  | stores {position : String} {session : Retry.Session}
    (hoffer : p.offer = some ⟨position, session, none⟩) :
    Turn p (.store (.ok ())) (p.endOffer ⟨position, session, none⟩ .committed)
      [.stored position]
  /-- It is not, and the store will be asked again. -/
  | retries {position : String} {session : Retry.Session} {f : Failure} {delay next : Nat}
    (hoffer : p.offer = some ⟨position, session, none⟩)
    (hverdict : session.verdict f = .proceed delay next) :
    Turn p (.store (.error f))
      { p with offer := some ⟨position, session.after (.proceed delay next), none⟩ } []
  /-- It is not, and the store will not be asked again. -/
  | givesUp {position : String} {session : Retry.Session} {f : Failure}
    {reason : Retry.Reason} (hoffer : p.offer = some ⟨position, session, none⟩)
    (hverdict : session.verdict f = .terminal reason) :
    Turn p (.store (.error f))
      (p.endOffer ⟨position, session, none⟩
        (Keeper.statusOf (.error (reason.surfaced f) : Except Failure Unit))) []
  /-- The handler of failures is done. -/
  | handles {r : Record} (hopen : p.shutDown = false)
    (hphase : p.consumer.phase = .handling r) : Turn p .handled (p.tell .handled) []
  /-- The pipeline is told to shut down. -/
  | shutsDown : Turn p .shutdown { p with shutDown := true } []

/-- **What is done on a signal**: one thing; or one that shows nothing, and another one when
the record that is being delivered is concluded. -/
inductive Turns (p : Pipeline) (s : Signal) : Pipeline → List Effect → Prop
  /-- One thing. -/
  | one {q : Pipeline} {effects : List Effect} (h : Turn p s q effects) : Turns p s q effects
  /-- Another one after it. -/
  | two {q q' : Pipeline} {r : Record} {effects : List Effect} (h : Turn p s q [])
    (hopen : q.shutDown = false) (hphase : q.consumer.phase = .delivering r)
    (h' : Turn q s q' effects) : Turns p s q' effects

variable {p : Pipeline}

/-- A record is concluded when all of its reports are there. -/
theorem turn_conclude (s : Signal) (hopen : p.shutDown = false) :
    Turn p s p.conclude.1 p.conclude.2 := by
  unfold conclude
  split
  · next r reports hphase hreports => exact .concludes hopen hphase hreports
  · exact .idle s

/-- The reader is run. -/
theorem turn_runReader (p : Pipeline) : Turn p .reader p.runReader [] := by
  unfold runReader
  split
  · next hshut => exact .stops hshut
  · next hshut =>
    have hopen : p.shutDown = false := Bool.eq_false_iff.mpr hshut
    split
    · next record last hphase =>
      split
      · next hdone => exact .refuses hopen hphase hdone
      · next hheard =>
        split
        · next hroom => exact .hands hopen hphase hheard hroom
        · exact .idle _
    · next hphase => exact .reads hopen hphase

/-- The consumer is run. -/
theorem turns_runConsumer (p : Pipeline) : Turns p .consumer p.runConsumer.1 p.runConsumer.2 := by
  unfold runConsumer
  split
  · next hshut => exact .one (.notices hshut)
  · next hshut =>
    have hopen : p.shutDown = false := Bool.eq_false_iff.mpr hshut
    split
    · next r rest hphase hchannel =>
      -- without sinks there is nothing to wait for, and the record is concluded at once
      exact .two (.takes hopen hphase hchannel) hopen (phase_tell_record hphase r)
        (turn_conclude .consumer hopen)
    · next hphase hchannel =>
      split
      · next hreader => exact .one (.closes hopen hphase hchannel hreader)
      · exact .one (.idle _)
    · next r position session status hphase hoffer => exact .one (.hears hopen hphase hoffer)
    · exact .one (.idle _)

/-- A delivery is run. -/
theorem turn_runDelivery (p : Pipeline) (index : Nat) (answer : Option Delivery.Answer) :
    Turn p (.delivery index answer) (p.runDelivery index answer) [] := by
  unfold runDelivery
  split
  · exact .idle _
  · next m hm =>
    split
    · exact .idle _
    · next signal hsignal => exact .runs hm hsignal

/-- The consumer takes the result of a delivery. -/
theorem turns_settle (p : Pipeline) (index : Nat) :
    Turns p (.settle index) (p.settle index).1 (p.settle index).2 := by
  unfold settle
  split
  · next r result hopen hphase hresult =>
    obtain ⟨m, hm, hr⟩ := Option.bind_eq_some_iff.mp hresult
    cases result with
    | error f => exact .one (.fails hopen hphase hm hr)
    | ok report =>
      -- it may be the last report that was missing
      exact .two (.reports hopen hphase hm hr) hopen hphase (turn_conclude (.settle index) hopen)
  · exact .one (.idle _)

/-- The store has answered. -/
theorem turn_takeAnswer (p : Pipeline) (answer : Except Failure Unit) :
    Turn p (.store answer) (p.takeAnswer answer).1 (p.takeAnswer answer).2 := by
  unfold takeAnswer
  split
  · next position session hoffer =>
    cases answer with
    | ok u => exact .stores hoffer
    | error f =>
      dsimp only
      split
      · next delay next hverdict => exact .retries hoffer hverdict
      · next reason hverdict => exact .givesUp hoffer hverdict
  · exact .idle _

/-- The handler of failures is done. -/
theorem turn_handled (p : Pipeline) : Turn p .handled (p.step .handled).1 [] := by
  show Turn p .handled (if p.shutDown then p else p.tell .handled) []
  split
  · exact .idle _
  · next hshut =>
    cases hphase : p.consumer.phase with
    | handling r => exact .handles (Bool.eq_false_iff.mpr hshut) hphase
    | _ =>
      -- nothing is being handled, and the consumer is told so in vain
      have hsame : p.tell .handled = p := by
        unfold tell Consumer.step
        rw [hphase]
      rw [hsame]
      exact .idle _

/-- **What is done on a signal** is one of these things, or two of them. -/
theorem turns_step (p : Pipeline) (s : Signal) : Turns p s (p.step s).1 (p.step s).2 := by
  cases s with
  | reader => exact .one (turn_runReader p)
  | consumer => exact turns_runConsumer p
  | delivery index answer => exact .one (turn_runDelivery p index answer)
  | settle index => exact turns_settle p index
  | store answer => exact .one (turn_takeAnswer p answer)
  | handled => exact .one (turn_handled p)
  | shutdown => exact .one .shutsDown

/-- **What every thing that is done keeps, every run keeps.** -/
theorem run_keeps {motive : Pipeline → Prop}
    (hturn : ∀ {p q : Pipeline} {s : Signal} {effects : List Effect}, Turn p s q effects →
      motive p → motive q) (signals : List Signal) :
    ∀ {p : Pipeline}, motive p → motive (p.run signals).1 := by
  induction signals with
  | nil => exact id
  | cons s rest ih =>
    intro p h
    have hstep : motive (p.step s).1 := by
      cases turns_step p s with
      | one ht => exact hturn ht h
      | two ht _ _ ht' => exact hturn ht' (hturn ht h)
    exact ih hstep

end Courier.Pipeline
