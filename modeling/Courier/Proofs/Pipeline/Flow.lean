import Courier.Proofs.Pipeline.Tending
import Courier.Proofs.Source.Lines
/-!
# The lines a pipeline has delivered

The lines of a file go through a pipeline in order. Some of them are delivered;
behind them comes the record that the consumer is having delivered, behind it
the records in the channel, the record that the reader offers, and what the
reader has gathered. Nothing is between these (`Pipeline.Flow`), and the lines
that are delivered grow by those of a record only when the delivery of the
record to every sink has ended well.

`Pipeline.At` says this of a pipeline in whose run the lines up to one are
delivered, and `At.step` is the law of one signal: it holds of the same line
afterwards, or one record more has been delivered to all sinks. The one signal
that it does not hold of is the return of the handler of failures, which
leaves a record behind.
-/

namespace Courier

open Courier.Delivery (Machine)

namespace Pipeline

/-! ## Records on their way -/

/-- **Records on their way** behind the lines up to one, and the reader behind
them. -/
def Flow (s : Source) (bytes : List UInt8) (d : Nat) (rs : List Record) (reader : Reader) :
    Prop :=
  ∃ e, Source.Spans s bytes d rs e ∧ reader.At s bytes e

variable {s : Source} {bytes : List UInt8} {d : Nat} {rs : List Record} {reader : Reader}

theorem Flow.go (h : Flow s bytes d rs reader) : Flow s bytes d rs (reader.step .go) := by
  obtain ⟨e, hs, hr⟩ := h
  exact ⟨e, hs, hr.go⟩

theorem Flow.stopped (h : Flow s bytes d rs reader) {signal : Reader.Signal}
    (hs : signal = .shutdown ∨ signal = .refused) :
    Flow s bytes d rs (reader.step signal) := by
  obtain ⟨e, hspans, hr⟩ := h
  exact ⟨e, hspans, hr.stopped hs⟩

/-- **A record goes from the reader behind the others.** -/
theorem Flow.taken (h : Flow s bytes d rs reader) {record : Record} {last : Bool}
    (hp : reader.phase = .offering record last) :
    Flow s bytes d (rs ++ [record]) (reader.step .taken) := by
  obtain ⟨e, hs, hr⟩ := h
  obtain ⟨hcovers, hr'⟩ := hr.taken hp
  exact ⟨reader.line, hs.concat hcovers, hr'⟩

/-- **The first record on its way** covers lines, and the others are behind them. -/
theorem Flow.uncons {r : Record} (h : Flow s bytes d (r :: rs) reader) :
    ∃ b, Source.Covers s bytes d b r ∧ Flow s bytes b rs reader := by
  obtain ⟨e, hs, hr⟩ := h
  cases hs with
  | cons hcovers hs => exact ⟨_, hcovers, e, hs, hr⟩

/-! ## The record that is being delivered -/

/-- **The deliveries of a record under way**: one to each sink, and the reports that
have been taken are what they have ended with. -/
structure Delivering (r : Record) (p : Pipeline) : Prop where
  /-- There is a delivery of the record to each sink. -/
  delivery : ∀ (i : Nat) sink, p.sinks[i]? = some sink →
    ∃ m, p.deliveries[i]? = some m ∧ m.Delivers sink r.events
  /-- There is a place for the report of each sink. -/
  slots : p.fanout.slots.map (·.1) = p.sinks
  /-- A report that has been taken is what the delivery has ended with. -/
  filled : ∀ (i : Nat) sink report, p.fanout.slots[i]? = some (sink, some report) →
    ∃ m, p.deliveries[i]? = some m ∧ m.result? = some (.ok report)

theorem Delivering.tended {r : Record} {p : Pipeline} (h : p.Delivering r) :
    Tended (fun sink m => m.Delivers sink r.events) p.sinks p.deliveries p.fanout :=
  ⟨h.delivery, h.slots, h.filled⟩

theorem delivering_of_tended {r : Record} {p : Pipeline}
    (h : Tended (fun sink m => m.Delivers sink r.events) p.sinks p.deliveries p.fanout) :
    p.Delivering r :=
  ⟨h.delivery, h.slots, h.filled⟩

/-- **A pipeline in whose run the lines up to one are delivered.** -/
structure At (s : Source) (bytes : List UInt8) (sinks : List String) (d : Nat) (p : Pipeline) :
    Prop where
  /-- Its sinks. -/
  sinks_eq : p.sinks = sinks
  /-- While no record is being delivered, those on their way are behind the lines
  that are. -/
  idle : (p.consumer.phase = .waiting ∨ ∃ r, p.consumer.phase = .acking r) →
    Flow s bytes d p.channel p.reader
  /-- While a record is being delivered, it is the first one behind them. -/
  busy : ∀ r, p.consumer.phase = .delivering r →
    Flow s bytes d (r :: p.channel) p.reader ∧ p.Delivering r
  /-- The position that is being offered is of a line that is delivered. -/
  offered : ∀ o, p.offer = some o → ∃ k, k ≤ d ∧ o.position = toString k

/-- **The delivery of a record to the sink at an index has ended well**, with a
final outcome for an event. -/
structure Resolved (r : Record) (i : Nat) (sink : String) (e : Event) (p : Pipeline) : Prop where
  /-- The consumer is having the record delivered. -/
  delivering : p.consumer.phase = .delivering r
  /-- The delivery is of the record to the sink, and has ended well with a report
  that has a final outcome for the event. -/
  ended : ∃ m report, p.deliveries[i]? = some m ∧ m.ledger.sink = sink ∧
    m.ledger.batch = r.events ∧ m.result? = some (.ok report) ∧
    ∃ o ∈ report.outcomes, o.id = e.id ∧ o.isFinal = true

/-- Every event of a record is resolved by a sink whose delivery has ended well. -/
theorem Delivering.resolved {p : Pipeline} {r : Record} (h : p.Delivering r)
    (hp : p.consumer.phase = .delivering r) {i : Nat} {sink : String} {m : Machine}
    {report : Report} (hsink : p.sinks[i]? = some sink) (hm : p.deliveries[i]? = some m)
    (hr : m.result? = some (.ok report)) {e : Event} (he : e ∈ r.events) :
    p.Resolved r i sink e := by
  obtain ⟨m', hm', hd⟩ := h.delivery i sink hsink
  obtain rfl : m = m' := Option.some.inj (hm.symm.trans hm')
  obtain ⟨hs, hb, ho⟩ := hd.outcome hr
  exact ⟨hp, m, report, hm, hs, hb, hr, ho e he⟩

/-! ## One signal -/

variable {sinks : List String} {p : Pipeline}

/-- **While the consumer takes no record and has none delivered**, only the position
that is being offered matters. -/
theorem At.silent (h : p.At s bytes sinks d) {p' : Pipeline} (hs : p'.sinks = p.sinks)
    (ho : p'.offer = p.offer)
    (hp : p'.consumer.phase = .done ∨ ∃ r, p'.consumer.phase = .handling r) :
    p'.At s bytes sinks d where
  sinks_eq := hs.trans h.sinks_eq
  idle hi := by
    obtain hp | ⟨r, hp⟩ := hp <;> rw [hp] at hi <;> simp at hi
  busy r hb := by
    obtain hp | ⟨r', hp⟩ := hp <;> rw [hp] at hb <;> cases hb
  offered := ho ▸ h.offered

/-- **The reader is run.** -/
theorem At.runReader (h : p.At s bytes sinks d) : p.runReader.At s bytes sinks d := by
  -- the reader changes, and a record may go behind those in the channel
  have key : ∀ (reader : Reader) (more : List Record),
      (∀ rs, Flow s bytes d rs p.reader → Flow s bytes d (rs ++ more) reader) →
      At s bytes sinks d { p with reader := reader, channel := p.channel ++ more } := by
    intro reader more hflow
    refine ⟨h.sinks_eq, fun hi => hflow _ (h.idle hi), fun r hb => ?_, h.offered⟩
    obtain ⟨hf, hdel⟩ := h.busy r hb
    exact ⟨hflow _ hf, hdel.delivery, hdel.slots, hdel.filled⟩
  have keep : ∀ reader : Reader,
      (∀ rs, Flow s bytes d rs p.reader → Flow s bytes d rs reader) →
      At s bytes sinks d { p with reader := reader } := by
    intro reader hflow
    have hk := key reader [] fun rs hrs => by
      rw [List.append_nil]
      exact hflow rs hrs
    rw [List.append_nil] at hk
    exact hk
  unfold Pipeline.runReader
  by_cases hsd : p.shutDown = true
  · rw [if_pos hsd]
    exact keep _ fun rs hrs => hrs.stopped (.inl rfl)
  · rw [if_neg hsd]
    cases hp : p.reader.phase with
    | reading => exact keep _ fun rs hrs => hrs.go
    | done => exact keep _ fun rs hrs => hrs.go
    | offering record last =>
      dsimp only
      split
      · exact keep _ fun rs hrs => hrs.stopped (.inr rfl)
      · split
        · exact key _ [record] fun rs hrs => hrs.taken hp
        · exact h

/-- **A delivery is run.** The others stay as they are, and so does one that has
ended. -/
theorem At.runDelivery (h : p.At s bytes sinks d) (index : Nat)
    (answer : Option Delivery.Answer) : (p.runDelivery index answer).At s bytes sinks d := by
  unfold Pipeline.runDelivery
  cases hm : p.deliveries[index]? with
  | none => exact h
  | some m =>
    dsimp only
    cases hsig : deliverySignal p.shutDown m answer with
    | none => exact h
    | some signal =>
      refine ⟨h.sinks_eq, h.idle, fun r hb => ?_, h.offered⟩
      obtain ⟨hflow, hdel⟩ := h.busy r hb
      exact ⟨hflow, delivering_of_tended (hdel.tended.step hm fun _ hd => hd.step signal)⟩

/-- **The store has answered.** The position that is being offered is the same. -/
theorem At.takeAnswer (h : p.At s bytes sinks d) (answer : Except Failure Unit) :
    (p.takeAnswer answer).1.At s bytes sinks d := by
  have keep : ∀ (o o' : Offer) series, p.offer = some o → o'.position = o.position →
      At s bytes sinks d { p with offer := some o', series := series } := by
    intro o o' series ho hpos
    refine ⟨h.sinks_eq, h.idle, fun r hb => ?_, ?_⟩
    · obtain ⟨hflow, hdel⟩ := h.busy r hb
      exact ⟨hflow, hdel.delivery, hdel.slots, hdel.filled⟩
    · rintro o'' ⟨⟩
      rw [hpos]
      exact h.offered o ho
  unfold Pipeline.takeAnswer
  split
  · next position session ho =>
    cases answer with
    | ok u => exact keep _ _ _ ho rfl
    | error f =>
      dsimp only
      split
      · exact keep _ _ p.series ho rfl
      · exact keep _ _ _ ho rfl
  · exact h

/-- All places are filled when there are the reports of all sinks. -/
theorem filled_of_reports? {f : Fanout} {reports : List (String × Report)}
    (h : f.reports? = some reports) : ∀ x ∈ f.slots, ∃ report, x.2 = some report := by
  intro x hx
  rw [Fanout.filled?_eq_some_iff.mp h] at hx
  obtain ⟨y, -, rfl⟩ := List.mem_map.mp hx
  exact ⟨y.2, rfl⟩

/-- **A record is delivered once all sinks have delivered it**, and then the lines up
to its last one are. -/
theorem At.conclude (h : p.At s bytes sinks d) :
    p.conclude.1.At s bytes sinks d ∨
    ∃ r b, p.consumer.phase = .delivering r ∧ Source.Covers s bytes d b r ∧
      (∀ (i : Nat) sink, sinks[i]? = some sink →
        ∃ report, p.fanout.slots[i]? = some (sink, some report)) ∧
      p.conclude.1.At s bytes sinks b := by
  unfold Pipeline.conclude
  split
  · next r reports hp hreports =>
    obtain ⟨hflow, hdel⟩ := h.busy r hp
    obtain ⟨b, hcovers, hrest⟩ := hflow.uncons
    refine .inr ⟨r, b, hp, hcovers, fun i sink hi => ?_, h.sinks_eq, fun _ => hrest,
      fun r' hb => ?_, ?_⟩
    · rw [← h.sinks_eq, ← hdel.slots, List.getElem?_map, Option.map_eq_some_iff] at hi
      obtain ⟨x, hx, rfl⟩ := hi
      obtain ⟨report, hr⟩ := filled_of_reports? hreports x (List.mem_of_getElem? hx)
      exact ⟨report, by rw [hx, ← hr]⟩
    · have hacking := phase_tell_delivered hp
      exact nomatch hacking.symm.trans hb
    · rintro o ⟨⟩
      exact ⟨b, Nat.le_refl b, hcovers.position_eq⟩
  · exact .inl h

/-- **What a signal does to a pipeline in whose run the lines up to one are
delivered.** Either these are still the lines that are delivered, or the lines of
one record more are, and then every sink has just resolved each of its events. -/
def Advances (s : Source) (bytes : List UInt8) (sinks : List String) (d : Nat)
    (p p' : Pipeline) : Prop :=
  p'.At s bytes sinks d ∨
    ∃ r b, Source.Covers s bytes d b r ∧
      (∀ (i : Nat) sink, sinks[i]? = some sink → ∀ e ∈ r.events, p.Resolved r i sink e) ∧
      p'.At s bytes sinks b

/-- **A record that is taken begins to be delivered.** -/
theorem At.take_record (h : p.At s bytes sinks d) {r : Record} {rest : List Record}
    (hp : p.consumer.phase = .waiting) (hc : p.channel = r :: rest) :
    At s bytes sinks d
      { p.tell (.record r) with
        channel := rest
        deliveries := p.sinks.map fun sink =>
          Machine.start sink ItemStatus.classify p.strategy r.events
        fanout := .start p.sinks } := by
  have hflow := h.idle (.inl hp)
  rw [hc] at hflow
  obtain ⟨b, hcovers, -⟩ := hflow.uncons
  have hphase := phase_tell_record hp r
  refine ⟨h.sinks_eq, fun hi => ?_, fun r' hb => ?_, h.offered⟩
  · obtain hi | ⟨r', hi⟩ := hi
    · exact nomatch hphase.symm.trans hi
    · exact nomatch hphase.symm.trans hi
  · obtain rfl : r = r' := Consumer.Phase.delivering.inj (hphase.symm.trans hb)
    exact ⟨hflow, delivering_of_tended
      (.start fun sink => Machine.start_delivers sink _ _ hcovers.events_ne)⟩

/-- **The consumer is run.** A record that it takes is delivered at once only where
there are no sinks. -/
theorem At.runConsumer (h : p.At s bytes sinks d) :
    Advances s bytes sinks d p p.runConsumer.1 := by
  unfold Pipeline.runConsumer
  by_cases hsd : p.shutDown = true
  · rw [if_pos hsd]
    exact .inl (h.silent rfl rfl (.inl (phase_tell_shutdown p)))
  rw [if_neg hsd]
  split
  · next r rest hp hc =>
    obtain h' | ⟨r', b, -, hcovers, hfilled, h'⟩ := (h.take_record hp hc).conclude
    · exact .inl h'
    · -- no place is filled yet, so there is no sink
      refine .inr ⟨r', b, hcovers, fun i sink hi => ?_, h'⟩
      obtain ⟨report, hslot⟩ := hfilled i sink hi
      have hslot : (p.sinks.map fun s => (s, (none : Option Report)))[i]?
          = some (sink, some report) := hslot
      rw [List.getElem?_map, Option.map_eq_some_iff] at hslot
      obtain ⟨_, -, hne⟩ := hslot
      exact nomatch (Prod.mk.inj hne).2
  · next hp hc =>
    refine .inl ?_
    split
    · exact h.silent rfl rfl (.inl (phase_tell_closed hp))
    · exact h
  · next r position session status hp ho =>
    have hphase := phase_tell_acked hp status
    refine .inl ⟨h.sinks_eq, fun _ => h.idle (.inr ⟨r, hp⟩), fun r' hb => ?_, fun _ ho' => ?_⟩
    · exact nomatch hphase.symm.trans hb
    · exact nomatch ho'
  · exact .inl h

/-- **The consumer takes the result of a delivery.** When it is the last report, the
record is delivered. -/
theorem At.settle (h : p.At s bytes sinks d) (index : Nat) :
    Advances s bytes sinks d p (p.settle index).1 := by
  unfold Pipeline.settle
  split
  · next r result hsd hp hresult =>
    obtain ⟨m, hm, hr⟩ := Option.bind_eq_some_iff.mp hresult
    obtain ⟨hflow, hdel⟩ := h.busy r hp
    cases result with
    | error f => exact .inl (h.silent rfl rfl (.inr ⟨r, phase_tell_failed hp f⟩))
    | ok report =>
      have htended := hdel.tended.arrive hm hr
      have h' : At s bytes sinks d
          { p with fanout := ⟨p.fanout.slots.modify index fun x => (x.1, some report)⟩ } := by
        refine ⟨h.sinks_eq, h.idle, fun r' hb => ?_, h.offered⟩
        obtain rfl : r = r' := Consumer.Phase.delivering.inj (hp.symm.trans hb)
        exact ⟨hflow, delivering_of_tended htended⟩
      show Advances s bytes sinks d p (Pipeline.conclude _).1
      obtain h' | ⟨r', b, hp', hcovers, hfilled, h'⟩ := h'.conclude
      · exact .inl h'
      · obtain rfl : r = r' := Consumer.Phase.delivering.inj (hp.symm.trans hp')
        refine .inr ⟨r, b, hcovers, fun i sink hi e he => ?_, h'⟩
        obtain ⟨report', hslot⟩ := hfilled i sink hi
        obtain ⟨m', hm', hr'⟩ := htended.filled i sink report' hslot
        exact hdel.resolved hp (h.sinks_eq ▸ hi) hm' hr' he
  · exact .inl h

/-- **One signal**, whatever it is but the return of the handler: the lines that
were delivered still are, and when there are more, every sink has resolved their
events before. -/
theorem At.step (h : p.At s bytes sinks d) {signal : Signal} (hs : signal ≠ .handled) :
    Advances s bytes sinks d p (p.step signal).1 := by
  cases signal with
  | reader => exact .inl h.runReader
  | consumer => exact h.runConsumer
  | delivery index answer => exact .inl (h.runDelivery index answer)
  | settle index => exact h.settle index
  | store answer => exact .inl (h.takeAnswer answer)
  | handled => exact absurd rfl hs
  | shutdown =>
    refine .inl ⟨h.sinks_eq, h.idle, fun r hb => ?_, h.offered⟩
    obtain ⟨hflow, hdel⟩ := h.busy r hb
    exact ⟨hflow, hdel.delivery, hdel.slots, hdel.filled⟩

end Pipeline

end Courier
