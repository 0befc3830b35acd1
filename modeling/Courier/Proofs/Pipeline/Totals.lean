import Courier.Proofs.Document.Tables
import Courier.Proofs.Pipeline.Redelivery
import Courier.Proofs.Pipeline.Shutdown
import Courier.Proofs.Telemetry
/-!
# The totals of a run agree

A run counts in four places: its reader counts the events that it hands over, its
consumer the records that it takes, and the statistics of deliveries the reports
of each record, over all sinks and for each of them. What these have counted is
one account of what the run has shown.

The statistics are what the records add up to that are shown to be delivered or
to have failed (`Pipeline.statistics_run`), and a record is shown to be delivered
when there is a report of each sink, and each of these accounts for all events of
the record (`Pipeline.Effect.Earned`). So they are reckoned up by the number of
sinks (`Pipeline.Reckoned`).

As long as a pipeline is not shut down, what the reader has handed over is in the
channel or with the consumer or has been dealt with (`Pipeline.Handed`). A
consumer that sees the end of its records sees it while the pipeline is not shut
down (`Pipeline.Fresh.exists_open`), and then there is nothing in the channel and
nothing ahead: all events of the source have been handed over and dealt with.
-/

namespace Courier

/-! ## Tables of numbers -/

namespace Document

variable {key : String}

/-- **A number of a table that is counted up**: so is the sum of all. The keys go up, so the
number is found where it is put. -/
theorem sum_insertSorted {numbers : List (String × Nat)} (n : Nat)
    (h : (numbers.map (·.1)).Pairwise (· < ·)) :
    ((insertSorted key ((numbers.lookup key).getD 0 + n) numbers).map (·.2)).sum
      = (numbers.map (·.2)).sum + n := by
  induction numbers with
  | nil => exact Nat.add_comm 0 n ▸ rfl
  | cons entry rest ih =>
    obtain ⟨k, v⟩ := entry
    obtain ⟨hfirst, hrest⟩ := List.pairwise_cons.mp h
    rw [insertSorted, lookup_cons_eq]
    split
    · exact Nat.add_right_comm v n _
    · next hne =>
      split
      · next hlt =>
        -- the table had no such number: from here on the keys are greater
        have hnone : rest.lookup key = none :=
          lookup_of_lt fun k' hk => String.lt_trans hlt (hfirst k' hk)
        rw [hnone, Option.getD_none, Nat.zero_add]
        exact Nat.add_comm n _
      · rw [List.map_cons, List.sum_cons, ih hrest, List.map_cons, List.sum_cons,
          Nat.add_assoc]

end Document

/-! ## What the statistics tell -/

namespace Statistics.Deliveries

variable {d : Deliveries}

/-- **Statistics whose numbers for each sink add up** to the number for all. -/
structure Balanced (d : Deliveries) : Prop where
  /-- The sinks are in the order of their names. -/
  ordered : (d.perSink.map (·.1)).Pairwise (· < ·)
  /-- What each of them has delivered adds up. -/
  sum_eq : (d.perSink.map (·.2)).sum = d.delivered

/-- They still add up when a delivery is resolved. -/
theorem Balanced.resolve (h : d.Balanced) (sink : String) (r : Report) (millis : Float) :
    (d.resolve sink r millis).Balanced where
  ordered := Document.pairwise_insertSorted _ h.ordered
  sum_eq := by
    show ((Document.insertSorted sink _ d.perSink).map (·.2)).sum = d.delivered + r.delivered
    rw [Document.sum_insertSorted r.delivered h.ordered, h.sum_eq]

end Statistics.Deliveries

namespace Reader

/-- **Only a record that is taken is counted** as handed over. -/
theorem sent_step (r : Reader) {s : Signal} (hs : s ≠ .taken) : (r.step s).sent = r.sent := by
  unfold step
  split
  · unfold readLine
    split
    · split
      · rfl
      · rfl
    · dsimp only
      split
      · rfl
      · rfl
  · rfl
  · exact absurd rfl hs
  · rfl
  · rfl
  · rfl

theorem sent_taken {r : Reader} {record : Record} {last : Bool}
    (h : r.phase = .offering record last) :
    (r.step .taken).sent = r.sent + record.events.length := by
  unfold step
  rw [h]

end Reader

namespace Consumer

variable {c : Consumer}

/-- **Only a record that is taken is counted** as one. -/
theorem records_step (c : Consumer) {s : Signal} (hs : s.brought = []) :
    (c.step s).1.summary.records = c.summary.records := by
  unfold step
  cases hphase : c.phase with
  | acking r =>
    cases s with
    | acked e =>
      cases e with
      | crash => rfl
      | status status => cases status <;> rfl
    | _ => rfl
  | waiting =>
    cases s with
    | record r => exact absurd hs (List.cons_ne_nil r [])
    | _ => rfl
  | _ => cases s <;> rfl

theorem records_record (h : c.phase = .waiting) (r : Record) :
    (c.step (.record r)).1.summary.records = c.summary.records + 1 := by
  unfold step
  rw [h]

end Consumer

namespace Pipeline

open Statistics (Deliveries)

/-- **A record that all sinks have delivered**: what its reports say is added to what the
statistics tell. -/
theorem resolveAll_totals (reports : List (String × Report)) : ∀ d : Deliveries,
    (resolveAll d reports).completed = d.completed + reports.length ∧
      (resolveAll d reports).failed = d.failed ∧
      (resolveAll d reports).delivered + (resolveAll d reports).dropped
        = d.delivered + d.dropped + (reports.map fun x => x.2.delivered + x.2.dropped).sum ∧
      (d.Balanced → (resolveAll d reports).Balanced) := by
  induction reports with
  | nil => exact fun d => ⟨rfl, rfl, rfl, id⟩
  | cons x rest ih =>
    intro d
    obtain ⟨hcompleted, hfailed, hresolved, hbalanced⟩ := ih (d.resolve x.1 x.2 0.0)
    have hone : resolveAll d (x :: rest) = resolveAll (d.resolve x.1 x.2 0.0) rest := rfl
    rw [hone, List.length_cons, List.map_cons, List.sum_cons]
    refine ⟨?_, hfailed, ?_, fun h => hbalanced (h.resolve x.1 x.2 0.0)⟩
    · rw [hcompleted]
      show d.completed + 1 + _ = _
      omega
    · rw [hresolved]
      show d.delivered + x.2.delivered + (d.dropped + x.2.dropped) + _ = _
      omega

/-- **What is shown goes into the statistics.** -/
def tally (d : Deliveries) : Effect → Deliveries
  | .delivered _ reports => resolveAll d reports
  | .failed _ _ => d.fail 0.0
  | .stored _ => d

/-- How many events records have. -/
def eventCount (records : List Record) : Nat :=
  (records.map (·.events.length)).sum

theorem eventCount_append (records others : List Record) :
    eventCount (records ++ others) = eventCount records + eventCount others := by
  unfold eventCount
  rw [List.map_append, List.sum_append]

/-- **What is added to statistics** by what is shown, of a number of sinks. -/
structure Tallied (sinks : Nat) (effects : List Effect) (d d' : Deliveries) : Prop where
  /-- There is a delivery to each sink of the records that are delivered. -/
  completed_eq : d'.completed
    = d.completed + sinks * (effects.filterMap Effect.delivered?).length
  /-- A record that has failed is counted once. -/
  failed_eq : d'.failed = d.failed + (effects.filterMap Effect.failed?).length
  /-- Every sink has delivered or refused the events of the records that are delivered. -/
  resolved_eq : d'.delivered + d'.dropped = d.delivered + d.dropped
    + sinks * eventCount (effects.filterMap Effect.delivered?)
  /-- What each sink has delivered still adds up. -/
  balanced : d.Balanced → d'.Balanced

variable {n : Nat} {effects more : List Effect} {d d' d'' : Deliveries}

theorem Tallied.refl (n : Nat) (d : Deliveries) : Tallied n [] d d :=
  ⟨rfl, rfl, rfl, id⟩

/-- One after another. -/
theorem Tallied.trans (h : Tallied n effects d d') (h' : Tallied n more d' d'') :
    Tallied n (effects ++ more) d d'' where
  completed_eq := by
    rw [List.filterMap_append, List.length_append, Nat.mul_add, h'.completed_eq,
      h.completed_eq, Nat.add_assoc]
  failed_eq := by
    rw [List.filterMap_append, List.length_append, h'.failed_eq, h.failed_eq, Nat.add_assoc]
  resolved_eq := by
    rw [List.filterMap_append, eventCount_append, Nat.mul_add, h'.resolved_eq, h.resolved_eq,
      Nat.add_assoc]
  balanced hd := h'.balanced (h.balanced hd)

variable {heard : Delivery.Answer → Prop} {sinks : List String} {strategy : Retry.Strategy}

/-- The reports of a record that is delivered account for its events, once for each sink. -/
theorem sum_of_earned {r : Record} {reports : List (String × Report)}
    (h : (Effect.delivered r reports).Earned heard sinks strategy) :
    (reports.map fun x => x.2.delivered + x.2.dropped).sum = sinks.length * r.events.length := by
  obtain ⟨hsinks, hreports⟩ := h
  have hone : ∀ x ∈ reports, x.2.delivered + x.2.dropped = r.events.length := by
    intro x hx
    obtain ⟨m, hm, hr⟩ := hreports x hx
    exact hm.accounts hr
  rw [List.map_congr_left hone, List.map_const', List.sum_replicate_nat, ← hsinks,
    List.length_map]

/-- **One thing is shown.** -/
theorem tallied_tally (d : Deliveries) {e : Effect} (he : e.Earned heard sinks strategy) :
    Tallied sinks.length [e] d (tally d e) := by
  cases e with
  | delivered r reports =>
    obtain ⟨hcompleted, hfailed, hresolved, hbalanced⟩ := resolveAll_totals reports d
    have hlength : reports.length = sinks.length := by
      rw [← he.1, List.length_map]
    refine ⟨?_, hfailed, ?_, hbalanced⟩
    · rw [hlength] at hcompleted
      exact hcompleted.trans (congrArg _ (Nat.mul_one _).symm)
    · rw [sum_of_earned he] at hresolved
      exact hresolved
  | failed r f => exact ⟨rfl, rfl, rfl, fun h => ⟨h.ordered, h.sum_eq⟩⟩
  | stored position => exact ⟨rfl, rfl, rfl, id⟩

/-- **Several things are shown.** -/
theorem tallied_foldl (effects : List Effect)
    (hearned : ∀ e ∈ effects, e.Earned heard sinks strategy) : ∀ d : Deliveries,
    Tallied sinks.length effects d (effects.foldl tally d) := by
  induction effects with
  | nil => exact .refl sinks.length
  | cons e rest ih =>
    intro d
    have hone := tallied_tally d (hearned e List.mem_cons_self)
    exact hone.trans (ih (fun e' he' => hearned e' (List.mem_cons_of_mem e he')) (tally d e))

/-! ## What a run counts of its deliveries -/

variable {p q : Pipeline} {s : Signal}

/-- **One thing that is done.** -/
theorem Turn.statistics_eq (hturn : Turn p s q effects) :
    q.statistics = effects.foldl tally p.statistics := by
  cases hturn <;> rfl

/-- **One signal.** -/
theorem statistics_step (p : Pipeline) (s : Signal) :
    (p.step s).1.statistics = (p.step s).2.foldl tally p.statistics := by
  cases turns_step p s with
  | one hturn => exact hturn.statistics_eq
  | two hturn _ _ hturn' => rw [hturn'.statistics_eq, hturn.statistics_eq, List.foldl_nil]

/-- **The statistics of a run** are those of what it has shown. -/
theorem statistics_run (signals : List Signal) : ∀ p : Pipeline,
    (p.run signals).1.statistics = (p.run signals).2.foldl tally p.statistics := by
  induction signals with
  | nil => exact fun _ => rfl
  | cons s rest ih =>
    intro p
    show ((p.step s).1.run rest).1.statistics
      = ((p.step s).2 ++ ((p.step s).1.run rest).2).foldl tally p.statistics
    rw [ih, statistics_step, List.foldl_append]

/-! ## What a run hands over -/

/-- **The books of a run**: the consumer has counted the records that have been dealt with
and the one that is being delivered, and the reader has counted their events and those of
the records in the channel. -/
structure Handed (p : Pipeline) (dealt : List Record) : Prop where
  /-- The records that the consumer has counted. -/
  records_eq : p.consumer.summary.records = (dealt ++ heading p.consumer.phase).length
  /-- The events that the reader has counted. -/
  sent_eq : p.reader.sent = eventCount (dealt ++ heading p.consumer.phase ++ p.channel)

variable {dealt dealt' : List Record}

/-- They are the same when the same records have been taken, and the others are in the
channel. -/
theorem Handed.of_taken (h : p.Handed dealt)
    (hrecords : q.consumer.summary.records = p.consumer.summary.records)
    (hsent : q.reader.sent = p.reader.sent) (hchannel : q.channel = p.channel)
    (htaken : dealt' ++ heading q.consumer.phase = dealt ++ heading p.consumer.phase) :
    q.Handed dealt' where
  records_eq := by rw [hrecords, htaken]; exact h.records_eq
  sent_eq := by rw [hsent, htaken, hchannel]; exact h.sent_eq

/-- They are the same when nothing is dealt with and the same record is being delivered. -/
theorem Handed.idle (h : p.Handed dealt)
    (hrecords : q.consumer.summary.records = p.consumer.summary.records)
    (hsent : q.reader.sent = p.reader.sent) (hchannel : q.channel = p.channel)
    (hheading : heading q.consumer.phase = heading p.consumer.phase) :
    q.Handed (dealt ++ []) :=
  h.of_taken hrecords hsent hchannel (by rw [hheading, List.append_nil])

/-- **A record is taken** out of the channel, and counted. -/
theorem Handed.take_record (h : p.Handed dealt) (hphase : p.consumer.phase = .waiting) {r : Record}
    {rest : List Record} (hchannel : p.channel = r :: rest)
    (hconsumer : q.consumer = (p.consumer.step (.record r)).1)
    (hsent : q.reader.sent = p.reader.sent) (hrest : q.channel = rest) : q.Handed dealt where
  records_eq := by
    have hdelivering : q.consumer.phase = .delivering r :=
      (congrArg Consumer.phase hconsumer).trans (phase_tell_record hphase r)
    rw [hdelivering, hconsumer, Consumer.records_record hphase, h.records_eq, hphase,
      List.length_append, List.length_append]
    rfl
  sent_eq := by
    have hdelivering : q.consumer.phase = .delivering r :=
      (congrArg Consumer.phase hconsumer).trans (phase_tell_record hphase r)
    rw [hdelivering, hsent, h.sent_eq, hphase, hchannel, hrest]
    refine congrArg eventCount ?_
    show dealt ++ [] ++ ([r] ++ rest) = dealt ++ [r] ++ rest
    rw [List.append_nil, List.append_assoc]

/-- **A record is handed over**, and counted with its events. -/
theorem Handed.hand (h : p.Handed dealt) {record : Record} {last : Bool}
    (hphase : p.reader.phase = .offering record last) :
    Handed { p with reader := p.reader.step .taken, channel := p.channel ++ [record] }
      dealt where
  records_eq := h.records_eq
  sent_eq := by
    show (p.reader.step .taken).sent
      = eventCount (dealt ++ heading p.consumer.phase ++ (p.channel ++ [record]))
    rw [← List.append_assoc, eventCount_append _ [record], ← h.sent_eq]
    exact Reader.sent_taken hphase

/-- **The record that is being delivered is dealt with.** -/
theorem Handed.deal (h : p.Handed dealt) {r : Record} (hphase : p.consumer.phase = .delivering r)
    {after : Consumer.Phase} (hafter : q.consumer.phase = after) (hheading : heading after = [])
    (hrecords : q.consumer.summary.records = p.consumer.summary.records)
    (hsent : q.reader.sent = p.reader.sent) (hchannel : q.channel = p.channel) :
    q.Handed (dealt ++ [r]) :=
  h.of_taken hrecords hsent hchannel (by rw [hafter, hheading, hphase]; exact List.append_nil _)

/-- **One thing that is done.** The consumer drops no record, since it has seen the end of its
records when it is to shut down. -/
theorem Handed.turn (h : p.Handed dealt) (hkept : p.Kept) (hturn : Turn p s q effects) :
    q.Handed (dealt ++ effects.filterMap Effect.dealt?) := by
  have hcounted {signal : Consumer.Signal} (hs : signal.brought = []) :
      (p.tell signal).consumer.summary.records = p.consumer.summary.records :=
    Consumer.records_step p.consumer hs
  have hread {signal : Reader.Signal} (hs : signal ≠ .taken) :
      (p.reader.step signal).sent = p.reader.sent := p.reader.sent_step hs
  cases hturn with
  | idle => exact h.idle rfl rfl rfl rfl
  | reads => exact h.idle rfl (hread Reader.Signal.noConfusion) rfl rfl
  | hands _ hphase => exact (List.append_nil dealt).symm ▸ h.hand hphase
  | refuses => exact h.idle rfl (hread Reader.Signal.noConfusion) rfl rfl
  | stops => exact h.idle rfl (hread Reader.Signal.noConfusion) rfl rfl
  | notices hshut =>
    have hdone : p.consumer.phase = .done :=
      (hkept.resolve_left fun hopen => nomatch hopen.symm.trans hshut).1
    refine h.idle (hcounted rfl) rfl rfl ?_
    show heading (p.tell .shutdown).consumer.phase = _
    rw [phase_tell_shutdown, hdone]
  | takes hopen hphase hchannel =>
    exact (List.append_nil dealt).symm ▸ h.take_record hphase hchannel rfl rfl rfl
  | closes hopen hphase =>
    refine h.idle (hcounted rfl) rfl rfl ?_
    rw [phase_tell_closed hphase, hphase]
    rfl
  | @hears r position session status hopen hphase =>
    refine h.idle (hcounted rfl) rfl rfl ?_
    show heading (p.tell (.acked (.status status))).consumer.phase = _
    rw [phase_tell_acked hphase, hphase]
    rfl
  | runs => exact h.idle rfl rfl rfl rfl
  | reports => exact h.idle rfl rfl rfl rfl
  | concludes hopen hphase =>
    exact h.deal hphase (phase_tell_delivered hphase) rfl (hcounted rfl) rfl rfl
  | fails hopen hphase =>
    exact h.deal hphase (phase_tell_failed hphase _) rfl (hcounted rfl) rfl rfl
  | stores => exact h.idle rfl rfl rfl rfl
  | retries => exact h.idle rfl rfl rfl rfl
  | givesUp => exact h.idle rfl rfl rfl rfl
  | handles => exact h.idle (hcounted rfl) rfl rfl (heading_handled p)
  | shutsDown => exact h.idle rfl rfl rfl rfl

/-- **One signal.** -/
theorem Handed.step (h : p.Handed dealt) (hkept : p.Kept) (s : Signal) :
    (p.step s).1.Handed (dealt ++ (p.step s).2.filterMap Effect.dealt?) := by
  cases turns_step p s with
  | one hturn => exact h.turn hkept hturn
  | two hturn hopen _ hturn' =>
    have hfirst := h.turn hkept hturn
    rw [List.filterMap_nil, List.append_nil] at hfirst
    exact hfirst.turn (.inl hopen) hturn'

/-- **Several signals**, from the start on. -/
theorem Fresh.handed (h : p.Fresh) (hsent : p.reader.sent = 0) {signals : List Signal}
    (hkept : (p.run signals).1.Kept) :
    (p.run signals).1.Handed ((p.run signals).2.filterMap Effect.dealt?) := by
  -- from the last signal backwards: what is known is how the run ends, and that it had left
  -- out no record before either
  induction signals using List.reverseRecOn with
  | nil =>
    refine ⟨?_, ?_⟩
    · show p.consumer.summary.records = (heading p.consumer.phase).length
      rw [h.consumer_eq]
      rfl
    · show p.reader.sent = eventCount (heading p.consumer.phase ++ p.channel)
      rw [hsent, h.consumer_eq, h.channel_eq]
      rfl
  | append_singleton signals s ih =>
    rw [run_concat] at hkept ⊢
    rw [List.filterMap_append]
    exact (ih hkept.before).step hkept.before s

section Ended

variable {signals : List Signal} (h : p.Fresh) (hdone : (p.run signals).1.consumer.phase = .done)

include h hdone

/-- **At the end of a run that has left out no record** the consumer has counted those that
have been dealt with, and the reader their events. -/
theorem Fresh.handed_of_ended (hsent : p.reader.sent = 0) (hkept : (p.run signals).1.Kept) :
    (p.run signals).1.consumer.summary.records
        = ((p.run signals).2.filterMap Effect.dealt?).length ∧
      (p.run signals).1.reader.sent
        = eventCount ((p.run signals).2.filterMap Effect.dealt?) := by
  obtain ⟨hrecords, hevents⟩ := h.handed hsent hkept
  have hahead := h.ahead_of_ended signals hkept hdone
  rw [ahead_of_phase hdone] at hahead
  have hchannel : (p.run signals).1.channel = [] := (List.append_eq_nil_iff.mp hahead).1
  rw [hdone] at hrecords hevents
  rw [hchannel] at hevents
  rw [hrecords, hevents]
  unfold heading
  rw [List.append_nil, List.append_nil]
  exact ⟨rfl, rfl⟩

/-- **At the end of a run that was not interrupted** every record that the consumer has
counted is acknowledged or has failed. -/
theorem Fresh.records_of_ended
    (hkept : (p.run signals).1.consumer.summary.interrupted = false) :
    (p.run signals).1.consumer.summary.records
      = (p.run signals).1.consumer.summary.acknowledged
        + (p.run signals).1.consumer.summary.failed := by
  obtain ⟨events, a, haccounted, hshard, -⟩ := h.accounted signals
  have hconsumer : ((Shard.start p.keeper).after events).consumer = (p.run signals).1.consumer :=
    congrArg Shard.consumer hshard.symm
  have hrecords := haccounted.records_eq (congrArg Consumer.phase hconsumer |>.trans hdone)
  unfold Shard.summaryAfter at hrecords
  rw [hconsumer, hkept, if_neg fun hin => nomatch hin.1] at hrecords
  exact hrecords

end Ended

end Pipeline

/-! ## Runs of a blueprint -/

/-- **The records of portions have the events of the portions.** -/
theorem Portion.eventCount_map_record (portions : List Portion) :
    Pipeline.eventCount (portions.map Portion.record) = (portions.flatMap (·.events)).length := by
  unfold Pipeline.eventCount
  rw [List.length_flatMap, List.map_map]
  refine congrArg List.sum (List.map_congr_left fun portion _ => ?_)
  exact List.length_map ..

/-- **The records of a source have the events of its lines**, and no others. -/
theorem Source.eventCount_records (s : Source) (bytes : List UInt8) (hb : 1 ≤ s.batchSize) :
    Pipeline.eventCount (s.records bytes) = (s.numbered bytes).length := by
  obtain ⟨portions, hcut, hrecords⟩ := s.records_cut bytes hb
  rw [hrecords, Portion.eventCount_map_record, hcut.flatMap_events]

namespace Run

open Courier.Pipeline

variable {b : Blueprint} {s : Settings} {files : Files} {p : Plan}

/-- **The pipeline of a plan** has counted nothing. -/
theorem plan_counts (h : plan b s files = .ok p) :
    p.pipeline.statistics = {} ∧ p.pipeline.reader.sent = 0 := by
  have hreader := (plan_ok h).2.2.2.1
  obtain ⟨handles, -, h⟩ := bind_eq_ok h
  obtain ⟨line, -, h⟩ := bind_eq_ok h
  obtain ⟨reader, -, h⟩ := bind_eq_ok h
  obtain rfl := Except.ok.inj h
  refine ⟨rfl, ?_⟩
  unfold Source.reader at hreader
  split at hreader
  · exact nomatch hreader
  · split at hreader
    · exact Except.ok.inj hreader ▸ rfl
    · obtain ⟨bytes, -, hstart⟩ := map_eq_ok hreader
      exact hstart ▸ rfl

/-- **The totals of a run agree.** Whatever its sinks do, and whenever it is told to shut down,
a run counts a delivery to each sink for every record that is delivered, and one failure
for every record that fails. What the sinks have delivered and what they have refused is,
for each of them, what the delivered records hold; and the numbers for each sink add up to
the one for all. When the run is over and was not interrupted, the file has been read to
its end: the records that the consumer has taken are those of the source behind the line
that it was resumed after, the events that were read are theirs and no others, and each
of these records is acknowledged or has failed. -/
theorem totals_agree (h : plan b s files = .ok p) (signals : List Signal) :
    let last := (p.pipeline.run signals).1
    let effects := (p.pipeline.run signals).2
    let stats := statisticsOf p last
    let delivered := effects.filterMap Effect.delivered?
    let dealt := effects.filterMap Effect.dealt?
    stats.deliveries.completed = b.sinks.length * delivered.length ∧
      stats.deliveries.failed = (p.pipeline.failures signals).length ∧
      stats.deliveries.delivered + stats.deliveries.dropped
        = b.sinks.length * eventCount delivered ∧
      stats.deliveries.delivered = (stats.deliveries.perSink.map (·.2)).sum ∧
      (last.consumer.phase = .done → stats.consumer.interrupted = false →
        ∃ bytes, files.read b.source.path = .ok bytes ∧
          dealt = (Source.ofSettings b.source p.resumedAfter).records bytes ∧
          stats.eventsRead
            = ((Source.ofSettings b.source p.resumedAfter).numbered bytes).length ∧
          stats.eventsRead = eventCount dealt ∧
          stats.consumer.records = dealt.length ∧
          stats.consumer.records = stats.consumer.acknowledged + stats.consumer.failed) := by
  intro last effects stats delivered dealt
  obtain ⟨-, -, hsinks, -, hconsumer, -⟩ := plan_ok h
  obtain ⟨hfresh, -, hshut⟩ := plan_fresh h
  obtain ⟨hstatistics, hsent⟩ := plan_counts h
  have hlength : p.pipeline.sinks.length = b.sinks.length := by
    rw [hsinks, List.length_map]
  have htallied : Tallied b.sinks.length effects {} stats.deliveries := by
    have hearned := earned_run (p := p.pipeline) (fun r => by rw [hconsumer]; exact nofun) signals
    have htallied := tallied_foldl effects hearned p.pipeline.statistics
    rw [← statistics_run, hstatistics, hlength] at htallied
    exact htallied
  have hbalanced := htallied.balanced ⟨.nil, rfl⟩
  refine ⟨htallied.completed_eq.trans (Nat.zero_add _), htallied.failed_eq.trans (Nat.zero_add _),
    htallied.resolved_eq.trans (Nat.zero_add _), hbalanced.sum_eq.symm, fun hdone hkept => ?_⟩
  have hseen : last.Kept := .inr ⟨hdone, hkept⟩
  have hopen : s.shutDown = false := by
    -- a run that is to shut down from the start is interrupted
    refine Bool.eq_false_iff.mpr fun hset => ?_
    have hspared := (winds_run signals (hshut.trans hset)).spared
    have hunseen : ¬p.pipeline.consumer.SawEnd := by
      rw [hconsumer]
      exact fun hseen => nomatch hseen.1
    exact nomatch (hspared.interrupted hdone hunseen).symm.trans hkept
  obtain ⟨bytes, hread, hahead⟩ := (plan_ahead h).2 hopen
  obtain ⟨hrecords, hevents⟩ := hfresh.handed_of_ended hdone hsent hseen
  have hdealt := (hfresh.dealt_of_ended signals hseen hdone).trans hahead
  have hsize := (Source.ofSettings b.source p.resumedAfter).eventCount_records bytes
    (Nat.le_max_left 1 _)
  refine ⟨bytes, hread, hdealt, ?_, hevents, hrecords, hfresh.records_of_ended hdone hkept⟩
  rw [← hsize, ← hdealt]
  exact hevents

/-- Files with two lines of one name and another line. -/
def threeNamed : Files :=
  named [97, 97, 98]

theorem isOk_plan_threeNamed : (plan naming {} threeNamed).isOk = true := by
  decide +kernel

/-- The plan of a run that logs them. -/
def namingThree : Plan :=
  Shift.planOf naming {} threeNamed isOk_plan_threeNamed

/-- The signals of the run to its end. -/
def throughThree : List Signal :=
  Shift.signalsToEnd naming {} threeNamed (fun _ => default) namingThree

/-- Where it is then. -/
def lastThree : Pipeline :=
  (namingThree.pipeline.run throughThree).1

/-- What it has counted. -/
def countedThree : Statistics.Run :=
  statisticsOf namingThree lastThree

/-- **A record that fails and one that is delivered**: the first two events are of one name,
the third is by itself. -/
theorem totals_agree_named :
    plan naming {} threeNamed = .ok namingThree ∧
      lastThree.consumer.phase = .done ∧ countedThree.consumer.interrupted = false ∧
      countedThree.deliveries.completed = 1 ∧ countedThree.deliveries.failed = 1 ∧
      countedThree.deliveries.delivered + countedThree.deliveries.dropped = 1 ∧
      countedThree.deliveries.delivered = (countedThree.deliveries.perSink.map (·.2)).sum ∧
      countedThree.eventsRead = 3 ∧ countedThree.consumer.records = 2 ∧
      countedThree.consumer.records
        = countedThree.consumer.acknowledged + countedThree.consumer.failed := by
  have hplan : plan naming {} threeNamed = .ok namingThree :=
    Shift.plan_planOf naming {} threeNamed isOk_plan_threeNamed
  unfold countedThree lastThree
  obtain ⟨hcompleted, hfailed, hresolved, hsum, hended⟩ := totals_agree hplan throughThree
  have hdone : (namingThree.pipeline.run throughThree).1.consumer.phase = .done := by
    decide +kernel
  have hkept : (statisticsOf namingThree
      (namingThree.pipeline.run throughThree).1).consumer.interrupted = false := by
    decide +kernel
  obtain ⟨bytes, -, -, -, hread, hrecords, haccounted⟩ := hended hdone hkept
  refine ⟨hplan, hdone, hkept, hcompleted.trans ?_, hfailed.trans ?_, hresolved.trans ?_, hsum,
    hread.trans ?_, hrecords.trans ?_, haccounted⟩
  all_goals decide +kernel

end Run

end Courier
