import Courier.Consumer
/-!
# One unit of work after another

What a consumer does with one record is a unit of work: the record is taken
and delivered, then its position is offered to the store or its failure is
handled (`Work`). The run of a consumer is nothing but such units, one after
another: all of them are over but the last, which may be under way, and then
the consumer may have been told that it is done (`Account`).

A signal that the consumer heeds goes on with the unit under way or begins a
new one (`Account.Heeds`), and it heeds no others (`Account.step_cases`). So
every run has an account, on whatever signals (`Account.exists_run`), and what
the consumer has counted is what its units add up to (`Account.summary`).
-/

namespace Courier.Consumer

open Courier.Checkpoint (Status)

/-- **A consumer that is not done can be told to shut down** at any time. -/
theorem step_shutdown {c : Consumer} (h : c.phase ≠ .done) :
    c.step .shutdown = (⟨.done, { c.summary with interrupted := true }⟩, []) := by
  unfold step
  cases hp : c.phase with
  | done => exact absurd hp h
  | waiting => rfl
  | delivering r => rfl
  | acking r => rfl
  | handling r => rfl

/-- A run over two parts is a run over one and then the other. -/
theorem run_append (xs ys : List Signal) : ∀ c : Consumer,
    c.run (xs ++ ys)
      = (((c.run xs).1.run ys).1, (c.run xs).2 ++ ((c.run xs).1.run ys).2) := by
  induction xs with
  | nil => exact fun _ => rfl
  | cons s xs ih =>
    intro c
    show (((c.step s).1.run (xs ++ ys)).1, (c.step s).2 ++ ((c.step s).1.run (xs ++ ys)).2) = _
    rw [ih, ← List.append_assoc]
    rfl

theorem run_singleton (c : Consumer) (s : Signal) : c.run [s] = c.step s :=
  Prod.ext rfl (List.append_nil _)

/-- The record that a signal brings. -/
def Signal.brought : Signal → List Record
  | .record r => [r]
  | _ => []

/-! ## Units of work -/

/-- **How far a record has come.** -/
inductive Stage
  /-- It is being delivered. -/
  | delivering
  /-- It is delivered, and its position is being offered. -/
  | offering
  /-- It is delivered, and the offer of its position has ended. -/
  | offered (e : AckEnd)
  /-- It is not delivered, and the failure is being handled. -/
  | handling (f : Failure)
  /-- It is not delivered, and the failure has been handled. -/
  | handled (f : Failure)

/-- **A unit of work**: a record that a consumer has taken, and how far it has come. -/
structure Work where
  /-- The record. -/
  record : Record
  /-- How far it has come. -/
  stage : Stage

namespace Work

/-- **What the consumer has heard of a record**, one signal after another, each with
what it has asked for thereupon. -/
def trace (w : Work) : List (Signal × List Demand) :=
  let taken : Signal × List Demand := (.record w.record, [.deliver w.record])
  let delivered : Signal × List Demand := (.delivered, [.offer w.record.position])
  match w.stage with
  | .delivering => [taken]
  | .offering => [taken, delivered]
  | .offered e => [taken, delivered, (.acked e, [])]
  | .handling f => [taken, (.failed f, [.handle w.record.position f])]
  | .handled f => [taken, (.failed f, [.handle w.record.position f]), (.handled, [])]

/-- Whether nothing more is done with the record. -/
def isOver (w : Work) : Bool :=
  match w.stage with
  | .offered _ => true
  | .handled _ => true
  | _ => false

/-- **Whether the record is delivered.** -/
def isDelivered (w : Work) : Bool :=
  match w.stage with
  | .offering => true
  | .offered _ => true
  | _ => false

/-- **The status that the offer of the position has ended with**, if it has. -/
def status? (w : Work) : Option Status :=
  match w.stage with
  | .offered (.status s) => some s
  | _ => none

/-- **Whether the record is acknowledged.** -/
def isAcknowledged (w : Work) : Bool :=
  w.status?.isSome

/-- Whether the record has failed: it is not delivered, or the offer broke down. -/
def hasFailed (w : Work) : Bool :=
  w.isOver && !w.isAcknowledged

/-- Whether the position is stored, and the consumer knows of it. -/
def isCommitted (w : Work) : Bool :=
  w.status? = some .committed

/-- Whether the position was not to be stored. -/
def isSkipped (w : Work) : Bool :=
  w.status? = some .skipped

/-- Whether the position could not be stored. -/
def isRefused (w : Work) : Bool :=
  w.status? = some .abandoned || w.status? = some .exhausted

/-- The phase of a consumer during a unit of work. -/
def phase (w : Work) : Phase :=
  match w.stage with
  | .delivering => .delivering w.record
  | .offering => .acking w.record
  | .handling _ => .handling w.record
  | .offered _ => .waiting
  | .handled _ => .waiting

end Work

/-! ## The account of a run -/

/-- **How a run ends.** -/
inductive Ending
  /-- There are no more records. -/
  | closed
  /-- The consumer was told to shut down. -/
  | shutdown
deriving DecidableEq

/-- The signal that a run ends with. -/
def Ending.signal : Ending → Signal
  | closed => .closed
  | shutdown => .shutdown

/-- **The account of a run**: the units that are over, the one under way, and how the
run has ended. It ends for want of records only between two units. -/
structure Account where
  /-- The units that are over. -/
  past : List Work
  /-- The unit under way. -/
  now : Option Work
  /-- How the run has ended. -/
  ending : Option Ending
  /-- Nothing more is done in them. -/
  past_over : ∀ w ∈ past, w.isOver = true
  /-- Something more is done in the one under way. -/
  now_underway : ∀ w ∈ now, w.isOver = false
  /-- There are no more records only when none is under way. -/
  now_closed : ending = some .closed → now = none

namespace Account

/-- **The account of a run that has not begun.** -/
def start : Account where
  past := []
  now := none
  ending := none
  past_over := fun _ h => (nomatch h)
  now_underway := fun _ h => (nomatch h)
  now_closed := fun h => nomatch h

/-- **The units of a run**, in their order. -/
def works (a : Account) : List Work :=
  a.past ++ a.now.toList

/-- **What the consumer has heard in its run**: what belongs to the units, one unit
after another, and that it is done. -/
def trace (a : Account) : List (Signal × List Demand) :=
  a.works.flatMap Work.trace ++ (a.ending.map fun e => (e.signal, [])).toList

/-- **What the units add up to.** -/
def summary (a : Account) : ConsumerSummary where
  records := a.works.length
  acknowledged := a.past.countP Work.isAcknowledged
  failed := a.past.countP Work.hasFailed
  committed := a.past.countP Work.isCommitted
  checkpointFailures := a.past.countP Work.isRefused
  interrupted := a.ending = some .shutdown
  lastPosition := (a.past.filter Work.isAcknowledged).getLast?.map (·.record.position)

/-- The phase of a consumer with an account. -/
def phase (a : Account) : Phase :=
  match a.ending, a.now with
  | some _, _ => .done
  | none, some w => w.phase
  | none, none => .waiting

/-- **The consumer that an account is of.** -/
def consumer (a : Account) : Consumer :=
  ⟨a.phase, a.summary⟩

/-! ## One signal -/

variable (a : Account)

/-- **A unit is under way**, a new one or the one from before, further on. -/
def underWay (w : Work) (hw : w.isOver = false) : Account where
  past := a.past
  now := some w
  ending := none
  past_over := a.past_over
  now_underway := fun _ h => Option.some.inj h ▸ hw
  now_closed := fun h => nomatch h

/-- **A unit is over.** -/
def finished (w : Work) (hw : w.isOver = true) : Account where
  past := a.past ++ [w]
  now := none
  ending := none
  past_over := fun v hv => (List.mem_append.mp hv).elim (a.past_over v)
    fun hv => List.mem_singleton.mp hv ▸ hw
  now_underway := fun _ h => (nomatch h)
  now_closed := fun h => nomatch h

/-- **The run has ended.** The unit under way stays what it is. -/
def ended (e : Ending) (he : e = .closed → a.now = none) : Account where
  past := a.past
  now := a.now
  ending := some e
  past_over := a.past_over
  now_underway := a.now_underway
  now_closed := fun h => he (Option.some.inj h)

/-- **What a signal does that the consumer heeds**, with what it asks for. -/
inductive Heeds : Signal → List Demand → Account → Prop
  /-- A record is taken when none is under way. -/
  | record (r : Record) (hend : a.ending = none) (hnow : a.now = none)
      (hw : Work.isOver ⟨r, .delivering⟩ = false) :
      Heeds (.record r) [.deliver r] (a.underWay ⟨r, .delivering⟩ hw)
  /-- The record under way is delivered. -/
  | delivered (r : Record) (hend : a.ending = none) (hnow : a.now = some ⟨r, .delivering⟩)
      (hw : Work.isOver ⟨r, .offering⟩ = false) :
      Heeds .delivered [.offer r.position] (a.underWay ⟨r, .offering⟩ hw)
  /-- The record under way is not delivered. -/
  | failed (r : Record) (f : Failure) (hend : a.ending = none)
      (hnow : a.now = some ⟨r, .delivering⟩) (hw : Work.isOver ⟨r, .handling f⟩ = false) :
      Heeds (.failed f) [.handle r.position f] (a.underWay ⟨r, .handling f⟩ hw)
  /-- The offer of its position has ended. -/
  | acked (r : Record) (e : AckEnd) (hend : a.ending = none)
      (hnow : a.now = some ⟨r, .offering⟩) (hw : Work.isOver ⟨r, .offered e⟩ = true) :
      Heeds (.acked e) [] (a.finished ⟨r, .offered e⟩ hw)
  /-- Its failure has been handled. -/
  | handled (r : Record) (f : Failure) (hend : a.ending = none)
      (hnow : a.now = some ⟨r, .handling f⟩) (hw : Work.isOver ⟨r, .handled f⟩ = true) :
      Heeds .handled [] (a.finished ⟨r, .handled f⟩ hw)
  /-- There are no more records. -/
  | closed (hend : a.ending = none) (hnow : a.now = none) :
      Heeds .closed [] (a.ended .closed fun _ => hnow)
  /-- The consumer is told to shut down, whatever it is doing. -/
  | shutdown (hend : a.ending = none) :
      Heeds .shutdown [] (a.ended .shutdown fun h => nomatch h)

variable {a} {a' : Account} {s : Signal} {demands : List Demand}

/-! ### The phase and the summary -/

/-- The phase of a run that has not ended is the one of the unit under way. -/
theorem phase_eq (hend : a.ending = none) : a.phase = (a.now.map Work.phase).getD .waiting := by
  unfold phase
  rw [hend]
  cases a.now with
  | none => rfl
  | some w => rfl

theorem phase_of_now (hend : a.ending = none) {w : Work} (hnow : a.now = some w) :
    a.phase = w.phase := by
  rw [phase_eq hend, hnow]
  rfl

theorem phase_of_idle (hend : a.ending = none) (hnow : a.now = none) : a.phase = .waiting := by
  rw [phase_eq hend, hnow]
  rfl

theorem summary_begun (hend : a.ending = none) (hnow : a.now = none) (w : Work)
    (hw : w.isOver = false) :
    (a.underWay w hw).summary = { a.summary with records := a.summary.records + 1 } := by
  simp [summary, works, underWay, hend, hnow]

theorem summary_further (hend : a.ending = none) {v : Work} (hnow : a.now = some v) (w : Work)
    (hw : w.isOver = false) : (a.underWay w hw).summary = a.summary := by
  simp [summary, works, underWay, hend, hnow]

/-- A unit that is over with an acknowledged record is counted by its status. -/
theorem summary_acknowledged (hend : a.ending = none) {v w : Work} (hnow : a.now = some v)
    (hw : w.isOver = true) {status : Status} (hs : w.status? = some status) :
    (a.finished w hw).summary = a.summary.acknowledge w.record.position status := by
  have hack : w.isAcknowledged = true := by rw [Work.isAcknowledged, hs]; rfl
  cases status <;>
    simp [summary, works, finished, hend, hnow, ConsumerSummary.acknowledge, hs, hack,
      Work.hasFailed, Work.isCommitted, Work.isRefused, List.countP_append, List.filter_append]

/-- A unit that is over without one has failed. -/
theorem summary_failed (hend : a.ending = none) {v w : Work} (hnow : a.now = some v)
    (hw : w.isOver = true) (hs : w.status? = none) :
    (a.finished w hw).summary = a.summary.fail := by
  have hack : w.isAcknowledged = false := by rw [Work.isAcknowledged, hs]; rfl
  simp [summary, works, finished, hend, hnow, ConsumerSummary.fail, hs, hack, hw, Work.hasFailed,
    Work.isCommitted, Work.isRefused, List.countP_append, List.filter_append]

theorem summary_closed (hend : a.ending = none) (he : Ending.closed = .closed → a.now = none) :
    (a.ended .closed he).summary = a.summary := by
  simp [summary, works, ended, hend]

theorem summary_interrupted (he : Ending.shutdown = .closed → a.now = none) :
    (a.ended .shutdown he).summary = { a.summary with interrupted := true } := by
  simp [summary, works, ended]

/-! ### The law of one signal -/

/-- **The account goes on by the signal** and by what is asked for. -/
theorem Heeds.trace_eq (h : a.Heeds s demands a') : a'.trace = a.trace ++ [(s, demands)] := by
  unfold trace works
  cases h with
  | record r hend hnow hw => simp [underWay, hend, hnow, Work.trace]
  | delivered r hend hnow hw => simp [underWay, hend, hnow, Work.trace]
  | failed r f hend hnow hw => simp [underWay, hend, hnow, Work.trace]
  | acked r e hend hnow hw => simp [finished, hend, hnow, Work.trace]
  | handled r f hend hnow hw => simp [finished, hend, hnow, Work.trace]
  | closed hend hnow => simp [ended, hend, hnow, Ending.signal]
  | shutdown hend => simp [ended, hend, Ending.signal]

/-- **The units are of the records that the signals bring.** -/
theorem Heeds.records_eq (h : a.Heeds s demands a') :
    a'.works.map (·.record) = a.works.map (·.record) ++ s.brought := by
  unfold works
  cases h with
  | record r hend hnow hw => simp [underWay, hnow, Signal.brought]
  | delivered r hend hnow hw => simp [underWay, hnow, Signal.brought]
  | failed r f hend hnow hw => simp [underWay, hnow, Signal.brought]
  | acked r e hend hnow hw => simp [finished, hnow, Signal.brought]
  | handled r f hend hnow hw => simp [finished, hnow, Signal.brought]
  | closed hend hnow => exact (List.append_nil _).symm
  | shutdown hend => exact (List.append_nil _).symm

/-- A run that has not ended is in a phase from which it can end. -/
theorem phase_ne_done (hend : a.ending = none) : a.phase ≠ .done := by
  rw [phase_eq hend]
  cases hnow : a.now with
  | none => exact Phase.noConfusion
  | some w =>
    obtain ⟨r, stage⟩ := w
    cases stage <;> exact Phase.noConfusion

/-- **A signal that is heeded brings the consumer into another phase.** -/
theorem Heeds.phase_ne (h : a.Heeds s demands a') : a'.phase ≠ a.phase := by
  cases h with
  | record r hend hnow hw => rw [phase_of_idle hend hnow]; exact Phase.noConfusion
  | delivered r hend hnow hw => rw [phase_of_now hend hnow]; exact Phase.noConfusion
  | failed r f hend hnow hw => rw [phase_of_now hend hnow]; exact Phase.noConfusion
  | acked r e hend hnow hw => rw [phase_of_now hend hnow]; exact Phase.noConfusion
  | handled r f hend hnow hw => rw [phase_of_now hend hnow]; exact Phase.noConfusion
  | closed hend hnow => exact (phase_ne_done hend).symm
  | shutdown hend => exact (phase_ne_done hend).symm

/-- **The consumer does what the account says.** -/
theorem Heeds.step_eq (h : a.Heeds s demands a') :
    a.consumer.step s = (a'.consumer, demands) := by
  unfold consumer
  cases h with
  | record r hend hnow hw =>
    rw [phase_of_idle hend hnow, summary_begun hend hnow]
    rfl
  | delivered r hend hnow hw =>
    rw [phase_of_now hend hnow, summary_further hend hnow]
    rfl
  | failed r f hend hnow hw =>
    rw [phase_of_now hend hnow, summary_further hend hnow]
    rfl
  | acked r e hend hnow hw =>
    rw [phase_of_now hend hnow]
    cases e with
    | status status =>
      rw [summary_acknowledged hend hnow hw (w := ⟨r, .offered (.status status)⟩) rfl]
      rfl
    | crash =>
      rw [summary_failed hend hnow hw (w := ⟨r, .offered .crash⟩) rfl]
      rfl
  | handled r f hend hnow hw =>
    rw [phase_of_now hend hnow, summary_failed hend hnow hw (w := ⟨r, .handled f⟩) rfl]
    rfl
  | closed hend hnow =>
    rw [phase_of_idle hend hnow, summary_closed hend]
    rfl
  | shutdown hend =>
    rw [Consumer.step_shutdown (phase_ne_done hend), summary_interrupted]
    rfl

/-- A signal that means nothing in a phase is not heeded there. -/
theorem step_eq_self {p : Phase} (hp : a.phase = p)
    (h : Consumer.step ⟨p, a.summary⟩ s = (⟨p, a.summary⟩, [])) :
    a.consumer.step s = (a.consumer, []) := by
  unfold consumer
  rw [hp]
  exact h

/-- **Every signal is heeded or not**, and one that is not leaves the consumer as it
is, and it asks for nothing. -/
theorem step_cases (a : Account) (s : Signal) :
    (∃ demands a', a.Heeds s demands a') ∨ a.consumer.step s = (a.consumer, []) := by
  -- the phase is that of the unit under way, and each phase heeds signals of its own
  cases hend : a.ending with
  | some e => exact .inr (step_eq_self (p := .done) (by unfold phase; rw [hend]) rfl)
  | none =>
    cases hnow : a.now with
    | none =>
      have hphase := phase_of_idle hend hnow
      cases s with
      | record r => exact .inl ⟨_, _, .record r hend hnow rfl⟩
      | closed => exact .inl ⟨_, _, .closed hend hnow⟩
      | shutdown => exact .inl ⟨_, _, .shutdown hend⟩
      | _ => exact .inr (step_eq_self hphase rfl)
    | some w =>
      have hphase := phase_of_now hend hnow
      have hunder := a.now_underway w hnow
      obtain ⟨r, stage⟩ := w
      cases stage with
      | delivering =>
        cases s with
        | delivered => exact .inl ⟨_, _, .delivered r hend hnow rfl⟩
        | failed f => exact .inl ⟨_, _, .failed r f hend hnow rfl⟩
        | shutdown => exact .inl ⟨_, _, .shutdown hend⟩
        | _ => exact .inr (step_eq_self hphase rfl)
      | offering =>
        cases s with
        | acked e => exact .inl ⟨_, _, .acked r e hend hnow rfl⟩
        | shutdown => exact .inl ⟨_, _, .shutdown hend⟩
        | _ => exact .inr (step_eq_self hphase rfl)
      | handling f =>
        cases s with
        | handled => exact .inl ⟨_, _, .handled r f hend hnow rfl⟩
        | shutdown => exact .inl ⟨_, _, .shutdown hend⟩
        | _ => exact .inr (step_eq_self hphase rfl)
      | offered e => cases hunder
      | handled f => cases hunder

/-- **Every run has an account**, on whatever signals: the account goes on by those that
are heeded. -/
theorem exists_run (signals : List Signal) : ∀ a : Account,
    ∃ (a' : Account) (heard : List (Signal × List Demand)), a'.trace = a.trace ++ heard ∧
      (heard.map (·.1)).Sublist signals ∧
      a.consumer.run signals = (a'.consumer, heard.flatMap (·.2)) := by
  induction signals with
  | nil => exact fun a => ⟨a, [], (List.append_nil _).symm, .slnil, rfl⟩
  | cons s rest ih =>
    intro a
    have hrun : a.consumer.run (s :: rest) =
        (((a.consumer.step s).1.run rest).1,
          (a.consumer.step s).2 ++ ((a.consumer.step s).1.run rest).2) := rfl
    obtain ⟨demands, b, hheeds⟩ | hself := a.step_cases s
    · obtain ⟨c, heard, htrace, hsub, hrest⟩ := ih b
      refine ⟨c, (s, demands) :: heard, ?_, hsub.cons_cons s, ?_⟩
      · rw [htrace, hheeds.trace_eq, List.append_assoc]
        rfl
      · rw [hrun, hheeds.step_eq, hrest]
        rfl
    · obtain ⟨c, heard, htrace, hsub, hrest⟩ := ih a
      refine ⟨c, heard, htrace, hsub.cons s, ?_⟩
      rw [hrun, hself, hrest]
      rfl

/-! ## What an account adds up to -/

/-- **A record acknowledged** has its position stored, or refused by the store, or not to
be stored. -/
theorem countP_isAcknowledged (works : List Work) :
    works.countP Work.isAcknowledged
      = works.countP Work.isCommitted + works.countP Work.isRefused
        + works.countP Work.isSkipped := by
  induction works with
  | nil => rfl
  | cons w works ih =>
    have hone : ∀ b : Bool, b.toNat = if b = true then 1 else 0 := fun b => by cases b <;> rfl
    have hw : w.isAcknowledged.toNat = w.isCommitted.toNat + w.isRefused.toNat
        + w.isSkipped.toNat := by
      unfold Work.isAcknowledged Work.isCommitted Work.isRefused Work.isSkipped
      cases w.status? with
      | none => rfl
      | some status => cases status <;> rfl
    simp only [List.countP_cons, ← hone]
    omega

/-- **A unit that is over** has acknowledged its record or has failed. -/
theorem length_past (a : Account) :
    a.past.length = a.past.countP Work.isAcknowledged + a.past.countP Work.hasFailed := by
  rw [List.length_eq_countP_add_countP Work.isAcknowledged]
  refine congrArg _ (List.countP_congr fun w hw => ?_)
  simp [Work.hasFailed, a.past_over w hw]

/-- **Every record taken is acknowledged, has failed or is under way.** -/
theorem records_eq (a : Account) :
    a.summary.records
      = a.summary.acknowledged + a.summary.failed + a.now.toList.length := by
  show a.works.length = _
  unfold works
  rw [List.length_append, length_past]
  rfl

/-- A consumer is done when its run has ended. -/
theorem exists_ending {a : Account} (h : a.phase = .done) : ∃ e, a.ending = some e := by
  cases hend : a.ending with
  | none => exact absurd h (phase_ne_done hend)
  | some e => exact ⟨e, rfl⟩

/-- **The last thing that a consumer hears** is why its run ends. -/
theorem getLast?_trace {a : Account} {e : Ending} (h : a.ending = some e) :
    a.trace.getLast? = some (e.signal, []) := by
  simp [trace, h]

/-- **A run that was interrupted** is one that has ended by being told to shut down. -/
theorem interrupted_iff {a : Account} {e : Ending} (h : a.ending = some e) :
    a.summary.interrupted = true ↔ e = .shutdown := by
  simp [summary, h]

/-- **At the end every record taken is acknowledged or has failed**, but the one in flight
of a run that was interrupted. -/
theorem records_of_done {a : Account} (h : a.phase = .done) :
    a.summary.records = a.summary.acknowledged + a.summary.failed
      + if a.summary.interrupted = true ∧ a.now ≠ none then 1 else 0 := by
  obtain ⟨e, hend⟩ := exists_ending h
  simp only [a.records_eq, interrupted_iff hend]
  cases hnow : a.now with
  | none => simp
  | some w =>
    cases e with
    | closed => exact nomatch hnow.symm.trans (a.now_closed hend)
    | shutdown => simp

end Account

/-! ## Positions offered -/

/-- The position that is to be offered, if that is what is asked for. -/
def Demand.offered? : Demand → Option String
  | .offer position => some position
  | _ => none

/-- **The positions that are to be offered**, in the order in which this is asked for. -/
def offered (trace : List (Signal × List Demand)) : List String :=
  (trace.flatMap (·.2)).filterMap Demand.offered?

theorem offered_append (xs ys : List (Signal × List Demand)) :
    offered (xs ++ ys) = offered xs ++ offered ys := by
  unfold offered
  rw [List.flatMap_append, List.filterMap_append]

/-- **A record has its position offered once it is delivered**, and only then. -/
theorem Work.offered_trace (w : Work) :
    offered w.trace = if w.isDelivered then [w.record.position] else [] := by
  obtain ⟨r, stage⟩ := w
  cases stage <;> rfl

/-- **The positions that are offered are those of the records that are delivered**, in
their order. -/
theorem Account.offered_trace (a : Account) :
    offered a.trace = (a.works.filter Work.isDelivered).map (·.record.position) := by
  have hend : offered (a.ending.map fun e => (e.signal, [])).toList = [] := by
    cases a.ending <;> rfl
  unfold Account.trace
  rw [offered_append, hend, List.append_nil]
  induction a.works with
  | nil => rfl
  | cons w works ih =>
    rw [List.flatMap_cons, offered_append, ih, w.offered_trace, List.filter_cons]
    cases w.isDelivered <;> rfl

end Courier.Consumer
