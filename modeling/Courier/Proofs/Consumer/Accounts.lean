import Courier.Proofs.Consumer.Shard
/-!
# What becomes of the records of a shard

Along any events a shard has an account of its consumer (`Shard.At`), which
says what has become of each record that has arrived. One event goes into it
as something that the consumer has heard (`Shard.At.tell`) or leaves it as it
is (`Shard.At.outside`), and so does a run, event by event
(`Shard.At.after`).

What the account says of a run is what one expects of a consumer
(`Shard.Accounted`). What it says of the store is less: the task that offers a
position goes on when the consumer has been told to shut down, and can still
store the position of a record that is not counted
(`Shard.stored_eq_counted_iff`).
-/

namespace Courier.Shard

open Courier.Checkpoint (Keeper)
open Courier.Consumer (Account Demand Ending Signal Work)

/-! ## Accounts of a shard -/

/-- **The positions of the records that a consumer counts as committed.** -/
def counted (works : List Work) : List String :=
  (works.filter Work.isCommitted).map (·.record.position)

/-- A record whose offer has ended is counted when that stored its position. -/
theorem counted_append_offered (works : List Work) (r : Record) (x : AckEnd) :
    counted (works ++ [⟨r, .offered x⟩])
      = counted works ++ (if x = .status .committed then [r.position] else []) := by
  unfold counted
  rw [List.filter_append, List.map_append]
  cases x with
  | crash => rfl
  | status s => cases s <;> rfl

/-- A record that is not delivered is not counted. -/
theorem counted_append_handled (works : List Work) (r : Record) (f : Failure) :
    counted (works ++ [⟨r, .handled f⟩]) = counted works := by
  unfold counted
  rw [List.filter_append, List.map_append]
  exact List.append_nil _

/-- **A shard with an account**, after some records have arrived and some positions are
stored. -/
structure At (p : Shard) (a : Account) (arrived : List Record) (stored : List String) : Prop where
  /-- The account is of its consumer. -/
  consumer_eq : p.consumer = a.consumer
  /-- What has arrived has been taken, in its order, or is in the channel. -/
  arrived_eq : arrived = a.works.map (·.record) ++ p.channel
  /-- The position that is being offered is the one of the record under way. -/
  offering : ∀ k, p.ack = some k → ∃ r, a.now = some ⟨r, .offering⟩ ∧ k.position = r.position
  /-- What is stored is counted, or the consumer has not heard of it. -/
  stored_eq : stored = counted a.past ++ p.unheard
  /-- It has ended for want of records when there were none. -/
  closed_of : a.ending = some .closed → p.closed = true ∧ p.channel = []
  /-- It has been interrupted when it was to shut down. -/
  shutDown_of : a.ending = some .shutdown → p.shutDown = true

variable {p : Shard} {a : Account} {arrived : List Record} {stored : List String}

/-- **At the start** nothing has happened. -/
theorem at_start (k : Keeper) : (start k).At .start [] [] where
  consumer_eq := rfl
  arrived_eq := rfl
  offering := fun _ h => nomatch h
  stored_eq := rfl
  closed_of := fun h => nomatch h
  shutDown_of := fun h => nomatch h

theorem At.phase_eq (h : p.At a arrived stored) : p.consumer.phase = a.phase :=
  congrArg Consumer.phase h.consumer_eq

/-- No position is being offered unless a record is delivered and not acknowledged. -/
theorem At.ack_eq_none (h : p.At a arrived stored)
    (hnow : ∀ r, a.now ≠ some ⟨r, .offering⟩) : p.ack = none := by
  cases hack : p.ack with
  | none => rfl
  | some k =>
    obtain ⟨r, hr, -⟩ := h.offering k hack
    exact absurd hr (hnow r)

/-- Then nothing is stored without the consumer having heard of it. -/
theorem unheard_of_ack (h : p.ack = none) : p.unheard = [] := by
  unfold unheard
  rw [h]
  rfl

section Tell

variable {s : Signal} {demands : List Demand} {a' : Account}

/-- The task that begins is for the record that is delivered. -/
theorem At.ack_delivered (h : p.At a arrived stored) {r : Record} (hend : a.ending = none)
    (hnow : a.now = some ⟨r, .delivering⟩) :
    (p.tell .delivered).ack = some (.start p.keeper r.position) := by
  have hphase : p.consumer.phase = .delivering r :=
    h.phase_eq.trans (Account.phase_of_now hend hnow)
  simp [tell, ackAfter, hphase]

/-- **The position that is being offered** is still the one of the record under way. -/
theorem At.offering_tell (h : p.At a arrived stored) (hheeds : a.Heeds s demands a') {k : Ack}
    (hk : (p.tell s).ack = some k) :
    ∃ r, a'.now = some ⟨r, .offering⟩ ∧ k.position = r.position := by
  cases hheeds with
  | delivered r hend hnow hw =>
    obtain rfl := Option.some.inj ((h.ack_delivered hend hnow).symm.trans hk)
    exact ⟨r, rfl, rfl⟩
  | acked r x hend hnow hw => exact nomatch hk
  | shutdown hend => exact h.offering k hk
  | record r hend hnow hw =>
    exact nomatch (h.ack_eq_none fun r hr => nomatch hnow.symm.trans hr).symm.trans hk
  | failed r f hend hnow hw =>
    exact nomatch (h.ack_eq_none fun r hr => nomatch hnow.symm.trans hr).symm.trans hk
  | handled r f hend hnow hw =>
    exact nomatch (h.ack_eq_none fun r hr => nomatch hnow.symm.trans hr).symm.trans hk
  | closed hend hnow =>
    exact nomatch (h.ack_eq_none fun r hr => nomatch hnow.symm.trans hr).symm.trans hk

/-- **What is stored** is counted when the consumer hears of it. -/
theorem At.stored_tell (h : p.At a arrived stored) (hheeds : a.Heeds s demands a')
    (hs : p.Hears s) : stored = counted a'.past ++ (p.tell s).unheard := by
  rw [h.stored_eq]
  cases hheeds with
  | record r hend hnow hw => rfl
  | failed r f hend hnow hw => rfl
  | closed hend hnow => rfl
  | shutdown hend => rfl
  | handled r f hend hnow hw =>
    exact congrArg (· ++ _) (counted_append_handled a.past r f).symm
  | delivered r hend hnow hw =>
    have hack : p.ack = none := h.ack_eq_none fun r hr => nomatch hnow.symm.trans hr
    have hunheard : (p.tell .delivered).unheard = [] := by
      simp [unheard, h.ack_delivered hend hnow, Ack.unheard_start]
    rw [unheard_of_ack hack, hunheard]
    rfl
  | acked r x hend hnow hw =>
    cases hs with
    | acked _ k _ hphase hack hended =>
      obtain ⟨r', hr', hposition⟩ := h.offering k hack
      obtain rfl := (Work.mk.inj (Option.some.inj (hnow.symm.trans hr'))).1
      have hunheard : p.unheard = k.unheard := by simp [unheard, hack]
      have hafter : (p.tell (.acked x)).unheard = [] := unheard_of_ack rfl
      rw [hunheard, k.unheard_of_ended hended, hposition, hafter, List.append_nil]
      exact (counted_append_offered a.past r x).symm

/-- **A run that has ended for want of records** has left none. -/
theorem closed_tell (hheeds : a.Heeds s demands a') (hs : p.Hears s)
    (hclosed : a'.ending = some .closed) :
    (p.tell s).closed = true ∧ (p.tell s).channel = [] := by
  cases hheeds with
  | closed hend hnow =>
    cases hs with
    | closed hphase hchannel hclosed => exact ⟨hclosed, hchannel⟩
  | _ => exact nomatch hclosed

/-- **A run that was interrupted** was to be. -/
theorem shutDown_tell (hheeds : a.Heeds s demands a') (hs : p.Hears s)
    (hshut : a'.ending = some .shutdown) : (p.tell s).shutDown = true := by
  cases hheeds with
  | shutdown hend =>
    cases hs with
    | shutdown hphase hshut => exact hshut
  | _ => exact nomatch hshut

/-- **What the consumer hears goes into the account.** -/
theorem At.tell (h : p.At a arrived stored) (hs : p.Hears s) :
    ∃ a', (p.tell s).At a' arrived stored ∧
      a'.trace = a.trace ++ [(s, (p.consumer.step s).2)] := by
  obtain ⟨demands, a', hheeds⟩ : ∃ demands a', a.Heeds s demands a' := by
    obtain hheeds | hself := a.step_cases s
    · exact hheeds
    · exact absurd (by rw [h.consumer_eq, hself]) hs.phase_ne
  have hstep : p.consumer.step s = (a'.consumer, demands) := h.consumer_eq ▸ hheeds.step_eq
  exact ⟨a', {
    consumer_eq := congrArg Prod.fst hstep
    arrived_eq := by rw [h.arrived_eq, hheeds.records_eq, hs.channel_eq, ← List.append_assoc]; rfl
    offering := fun k hk => h.offering_tell hheeds hk
    stored_eq := h.stored_tell hheeds hs
    closed_of := closed_tell hheeds hs
    shutDown_of := shutDown_tell hheeds hs }, by rw [hheeds.trace_eq, hstep]⟩

end Tell

/-- **What happens outside of the consumer** brings a record or stores a position at
most. -/
theorem At.outside (h : p.At a arrived stored) (e : Event) :
    (p.outside e).At a (arrived ++ p.brings e) (stored ++ p.stores e) where
  consumer_eq := consumer_outside.trans h.consumer_eq
  arrived_eq := by rw [h.arrived_eq, channel_outside, List.append_assoc]
  offering := fun k hk => by
    obtain ⟨k', hk', hposition⟩ := ack_outside hk
    obtain ⟨r, hr, heq⟩ := h.offering k' hk'
    exact ⟨r, hr, hposition.trans heq⟩
  stored_eq := by rw [h.stored_eq, unheard_outside, List.append_assoc]
  closed_of := fun hend => by
    obtain ⟨hclosed, hempty⟩ := h.closed_of hend
    obtain ⟨hstays, hbrings⟩ := closed_outside (e := e) hclosed
    exact ⟨hstays, by rw [channel_outside, hempty, hbrings]; rfl⟩
  shutDown_of := fun hend => shutDown_outside (h.shutDown_of hend)

/-- **One event further.** -/
theorem At.step (h : p.At a arrived stored) (e : Event) :
    ∃ a', (p.step e).At a' (arrived ++ p.brings e) (stored ++ p.stores e) ∧
      a'.trace = a.trace ++ p.tells e := by
  unfold tells
  cases he : p.hears e with
  | none =>
    rw [step_of_unheard he]
    exact ⟨a, h.outside e, (List.append_nil _).symm⟩
  | some s =>
    rw [step_of_hears he, brings_of_hears he, stores_of_hears he, List.append_nil,
      List.append_nil]
    exact h.tell (hears_cases he)

/-- **A run further.** -/
theorem At.after (events : List Event) : ∀ {p a arrived stored}, At p a arrived stored →
    ∃ a', (p.after events).At a' (arrived ++ p.arrivals events) (stored ++ p.stored events) ∧
      a'.trace = a.trace ++ p.trace events := by
  induction events with
  | nil =>
    intro p a arrived stored h
    refine ⟨a, ?_, (List.append_nil _).symm⟩
    show p.At a (arrived ++ []) (stored ++ [])
    rw [List.append_nil, List.append_nil]
    exact h
  | cons e rest ih =>
    intro p a arrived stored h
    obtain ⟨b, hb, htrace⟩ := h.step e
    obtain ⟨c, hc, hafter⟩ := ih hb
    refine ⟨c, ?_, ?_⟩
    · rw [List.append_assoc, List.append_assoc] at hc
      exact hc
    · rw [hafter, htrace, List.append_assoc]
      rfl

/-! ## Runs -/

variable (k : Keeper) (events : List Event)

/-- **What the consumer hears of an event is one step of it.** -/
theorem run_tells (p : Shard) (e : Event) :
    p.consumer.run ((p.tells e).map (·.1))
      = ((p.step e).consumer, (p.tells e).flatMap (·.2)) := by
  unfold tells
  cases he : p.hears e with
  | none =>
    rw [step_of_unheard he, consumer_outside]
    rfl
  | some s =>
    rw [step_of_hears he]
    show p.consumer.run [s] = ((p.consumer.step s).1, (p.consumer.step s).2 ++ [])
    rw [Consumer.run_singleton, List.append_nil]

/-- **What the consumer hears in a run is a run of it**, with what it asks for. -/
theorem run_trace : ∀ p : Shard,
    p.consumer.run ((p.trace events).map (·.1))
      = ((p.after events).consumer, (p.trace events).flatMap (·.2)) := by
  induction events with
  | nil => exact fun _ => rfl
  | cons e rest ih =>
    intro p
    have htrace : p.trace (e :: rest) = p.tells e ++ (p.step e).trace rest := rfl
    have hafter : p.after (e :: rest) = (p.step e).after rest := rfl
    rw [htrace, hafter, List.map_append, List.flatMap_append, Consumer.run_append, run_tells, ih]

/-- **What the consumer has counted** in a run from its start. -/
def summaryAfter : ConsumerSummary :=
  ((start k).after events).consumer.summary

/-- **What a shard has done with the records that have arrived**, by an account of its
consumer. -/
structure Accounted (a : Account) : Prop where
  /-- What the consumer has heard and asked for is a run of it. -/
  run_eq : ({} : Consumer).run (((start k).trace events).map (·.1))
    = (((start k).after events).consumer, ((start k).trace events).flatMap (·.2))
  /-- It belongs to one unit of work after another, and to the end. -/
  units : (start k).trace events = a.trace
  /-- The units are of the records that have arrived, in their order; the others are in
  the channel. -/
  in_order : (start k).arrivals events
    = a.works.map (·.record) ++ ((start k).after events).channel
  /-- The positions that were to be offered are those of the records delivered. -/
  offers : Consumer.offered ((start k).trace events)
    = (a.works.filter Work.isDelivered).map (·.record.position)
  /-- The consumer has counted what the units add up to. -/
  summary_eq : summaryAfter k events = a.summary
  /-- At the end every record taken is acknowledged or has failed, but the one in flight
  of a consumer that was interrupted. -/
  records_eq : ((start k).after events).consumer.phase = .done →
    (summaryAfter k events).records
      = (summaryAfter k events).acknowledged + (summaryAfter k events).failed
        + if (summaryAfter k events).interrupted = true ∧ a.now ≠ none then 1 else 0
  /-- Of those acknowledged the position is stored, or it could not be, or it was not to
  be. -/
  acknowledged_eq : (summaryAfter k events).acknowledged
    = (summaryAfter k events).committed + (summaryAfter k events).checkpointFailures
      + a.past.countP Work.isSkipped
  /-- The last position is the one of the last record acknowledged. -/
  lastPosition_eq : (summaryAfter k events).lastPosition
    = (a.past.filter Work.isAcknowledged).getLast?.map (·.record.position)
  /-- At the end the consumer has been told why: it was to shut down, and then it is
  interrupted; or there are no more records. -/
  ends : ((start k).after events).consumer.phase = .done →
    ∃ e : Ending, ((start k).trace events).getLast? = some (e.signal, []) ∧
      ((summaryAfter k events).interrupted = true ↔ e = .shutdown) ∧
      (e = .shutdown → ((start k).after events).shutDown = true) ∧
      (e = .closed →
        ((start k).after events).closed = true ∧ ((start k).after events).channel = [])

variable {k events}

/-- An account that goes with a shard after a run is one of the run. -/
theorem At.accounted (h : ((start k).after events).At a ((start k).arrivals events) stored)
    (htrace : (start k).trace events = a.trace) : Accounted k events a := by
  have hsummary : summaryAfter k events = a.summary := congrArg Consumer.summary h.consumer_eq
  exact {
    run_eq := run_trace events (start k)
    units := htrace
    in_order := h.arrived_eq
    offers := htrace ▸ a.offered_trace
    summary_eq := hsummary
    records_eq := fun hdone => by
      rw [hsummary]
      exact Account.records_of_done (h.phase_eq ▸ hdone)
    acknowledged_eq := by
      rw [hsummary]
      exact Account.countP_isAcknowledged a.past
    lastPosition_eq := congrArg ConsumerSummary.lastPosition hsummary
    ends := fun hdone => by
      obtain ⟨e, hend⟩ := Account.exists_ending (h.phase_eq ▸ hdone)
      rw [hsummary, htrace]
      exact ⟨e, Account.getLast?_trace hend, Account.interrupted_iff hend,
        fun he => h.shutDown_of (he ▸ hend), fun he => h.closed_of (he ▸ hend)⟩ }

variable (k events)

/-- **Every run of a shard has an account**: its consumer takes the records one at a time in
the order in which they have arrived, has the position of each offered once it is
delivered, and counts each of them once. -/
theorem exists_accounted : ∃ a, Accounted k events a := by
  obtain ⟨a, h, htrace⟩ := (at_start k).after events
  exact ⟨a, h.accounted htrace.symm⟩

/-! ## Positions that are stored -/

/-- **What is stored is what is counted** as long as no position is stored of which the
consumer has not heard; and that can only be the one of a record in flight that is
delivered. -/
theorem stored_eq_counted_iff : ∃ a, Accounted k events a ∧
    ((start k).stored events = counted a.past ↔ ((start k).after events).unheard = []) ∧
    ∀ position ∈ ((start k).after events).unheard,
      ∃ r, a.now = some ⟨r, .offering⟩ ∧ position = r.position := by
  obtain ⟨a, h, htrace⟩ := (at_start k).after events
  have hstored : (start k).stored events = counted a.past ++ ((start k).after events).unheard :=
    h.stored_eq
  refine ⟨a, h.accounted htrace.symm, ?_, fun position hposition => ?_⟩
  · rw [hstored]
    exact List.append_right_eq_self
  · obtain ⟨k, hk, hmem⟩ := List.mem_flatMap.mp hposition
    obtain ⟨r, hr, heq⟩ := h.offering k (Option.mem_toList.mp hk)
    exact ⟨r, hr, (Ack.eq_of_mem_unheard hmem).trans heq⟩

/-- **A record in flight can have its position stored** although the consumer, which was told
to shut down while it was being offered, counts it neither as acknowledged nor as
failed. -/
theorem stored_after_shutdown :
    let k : Keeper := .new 0 30 false
    let events : List Event := [.arrived ⟨"1", []⟩, .run, .delivered, .shutdown, .run,
      .answered (.error (.storeUnavailable "down")), .answered (.ok ())]
    ((start k).after events).consumer = ⟨.done, { records := 1, interrupted := true }⟩ ∧
      (start k).stored events = ["1"] :=
  ⟨rfl, rfl⟩

end Courier.Shard
