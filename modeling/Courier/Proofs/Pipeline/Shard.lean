import Courier.Proofs.Consumer.Accounts
import Courier.Proofs.Pipeline.Turns
/-!
# The shard of a pipeline

A pipeline has a shard in it: the consumer, the channel and the position that
is being offered, without the reader and the deliveries. What happens to the
pipeline happens to the shard as well, as events of its own
(`Pipeline.follows_step`). So a run of a pipeline has an account, and what is
stored in it is what the account says (`Pipeline.Fresh.accounted`).
-/

namespace Courier

/-- The task that offers a position. -/
def Offer.ack (o : Offer) : Ack :=
  ⟨o.position, o.session, o.status.map .status⟩

namespace Pipeline

/-- **The shard of a pipeline**: no more records come when the reader is done. -/
def shard (p : Pipeline) : Shard where
  keeper := p.keeper
  consumer := p.consumer
  channel := p.channel
  closed := p.reader.phase == .done
  ack := p.offer.map Offer.ack
  shutDown := p.shutDown

/-- The position that is stored, if that is what is shown. -/
def Effect.stored? : Effect → Option String
  | .stored position => some position
  | _ => none

/-- **The shard of a pipeline goes on by events** that store what is shown to be
stored. -/
def Follows (p q : Pipeline) (effects : List Effect) : Prop :=
  ∃ events, q.shard = p.shard.after events ∧
    effects.filterMap Effect.stored? = p.shard.stored events

variable {p q r : Pipeline} {effects more : List Effect}

theorem Follows.of_shard_eq (h : q.shard = p.shard)
    (heffects : effects.filterMap Effect.stored? = []) : Follows p q effects :=
  ⟨[], h, heffects⟩

/-- **One event.** -/
theorem Follows.single (e : Shard.Event) (h : q.shard = p.shard.step e)
    (heffects : effects.filterMap Effect.stored? = p.shard.stores e) : Follows p q effects :=
  ⟨[e], h, heffects.trans (List.append_nil _).symm⟩

/-- One after another. -/
theorem Follows.trans (h : Follows p q effects) (h' : Follows q r more) :
    Follows p r (effects ++ more) := by
  obtain ⟨events, hq, heffects⟩ := h
  obtain ⟨events', hr, hmore⟩ := h'
  refine ⟨events ++ events', ?_, ?_⟩
  · rw [hr, hq, Shard.after_append]
  · rw [List.filterMap_append, heffects, hmore, hq, Shard.stored_append]

/-- **The consumer hears of an event.** -/
theorem Follows.heard {e : Shard.Event} {s : Consumer.Signal} (he : p.shard.hears e = some s)
    (h : q.shard = p.shard.tell s) (heffects : effects.filterMap Effect.stored? = []) :
    Follows p q effects :=
  .single e (h.trans (Shard.step_of_hears he).symm)
    (heffects.trans (Shard.stores_of_hears he).symm)

/-- The reader goes on. -/
theorem follows_reader (p : Pipeline) (reader : Reader)
    (h : p.reader.phase = .done → reader.phase = .done) :
    Follows p { p with reader := reader } [] := by
  by_cases hdone : reader.phase = .done
  · refine .single .closed ?_ rfl
    show shard _ = { p.shard with closed := true }
    simp [shard, hdone]
  · refine .of_shard_eq ?_ rfl
    simp [shard, beq_eq_false_iff_ne.mpr hdone, beq_eq_false_iff_ne.mpr (mt h hdone)]

/-- A reader that is done stays so. -/
theorem phase_step_of_done {r : Reader} (h : r.phase = .done) (s : Reader.Signal) :
    (r.step s).phase = .done := by
  unfold Reader.step
  rw [h]
  exact h

/-- **The channel takes a record.** -/
theorem follows_hand {record : Record} {last : Bool}
    (hphase : p.reader.phase = .offering record last) :
    Follows p { p with reader := p.reader.step .taken, channel := p.channel ++ [record] } [] := by
  have harrived : Follows p { p with channel := p.channel ++ [record] } [] := by
    refine .single (.arrived record) ?_ rfl
    have hopen : ¬p.shard.closed = true := by simp [shard, hphase]
    exact (if_neg hopen).symm
  exact harrived.trans (follows_reader _ (p.reader.step .taken) fun h =>
    nomatch hphase.symm.trans h)

theorem ack_offerOf (k : Checkpoint.Keeper) (position : String) :
    (offerOf k position).ack = .start k position := by
  unfold offerOf Ack.start Offer.ack
  cases k.dry <;> rfl

theorem ack_of_offer {position : String} {session : Retry.Session}
    (hoffer : p.offer = some ⟨position, session, none⟩) :
    p.shard.ack = some ⟨position, session, none⟩ := by
  simp [shard, hoffer, Offer.ack]

/-- **The store has answered**, and the task that offers the position has heard it. -/
theorem follows_answered (answer : Except Failure Unit)
    (hshard : q.shard = { p.shard with ack := p.shard.ack.map (·.answered answer) })
    (heffects : effects.filterMap Effect.stored?
      = p.shard.ack.toList.flatMap (·.stores answer)) : Follows p q effects :=
  .single (.answered answer) hshard heffects

/-- **One thing that is done.** The shard has an event of what its consumer hears, of what
the store answers, and of what comes to the channel; it has none of the deliveries. -/
theorem Turn.follows {s : Signal} (hturn : Turn p s q effects) : Follows p q effects := by
  have hread (signal : Reader.Signal) : Follows p { p with reader := p.reader.step signal } [] :=
    follows_reader p _ fun h => phase_step_of_done h signal
  cases hturn with
  | idle => exact .of_shard_eq rfl rfl
  | reads => exact hread .go
  | hands _ hphase => exact follows_hand hphase
  | refuses => exact hread .refused
  | stops => exact hread .shutdown
  | notices hshut =>
    by_cases hdone : p.consumer.phase = .done
    · refine .of_shard_eq ?_ rfl
      simp [shard, tell, Consumer.step, hdone]
    · exact .heard (e := .run) (Shard.notices_of_shutDown hdone hshut) rfl rfl
  | @takes r rest hopen hphase hchannel =>
    have hears : p.shard.hears .run = some (.record r) := by
      simp [Shard.hears, Shard.notices, shard, hphase, hopen, hchannel]
    refine .heard hears ?_ rfl
    simp [shard, Shard.tell, Shard.channelAfter, Shard.ackAfter, tell, hchannel]
  | closes hopen hphase hchannel hreader =>
    have hears : p.shard.hears .run = some .closed := by
      simp [Shard.hears, Shard.notices, shard, hphase, hopen, hchannel, hreader]
    exact .heard hears rfl rfl
  | @hears r position session status hopen hphase hoffer =>
    have hears : p.shard.hears .run = some (.acked (.status status)) := by
      simp [Shard.hears, Shard.notices, shard, hphase, hopen, hoffer, Offer.ack]
    exact .heard hears rfl rfl
  | runs => exact .of_shard_eq rfl rfl
  | reports => exact .of_shard_eq rfl rfl
  | concludes hopen hphase =>
    have hears : p.shard.hears .delivered = some .delivered := by
      simp [Shard.hears, shard, hphase, hopen]
    refine .heard hears ?_ rfl
    simp [shard, Shard.tell, Shard.channelAfter, Shard.ackAfter, hphase, tell, ack_offerOf]
  | @fails _ r _ f hopen hphase =>
    have hears : p.shard.hears (.failed f) = some (.failed f) := by
      simp [Shard.hears, shard, hphase, hopen]
    exact .heard hears rfl rfl
  | stores hoffer =>
    have hack := ack_of_offer hoffer
    refine follows_answered (.ok ()) ?_ ?_
    · simp [shard, endOffer, hoffer, Offer.ack, Ack.answered]
    · simp [hack, Ack.stores, Effect.stored?]
  | @retries position session f delay next hoffer hverdict =>
    have hack := ack_of_offer hoffer
    refine follows_answered (.error f) ?_ ?_
    · simp [shard, hoffer, Offer.ack, Ack.answered, hverdict]
    · simp [hack, Ack.stores]
  | @givesUp position session f reason hoffer hverdict =>
    have hack := ack_of_offer hoffer
    refine follows_answered (.error f) ?_ ?_
    · simp [shard, endOffer, hoffer, Offer.ack, Ack.answered, hverdict, Ack.failedEnd]
    · simp [hack, Ack.stores]
  | handles hopen hphase =>
    have hears : p.shard.hears .handled = some .handled := by
      simp [Shard.hears, shard, hphase, hopen]
    exact .heard hears rfl rfl
  | shutsDown => exact .single .shutdown rfl rfl

/-- **One signal.** -/
theorem follows_step (p : Pipeline) (s : Signal) : Follows p (p.step s).1 (p.step s).2 := by
  cases turns_step p s with
  | one hturn => exact hturn.follows
  | two hturn _ _ hturn' => exact hturn.follows.trans hturn'.follows

/-- **A run of a pipeline is a run of its shard.** -/
theorem follows_run (signals : List Signal) : ∀ p : Pipeline,
    Follows p (p.run signals).1 (p.run signals).2 := by
  induction signals with
  | nil => exact fun _ => .of_shard_eq rfl rfl
  | cons s rest ih => exact fun p => (follows_step p s).trans (ih _)

/-! ## Pipelines from their start -/

/-- **A pipeline that has not been run.** Its reader may be done, and it may be told to shut
down. -/
structure Fresh (p : Pipeline) : Prop where
  /-- The consumer has done nothing. -/
  consumer_eq : p.consumer = {}
  /-- The channel is empty. -/
  channel_eq : p.channel = []
  /-- No position is being offered. -/
  offer_eq : p.offer = none

/-- A pipeline that has not been run has the shard of its keeper. -/
theorem Fresh.exists_events (h : p.Fresh) :
    ∃ events, p.shard = (Shard.start p.keeper).after events ∧
      (Shard.start p.keeper).stored events = [] := by
  have hshard : p.shard = { Shard.start p.keeper with
      closed := p.reader.phase == .done, shutDown := p.shutDown } := by
    simp [shard, Shard.start, h.consumer_eq, h.channel_eq, h.offer_eq]
  rw [hshard]
  cases p.reader.phase == .done <;> cases p.shutDown
  · exact ⟨[], rfl, rfl⟩
  · exact ⟨[.shutdown], rfl, rfl⟩
  · exact ⟨[.closed], rfl, rfl⟩
  · exact ⟨[.closed, .shutdown], rfl, rfl⟩

/-- **A run of a pipeline has an account**: it is a run of a shard, and what is stored in it
is what its consumer counts, with the position of a record in flight at most. -/
theorem Fresh.accounted (h : p.Fresh) (signals : List Signal) :
    ∃ events a, Shard.Accounted p.keeper events a ∧
      (p.run signals).1.shard = (Shard.start p.keeper).after events ∧
      (p.run signals).2.filterMap Effect.stored?
        = Shard.counted a.past ++ (p.run signals).1.shard.unheard := by
  obtain ⟨xs, hshard, hxs⟩ := h.exists_events
  obtain ⟨ys, hrun, hys⟩ := follows_run signals p
  have hafter : (p.run signals).1.shard = (Shard.start p.keeper).after (xs ++ ys) := by
    rw [hrun, hshard, Shard.after_append]
  have hstored : (p.run signals).2.filterMap Effect.stored?
      = (Shard.start p.keeper).stored (xs ++ ys) := by
    rw [hys, hshard, Shard.stored_append, hxs, List.nil_append]
  obtain ⟨a, hat, htrace⟩ := (Shard.at_start p.keeper).after (xs ++ ys)
  refine ⟨xs ++ ys, a, hat.accounted htrace.symm, hafter, ?_⟩
  rw [hstored, hafter]
  exact hat.stored_eq

end Pipeline

end Courier
