import Mathlib.Data.List.Nodup
import Courier.Proofs.Delivery.Narrowing
/-!
# What is known of a batch that is given up

A delivery that is given up says of every event how it stands. An event that
was settled on the way has its final outcome, with the attempt that settled it;
every other one has the outcome of the last attempt, and none is left from an
attempt before it. That is because an answer says something new of every event
of its request, if only that it got no status (`Ledger.pending_absorbed`), and
the request is all that is outstanding.

So the failure that what is left amounts to can be read off the outcomes
(`failureOf`), though the ledger works it out from entries some of which might
have no last answer.

A delivery is given up in its last round, by the verdict on the failure of that
round (`Rounds.last`). A failure that a sink hands over and that does not pass
ends a delivery without a verdict, and is not of this kind, whatever it says.
-/

namespace Courier.Delivery

variable {σ : Type}

/-! ## What an answer leaves -/

/-- **The failure that outcomes left open amount to**: when all of them were
throttled it is that; when all were throttled or the sink was not able to
answer, it is the latter, with the greatest of its codes; in every other case it
is a partial failure. -/
def failureOf (sink : String) (attempt : Nat) (left : List Outcome) : Failure :=
  let codes := left.map (·.status)
  if codes.all (· = 429) then
    .throttled sink s!"{left.length} item(s) throttled on attempt {attempt}"
  else if codes.all fun c => c = 429 || Ledger.isServerCode c then
    .serverBusy sink ((codes.filter Ledger.isServerCode).foldl max 0)
      s!"{left.length} item(s) failed on attempt {attempt}"
  else .partialFailure sink left.length attempt

namespace Ledger

variable {l : Ledger} {classify : ItemStatus → ItemClass} {a : Answer} {e : Entry}

/-- **An event that an answer leaves open has an outcome of that answer**, for it
was in the request: a status that is about it, or that there was none. -/
theorem pending_absorbed (he : e ∈ l.entries)
    (ho : (l.absorbed classify a e).isOutstanding = true) :
    ∃ o, (l.absorbed classify a e).pending? = some o ∧ o.attempt = l.attempt := by
  rw [isOutstanding_absorbed classify a he, Bool.and_eq_true] at ho
  have hin := mem_request_ids he ho.1
  -- no outcome from before is kept: the event is in the request, whatever the answer says
  cases a with
  | error f =>
    refine ⟨.missing e.event.id l.attempt f.message, ?_, rfl⟩
    show (e.unanswered l.attempt l.request f.message).pending? = _
    unfold Entry.unanswered
    rw [if_pos ⟨ho.1, hin⟩]
    rfl
  | ok statuses =>
    show ∃ o, (e.answered classify l.attempt l.request statuses).pending? = some o ∧ _
    unfold Entry.answered
    rw [if_pos ho.1]
    cases hd : deciding l.request e.event.id 0 statuses with
    | some s =>
      rw [leavesOpen_of_deciding hd] at ho
      have hc := of_decide_eq_true ho.2
      refine ⟨.classified e.event.id s .retryable l.attempt, ?_, rfl⟩
      show Entry.pending? { e with standing := .ofStatus classify l.attempt e.event.id s } = _
      unfold Standing.ofStatus
      rw [hc]
      rfl
    | none =>
      refine ⟨.missing e.event.id l.attempt "no status in response", ?_, rfl⟩
      show Entry.pending? (if e.event.id ∈ l.request.map (·.id) then _ else e) = _
      rw [if_pos hin]
      rfl

/-- **A ledger that is current**: all that is outstanding has an outcome of the
attempt under way. -/
def Current (l : Ledger) : Prop :=
  ∀ e ∈ l.entries, e.isOutstanding = true → ∃ o, e.pending? = some o ∧ o.attempt = l.attempt

/-- **The answer to its request makes a ledger current.** -/
theorem current_absorb (l : Ledger) (classify : ItemStatus → ItemClass) (a : Answer) :
    (l.absorb classify a).Current := by
  intro e' he' ho
  rw [absorb_eq] at he'
  obtain ⟨e, he, rfl⟩ := List.mem_map.mp he'
  rw [attempt_absorb]
  exact pending_absorbed he ho

/-- **Something is known of every event** of a current ledger. -/
theorem Current.exists_known (h : l.Current) (he : e ∈ l.entries) :
    ∃ o, e.known? = some o ∧ (e.isOutstanding = true →
      e.pending? = some o ∧ o.attempt = l.attempt) := by
  cases hf : e.final? with
  | some o =>
    refine ⟨o, Entry.known?_of_final? hf, fun ho => ?_⟩
    rw [Entry.isOutstanding_eq, hf] at ho
    cases ho
  | none =>
    have ho : e.isOutstanding = true := by
      rw [Entry.isOutstanding_eq, hf]
      rfl
    obtain ⟨o, hp, hattempt⟩ := h e he ho
    refine ⟨o, ?_, fun _ => ⟨hp, hattempt⟩⟩
    rw [Entry.known?_eq, hf, hp]
    rfl

/-- **What is known of a current ledger is one outcome for each event**, in the
order of the batch. -/
theorem Current.diagnostics_ids (h : l.Current) (hl : l.Coherent) :
    l.diagnostics.map (·.id) = l.batch.map (·.id) := by
  unfold diagnostics batch
  rw [List.map_map]
  refine map_filterMap_of_some _ _ _ _ fun e he => ?_
  obtain ⟨o, ho, -⟩ := h.exists_known he
  exact ⟨o, ho, (hl e he).about o ho⟩

/-- What is outstanding is known of entry by entry. -/
theorem Current.pending (h : l.Current) :
    l.entries.filterMap (·.pending?)
      = (l.entries.filter (·.isOutstanding)).filterMap (·.known?) := by
  rw [List.filterMap_filter]
  refine List.filterMap_congr fun e he => ?_
  cases ho : e.isOutstanding with
  | true =>
    obtain ⟨o, hk, hp⟩ := h.exists_known he
    rw [if_pos rfl, hk, (hp ho).1]
  | false =>
    rw [if_neg Bool.false_ne_true]
    rw [← Bool.not_eq_true] at ho
    exact Option.eq_none_iff_forall_ne_some.mpr fun o hp => ho (Entry.isOutstanding_of_pending? hp)

/-- **What is not final of that is what is outstanding.** -/
theorem Current.diagnostics_filter (h : l.Current) (hl : l.Coherent) :
    (l.diagnostics.filter fun o => !o.isFinal) = l.entries.filterMap (·.pending?) := by
  unfold diagnostics
  rw [List.filter_filterMap]
  refine List.filterMap_congr fun e he => ?_
  obtain ⟨o, hk, hp⟩ := h.exists_known he
  rw [hk]
  cases ho : e.isOutstanding with
  | true =>
    obtain ⟨hp, -⟩ := hp ho
    obtain ⟨hs, hr⟩ := (hl e he).pending o hp
    rw [hp]
    simp [Option.filter, Outcome.isFinal, Outcome.isDropped, hs, hr]
  | false =>
    rw [Entry.isOutstanding_eq, Option.isNone_eq_false_iff] at ho
    obtain ⟨o', hf⟩ := Option.isSome_iff_exists.mp ho
    obtain rfl := Option.some.inj (hk.symm.trans (Entry.known?_of_final? hf))
    have hnone : e.pending? = none := by
      refine Option.eq_none_iff_forall_ne_some.mpr fun o'' hp' => ?_
      have hopen := Entry.isOutstanding_of_pending? hp'
      rw [Entry.isOutstanding_eq, hf] at hopen
      cases hopen
    rw [hnone]
    simp [Option.filter, (hl e he).final o hf]

/-- **The failure of a current ledger that is not resolved can be read off what is
known of it.** -/
theorem Current.failure_eq (h : l.Current) (hl : l.Coherent) (hr : l.isResolved = false) :
    l.failure = failureOf l.sink l.attempt (l.diagnostics.filter fun o => !o.isFinal) := by
  have hleft := h.diagnostics_filter hl
  have hcodes : l.pendingCodes
      = (l.diagnostics.filter fun o => !o.isFinal).map (·.status) := by
    rw [hleft]
    rfl
  have hcount : l.outstanding = (l.diagnostics.filter fun o => !o.isFinal).length := by
    have hlen := congrArg List.length (map_filterMap_of_some (l.entries.filter (·.isOutstanding))
      (·.known?) (fun _ => ()) (fun _ => ()) fun e he => by
        obtain ⟨o, ho, -⟩ := h.exists_known (List.mem_filter.mp he).1
        exact ⟨o, ho, rfl⟩)
    rw [List.length_map, List.length_map, ← h.pending, ← hleft] at hlen
    rw [hlen]
    exact List.countP_eq_length_filter
  have hpos : l.outstanding ≠ 0 := by simpa [isResolved] using hr
  unfold failure failureOf
  rw [hcodes, hcount]
  rw [hcount] at hpos
  rw [if_neg]
  simpa [List.length_map] using hpos

/-- **A ledger that is not resolved has an event outstanding.** -/
theorem exists_outstanding (hr : l.request ≠ []) :
    ∃ e ∈ l.entries, e.isOutstanding = true := by
  obtain ⟨x, hx⟩ := List.exists_mem_of_ne_nil _ hr
  obtain ⟨e, he, -⟩ := List.mem_map.mp hx
  exact ⟨e, List.mem_filter.mp he⟩

end Ledger

/-! ## The rounds of a delivery -/

/-- **A status settles an event in a round**: it decides the event, which is in the
request of the round, and it may not be tried again. -/
def SettledIn (classify : ItemStatus → ItemClass) (requests : List (List Event))
    (answers : List Answer) (j : Nat) (x : Event) (s : ItemStatus) : Prop :=
  ∃ r statuses, requests[j]? = some r ∧ answers[j]? = some (.ok statuses) ∧ x ∈ r ∧
    deciding r x.id 0 statuses = some s ∧ classify s ≠ .retryable

variable {batch : List Event} {m m' : Machine} {rounds : List (List Event × Answer)}

theorem SettledIn.cons {classify : ItemStatus → ItemClass} {requests : List (List Event)}
    {answers : List Answer} {j : Nat} {x : Event} {s : ItemStatus}
    (h : SettledIn classify requests answers j x s) (r : List Event) (a : Answer) :
    SettledIn classify (r :: requests) (a :: answers) (j + 1) x s := h

/-- **A delivery that has ended has done so in its last round.** -/
theorem Rounds.last (hrs : Rounds m rounds m') :
    ∀ {k : Nat}, m.Underway batch k → ∀ {r}, m'.result? = some r →
      ∃ (m₁ : Machine) (a : Answer), m₁.Underway batch (k - 1 + rounds.length) ∧ m₁.classify = m.classify ∧
        m₁.retry.strategy = m.retry.strategy ∧ m₁.ledger.sink = m.ledger.sink ∧
        (rounds.map (·.2)).getLast? = some a ∧
        m' = (m₁.take m₁.ledger.request a).1 := by
  induction hrs with
  | none _ hno =>
    intro k _ r hr
    cases hno.symm.trans hr
  | @one m a =>
    intro k hu r _
    refine ⟨m, a, ?_, rfl, rfl, rfl, rfl, rfl⟩
    rw [List.length_singleton, Nat.sub_add_cancel hu.one_le]
    exact hu
  | @more m m' a delay next rounds hw hrs ih =>
    intro k hu r hr
    obtain ⟨-, hu'⟩ := hu.next hw
    obtain ⟨-, -, -, ht⟩ := Machine.take_waiting hw
    obtain ⟨m₁, a₁, hu₁, hcl, hst, hsink, hlast, rfl⟩ := ih hu' hr
    rw [ht] at hcl hst hsink
    refine ⟨m₁, a₁, ?_, hcl, hst, hsink.trans (Ledger.sink_absorb m.ledger m.classify a), ?_, rfl⟩
    · have := hu.one_le
      rw [List.length_cons, show k - 1 + (rounds.length + 1) = k + 1 - 1 + rounds.length by omega]
      exact hu₁
    · rw [List.map_cons, List.getLast?_cons, hlast]
      rfl

/-- **What is settled after an answer** was settled before it, or a status of the
answer has settled it. -/
theorem Ledger.settled_absorb {l : Ledger} {classify : ItemStatus → ItemClass} {a : Answer}
    {e : Entry} {o : Outcome} (he : e ∈ (l.absorb classify a).entries)
    (hf : e.final? = some o) :
    e ∈ l.entries ∨ ∃ s, SettledIn classify [l.request] [a] 0 e.event s := by
  rw [absorb_eq] at he
  obtain ⟨e, hin, rfl⟩ := List.mem_map.mp he
  cases ho : e.isOutstanding with
  | false =>
    rw [absorbed_of_settled l classify a ho]
    exact .inl hin
  | true =>
    obtain ⟨statuses, s, rfl, hd, hc, -⟩ := (final?_absorbed l classify a ho).mp hf
    rw [absorbed_event]
    exact .inr ⟨s, l.request, statuses, rfl, rfl,
      List.mem_map_of_mem (List.mem_filter.mpr ⟨hin, ho⟩), hd, hc⟩

/-- **What is settled after rounds** was settled before them, or in one of them. -/
theorem Rounds.settled_by (hrs : Rounds m rounds m') {e : Entry} {o : Outcome}
    (hf : e.final? = some o) : e ∈ m'.ledger.entries →
      e ∈ m.ledger.entries ∨
        ∃ j s, SettledIn m.classify (rounds.map (·.1)) (rounds.map (·.2)) j e.event s := by
  induction hrs with
  | none h _ =>
    intro he
    rw [h] at he
    exact .inl he
  | @one m a =>
    intro he
    obtain h | ⟨f, -, h⟩ := m.ledger_take a <;> rw [h] at he
    · exact (Ledger.settled_absorb he hf).imp_right fun ⟨s, hs⟩ => ⟨0, s, hs⟩
    · exact .inl he
  | @more m m' a delay next rounds hw hrs ih =>
    intro he
    obtain he | ⟨j, s, hs⟩ := ih he
    · obtain ⟨-, -, -, ht⟩ := Machine.take_waiting hw
      rw [ht] at he
      refine (Ledger.settled_absorb he hf).imp_right ?_
      rintro ⟨s, r, statuses, hr, ha, hin⟩
      cases hr
      cases ha
      exact ⟨0, s, m.ledger.request, statuses, rfl, rfl, hin⟩
    · rw [Machine.classify_resumed hw] at hs
      exact .inr ⟨j + 1, s, hs.cons _ _⟩

/-! ## A batch that is given up -/

/-- **Outcomes that are complete and current**, of a delivery that was given up with
them. -/
structure Diagnosed (sink : String) (classify : ItemStatus → ItemClass) (batch : List Event)
    (requests : List (List Event)) (answers : List Answer)
    (attempts : Nat) (outcomes : List Outcome) (cause : Failure) : Prop where
  /-- The attempts are the requests. -/
  requested : attempts = requests.length
  /-- There is one outcome for each event, in the order of the batch. -/
  ids : outcomes.map (·.id) = batch.map (·.id)
  /-- An event that was settled has the outcome of the status that settled it. -/
  settled : ∀ j x s, SettledIn classify requests answers j x s →
    .classified x.id s (classify s) (j + 1) ∈ outcomes
  /-- Every other event has one of the last attempt, and may be sent again. -/
  current : ∀ x ∈ batch, (∀ j s, ¬ SettledIn classify requests answers j x s) →
    ∃ o ∈ outcomes, o.id = x.id ∧ o.success = false ∧ o.retryable = true ∧ o.attempt = attempts
  /-- There is another event. -/
  left : ∃ x ∈ batch, ∀ j s, ¬ SettledIn classify requests answers j x s
  /-- The cause is the failure of the last request, or what its answer has left. -/
  caused : answers.getLast? = some (.error cause) ∧ cause.kind.isTransient = true ∨
    (∃ statuses, answers.getLast? = some (.ok statuses)) ∧
      cause = failureOf sink attempts (outcomes.filter fun o => !o.isFinal)

/-- **What is known after a round that fails is complete and current.** -/
theorem Machine.Underway.diagnosed {k : Nat} {f : Failure} {a : Answer}
    {requests : List (List Event)} {answers : List Answer}
    (hu : m.Underway batch k) (hn : (batch.map (·.id)).Nodup) (hf : m.Fails a f)
    (hlen : k = requests.length) (hlast : answers.getLast? = some a)
    (hsettles : ∀ j x s, SettledIn m.classify requests answers j x s →
      ⟨x, .settled (.classified x.id s (m.classify s) (j + 1))⟩
        ∈ (m.ledger.absorb m.classify a).entries)
    (hsettled : ∀ e ∈ (m.ledger.absorb m.classify a).entries, ∀ o, e.final? = some o →
      ∃ j s, SettledIn m.classify requests answers j e.event s) :
    Diagnosed m.ledger.sink m.classify batch requests answers k
      (m.ledger.absorb m.classify a).diagnostics f := by
  have hco := hu.coherent.absorb m.classify a (by rw [hu.ledger_attempt]; exact hu.one_le)
  have hcur := m.ledger.current_absorb m.classify a
  have hbatch : (m.ledger.absorb m.classify a).batch = batch := by
    rw [Ledger.batch_absorb, hu.batch_eq]
  have hattempt : (m.ledger.absorb m.classify a).attempt = k := by
    rw [Ledger.attempt_absorb, hu.ledger_attempt]
  refine ⟨hlen, ?_, ?_, ?_, ?_, ?_⟩
  · rw [hcur.diagnostics_ids hco, hbatch]
  · intro j x s hs
    exact List.mem_filterMap.mpr ⟨_, hsettles j x s hs, rfl⟩
  · intro x hx hno
    rw [← hbatch] at hx
    obtain ⟨e, he, rfl⟩ := List.mem_map.mp hx
    have hopen : e.isOutstanding = true := by
      rw [Entry.isOutstanding_eq, Option.isNone_iff_eq_none]
      refine Option.eq_none_iff_forall_ne_some.mpr fun o ho => ?_
      obtain ⟨j, s, hs⟩ := hsettled e he o ho
      exact hno j s hs
    obtain ⟨o, hk, hp⟩ := hcur.exists_known he
    obtain ⟨hp, ho⟩ := hp hopen
    obtain ⟨hs, hr⟩ := (hco e he).pending o hp
    exact ⟨o, List.mem_filterMap.mpr ⟨e, he, hk⟩, (hco e he).about o hk, hs, hr,
      ho.trans hattempt⟩
  · obtain ⟨e, he, hopen⟩ := Ledger.exists_outstanding (hf.request_ne_nil hu.request_ne_nil)
    refine ⟨e.event, hbatch ▸ List.mem_map_of_mem he, fun j s hs => ?_⟩
    -- the entry that a status has settled would be another one of the same identity
    have hids : ((m.ledger.absorb m.classify a).entries.map (·.event.id)).Nodup := by
      rw [← hbatch] at hn
      unfold Ledger.batch at hn
      rw [List.map_map] at hn
      exact hn
    have heq := List.inj_on_of_nodup_map hids he (hsettles j e.event s hs) rfl
    rw [heq] at hopen
    cases hopen
  · obtain ⟨rfl, ht⟩ | ⟨⟨statuses, rfl⟩, hr, rfl⟩ := hf
    · exact .inl ⟨hlast, ht⟩
    · refine .inr ⟨⟨statuses, hlast⟩, ?_⟩
      rw [hcur.failure_eq hco hr, hattempt, Ledger.sink_absorb]

/-- **A delivery that is given up has asked the strategy in its last round**, unless the
sink has handed over such a failure: the round has failed, the verdict was to stop, and
the outcomes are what is known after its answer. -/
theorem Rounds.given_up (hrs : Rounds m rounds m') (hu : m.Underway batch 1)
    {attempts : Nat} {outcomes : List Outcome} {cause : Failure}
    (hres : m'.result? = some (.error (.exhausted attempts outcomes cause)))
    (hown : .error (.exhausted attempts outcomes cause) ∉ rounds.map (·.2)) :
    ∃ (m₁ : Machine) (a : Answer), m₁.Underway batch rounds.length ∧ m₁.classify = m.classify ∧
      m₁.retry.strategy = m.retry.strategy ∧ m₁.ledger.sink = m.ledger.sink ∧
      (rounds.map (·.2)).getLast? = some a ∧ m₁.Fails a cause ∧
      m'.ledger = m₁.ledger.absorb m₁.classify a ∧ outcomes = m'.ledger.diagnostics ∧
      ∃ reason, m₁.retry.verdict cause = .terminal reason ∧ attempts = reason.attempts := by
  obtain ⟨m₁, a, hu₁, hcl, hst, hsink, hlast, rfl⟩ := hrs.last hu hres
  rw [Nat.sub_self, Nat.zero_add] at hu₁
  refine ⟨m₁, a, hu₁, hcl, hst, hsink, hlast, ?_⟩
  obtain ⟨-, -, ht⟩ | ⟨f, rfl, -, ht⟩ | ⟨f, delay, next, -, -, ht⟩ | ⟨f, reason, hf, hv, ht⟩ :=
    Machine.take_cases m₁ a <;> rw [ht] at hres ⊢
  · cases hres
  · -- the sink itself has handed over such a failure
    cases hres
    exact absurd (List.mem_of_getLast? hlast) hown
  · cases hres
  · cases hres
    exact ⟨hf, rfl, rfl, reason, hv, rfl⟩

/-- **A delivery that is given up in one of its rounds has outcomes that are complete
and current**, when it started with nothing settled. -/
theorem Rounds.diagnosed (hrs : Rounds m rounds m') (hu : m.Underway batch 1)
    (hn : (batch.map (·.id)).Nodup) (hfresh : ∀ e ∈ m.ledger.entries, e.isOutstanding = true)
    {attempts : Nat} {outcomes : List Outcome} {cause : Failure}
    (hres : m'.result? = some (.error (.exhausted attempts outcomes cause)))
    (hown : .error (.exhausted attempts outcomes cause) ∉ rounds.map (·.2)) :
    Diagnosed m.ledger.sink m.classify batch (rounds.map (·.1)) (rounds.map (·.2)) attempts
        outcomes cause ∧
      (attempts = m.retry.strategy.maxAttempts ∨
        Failure.permits m.retry.strategy.kinds cause.kind = false) := by
  obtain ⟨m₁, a, hu₁, hcl, hst, hsink, hlast, hf, hledger, rfl, reason, hv, rfl⟩ :=
    hrs.given_up hu hres hown
  obtain ⟨hattempts, hwhy⟩ := Machine.verdict_terminal hv
  rw [hu₁.retry_attempt] at hattempts hwhy
  rw [hattempts]
  constructor
  · rw [hledger, ← hsink, ← hcl]
    refine hu₁.diagnosed hn hf (List.length_map _).symm hlast ?_ ?_
    · rintro j x s ⟨r, statuses, hr, ha, hx, hd, hc⟩
      rw [hcl] at hc
      have hin := hrs.settles hu (getElem?_rounds hr ha) hx hd hc
      rw [hledger, Nat.add_comm 1 j] at hin
      rw [hcl] at hin ⊢
      exact hin
    · intro e he o ho
      rw [← hledger] at he
      rw [hcl]
      obtain he | h := hrs.settled_by ho he
      · have hopen := hfresh e he
        rw [Entry.isOutstanding_eq, ho] at hopen
        cases hopen
      · exact h
  · have hle := hu₁.le_max
    rw [hst] at hwhy hle
    exact hwhy.imp_left (Nat.le_antisymm hle)

/-- **A delivery that is given up knows how every event of its batch stands.** When
it ends because another attempt is not worth it, and not with such a failure
from the sink itself, there is one outcome for each event, final with the attempt
that settled it or else of the last attempt; the cause is the failure of that
attempt; and it was the last one that the strategy has, or the cause is of a kind
that is not worth another. -/
theorem deliver_diagnosed (sink : String) (classify : ItemStatus → ItemClass)
    (policy : Retry.Policy) (maxAttempts : UInt32) (kinds : List Failure.Kind)
    (exchange : σ → List Event → σ × Answer) (s : σ) (batch : List Event)
    {attempts : Nat} {outcomes : List Outcome} {cause : Failure} :
    let course := Machine.deliver sink classify (.new policy maxAttempts.toNat kinds) exchange s
      batch
    let answers := answersTo exchange s course.requests
    course.machine.result? = some (.error (.exhausted attempts outcomes cause)) →
    .error (.exhausted attempts outcomes cause) ∉ answers →
    Diagnosed sink classify batch course.requests answers attempts outcomes cause ∧
      (attempts = max 1 maxAttempts.toNat ∨ Failure.permits kinds cause.kind = false) := by
  intro course answers hres hown
  have hne : batch ≠ [] := by
    rintro rfl
    cases (deliver_nil sink classify _ exchange s).1.symm.trans hres
  by_cases hn : (batch.map (·.id)).Nodup
  · obtain ⟨hm, hu⟩ := Machine.start_underway sink classify
      (.new policy maxAttempts.toNat kinds) hne hn
    obtain ⟨rounds, hrs, hreq, hans⟩ := Machine.drive_rounds exchange
      (Machine.start sink classify (.new policy maxAttempts.toNat kinds) batch).phasesLeft _ s
      hu.ready
    rw [show course.requests = _ from hreq, show answers = _ from hans]
    have hfresh : ∀ e ∈ (Ledger.fresh sink batch).entries, e.isOutstanding = true := by
      intro e he
      obtain ⟨x, -, rfl⟩ := List.mem_map.mp he
      rfl
    have hd := hrs.diagnosed hu hn (by rw [hm]; exact hfresh) hres
      (by rw [← show answers = _ from hans]; exact hown)
    rw [hm] at hd
    exact hd.imp_right (Or.imp_left fun h =>
      h.trans (Machine.maxAttempts_new policy maxAttempts kinds))
  · obtain ⟨id, -, h, -⟩ := deliver_repeated sink classify
      (.new policy maxAttempts.toNat kinds) exchange s hn
    cases h.symm.trans hres

/-- What a delivery says that is given up because of a network: the attempts, the outcomes,
and what the network failed with. -/
def unreached? : Except Failure Report → Option (Nat × List Outcome × String × String)
  | .error (.exhausted attempts outcomes (.network sink message)) =>
    some (attempts, outcomes, sink, message)
  | _ => none

/-- Nothing else is said like that. -/
theorem eq_of_unreached? {r : Except Failure Report} {attempts : Nat} {outcomes : List Outcome}
    {sink message : String} (h : unreached? r = some (attempts, outcomes, sink, message)) :
    r = .error (.exhausted attempts outcomes (.network sink message)) := by
  unfold unreached? at h
  split at h
  · cases h
    rfl
  · cases h

/-- Of two events one is delivered at once; the other was throttled, and then there
was no answer to the last request, which is what is known of it. -/
theorem deliver_diagnosed_unreached :
    let a : Event := ⟨⟨"a"⟩, [], none⟩
    let b : Event := ⟨⟨"b"⟩, [], none⟩
    let reset : Failure := .network "s" "reset"
    let exchange (answers : List Answer) (_ : List Event) : List Answer × Answer :=
      (answers.tail, answers.headD (.ok []))
    let answers : List Answer :=
      [.ok [⟨some ⟨"b"⟩, 429, none⟩, ⟨some ⟨"a"⟩, 201, none⟩], .error reset]
    let outcomes : List Outcome :=
      [⟨⟨"a"⟩, true, 201, false, 1, none⟩, ⟨⟨"b"⟩, false, 0, true, 2, some reset.message⟩]
    let course := Machine.deliver "s" ItemStatus.classify (.new (.fixed 0) 2 []) exchange answers
      [a, b]
    course.machine.result? = some (.error (.exhausted 2 outcomes reset)) ∧
      .error (.exhausted 2 outcomes reset) ∉ answersTo exchange answers course.requests ∧
      Diagnosed "s" ItemStatus.classify [a, b] [[a, b], [b]] answers 2 outcomes reset := by
  intro a b reset exchange answers outcomes course
  have hreq : course.requests = [[a, b], [b]] := by decide +kernel
  have hans : answersTo exchange answers course.requests = answers := by
    rw [hreq]
    rfl
  have hknown : course.machine.result?.bind unreached? = some (2, outcomes, "s", "reset") := by
    decide +kernel
  have hres : course.machine.result? = some (.error (.exhausted 2 outcomes reset)) := by
    obtain ⟨r, hr, h⟩ := Option.bind_eq_some_iff.mp hknown
    rw [hr, eq_of_unreached? h]
  have hown : .error (.exhausted 2 outcomes reset) ∉ answersTo exchange answers
      course.requests := by
    rw [hans]
    simp [answers, reset]
  have hd := (deliver_diagnosed "s" ItemStatus.classify (.fixed 0) 2 [] exchange answers
    [a, b] hres hown).1
  exact ⟨hres, hown, hans ▸ hreq ▸ hd⟩

end Courier.Delivery
