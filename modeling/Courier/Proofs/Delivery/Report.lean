import Courier.Proofs.Delivery.Rounds
/-!
# The report of a delivery

A delivery that ends with a report accounts for its batch: every event has one
outcome, in the order of the batch, and each of them is final. That it is so
does not depend on what the sink answers, since an event leaves the ledger's
requests only by being settled, and a report is made when nothing is left to
request.

The number of attempts in the report is the number of requests that were made,
and the last request has settled something: it was not empty, and nothing of
it was left open.
-/

namespace Courier

/-- **A report that accounts for a batch**, made by a number of requests. -/
structure Report.Accounts (batch : List Event) (requests : Nat) (r : Report) : Prop where
  /-- There is one outcome for each event, in the order of the batch. -/
  ids : r.outcomes.map (·.id) = batch.map (·.id)
  /-- Each of them is final. -/
  final : ∀ o ∈ r.outcomes, o.isFinal = true
  /-- Counted together, what is delivered and what is dropped is the batch. -/
  counted : r.delivered + r.dropped = batch.length
  /-- Every outcome belongs to an attempt that was made. -/
  made : ∀ o ∈ r.outcomes, 1 ≤ o.attempt ∧ o.attempt ≤ r.attempts
  /-- The last attempt has settled something. -/
  last : ∃ o ∈ r.outcomes, o.attempt = r.attempts
  /-- All attempts but the first are retries. -/
  retried : r.attempts = r.retries + 1
  /-- The attempts are the requests. -/
  requested : r.attempts = requests

namespace Delivery

variable {σ : Type}

/-- **A status settles its event exactly when it may not be tried again.** -/
theorem Standing.final?_ofStatus (classify : ItemStatus → ItemClass) (attempt : Nat)
    (e : Event) (s : ItemStatus) (o : Outcome) :
    (⟨e, .ofStatus classify attempt e.id s⟩ : Entry).final? = some o
      ↔ classify s ≠ .retryable ∧ o = .classified e.id s (classify s) attempt := by
  unfold Standing.ofStatus
  cases classify s <;> simp [Entry.final?, eq_comm]

theorem Standing.final?_unheard (attempt : Nat) (e : Event) (message : String) :
    (⟨e, .unheard attempt e.id message⟩ : Entry).final? = none := rfl

namespace Ledger

/-- **An outstanding event is settled by an answer exactly when a status decides it
that may not be tried again**, and the outcome says so. -/
theorem final?_absorbed (l : Ledger) (classify : ItemStatus → ItemClass) (a : Answer)
    {e : Entry} (ho : e.isOutstanding = true) {o : Outcome} :
    (l.absorbed classify a e).final? = some o
      ↔ ∃ statuses s, a = .ok statuses ∧ deciding l.request e.event.id 0 statuses = some s ∧
          classify s ≠ .retryable ∧
          o = .classified e.event.id s (classify s) l.attempt := by
  have hopen : e.final? ≠ some o := by
    rw [Entry.isOutstanding_eq] at ho
    rw [Option.isNone_iff_eq_none.mp ho]
    exact fun h => by cases h
  cases a with
  | ok statuses =>
    show (e.answered classify l.attempt l.request statuses).final? = some o ↔ _
    unfold Entry.answered
    rw [if_pos ho]
    cases hd : deciding l.request e.event.id 0 statuses with
    | some s =>
      refine (Standing.final?_ofStatus classify l.attempt e.event s o).trans
        ⟨fun h => ⟨statuses, s, rfl, hd, h⟩, ?_⟩
      rintro ⟨_, s', h, hd', hs⟩
      obtain rfl := Except.ok.inj h
      obtain rfl := Option.some.inj (hd.symm.trans hd')
      exact hs
    | none =>
      constructor
      · intro h
        simp only at h
        split at h
        · rw [Standing.final?_unheard] at h
          cases h
        · exact absurd h hopen
      · rintro ⟨_, s, h, hd', -⟩
        obtain rfl := Except.ok.inj h
        rw [hd] at hd'
        cases hd'
  | error f =>
    show (e.unanswered l.attempt l.request f.message).final? = some o ↔ _
    unfold Entry.unanswered
    constructor
    · intro h
      split at h
      · rw [Standing.final?_unheard] at h
        cases h
      · exact absurd h hopen
    · rintro ⟨_, _, h, -⟩
      cases h

/-- **The answer that resolves a batch settles something in its attempt.** -/
theorem exists_last {l : Ledger} {classify : ItemStatus → ItemClass} {a : Answer}
    (hne : l.request ≠ []) (hr : (l.absorb classify a).isResolved = true) (retries : Nat) :
    ∃ o ∈ ((l.absorb classify a).report retries).outcomes, o.attempt = l.attempt := by
  obtain ⟨x, hx⟩ := List.exists_mem_of_ne_nil _ hne
  obtain ⟨e, he, -⟩ := List.mem_map.mp hx
  obtain ⟨he, ho⟩ := List.mem_filter.mp he
  have hin : l.absorbed classify a e ∈ (l.absorb classify a).entries := by
    rw [absorb_eq]
    exact List.mem_map_of_mem he
  obtain ⟨o, hfin⟩ := exists_final? hr hin
  obtain ⟨_, _, -, -, -, rfl⟩ := (final?_absorbed l classify a ho).mp hfin
  exact ⟨_, mem_report.mpr ⟨_, hin, hfin⟩, rfl⟩

end Ledger

/-! ## The last round -/

variable {batch : List Event} {k : Nat} {m m' : Machine}

/-- **The report of a resolved delivery accounts for its batch.** -/
theorem Machine.Underway.report (h : m.Underway batch k) {a : Answer}
    (hr : (m.ledger.absorb m.classify a).isResolved = true) :
    ((m.ledger.absorb m.classify a).report (m.ledger.attempt - 1)).Accounts batch k := by
  have hone : 1 ≤ m.ledger.attempt := by rw [h.ledger_attempt]; exact h.one_le
  have hco := h.coherent.absorb m.classify a hone
  have hatt : (m.ledger.absorb m.classify a).attempt = k := by
    rw [Ledger.attempt_absorb, h.ledger_attempt]
  have hids := Ledger.report_ids hco hr (m.ledger.attempt - 1)
  rw [Ledger.batch_absorb, h.batch_eq] at hids
  refine ⟨hids, fun o ho => (Ledger.report_isFinal hco ho).1, ?_,
    fun o ho => (Ledger.report_isFinal hco ho).2, ?_, ?_, hatt⟩
  · have hlen := congrArg List.length hids
    rw [List.length_map, List.length_map] at hlen
    exact (countP_success_add_isDropped
      fun o ho => (Ledger.report_isFinal hco ho).1).trans hlen
  · obtain ⟨o, ho, hoa⟩ := Ledger.exists_last h.request_ne_nil hr (m.ledger.attempt - 1)
    exact ⟨o, ho, hoa.trans (h.ledger_attempt.trans hatt.symm)⟩
  · show (m.ledger.absorb m.classify a).attempt = m.ledger.attempt - 1 + 1
    rw [Ledger.attempt_absorb]
    omega

/-- **Whatever rounds a delivery goes through, its report accounts for its
batch**, and it has made no more requests than it has attempts. -/
theorem Rounds.report {rounds : List (List Event × Answer)} (hrs : Rounds m rounds m') :
    ∀ {k}, m.Underway batch k → ∀ {r}, m'.result? = some (.ok r) →
      r.Accounts batch (k - 1 + rounds.length) ∧
        k - 1 + rounds.length ≤ m.retry.strategy.maxAttempts := by
  induction hrs with
  | none _ hres =>
    intro k _ r hok
    rw [hres] at hok
    cases hok
  | @one m a =>
    intro k hu r hok
    have hk : k - 1 + 1 = k := Nat.sub_add_cancel hu.one_le
    obtain ⟨-, hr, ht⟩ | ⟨f, -, -, ht⟩ | ⟨f, delay, next, -, -, ht⟩ | ⟨f, reason, -, -, ht⟩ :=
      Machine.take_cases m a <;> rw [ht] at hok
    · obtain rfl := Except.ok.inj (Option.some.inj hok)
      rw [List.length_singleton, hk]
      exact ⟨hu.report hr, hu.le_max⟩
    all_goals cases hok
  | @more m m' a delay next rounds hw _ ih =>
    intro k hu r hok
    obtain ⟨-, hu'⟩ := hu.next hw
    obtain ⟨-, -, -, ht⟩ := Machine.take_waiting hw
    obtain ⟨hacc, hle⟩ := ih hu' hok
    rw [ht] at hle
    have hk : k + 1 - 1 + rounds.length = k - 1 + (rounds.length + 1) := by
      have := hu.one_le
      omega
    rw [List.length_cons, ← hk]
    exact ⟨hacc, hle⟩

/-! ## From beginning to end -/

section Deliver

variable (sink : String) (classify : ItemStatus → ItemClass) (strategy : Retry.Strategy)
variable (exchange : σ → List Event → σ × Answer) (s : σ)

theorem deliver_nil :
    (Machine.deliver sink classify strategy exchange s []).machine.result? = some (.ok .empty) ∧
      (Machine.deliver sink classify strategy exchange s []).requests = [] :=
  ⟨rfl, rfl⟩

/-- **A batch in which an identity is repeated fails without a request**, and the
failure names an identity that is. -/
theorem deliver_repeated (h : ¬ (batch.map (·.id)).Nodup) :
    ∃ id, firstRepeated [] (batch.map (·.id)) = some id ∧
      (Machine.deliver sink classify strategy exchange s batch).machine.result?
        = some (.error (.client sink s!"duplicate event id '{id.text}' in batch")) ∧
      (Machine.deliver sink classify strategy exchange s batch).requests = [] := by
  obtain ⟨id, hid, hstart⟩ := Ledger.start_of_not_nodup sink h
  have hne : batch ≠ [] := by
    rintro rfl
    exact h List.nodup_nil
  have hm : Machine.start sink classify strategy batch
      = ⟨classify, ⟨sink, [], 1⟩, strategy.session,
          .ended (.error (.client sink s!"duplicate event id '{id.text}' in batch"))⟩ := by
    unfold Machine.start
    rw [if_neg (by simpa using hne), hstart]
  unfold Machine.deliver
  rw [hm, Machine.drive_ended exchange rfl]
  exact ⟨id, hid, rfl, rfl⟩

/-- **A delivery of a batch comes to its end.** -/
theorem deliver_ends :
    ∃ r, (Machine.deliver sink classify strategy exchange s batch).machine.result? = some r := by
  by_cases hne : batch = []
  · rw [hne]
    exact ⟨_, (deliver_nil sink classify strategy exchange s).1⟩
  by_cases hn : (batch.map (·.id)).Nodup
  · obtain ⟨hm, hu⟩ := Machine.start_underway sink classify strategy hne hn
    obtain ⟨r, hr⟩ := Machine.drive_ends exchange (strategy.maxAttempts - 1) 1
      (Machine.start sink classify strategy batch).phasesLeft _ s hu
      (by rw [hm]; show strategy.maxAttempts ≤ _; omega)
      (by
        rw [hm]
        show _ ≤ 3 * (strategy.maxAttempts - 1 + 1) + 1
        omega)
    refine ⟨r, ?_⟩
    unfold Machine.deliver Machine.result?
    rw [hr]
  · obtain ⟨id, -, hres, -⟩ := deliver_repeated sink classify strategy exchange s hn
    exact ⟨_, hres⟩

end Deliver

/-- **A delivery accounts for its batch or says why it does not.** It comes to its
end whatever answers its requests. A batch without events makes an empty report
and no request; one in which an identity is repeated is the client's failure and
makes no request; and whenever another batch is reported, the report accounts
for it, with as many attempts as there were requests, and no more of them than
the strategy has. -/
theorem deliver_accounts (sink : String) (classify : ItemStatus → ItemClass)
    (policy : Retry.Policy) (maxAttempts : Nat) (kinds : List Failure.Kind)
    (exchange : σ → List Event → σ × Answer) (s : σ) (batch : List Event) :
    let course := Machine.deliver sink classify (.new policy maxAttempts kinds) exchange s batch
    (∃ r, course.machine.result? = some r) ∧
      (batch = [] →
        course.machine.result? = some (.ok .empty) ∧ course.requests = []) ∧
      (¬ (batch.map (·.id)).Nodup →
        ∃ id, firstRepeated [] (batch.map (·.id)) = some id ∧
          course.machine.result?
            = some (.error (.client sink s!"duplicate event id '{id.text}' in batch")) ∧
          course.requests = []) ∧
      (batch ≠ [] → ∀ r, course.machine.result? = some (.ok r) →
        r.Accounts batch course.requests.length ∧
          course.requests.length ≤ max 1 maxAttempts) := by
  intro course
  refine ⟨deliver_ends sink classify _ exchange s, ?_, ?_, ?_⟩
  · rintro rfl
    exact deliver_nil sink classify _ exchange s
  · exact deliver_repeated sink classify _ exchange s
  · intro hne r hok
    by_cases hn : (batch.map (·.id)).Nodup
    · obtain ⟨hm, hu⟩ := Machine.start_underway sink classify
        (.new policy maxAttempts kinds) hne hn
      obtain ⟨rounds, hrs, hreq, -⟩ := Machine.drive_rounds exchange
        (Machine.start sink classify (.new policy maxAttempts kinds) batch).phasesLeft _ s
        hu.ready
      obtain ⟨hacc, hle⟩ := hrs.report hu hok
      -- there is a request for each round, and the first attempt is number one
      have hlen : 1 - 1 + rounds.length = course.requests.length := by
        rw [show course.requests = _ from hreq, List.length_map]
        omega
      rw [hlen] at hacc hle
      refine ⟨hacc, Nat.le_trans hle ?_⟩
      rw [hm]
      show max 1 (min maxAttempts Retry.lastAttempt) ≤ max 1 maxAttempts
      omega
    · obtain ⟨id, -, hres, -⟩ := deliver_repeated sink classify
        (.new policy maxAttempts kinds) exchange s hn
      cases (show some (Except.error _) = some (Except.ok r) from hres.symm.trans hok)

/-- Of two events one is refused at once and the other delivered when it is sent
again: the report accounts for both. -/
theorem deliver_accounts_retried :
    let a : Event := ⟨⟨"a"⟩, [], none⟩
    let b : Event := ⟨⟨"b"⟩, [], none⟩
    let exchange (answers : List Answer) (_ : List Event) : List Answer × Answer :=
      (answers.tail, answers.headD (.ok []))
    let course := Machine.deliver "s" ItemStatus.classify (.new (.fixed 0) 3 []) exchange
      [.ok [⟨none, 429, none⟩, ⟨none, 400, some "bad"⟩], .ok [⟨some ⟨"a"⟩, 201, none⟩]] [a, b]
    let report : Report :=
      ⟨[⟨⟨"a"⟩, true, 201, false, 2, none⟩, ⟨⟨"b"⟩, false, 400, false, 1, some "bad"⟩], 2, 1⟩
    [a, b] ≠ [] ∧ course.machine.result? = some (.ok report) ∧
      report.Accounts [a, b] course.requests.length := by
  intro a b exchange course report
  have hrep : course.machine.result?.bind (·.toOption) = some report := by decide
  have hok : course.machine.result? = some (.ok report) := by
    obtain ⟨r, hr, hrep⟩ := Option.bind_eq_some_iff.mp hrep
    cases r with
    | error f => cases hrep
    | ok r => rw [hr, show r = report from Option.some.inj hrep]
  exact ⟨by decide, hok, ((deliver_accounts "s" ItemStatus.classify (.fixed 0) 3 [] exchange _
    [a, b]).2.2.2 (by decide) report hok).1⟩

end Delivery

end Courier
