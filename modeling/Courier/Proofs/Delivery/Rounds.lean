import Courier.Delivery.Run
import Courier.Proofs.Delivery.Coherence
/-!
# A delivery as a sequence of rounds

A delivery that is not called off goes from one request to the next: it sends
what is outstanding, takes in the answer, and either ends or waits and goes
on. `Rounds` is that sequence, with each request and its answer, and without
the phases in between. `drive_rounds` says that driving a delivery, for
however many phases, goes through rounds and nothing else, and
`deliver_ended` that a delivery driven from beginning to end has ended.

`Machine.Underway` is what holds of a delivery whenever it is about to send:
its ledger is coherent and of the batch, something in it is outstanding, and
the number of the attempt is the same in the ledger and in the course of
attempts. One round keeps it (`Underway.take_cases`), and what a round can do
is said there once.
-/

namespace Courier.Delivery

variable {σ : Type}

/-! ## One answer -/

/-- **Whether an answer leaves an event of its request open**: the status that
decides it says that it may be sent again, or there is none. A request
without an answer leaves all of its events open. -/
def leavesOpen (classify : ItemStatus → ItemClass) (request : List Event) (a : Answer)
    (e : Event) : Bool :=
  match a with
  | .ok statuses =>
    match deciding request e.id 0 statuses with
    | some s => classify s = .retryable
    | none => true
  | .error _ => true

/-- **An event that a status decides is left open exactly when the status may be
tried again.** -/
theorem leavesOpen_of_deciding {classify : ItemStatus → ItemClass} {request : List Event}
    {statuses : List ItemStatus} {e : Event} {s : ItemStatus}
    (h : deciding request e.id 0 statuses = some s) :
    leavesOpen classify request (.ok statuses) e = decide (classify s = .retryable) := by
  show (match deciding request e.id 0 statuses with
    | some s => decide (classify s = ItemClass.retryable)
    | none => true) = _
  rw [h]

/-- **An event that no status is about is left open.** -/
theorem leavesOpen_of_unheard {classify : ItemStatus → ItemClass} {request : List Event}
    {statuses : List ItemStatus} {e : Event} (h : deciding request e.id 0 statuses = none) :
    leavesOpen classify request (.ok statuses) e = true := by
  show (match deciding request e.id 0 statuses with
    | some s => decide (classify s = ItemClass.retryable)
    | none => true) = _
  rw [h]

/-- An entry that a status has decided is outstanding when it may be sent
again. -/
theorem Standing.ofStatus_isOutstanding (classify : ItemStatus → ItemClass) (attempt : Nat)
    (e : Event) (s : ItemStatus) :
    (⟨e, .ofStatus classify attempt e.id s⟩ : Entry).isOutstanding
      = decide (classify s = .retryable) := by
  unfold Standing.ofStatus
  cases classify s <;> rfl

namespace Ledger

/-- **The ledger after the answer to its request.** -/
def absorb (l : Ledger) (classify : ItemStatus → ItemClass) (a : Answer) : Ledger :=
  match a with
  | .ok statuses => (l.answer classify l.request statuses).1
  | .error f => l.unanswered l.request f

variable (l : Ledger) (classify : ItemStatus → ItemClass) (a : Answer)

/-- What an answer does to each entry of a ledger. -/
def absorbed (e : Entry) : Entry :=
  match a with
  | .ok statuses => e.answered classify l.attempt l.request statuses
  | .error f => e.unanswered l.attempt l.request f.message

/-- An answer to the request of a ledger is taken in entry by entry. -/
theorem absorb_eq :
    l.absorb classify a = { l with entries := l.entries.map (l.absorbed classify a) } := by
  cases a with
  | ok statuses => exact answer_eq l classify l.request statuses
  | error f => exact unanswered_eq l l.request f

/-- The event of an entry stays the same. -/
@[simp] theorem absorbed_event (e : Entry) : (l.absorbed classify a e).event = e.event := by
  cases a with
  | ok statuses => exact Entry.answered_event classify l.attempt l.request statuses e
  | error f => exact Entry.unanswered_event l.attempt l.request f.message e

/-- **A settled entry stays as it is.** -/
theorem absorbed_of_settled {e : Entry} (h : e.isOutstanding = false) :
    l.absorbed classify a e = e := by
  cases a with
  | ok statuses => exact Entry.answered_of_settled classify l.request statuses h
  | error f => exact Entry.unanswered_of_settled l.request f.message h

theorem mem_request_ids {l : Ledger} {e : Entry} (he : e ∈ l.entries)
    (ho : e.isOutstanding = true) : e.event.id ∈ l.request.map (·.id) :=
  List.mem_map_of_mem (List.mem_map_of_mem (List.mem_filter.mpr ⟨he, ho⟩))

/-- **An entry is outstanding after an answer exactly when it was before and the
answer leaves its event open.** -/
theorem isOutstanding_absorbed {l : Ledger} {e : Entry} (he : e ∈ l.entries) :
    (l.absorbed classify a e).isOutstanding
      = (e.isOutstanding && leavesOpen classify l.request a e.event) := by
  cases ho : e.isOutstanding with
  | false => rw [absorbed_of_settled l classify a ho, ho, Bool.false_and]
  | true =>
    have hin := mem_request_ids he ho
    rw [Bool.true_and]
    cases a with
    | ok statuses =>
      show (e.answered classify l.attempt l.request statuses).isOutstanding = _
      unfold Entry.answered
      rw [if_pos ho]
      cases hd : deciding l.request e.event.id 0 statuses with
      | some s =>
        rw [leavesOpen_of_deciding hd]
        exact Standing.ofStatus_isOutstanding classify l.attempt e.event s
      | none =>
        rw [leavesOpen_of_unheard hd]
        exact congrArg Entry.isOutstanding (if_pos hin)
    | error f =>
      show (e.unanswered l.attempt l.request f.message).isOutstanding = _
      unfold Entry.unanswered
      rw [if_pos ⟨ho, hin⟩]
      rfl

/-- **The next request is what the answer leaves open of this one**, in the same
order. -/
theorem request_absorb :
    (l.absorb classify a).request = l.request.filter (leavesOpen classify l.request a) := by
  rw [absorb_eq]
  show ((l.entries.map (l.absorbed classify a)).filter (·.isOutstanding)).map (·.event) = _
  rw [List.filter_map, List.map_map]
  have hev : (fun e : Entry => e.event) ∘ l.absorbed classify a = fun e => e.event :=
    funext fun e => absorbed_event l classify a e
  rw [hev]
  show _ = ((l.entries.filter (·.isOutstanding)).map (·.event)).filter _
  rw [List.filter_map, List.filter_filter]
  refine congrArg _ (List.filter_congr fun e he => ?_)
  exact (isOutstanding_absorbed classify a he).trans (Bool.and_comm _ _)

/-- An answer does not change the batch. -/
@[simp] theorem batch_absorb : (l.absorb classify a).batch = l.batch := by
  cases a with
  | ok statuses => exact batch_answer l classify l.request statuses
  | error f => exact batch_unanswered l l.request f

/-- It is taken in during its attempt. -/
@[simp] theorem attempt_absorb : (l.absorb classify a).attempt = l.attempt := by
  rw [absorb_eq]

/-- It is about the sink of the ledger. -/
@[simp] theorem sink_absorb : (l.absorb classify a).sink = l.sink := by
  rw [absorb_eq]

/-- It keeps a ledger coherent. -/
theorem Coherent.absorb {l : Ledger} (hl : l.Coherent) (h : 1 ≤ l.attempt) :
    (l.absorb classify a).Coherent := by
  cases a with
  | ok statuses => exact hl.answer classify l.request statuses h
  | error f => exact hl.unanswered l.request f h

/-- Something is outstanding exactly when the next request is not empty. -/
theorem isResolved_eq (l : Ledger) : l.isResolved = l.request.isEmpty := by
  unfold isResolved outstanding request
  rw [List.isEmpty_map, List.countP_eq_length_filter]
  cases l.entries.filter (·.isOutstanding) <;> rfl

theorem request_absorb_error (f : Failure) :
    (l.absorb classify (.error f)).request = l.request := by
  rw [request_absorb]
  exact List.filter_eq_self.mpr fun _ _ => rfl

/-- **A request holds events of the batch, in its order.** -/
theorem request_sublist (l : Ledger) : l.request.Sublist l.batch :=
  List.filter_sublist.map _

end Ledger

namespace Machine

/-! ## One round -/

/-- A delivery once the wait before an attempt is over. -/
def resumed (m : Machine) (next : Nat) : Machine :=
  { m with
    ledger := m.ledger.advance next
    retry := { m.retry with attempt := next }
    phase := .ready }

/-- **The failure that an answer makes**, when it does not end the delivery by
itself: that of the request, if it passes, or what is left outstanding. -/
def Fails (m : Machine) (a : Answer) (f : Failure) : Prop :=
  (a = .error f ∧ f.kind.isTransient = true) ∨
    (∃ statuses, a = .ok statuses) ∧ (m.ledger.absorb m.classify a).isResolved = false ∧
      f = (m.ledger.absorb m.classify a).failure

/-- **A strategy has the attempts that it is configured with**, and at least one. -/
theorem maxAttempts_new (policy : Retry.Policy) (maxAttempts : UInt32)
    (kinds : List Failure.Kind) :
    (Retry.Strategy.new policy maxAttempts.toNat kinds).maxAttempts = max 1 maxAttempts.toNat := by
  have hlast : maxAttempts.toNat ≤ Retry.lastAttempt := Nat.le_of_lt_succ maxAttempts.toNat_lt
  show max 1 (min maxAttempts.toNat Retry.lastAttempt) = _
  rw [Nat.min_eq_left hlast]

/-- A verdict to proceed is for the attempt after this one, and there is one. -/
theorem verdict_proceed {s : Retry.Session} {f : Failure} {delay next : Nat}
    (h : s.verdict f = .proceed delay next) :
    delay = s.timer.peek ∧ next = s.attempt + 1 ∧ s.attempt < s.strategy.maxAttempts := by
  unfold Retry.Session.verdict at h
  split at h
  · exact Retry.Verdict.noConfusion h
  · split at h
    · exact Retry.Verdict.noConfusion h
    · next hlt =>
      injection h with hd hn
      have hle := s.strategy.le_last
      have hnext : s.timer.next.attempt = min (s.attempt + 1) Retry.lastAttempt := rfl
      exact ⟨hd.symm, by omega, by omega⟩

/-- A verdict to stop is about this attempt: it was the last one, or the failure is
of a kind that is not worth another. -/
theorem verdict_terminal {s : Retry.Session} {f : Failure} {reason : Retry.Reason}
    (h : s.verdict f = .terminal reason) :
    reason.attempts = s.attempt ∧
      (s.strategy.maxAttempts ≤ s.attempt ∨
        Failure.permits s.strategy.kinds f.kind = false) := by
  unfold Retry.Session.verdict at h
  split at h
  · next hk =>
    injection h with hr
    exact ⟨by rw [← hr]; rfl, .inr (by simpa using hk)⟩
  · split at h
    · next hle =>
      injection h with hr
      exact ⟨by rw [← hr]; rfl, .inl hle⟩
    · exact Retry.Verdict.noConfusion h

/-- Statuses resolve the batch, or what they leave outstanding is put to the
strategy. -/
theorem take_ok (m : Machine) (statuses : List ItemStatus) :
    (m.take m.ledger.request (.ok statuses)).1
      = if (m.ledger.absorb m.classify (.ok statuses)).isResolved then
          { m with
            ledger := m.ledger.absorb m.classify (.ok statuses)
            phase := .ended (.ok ((m.ledger.absorb m.classify (.ok statuses)).report
              ((m.ledger.absorb m.classify (.ok statuses)).attempt - 1))) }
        else
          ({ m with ledger := m.ledger.absorb m.classify (.ok statuses) }.judge
            (m.ledger.absorb m.classify (.ok statuses)).failure).1 :=
  apply_ite Prod.fst _ _ _

/-- A request without an answer is put to the strategy when its failure may pass,
and ends the delivery when it does not. -/
theorem take_error (m : Machine) (f : Failure) :
    (m.take m.ledger.request (.error f)).1
      = if f.kind.isTransient then
          ({ m with ledger := m.ledger.absorb m.classify (.error f) }.judge f).1
        else { m with phase := .ended (.error f) } :=
  apply_ite Prod.fst _ _ _

/-- **A failure is put to the strategy.** -/
theorem take_of_fails {m : Machine} {a : Answer} {f : Failure} (h : m.Fails a f) :
    (m.take m.ledger.request a).1
      = ({ m with ledger := m.ledger.absorb m.classify a }.judge f).1 := by
  obtain ⟨rfl, ht⟩ | ⟨⟨statuses, rfl⟩, hr, rfl⟩ := h
  · rw [take_error, if_pos ht]
  · rw [take_ok, hr, if_neg Bool.false_ne_true]

/-- **What a delivery can do with the answer to its request.** It is resolved; or
the failure of the request does not pass and ends it; or a failure is put to the
strategy, and it waits for the next attempt or is given up. -/
theorem take_cases (m : Machine) (a : Answer) :
    ((∃ statuses, a = .ok statuses) ∧ (m.ledger.absorb m.classify a).isResolved = true ∧
      (m.take m.ledger.request a).1
        = { m with
            ledger := m.ledger.absorb m.classify a
            phase := .ended (.ok ((m.ledger.absorb m.classify a).report
              (m.ledger.attempt - 1))) }) ∨
    (∃ f, a = .error f ∧ f.kind.isTransient = false ∧
      (m.take m.ledger.request a).1 = { m with phase := .ended (.error f) }) ∨
    (∃ f delay next, m.Fails a f ∧ m.retry.verdict f = .proceed delay next ∧
      (m.take m.ledger.request a).1
        = { m with
            ledger := m.ledger.absorb m.classify a
            phase := .waiting delay next }) ∨
    (∃ f reason, m.Fails a f ∧ m.retry.verdict f = .terminal reason ∧
      (m.take m.ledger.request a).1
        = { m with
            ledger := m.ledger.absorb m.classify a
            phase := .ended (.error (.exhausted reason.attempts
              (m.ledger.absorb m.classify a).diagnostics f)) }) := by
  -- what the strategy makes of a failure, whether the request failed or the batch is
  -- not resolved
  have judged : ∀ f, m.Fails a f →
      (∃ f delay next, m.Fails a f ∧ m.retry.verdict f = .proceed delay next ∧
        (m.take m.ledger.request a).1
          = { m with
              ledger := m.ledger.absorb m.classify a
              phase := .waiting delay next }) ∨
      (∃ f reason, m.Fails a f ∧ m.retry.verdict f = .terminal reason ∧
        (m.take m.ledger.request a).1
          = { m with
              ledger := m.ledger.absorb m.classify a
              phase := .ended (.error (.exhausted reason.attempts
                (m.ledger.absorb m.classify a).diagnostics f)) }) := by
    intro f hf
    rw [take_of_fails hf]
    unfold judge
    cases hv : m.retry.verdict f with
    | proceed delay next =>
      exact .inl ⟨f, delay, next, hf, hv, rfl⟩
    | terminal reason =>
      exact .inr ⟨f, reason, hf, hv, rfl⟩
  cases a with
  | ok statuses =>
    cases hr : (m.ledger.absorb m.classify (.ok statuses)).isResolved with
    | true =>
      refine .inl ⟨⟨statuses, rfl⟩, rfl, ?_⟩
      rw [take_ok, if_pos hr, Ledger.attempt_absorb]
    | false => exact .inr (.inr (judged _ (.inr ⟨⟨statuses, rfl⟩, hr, rfl⟩)))
  | error f =>
    cases ht : f.kind.isTransient with
    | false =>
      refine .inr (.inl ⟨f, rfl, ht, ?_⟩)
      rw [take_error, if_neg (by rw [ht]; exact Bool.false_ne_true)]
    | true => exact .inr (.inr (judged f (.inl ⟨rfl, ht⟩)))

/-- A delivery that has taken an answer has ended, or it waits. -/
theorem take_ends_or_waits (m : Machine) (a : Answer) :
    (∃ r, (m.take m.ledger.request a).1.phase = .ended r) ∨
      ∃ delay next, (m.take m.ledger.request a).1.phase = .waiting delay next := by
  obtain ⟨-, -, ht⟩ | ⟨f, -, -, ht⟩ | ⟨f, delay, next, -, -, ht⟩ | ⟨f, reason, -, -, ht⟩ :=
    take_cases m a
  · exact .inl ⟨_, by rw [ht]⟩
  · exact .inl ⟨_, by rw [ht]⟩
  · exact .inr ⟨delay, next, by rw [ht]⟩
  · exact .inl ⟨_, by rw [ht]⟩

/-- **A delivery that waits** does so because the strategy has made of a failure that
another attempt is worth it. -/
theorem take_waiting {m : Machine} {a : Answer} {delay next : Nat}
    (hw : (m.take m.ledger.request a).1.phase = .waiting delay next) :
    ∃ f, m.Fails a f ∧ m.retry.verdict f = .proceed delay next ∧
      (m.take m.ledger.request a).1
        = { m with
            ledger := m.ledger.absorb m.classify a
            phase := .waiting delay next } := by
  obtain ⟨-, -, ht⟩ | ⟨f, -, -, ht⟩ | ⟨f, delay', next', hf, hv, ht⟩ | ⟨f, reason, -, -, ht⟩ :=
    take_cases m a <;> rw [ht] at hw ⊢
  · cases hw
  · cases hw
  · obtain ⟨rfl, rfl⟩ := Phase.waiting.inj hw
    exact ⟨f, hf, hv, rfl⟩
  · cases hw

/-- **A delivery about to make the attempt of a number.** -/
structure Underway (batch : List Event) (k : Nat) (m : Machine) : Prop where
  /-- It is about to send. -/
  ready : m.phase = .ready
  /-- Its ledger is of the batch. -/
  batch_eq : m.ledger.batch = batch
  /-- What the ledger holds is what it says it is. -/
  coherent : m.ledger.Coherent
  /-- The ledger counts the attempt. -/
  ledger_attempt : m.ledger.attempt = k
  /-- So does the course of attempts. -/
  retry_attempt : m.retry.attempt = k
  /-- Attempts are counted from one. -/
  one_le : 1 ≤ k
  /-- There is an attempt of this number. -/
  le_max : k ≤ m.retry.strategy.maxAttempts
  /-- There is something to send. -/
  request_ne_nil : m.ledger.request ≠ []

/-- **A batch of different identities is under way at its first attempt.** -/
theorem start_underway (sink : String) (classify : ItemStatus → ItemClass)
    (strategy : Retry.Strategy) {batch : List Event} (hne : batch ≠ [])
    (hn : (batch.map (·.id)).Nodup) :
    start sink classify strategy batch
        = ⟨classify, .fresh sink batch, strategy.session, .ready⟩ ∧
      Underway batch 1 (start sink classify strategy batch) := by
  have hs : start sink classify strategy batch
      = ⟨classify, .fresh sink batch, strategy.session, .ready⟩ := by
    unfold start
    rw [if_neg (by simpa using hne), Ledger.start_of_nodup sink hn]
  have hr : (Ledger.fresh sink batch).request = batch := Ledger.request_fresh sink batch
  rw [hs]
  exact ⟨rfl, rfl, Ledger.batch_fresh sink batch, Ledger.coherent_fresh sink batch, rfl, rfl,
    Nat.le_refl 1, strategy.pos, by rw [hr]; exact hne⟩

/-- What an answer that fails leaves is not resolved. -/
theorem Fails.request_ne_nil {m : Machine} {a : Answer} {f : Failure} (h : m.Fails a f)
    (hne : m.ledger.request ≠ []) : (m.ledger.absorb m.classify a).request ≠ [] := by
  obtain ⟨rfl, -⟩ | ⟨-, hr, -⟩ := h
  · rw [Ledger.request_absorb_error]
    exact hne
  · rw [Ledger.isResolved_eq] at hr
    simpa using hr

/-- **A delivery that waits after a round is under way at the next attempt once it
goes on.** -/
theorem Underway.resumed {batch : List Event} {k : Nat} {m : Machine} (h : m.Underway batch k)
    {a : Answer} {f : Failure} {delay next : Nat} (hf : m.Fails a f)
    (hv : m.retry.verdict f = .proceed delay next) :
    next = k + 1 ∧
      Underway batch (k + 1)
        (resumed
          { m with
            ledger := m.ledger.absorb m.classify a
            phase := .waiting delay next } next) := by
  obtain ⟨-, rfl, hlt⟩ := verdict_proceed hv
  have hk := h.retry_attempt
  refine ⟨by omega, rfl, ?_, ?_, ?_, ?_, Nat.le_add_left 1 k, ?_, ?_⟩
  · show ((m.ledger.absorb m.classify a).advance _).batch = batch
    rw [Ledger.batch_advance, Ledger.batch_absorb, h.batch_eq]
  · refine Ledger.Coherent.advance _
      (h.coherent.absorb m.classify a (by rw [h.ledger_attempt]; exact h.one_le)) ?_
    rw [Ledger.attempt_absorb, h.ledger_attempt, hk]
    exact Nat.le_succ k
  · show m.retry.attempt + 1 = k + 1
    rw [hk]
  · show m.retry.attempt + 1 = k + 1
    rw [hk]
  · show k + 1 ≤ m.retry.strategy.maxAttempts
    omega
  · exact hf.request_ne_nil h.request_ne_nil

/-- A delivery that waits after a round is under way at the next attempt. -/
theorem Underway.next {batch : List Event} {k : Nat} {m : Machine} (h : m.Underway batch k)
    {a : Answer} {delay next : Nat}
    (hw : (m.take m.ledger.request a).1.phase = .waiting delay next) :
    next = k + 1 ∧ Underway batch (k + 1) ((m.take m.ledger.request a).1.resumed next) := by
  obtain ⟨f, hf, hv, ht⟩ := take_waiting hw
  rw [ht]
  exact h.resumed hf hv

end Machine

/-! ## Rounds -/

/-- **The rounds of a delivery**, each a request and its answer: from a delivery
about to send to the delivery after them. It may be after none, after one, or
after one and the rounds that follow it. -/
inductive Rounds : Machine → List (List Event × Answer) → Machine → Prop
  /-- No answer has come. -/
  | none {m m' : Machine} (h : m'.ledger = m.ledger) (hr : m'.result? = .none) :
    Rounds m [] m'
  /-- One answer has come, and nothing since then. -/
  | one {m : Machine} (a : Answer) :
    Rounds m [(m.ledger.request, a)] (m.take m.ledger.request a).1
  /-- One answer has come, and the delivery has gone on. -/
  | more {m m' : Machine} {a : Answer} {delay next : Nat} {rounds : List (List Event × Answer)}
    (hw : (m.take m.ledger.request a).1.phase = .waiting delay next)
    (h : Rounds ((m.take m.ledger.request a).1.resumed next) rounds m') :
    Rounds m ((m.ledger.request, a) :: rounds) m'

/-- **The answers that requests get, one after another.** -/
def answersTo (exchange : σ → List Event → σ × Answer) : σ → List (List Event) → List Answer
  | _, [] => []
  | s, r :: rest => (exchange s r).2 :: answersTo exchange (exchange s r).1 rest

namespace Machine

variable (exchange : σ → List Event → σ × Answer)

/-- A delivery that has ended stays as it is. -/
theorem drive_ended {m : Machine} {r : Except Failure Report} (h : m.phase = .ended r)
    (phases : Nat) (s : σ) : m.drive exchange phases s = ⟨s, m, [], []⟩ := by
  cases phases with
  | zero => rfl
  | succ phases =>
    unfold drive
    rw [h]

/-- **A delivery about to send sends.** -/
theorem drive_ready {m : Machine} (h : m.phase = .ready) (phases : Nat) (s : σ) :
    m.drive exchange (phases + 1) s
      = let rest := ({ m with phase := .inFlight m.ledger.request } : Machine).drive
          exchange phases s
        { rest with notes := .attempted :: rest.notes } := by
  simp only [drive, step, h]
  rfl

/-- **A request in flight is answered**, and the delivery takes the answer. -/
theorem drive_inFlight {m : Machine} {request : List Event} (h : m.phase = .inFlight request)
    (phases : Nat) (s : σ) :
    m.drive exchange (phases + 1) s
      = let taken := m.take request (exchange s request).2
        let rest := taken.1.drive exchange phases (exchange s request).1
        { rest with
          requests := request :: rest.requests
          notes := taken.2 ++ rest.notes } := by
  simp only [drive, step, h]

/-- **A delivery that waits goes on** when its wait is over. -/
theorem drive_waiting {m : Machine} {delay next : Nat} (h : m.phase = .waiting delay next)
    (phases : Nat) (s : σ) :
    m.drive exchange (phases + 1) s
      = let rest := (m.resumed next).drive exchange phases s
        { rest with notes := .retried :: rest.notes } := by
  simp only [drive, step, h]
  rfl

theorem take_phase (m : Machine) (phase : Phase) (request : List Event) (a : Answer) :
    ({ m with phase := phase } : Machine).take request a = m.take request a := by
  cases a <;> rfl

/-- **One round of a delivery about to send**: the request is answered, and the
delivery is driven on from there. -/
theorem drive_round {m : Machine} (h : m.phase = .ready) (phases : Nat) (s : σ) :
    (m.drive exchange (phases + 2) s).machine
        = ((m.take m.ledger.request (exchange s m.ledger.request).2).1.drive exchange phases
            (exchange s m.ledger.request).1).machine ∧
      (m.drive exchange (phases + 2) s).requests
        = m.ledger.request ::
          ((m.take m.ledger.request (exchange s m.ledger.request).2).1.drive exchange phases
            (exchange s m.ledger.request).1).requests := by
  rw [drive_ready exchange h, drive_inFlight exchange rfl, take_phase]
  exact ⟨rfl, rfl⟩

/-- **Driving a delivery goes through rounds**, for however many phases it is
driven: its requests are the requests of the rounds, and what answered them
gave the answers of the rounds. -/
theorem drive_rounds (phases : Nat) : ∀ (m : Machine) (s : σ), m.phase = .ready →
    ∃ rounds, Rounds m rounds (m.drive exchange phases s).machine ∧
      (m.drive exchange phases s).requests = rounds.map (·.1) ∧
      answersTo exchange s (m.drive exchange phases s).requests = rounds.map (·.2) := by
  induction phases using Nat.strongRecOn with
  | _ phases ih =>
    intro m s hready
    rcases phases with _ | _ | phases
    · exact ⟨[], .none rfl (by simp [result?, drive, hready]), rfl, rfl⟩
    · rw [drive_ready exchange hready]
      exact ⟨[], .none rfl rfl, rfl, rfl⟩
    · -- the first round, and then whatever the delivery does with its answer
      obtain ⟨hm, hr⟩ := drive_round exchange hready phases s
      rw [hm, hr]
      unfold answersTo
      generalize ha : (exchange s m.ledger.request).2 = a
      generalize (exchange s m.ledger.request).1 = s'
      obtain ⟨r, hend⟩ | ⟨delay, next, hw⟩ := take_ends_or_waits m a
      · rw [drive_ended exchange hend]
        exact ⟨[(m.ledger.request, a)], .one a, rfl, rfl⟩
      · rcases phases with _ | phases
        · exact ⟨[(m.ledger.request, a)], .one a, rfl, rfl⟩
        · rw [drive_waiting exchange hw]
          obtain ⟨rounds, hrs, hreq, hans⟩ := ih phases (by omega)
            ((m.take m.ledger.request a).1.resumed next) s' rfl
          refine ⟨(m.ledger.request, a) :: rounds, .more hw hrs, ?_, ?_⟩
          · exact congrArg (m.ledger.request :: ·) hreq
          · exact congrArg (a :: ·) hans

/-- **A delivery under way comes to its end** within three phases for each attempt
that is left. -/
theorem drive_ends {batch : List Event} (left : Nat) : ∀ (k phases : Nat) (m : Machine) (s : σ),
    m.Underway batch k → m.retry.strategy.maxAttempts ≤ k + left → 3 * left + 2 ≤ phases →
    ∃ r, (m.drive exchange phases s).machine.phase = .ended r := by
  induction left with
  | zero =>
    intro k phases m s hu hmax hphases
    obtain ⟨phases, rfl⟩ := Nat.exists_eq_add_of_le' hphases
    rw [(drive_round exchange hu.ready phases s).1]
    generalize (exchange s m.ledger.request).2 = a
    obtain ⟨r, hend⟩ | ⟨delay, next, hw⟩ := take_ends_or_waits m a
    · exact ⟨r, by rw [drive_ended exchange hend, hend]⟩
    · -- the last attempt is not followed by another
      obtain ⟨f, -, hv, -⟩ := take_waiting hw
      have hlt := (verdict_proceed hv).2.2
      have := hu.retry_attempt
      omega
  | succ left ih =>
    intro k phases m s hu hmax hphases
    obtain ⟨phases, rfl⟩ := Nat.exists_eq_add_of_le' (show 3 ≤ phases by omega)
    rw [(drive_round exchange hu.ready (phases + 1) s).1]
    generalize (exchange s m.ledger.request).2 = a
    obtain ⟨r, hend⟩ | ⟨delay, next, hw⟩ := take_ends_or_waits m a
    · exact ⟨r, by rw [drive_ended exchange hend, hend]⟩
    · obtain ⟨rfl, hu'⟩ := hu.next hw
      obtain ⟨-, -, -, ht⟩ := take_waiting hw
      rw [drive_waiting exchange hw]
      refine ih (k + 1) phases _ _ hu' ?_ (by omega)
      rw [ht]
      show m.retry.strategy.maxAttempts ≤ _
      omega

end Machine

end Courier.Delivery
