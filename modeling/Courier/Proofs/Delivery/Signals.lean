import Courier.Proofs.Delivery.Rounds
/-!
# A delivery at any moment

A delivery is sound when its ledger is of its batch and holds what it says, its
course of attempts stands where the ledger does, its request is the one of the
ledger, and what it has ended with, if it has ended well, is the report of a
resolved ledger. It is sound when it starts, and every signal keeps it so,
whatever answer comes and whenever it is called off (`Sound.step`).

So whoever sees a delivery that has ended well knows that every event of its
batch has a final outcome (`Delivers.outcome`), whatever has happened to it on
the way.
-/

namespace Courier.Delivery

namespace Machine

/-- **A delivery of a batch to a sink, at any moment.** -/
structure Sound (sink : String) (batch : List Event) (m : Machine) : Prop where
  /-- Its ledger is of the sink. -/
  sink_eq : m.ledger.sink = sink
  /-- Its ledger is of the batch. -/
  batch_eq : m.ledger.batch = batch
  /-- What the ledger holds is what it says it is. -/
  coherent : m.ledger.Coherent
  /-- Attempts are counted from one. -/
  one_le : 1 ≤ m.ledger.attempt
  /-- The course of attempts stands where the ledger does. -/
  retry_attempt : m.retry.attempt = m.ledger.attempt
  /-- What has been sent is the request of the ledger. -/
  asked : ∀ request, m.phase = .inFlight request → request = m.ledger.request
  /-- What is waited for is the attempt after this one. -/
  next_eq : ∀ delay next, m.phase = .waiting delay next → next = m.ledger.attempt + 1
  /-- What it has ended well with is the report of a resolved ledger. -/
  resolved : ∀ report, m.phase = .ended (.ok report) →
    m.ledger.isResolved = true ∧ report = m.ledger.report (m.ledger.attempt - 1)

variable {sink : String} {batch : List Event} {m : Machine}

/-- A delivery called off is sound, for it has not ended well. -/
theorem Sound.cancelled (h : m.Sound sink batch) : m.cancelled.Sound sink batch where
  sink_eq := h.sink_eq
  batch_eq := h.batch_eq
  coherent := h.coherent
  one_le := h.one_le
  retry_attempt := h.retry_attempt
  asked _ h' := nomatch h'
  next_eq _ _ h' := nomatch h'
  resolved _ h' := nomatch h'

/-- **An answer keeps a delivery sound**, whatever it says. -/
theorem Sound.take (h : m.Sound sink batch) (a : Answer) :
    (m.take m.ledger.request a).1.Sound sink batch := by
  have hsink : (m.ledger.absorb m.classify a).sink = sink := by
    rw [Ledger.sink_absorb, h.sink_eq]
  have hbatch : (m.ledger.absorb m.classify a).batch = batch := by
    rw [Ledger.batch_absorb, h.batch_eq]
  have hcoherent := h.coherent.absorb m.classify a h.one_le
  have hone : 1 ≤ (m.ledger.absorb m.classify a).attempt := by
    rw [Ledger.attempt_absorb]
    exact h.one_le
  have hretry : m.retry.attempt = (m.ledger.absorb m.classify a).attempt := by
    rw [Ledger.attempt_absorb, h.retry_attempt]
  obtain ⟨-, hres, heq⟩ | ⟨f, -, -, heq⟩ | ⟨f, delay, next, -, hv, heq⟩ | ⟨f, reason, -, -, heq⟩ :=
    take_cases m a
  -- the batch is resolved; the failure does not pass; it is sent again; it is given up
  · rw [heq]
    refine ⟨hsink, hbatch, hcoherent, hone, hretry, (fun _ h' => nomatch h'),
      (fun _ _ h' => nomatch h'), ?_⟩
    rintro report ⟨⟩
    refine ⟨hres, ?_⟩
    show _ = (m.ledger.absorb m.classify a).report _
    rw [Ledger.attempt_absorb]
  · rw [heq]
    exact ⟨h.sink_eq, h.batch_eq, h.coherent, h.one_le, h.retry_attempt,
      (fun _ h' => nomatch h'), (fun _ _ h' => nomatch h'), (fun _ h' => nomatch h')⟩
  · rw [heq]
    refine ⟨hsink, hbatch, hcoherent, hone, hretry, (fun _ h' => nomatch h'), ?_,
      (fun _ h' => nomatch h')⟩
    rintro delay' next' ⟨⟩
    show next = (m.ledger.absorb m.classify a).attempt + 1
    rw [(verdict_proceed hv).2.1, ← hretry]
  · rw [heq]
    exact ⟨hsink, hbatch, hcoherent, hone, hretry, (fun _ h' => nomatch h'),
      (fun _ _ h' => nomatch h'), (fun _ h' => nomatch h')⟩

/-- **Every signal keeps a delivery sound.** -/
theorem Sound.step (h : m.Sound sink batch) (s : Signal) : (m.step s).1.Sound sink batch := by
  unfold Machine.step
  cases hp : m.phase with
  | ready =>
    cases s with
    | go =>
      refine ⟨h.sink_eq, h.batch_eq, h.coherent, h.one_le, h.retry_attempt, ?_,
        (fun _ _ h' => nomatch h'), (fun _ h' => nomatch h')⟩
      rintro request ⟨⟩
      rfl
    | answered a => exact h
    | cancel => exact h.cancelled
  | inFlight request =>
    cases s with
    | go => exact h
    | answered a =>
      -- a sound delivery has asked for what its ledger asks for
      rw [h.asked request hp]
      exact h.take a
    | cancel => exact h.cancelled
  | waiting delay next =>
    cases s with
    | go =>
      have hnext := h.next_eq delay next hp
      refine ⟨h.sink_eq, h.batch_eq, h.coherent.advance _ ?_, ?_, rfl, (fun _ h' => nomatch h'),
        (fun _ _ h' => nomatch h'), (fun _ h' => nomatch h')⟩
      · rw [hnext]
        exact Nat.le_succ _
      · show 1 ≤ next
        rw [hnext]
        exact Nat.le_add_left 1 _
    | answered a => exact h
    | cancel => exact h.cancelled
  | ended r => exact h

/-- **A delivery that has ended stays as it is.** -/
theorem step_of_ended {r : Except Failure Report} (h : m.phase = .ended r) (s : Signal) :
    (m.step s).1 = m := by
  unfold Machine.step
  rw [h]

/-- **A delivery of a batch to a sink**, unless it has failed. -/
def Delivers (sink : String) (batch : List Event) (m : Machine) : Prop :=
  m.Sound sink batch ∨ ∃ f, m.phase = .ended (.error f)

/-- **A delivery that starts is one of its batch**, or has failed because an
identity repeats. -/
theorem start_delivers (sink : String) (classify : ItemStatus → ItemClass)
    (strategy : Retry.Strategy) {batch : List Event} (hne : batch ≠ []) :
    (start sink classify strategy batch).Delivers sink batch := by
  by_cases hn : (batch.map (·.id)).Nodup
  · obtain ⟨heq, hu⟩ := start_underway sink classify strategy hne hn
    have hledger : (start sink classify strategy batch).ledger = .fresh sink batch := by rw [heq]
    refine .inl ⟨by rw [hledger]; rfl, hu.batch_eq, hu.coherent,
      Nat.le_of_eq hu.ledger_attempt.symm, by rw [hu.retry_attempt, hu.ledger_attempt], ?_, ?_, ?_⟩
    · exact fun _ h' => nomatch hu.ready.symm.trans h'
    · exact fun _ _ h' => nomatch hu.ready.symm.trans h'
    · exact fun _ h' => nomatch hu.ready.symm.trans h'
  · obtain ⟨id, -, hf⟩ := Ledger.start_of_not_nodup sink hn
    refine .inr ⟨.client sink s!"duplicate event id '{id.text}' in batch", ?_⟩
    unfold start
    rw [if_neg (by simpa using hne), hf]

/-- **Every signal keeps a delivery one of its batch.** -/
theorem Delivers.step (h : m.Delivers sink batch) (s : Signal) :
    (m.step s).1.Delivers sink batch := by
  obtain h | ⟨f, hf⟩ := h
  · exact .inl (h.step s)
  · rw [step_of_ended hf]
    exact .inr ⟨f, hf⟩

theorem result?_eq_some_iff {r : Except Failure Report} :
    m.result? = some r ↔ m.phase = .ended r := by
  unfold result?
  cases m.phase <;> simp

/-- **A delivery that has ended well has a final outcome for every event of its
batch**, and it is a delivery of the batch to the sink. -/
theorem Delivers.outcome (h : m.Delivers sink batch) {report : Report}
    (hr : m.result? = some (.ok report)) :
    m.ledger.sink = sink ∧ m.ledger.batch = batch ∧
      ∀ e ∈ batch, ∃ o ∈ report.outcomes, o.id = e.id ∧ o.isFinal = true := by
  rw [result?_eq_some_iff] at hr
  obtain h | ⟨f, hf⟩ := h
  · refine ⟨h.sink_eq, h.batch_eq, fun e he => ?_⟩
    obtain ⟨hres, rfl⟩ := h.resolved report hr
    rw [← h.batch_eq] at he
    obtain ⟨entry, hentry, rfl⟩ := List.mem_map.mp he
    obtain ⟨o, ho⟩ := Ledger.exists_final? hres hentry
    have hmem : o ∈ (m.ledger.report (m.ledger.attempt - 1)).outcomes :=
      List.mem_filterMap.mpr ⟨entry, hentry, ho⟩
    exact ⟨o, hmem, (h.coherent entry hentry).about o (Entry.known?_of_final? ho),
      (h.coherent entry hentry).final o ho⟩
  · exact nomatch hr.symm.trans hf

end Machine

end Courier.Delivery
