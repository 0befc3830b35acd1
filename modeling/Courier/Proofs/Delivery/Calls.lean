import Courier.Delivery.Dispatch
import Courier.Proofs.Delivery.Signals
/-!
# A delivery in smaller steps

Between taking an answer in and putting the failure that comes of it to its strategy,
what runs beside a call may count in the same counters, and the call may be called
off; the failure is then not judged any more.

Nothing else is different from a delivery: an answer that is taken in and
then judged is taken in as before (`Call.step_judged`). And a call is sound in the
same way, but that its last request has been answered already when it has a failure
in its hands (`Call.Sound.step`).
-/

namespace Courier.Delivery

/-- The note of an answer to the request of a ledger. -/
def Ledger.notes (l : Ledger) (classify : ItemStatus → ItemClass) : Answer → List Note
  | .ok statuses =>
    let tally := (l.answer classify l.request statuses).2
    [.answered tally.succeeded tally.dropped tally.retryable]
  | .error _ => []

namespace Call

/-- An answer that is taken in and then judged is taken in as by the delivery. -/
theorem take_judged (m : Machine) (request : List Event) (a : Answer) :
    (take m request a).1.judged.1 = (m.take request a).1 ∧
      (take m request a).2 ++ (take m request a).1.judged.2 = (m.take request a).2 := by
  unfold take Machine.take
  cases a with
  | ok statuses =>
    dsimp only
    split
    · exact ⟨rfl, rfl⟩
    · exact ⟨rfl, rfl⟩
  | error f =>
    dsimp only
    split
    · exact ⟨rfl, rfl⟩
    · exact ⟨rfl, rfl⟩

/-- A call without a failure in its hands takes the answer to its request in, or has its
delivery take the signal. -/
theorem stepClear_cases (m : Machine) (s : Signal) :
    (∃ request a, m.phase = .inFlight request ∧ s = .answered a ∧
      stepClear m s = take m request a) ∨
    ((∀ request a, m.phase = .inFlight request → s ≠ .answered a) ∧
      stepClear m s = (⟨(m.step s).1, none⟩, (m.step s).2)) := by
  unfold stepClear
  split
  · next request a hp => exact .inl ⟨request, a, hp, rfl, rfl⟩
  · next hno => exact .inr ⟨fun request a hp hs => hno request a hp hs, rfl⟩

theorem step_of_clear {c : Call} (h : c.failing = none) (s : Signal) :
    c.step s = stepClear c.machine s := by
  unfold step
  rw [h]

theorem step_of_failing {c : Call} {f : Failure} (h : c.failing = some f) (s : Signal) :
    c.step s = stepFailing c.machine f s := by
  unfold step
  rw [h]

/-- **A signal in smaller steps is the signal**, once a failure is judged that it has made. -/
theorem step_judged {c : Call} (h : c.failing = none) (s : Signal) :
    (c.step s).1.judged.1 = (c.machine.step s).1 ∧
      (c.step s).2 ++ (c.step s).1.judged.2 = (c.machine.step s).2 := by
  rw [step_of_clear h]
  obtain ⟨request, a, hp, rfl, hs⟩ | ⟨-, hs⟩ := stepClear_cases c.machine s
  · have hstep : c.machine.step (.answered a) = c.machine.take request a := by
      unfold Machine.step
      rw [hp]
    rw [hs, hstep]
    exact take_judged c.machine request a
  · rw [hs]
    exact ⟨rfl, List.append_nil _⟩

/-- **What a call can do with the answer to its request.** Its batch is resolved; or the
failure of the request does not pass and ends it; or it has a failure in its hands. -/
theorem take_cases (m : Machine) (a : Answer) :
    ((∃ statuses, a = .ok statuses) ∧ (m.ledger.absorb m.classify a).isResolved = true ∧
      take m m.ledger.request a
        = (⟨{ m with
              ledger := m.ledger.absorb m.classify a
              phase := .ended (.ok ((m.ledger.absorb m.classify a).report
                (m.ledger.attempt - 1))) }, none⟩,
            m.ledger.notes m.classify a ++ [.resolved])) ∨
    (∃ f, a = .error f ∧ f.kind.isTransient = false ∧
      take m m.ledger.request a = (⟨{ m with phase := .ended (.error f) }, none⟩, [])) ∨
    (∃ f, m.Fails a f ∧
      take m m.ledger.request a
        = (⟨{ m with ledger := m.ledger.absorb m.classify a }, some f⟩,
            m.ledger.notes m.classify a)) := by
  cases a with
  | ok statuses =>
    have htake : take m m.ledger.request (.ok statuses)
        = if (m.ledger.absorb m.classify (.ok statuses)).isResolved then
            (⟨{ m with
                ledger := m.ledger.absorb m.classify (.ok statuses)
                phase := .ended (.ok ((m.ledger.absorb m.classify (.ok statuses)).report
                  ((m.ledger.absorb m.classify (.ok statuses)).attempt - 1))) }, none⟩,
              m.ledger.notes m.classify (.ok statuses) ++ [.resolved])
          else (⟨{ m with ledger := m.ledger.absorb m.classify (.ok statuses) },
            some (m.ledger.absorb m.classify (.ok statuses)).failure⟩,
              m.ledger.notes m.classify (.ok statuses)) := rfl
    cases hr : (m.ledger.absorb m.classify (.ok statuses)).isResolved with
    | true =>
      rw [htake, if_pos hr, Ledger.attempt_absorb]
      exact .inl ⟨⟨statuses, rfl⟩, rfl, rfl⟩
    | false =>
      rw [htake, if_neg (by rw [hr]; exact Bool.false_ne_true)]
      exact .inr (.inr ⟨_, .inr ⟨⟨statuses, rfl⟩, hr, rfl⟩, rfl⟩)
  | error f =>
    have htake : take m m.ledger.request (.error f)
        = if f.kind.isTransient then
            (⟨{ m with ledger := m.ledger.absorb m.classify (.error f) }, some f⟩, [])
          else (⟨{ m with phase := .ended (.error f) }, none⟩, []) := rfl
    cases ht : f.kind.isTransient with
    | false =>
      rw [htake, if_neg (by rw [ht]; exact Bool.false_ne_true)]
      exact .inr (.inl ⟨f, rfl, ht, rfl⟩)
    | true =>
      rw [htake, if_pos ht]
      exact .inr (.inr ⟨f, .inl ⟨rfl, ht⟩, rfl⟩)

end Call

/-! ## Soundness -/

/-- A call that has a failure in its hands has had its request in flight until now. -/
def Call.Held (c : Call) : Prop :=
  ∀ f, c.failing = some f → ∃ request, c.machine.phase = .inFlight request

/-- **It is so after every signal.** -/
theorem Call.Held.step {c : Call} (h : c.Held) (s : Signal) : (c.step s).1.Held := by
  cases hc : c.failing with
  | some f =>
    rw [step_of_failing hc]
    cases s with
    | go => exact fun _ h' => nomatch h'
    | cancel => exact fun _ h' => nomatch h'
    | answered a => exact fun _ _ => h f hc
  | none =>
    rw [step_of_clear hc]
    obtain ⟨request, a, hp, rfl, hs⟩ | ⟨-, hs⟩ := stepClear_cases c.machine s
    · rw [hs]
      unfold take
      cases a with
      | ok statuses =>
        dsimp only
        split
        · exact fun _ h' => nomatch h'
        · exact fun _ _ => ⟨request, hp⟩
      | error f =>
        dsimp only
        split
        · exact fun _ _ => ⟨request, hp⟩
        · exact fun _ h' => nomatch h'
    · rw [hs]
      exact fun _ h' => nomatch h'

/-- **A delivery that holds the ledger of a batch**, whatever it is doing. -/
structure Machine.Holds (sink : String) (batch : List Event) (m : Machine) : Prop where
  /-- Its ledger is of the sink. -/
  sink_eq : m.ledger.sink = sink
  /-- Its ledger is of the batch. -/
  batch_eq : m.ledger.batch = batch
  /-- What the ledger holds is what it says it is. -/
  coherent : m.ledger.Coherent
  /-- Attempts are counted from one. -/
  one_le : 1 ≤ m.ledger.attempt
  /-- The course of attempts stands where the ledger does. -/
  retry_attempt : m.retry.attempt = m.ledger.attempt

/-- **A call for a batch, at any moment.** -/
structure Call.Sound (sink : String) (batch : List Event) (c : Call) : Prop where
  /-- The delivery holds the ledger of the batch. -/
  holds : c.machine.Holds sink batch
  /-- It is sound when it has no failure in its hands. -/
  clear : c.failing = none → c.machine.Sound sink batch
  /-- When it has one, its request was in flight until now. -/
  inFlight : c.Held

variable {sink : String} {batch : List Event} {m : Machine} {c : Call}

theorem Machine.Sound.holds (h : m.Sound sink batch) : m.Holds sink batch :=
  ⟨h.sink_eq, h.batch_eq, h.coherent, h.one_le, h.retry_attempt⟩

namespace Machine.Holds

/-- A delivery called off is sound. -/
theorem cancelled (h : m.Holds sink batch) : m.cancelled.Sound sink batch where
  sink_eq := h.sink_eq
  batch_eq := h.batch_eq
  coherent := h.coherent
  one_le := h.one_le
  retry_attempt := h.retry_attempt
  asked _ h' := nomatch h'
  next_eq _ _ h' := nomatch h'
  resolved _ h' := nomatch h'

/-- A delivery that has put a failure to its strategy is sound. -/
theorem judge (h : m.Holds sink batch) (f : Failure) : (m.judge f).1.Sound sink batch := by
  unfold Machine.judge
  cases hv : m.retry.verdict f with
  | proceed delay next =>
    refine ⟨h.sink_eq, h.batch_eq, h.coherent, h.one_le, h.retry_attempt,
      (fun _ h' => nomatch h'), ?_, (fun _ h' => nomatch h')⟩
    rintro delay' next' ⟨⟩
    rw [(verdict_proceed hv).2.1, h.retry_attempt]
  | terminal reason =>
    exact ⟨h.sink_eq, h.batch_eq, h.coherent, h.one_le, h.retry_attempt,
      (fun _ h' => nomatch h'), (fun _ _ h' => nomatch h'), (fun _ h' => nomatch h')⟩

/-- It holds the ledger of its batch after an answer to its request. -/
theorem absorb (h : m.Holds sink batch) (a : Answer) :
    ({ m with ledger := m.ledger.absorb m.classify a } : Machine).Holds sink batch where
  sink_eq := (Ledger.sink_absorb m.ledger m.classify a).trans h.sink_eq
  batch_eq := (Ledger.batch_absorb m.ledger m.classify a).trans h.batch_eq
  coherent := h.coherent.absorb m.classify a h.one_le
  one_le := (Ledger.attempt_absorb m.ledger m.classify a).symm ▸ h.one_le
  retry_attempt := h.retry_attempt.trans (Ledger.attempt_absorb m.ledger m.classify a).symm

end Machine.Holds

theorem Call.Sound.of_machine (h : m.Sound sink batch) : Call.Sound sink batch ⟨m, none⟩ :=
  ⟨h.holds, fun _ => h, fun _ h' => nomatch h'⟩

/-- **Every signal keeps a call sound.** -/
theorem Call.Sound.step (h : c.Sound sink batch) (s : Signal) : (c.step s).1.Sound sink batch := by
  cases hc : c.failing with
  | some f =>
    rw [step_of_failing hc]
    cases s with
    | go => exact .of_machine (h.holds.judge f)
    | cancel => exact .of_machine h.holds.cancelled
    | answered a => exact ⟨h.holds, (fun h' => nomatch h'), fun _ _ => h.inFlight f hc⟩
  | none =>
    have hm := h.clear hc
    rw [step_of_clear hc]
    obtain ⟨request, a, hp, rfl, hs⟩ | ⟨-, hs⟩ := stepClear_cases c.machine s
    · obtain rfl := hm.asked request hp
      have htake := hm.take a
      obtain ⟨hjudged, -⟩ := take_judged c.machine c.machine.ledger.request a
      rw [← hjudged] at htake
      rw [hs]
      obtain ⟨-, -, ht⟩ | ⟨f, -, -, ht⟩ | ⟨f, -, ht⟩ := take_cases c.machine a <;>
        rw [ht] at htake ⊢
      · exact .of_machine htake
      · exact .of_machine htake
      · exact ⟨hm.holds.absorb a, (fun h' => nomatch h'), fun _ _ => ⟨_, hp⟩⟩
    · rw [hs]
      exact .of_machine (hm.step s)

/-! ## Signal after signal -/

namespace Call

/-- **What becomes of a call**: the call, the requests that were answered, with their
answers, and the notes that were left, each in their order. -/
structure Log where
  /-- The call. -/
  call : Call
  /-- The rounds. -/
  rounds : List (List Event × Answer)
  /-- The notes. -/
  notes : List Note

/-- The round that a signal makes: it is the answer to a request in flight. -/
def roundOf (c : Call) (s : Signal) : List (List Event × Answer) :=
  match c.failing, c.machine.phase, s with
  | none, .inFlight request, .answered a => [(request, a)]
  | _, _, _ => []

/-- **A call after several signals.** -/
def run (c : Call) : List Signal → Log
  | [] => ⟨c, [], []⟩
  | s :: rest =>
    let later := (c.step s).1.run rest
    { later with
      rounds := c.roundOf s ++ later.rounds
      notes := (c.step s).2 ++ later.notes }

/-- **A delivery after several signals**, each taken in one step. -/
def ofSignals (m : Machine) : List Signal → Log
  | [] => ⟨⟨m, none⟩, [], []⟩
  | s :: rest =>
    let later := ofSignals (m.step s).1 rest
    { later with
      rounds := roundOf ⟨m, none⟩ s ++ later.rounds
      notes := (m.step s).2 ++ later.notes }

/-- **Whatever becomes of a delivery can become of a call**: each failure is judged as soon
as it is there. -/
theorem exists_run (signals : List Signal) :
    ∀ m : Machine, ∃ finer, run ⟨m, none⟩ finer = ofSignals m signals := by
  induction signals with
  | nil => exact fun m => ⟨[], rfl⟩
  | cons s rest ih =>
    intro m
    obtain ⟨finer, hrest⟩ := ih (m.step s).1
    obtain ⟨hmachine, hnotes⟩ := step_judged (c := ⟨m, none⟩) rfl s
    have hmachine : ((Call.mk m none).step s).1.judged.1 = (m.step s).1 := hmachine
    have hnotes : ((Call.mk m none).step s).2 ++ ((Call.mk m none).step s).1.judged.2
        = (m.step s).2 := hnotes
    rcases hc : ((Call.mk m none).step s).1 with ⟨m', f⟩
    rw [hc] at hmachine hnotes
    cases f with
    | none =>
      have hm : m' = (m.step s).1 := hmachine
      have hn : ((Call.mk m none).step s).2 = (m.step s).2 :=
        (List.append_nil _).symm.trans hnotes
      refine ⟨s :: finer, ?_⟩
      rw [run, ofSignals, hc, hm, hrest, hn]
    | some f =>
      have hm : (m'.judge f).1 = (m.step s).1 := hmachine
      have hn : ((Call.mk m none).step s).2 ++ (m'.judge f).2 = (m.step s).2 := hnotes
      refine ⟨s :: .go :: finer, ?_⟩
      rw [run, run, ofSignals, hc, ← hn, ← hrest, ← hm]
      show Log.mk _ (_ ++ ([] ++ _)) (_ ++ ((m'.judge f).2 ++ _)) = _
      rw [List.nil_append, List.append_assoc]
      rfl

end Call

end Courier.Delivery
