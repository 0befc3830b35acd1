import Courier.Proofs.Delivery.Calls
import Courier.Proofs.Delivery.Counting
import Courier.Proofs.Delivery.Tally
/-!
# The accounts of a delivery

A delivery is counted twice: in the counters of its sink, and in series that are
read from outside. It is counted as it goes, at every place where something has
happened, and it can end in four ways. `Books` says what has been counted at any
moment: attempts, events that have been settled, events that were left over, and how
the delivery has ended. Each signal keeps the books (`Books.step`), in the smaller
steps in which a delivery can be called off between an answer and the judgement on
it.

So in the end what has been counted is what has happened (`Call.run_balances`): one
attempt more than there were retries; as many events delivered and refused as the
statuses of the answers have settled, which is what the report says, or the
diagnostics; and once that the batch was given up, or that the delivery was called
off, if it was.
-/

namespace Courier.Delivery

open Counters (counted)

/-! ## What has happened -/

/-- **What has become of an event**, by the requests made and their answers: how the first
answer settles it that does. -/
def fate (classify : ItemStatus → ItemClass) : List (List Event × Answer) → Event →
    Option ItemClass
  | [], _ => none
  | (request, a) :: rest, e => (settling classify request a e).or (fate classify rest e)

/-- **How many events an answer leaves outstanding**; a request that was not answered
leaves none to count. -/
def leftBy (classify : ItemStatus → ItemClass) : List Event × Answer → Nat
  | (request, .ok statuses) => request.countP (leavesOpen classify request (.ok statuses))
  | (_, .error _) => 0

/-- **A failure that is handed on**: it is what came of the last request. -/
def HandedOn (rounds : List (List Event × Answer)) (f : Failure) : Prop :=
  ∃ request, rounds.getLast? = some (request, .error f)

/-- Every request that has failed has failed in a way that passes. -/
def Passing (rounds : List (List Event × Answer)) : Prop :=
  ∀ request f, (request, .error f) ∈ rounds → f.kind.isTransient = true

variable {classify : ItemStatus → ItemClass} {sink : String} {batch : List Event}
variable {rounds : List (List Event × Answer)} {notes : List Note} {l : Ledger} {m : Machine}

/-- What has become of an event after more requests. -/
theorem fate_append (more : List (List Event × Answer)) (e : Event) :
    fate classify (rounds ++ more) e = (fate classify rounds e).or (fate classify more e) := by
  induction rounds with
  | nil => rfl
  | cons x rounds ih =>
    obtain ⟨request, a⟩ := x
    rw [List.cons_append, fate, fate, ih, Option.or_assoc]

/-- A failure that does not pass has not been handed on while all have passed. -/
theorem Passing.not_handedOn (h : Passing rounds) {f : Failure}
    (hf : f.kind.isTransient = false) : ¬ HandedOn rounds f := by
  rintro ⟨request, hlast⟩
  rw [h request f (List.mem_of_getLast? hlast)] at hf
  exact Bool.noConfusion hf

/-- One more answer whose failure passes, if it has one. -/
theorem Passing.append (h : Passing rounds) {request : List Event} {a : Answer}
    (ha : ∀ f, a = .error f → f.kind.isTransient = true) :
    Passing (rounds ++ [(request, a)]) := by
  intro request' f hin
  obtain hin | hin := List.mem_append.mp hin
  · exact h request' f hin
  · obtain ⟨-, rfl⟩ := Prod.mk.inj (List.mem_singleton.mp hin)
    exact ha f rfl

/-! ## What is counted of events -/

theorem Ledger.counted_append_notes (notes : List Note) (l : Ledger)
    (classify : ItemStatus → ItemClass) (a : Answer) :
    (counted (notes ++ l.notes classify a)).attempts = (counted notes).attempts ∧
      (counted (notes ++ l.notes classify a)).retries = (counted notes).retries ∧
      (counted (notes ++ l.notes classify a)).exhausted = (counted notes).exhausted ∧
      (counted (notes ++ l.notes classify a)).cancelled = (counted notes).cancelled := by
  rw [Counters.counted_append]
  cases a <;> exact ⟨rfl, rfl, rfl, rfl⟩

theorem counted_append_resolved (notes : List Note) :
    counted (notes ++ [.resolved]) = counted notes :=
  Counters.counted_append notes [.resolved]

/-- **What is counted of the events of a ledger**: those that are settled in each way, as
the answers have settled them, and those that each answer has left over. -/
structure Tallied (classify : ItemStatus → ItemClass) (l : Ledger)
    (rounds : List (List Event × Answer)) (notes : List Note) : Prop where
  /-- What the ledger says of an event is what the answers say. -/
  fate_eq : ∀ e ∈ l.entries, e.fate? = fate classify rounds e.event
  /-- Events delivered are counted. -/
  delivered : (counted notes).delivered = l.settledAs .success
  /-- Events refused are counted. -/
  dropped : (counted notes).dropped = l.settledAs .fatal
  /-- Events left over are counted. -/
  left : (notes.map Note.left).sum = (rounds.map (leftBy classify)).sum

namespace Tallied

/-- **An answer is counted as it settles events.** -/
theorem absorb (h : Tallied classify l rounds notes) (hn : (l.batch.map (·.id)).Nodup)
    (a : Answer) :
    Tallied classify (l.absorb classify a) (rounds ++ [(l.request, a)])
      (notes ++ l.notes classify a) := by
  have hcounted : (counted (l.notes classify a)).delivered
        = l.request.countP (fun e => settling classify l.request a e = some .success) ∧
      (counted (l.notes classify a)).dropped
        = l.request.countP (fun e => settling classify l.request a e = some .fatal) ∧
      ((l.notes classify a).map Note.left).sum = leftBy classify (l.request, a) := by
    cases a with
    | error f =>
      have hnone : ∀ c, (l.request.countP fun e =>
          settling classify l.request (.error f) e = some c) = 0 :=
        fun c => List.countP_eq_zero.mpr fun e _ h => nomatch of_decide_eq_true h
      exact ⟨(hnone .success).symm, (hnone .fatal).symm, rfl⟩
    | ok statuses =>
      obtain ⟨hs, hd, hr⟩ : _ ∧ _ ∧ _ = leftBy classify (l.request, .ok statuses) :=
        Ledger.tally_answer hn statuses
      refine ⟨?_, ?_, ?_⟩
      · rw [← hs]
        exact Nat.zero_add _
      · rw [← hd]
        exact Nat.zero_add _
      · exact hr
  refine ⟨?_, ?_, ?_, ?_⟩
  · intro e he
    rw [Ledger.absorb_eq] at he
    obtain ⟨x, hx, rfl⟩ := List.mem_map.mp he
    rw [Ledger.fate?_absorbed, Ledger.absorbed_event, h.fate_eq x hx, fate_append]
    show _ = (fate classify rounds x.event).or ((settling classify l.request a x.event).or none)
    rw [Option.or_none]
  · rw [Counters.counted_append, Counters.delivered_add, Ledger.settledAs_absorb, h.delivered,
      hcounted.1]
  · rw [Counters.counted_append, Counters.dropped_add, Ledger.settledAs_absorb, h.dropped,
      hcounted.2.1]
  · rw [List.map_append, List.sum_append, List.map_append, List.sum_append, h.left,
      hcounted.2.2]
    rfl

/-- A request that was not answered settles nothing, and is not counted. -/
theorem unanswered (h : Tallied classify l rounds notes) (request : List Event) (f : Failure) :
    Tallied classify l (rounds ++ [(request, .error f)]) notes where
  fate_eq e he := by
    rw [fate_append, h.fate_eq e he]
    exact (Option.or_none).symm
  delivered := h.delivered
  dropped := h.dropped
  left := by
    rw [List.map_append, List.sum_append, h.left]
    rfl

/-- Notes that are of no event count none. -/
theorem append (h : Tallied classify l rounds notes) {more : List Note}
    (hmore : ∀ note ∈ more, ∀ delivered dropped left, note ≠ .answered delivered dropped left) :
    Tallied classify l rounds (notes ++ more) := by
  have hnone : (counted more).delivered = 0 ∧ (counted more).dropped = 0 ∧
      (more.map Note.left).sum = 0 := by
    induction more with
    | nil => exact ⟨rfl, rfl, rfl⟩
    | cons note more ih =>
      obtain ⟨hd, hr, hl⟩ := ih fun n hin => hmore n (List.mem_cons_of_mem note hin)
      rw [Counters.counted_cons, List.map_cons, List.sum_cons, hl]
      cases note with
      | answered delivered dropped left => exact absurd rfl (hmore _ List.mem_cons_self _ _ _)
      | _ => exact ⟨(Nat.zero_add _).trans hd, (Nat.zero_add _).trans hr, rfl⟩
  refine ⟨h.fate_eq, ?_, ?_, ?_⟩
  · rw [Counters.counted_append, Counters.delivered_add, hnone.1, Nat.add_zero, h.delivered]
  · rw [Counters.counted_append, Counters.dropped_add, hnone.2.1, Nat.add_zero, h.dropped]
  · rw [List.map_append, List.sum_append, hnone.2.2, Nat.add_zero, h.left]

theorem advance (h : Tallied classify l rounds notes) (attempt : Nat) :
    Tallied classify (l.advance attempt) rounds notes :=
  ⟨h.fate_eq, h.delivered, h.dropped, h.left⟩

/-- **As many events are counted as the answers have settled.** -/
theorem countP_fate (h : Tallied classify l rounds notes) (c : ItemClass) :
    l.settledAs c = l.batch.countP fun e => fate classify rounds e = some c := by
  show l.entries.countP _ = (l.entries.map _).countP _
  rw [List.countP_map]
  refine List.countP_congr fun e he => ?_
  show decide (e.fate? = some c) = true ↔ decide (fate classify rounds e.event = some c) = true
  rw [h.fate_eq e he]

end Tallied

/-! ## How a delivery ends -/

/-- **How a delivery has ended, if it has**, and how often it is counted that a batch was
given up, and that a delivery was called off. -/
inductive Closing (sink : String) (rounds : List (List Event × Answer)) (n : Counters)
    (m : Machine) : Prop
  /-- It has not ended. -/
  | underway (running : ∀ r, m.phase ≠ .ended r) (passing : Passing rounds)
      (exhausted : n.exhausted = 0) (cancelled : n.cancelled = 0)
  /-- It has ended with a report. -/
  | resolved (report : Report) (phase : m.phase = .ended (.ok report))
      (exhausted : n.exhausted = 0) (cancelled : n.cancelled = 0)
  /-- A failure that does not pass was handed on. -/
  | refused (f : Failure) (phase : m.phase = .ended (.error f)) (handed : HandedOn rounds f)
      (exhausted : n.exhausted = 0) (cancelled : n.cancelled = 0)
  /-- The strategy had no other attempt. -/
  | givenUp (cause : Failure) (reason : Retry.Reason)
      (verdict : m.retry.verdict cause = .terminal reason)
      (phase : m.phase
        = .ended (.error (.exhausted reason.attempts m.ledger.diagnostics cause)))
      (passing : Passing rounds) (exhausted : n.exhausted = 1) (cancelled : n.cancelled = 0)
  /-- It was called off. -/
  | calledOff (phase : m.phase = .ended (.error (.cancelled (Machine.operation sink))))
      (passing : Passing rounds) (exhausted : n.exhausted = 0) (cancelled : n.cancelled = 1)

/-- What is counted of the end of a delivery that has not ended. -/
theorem Closing.running {n : Counters} (h : Closing sink rounds n m)
    (hp : ∀ r, m.phase ≠ .ended r) : Passing rounds ∧ n.exhausted = 0 ∧ n.cancelled = 0 := by
  cases h with
  | underway _ passing he hc => exact ⟨passing, he, hc⟩
  | resolved _ phase => exact absurd phase (hp _)
  | refused _ phase => exact absurd phase (hp _)
  | givenUp _ _ _ phase => exact absurd phase (hp _)
  | calledOff phase => exact absurd phase (hp _)

/-- **A batch given up**: the failure of the delivery is not handed on from its last request,
but says that the verdict on a cause was terminal, and what is known of the events. -/
def GivenUp (m : Machine) (rounds : List (List Event × Answer)) (r : Except Failure Report) :
    Prop :=
  ∃ cause reason, m.retry.verdict cause = .terminal reason ∧
    r = .error (.exhausted reason.attempts m.ledger.diagnostics cause) ∧
    ¬ HandedOn rounds (.exhausted reason.attempts m.ledger.diagnostics cause)

/-- **A delivery called off**: that is its failure, and it is not handed on from its last
request. -/
def CalledOff (sink : String) (rounds : List (List Event × Answer))
    (r : Except Failure Report) : Prop :=
  r = .error (.cancelled (Machine.operation sink)) ∧
    ¬ HandedOn rounds (.cancelled (Machine.operation sink))

/-- **What is counted of the end of a delivery** says how it has ended. -/
theorem Closing.ended {n : Counters} (h : Closing sink rounds n m) {r : Except Failure Report}
    (hp : m.phase = .ended r) :
    (n.exhausted = 1 ↔ GivenUp m rounds r) ∧ (n.cancelled = 1 ↔ CalledOff sink rounds r) ∧
      n.exhausted + n.cancelled ≤ 1 := by
  have hfor : ∀ {r'}, m.phase = .ended r' → r = r' := fun hr' =>
    Phase.ended.inj (hp.symm.trans hr')
  cases h with
  | underway running => exact absurd hp (running r)
  | resolved report phase hexh hcan =>
    obtain rfl := hfor phase
    rw [hexh, hcan]
    refine ⟨⟨nofun, ?_⟩, ⟨nofun, ?_⟩, Nat.zero_le 1⟩
    · rintro ⟨_, _, -, heq, -⟩
      exact nomatch heq
    · rintro ⟨heq, -⟩
      exact nomatch heq
  | refused f phase handed hexh hcan =>
    obtain rfl := hfor phase
    rw [hexh, hcan]
    refine ⟨⟨nofun, ?_⟩, ⟨nofun, ?_⟩, Nat.zero_le 1⟩
    · rintro ⟨_, _, -, heq, hnot⟩
      rw [Except.error.inj heq] at handed
      exact absurd handed hnot
    · rintro ⟨heq, hnot⟩
      rw [Except.error.inj heq] at handed
      exact absurd handed hnot
  | givenUp cause reason verdict phase passing hexh hcan =>
    obtain rfl := hfor phase
    rw [hexh, hcan]
    refine ⟨iff_of_true rfl ⟨cause, reason, verdict, rfl, passing.not_handedOn rfl⟩,
      ⟨nofun, ?_⟩, Nat.le_refl 1⟩
    rintro ⟨heq, -⟩
    exact nomatch heq
  | calledOff phase passing hexh hcan =>
    obtain rfl := hfor phase
    rw [hexh, hcan]
    refine ⟨⟨nofun, ?_⟩, iff_of_true rfl ⟨rfl, passing.not_handedOn rfl⟩, Nat.le_refl 1⟩
    rintro ⟨_, _, -, heq, -⟩
    exact nomatch heq

/-- How many attempts have been counted in a phase that are not retries. -/
def Phase.begun : Phase → Nat
  | .ready => 0
  | _ => 1

/-- **The books of a call**: what has been counted of it, when it has made these rounds and
left these notes. -/
structure Books (sink : String) (classify : ItemStatus → ItemClass) (batch : List Event)
    (c : Call) (rounds : List (List Event × Answer)) (notes : List Note) : Prop where
  /-- The call is for the batch. -/
  sound : c.Sound sink batch
  /-- It reads answers as the sink does. -/
  classify_eq : c.machine.classify = classify
  /-- Its events are counted. -/
  tallied : Tallied classify c.machine.ledger rounds notes
  /-- Retries are counted. -/
  retries : (counted notes).retries + 1 = c.machine.ledger.attempt
  /-- Attempts are counted. -/
  attempts : (counted notes).attempts = (counted notes).retries + c.machine.phase.begun
  /-- Its end is counted. -/
  closing : Closing sink rounds (counted notes) c.machine

namespace Books

variable {c : Call} {f : Failure}

/-- **A call that is called off keeps the books**: that is counted, and the attempt that it
was about to make. -/
theorem cancelled (h : Books sink classify batch c rounds notes)
    (hp : ∀ r, c.machine.phase ≠ .ended r) {more : List Note}
    (hmore : c.machine.phase = .ready ∧ more = [.attempted, .cancelled] ∨
      c.machine.phase ≠ .ready ∧ more = [.cancelled]) :
    Books sink classify batch ⟨c.machine.cancelled, none⟩ rounds (notes ++ more) := by
  obtain ⟨passing, hexh, hcan⟩ := h.closing.running hp
  have hphase : c.machine.cancelled.phase
      = .ended (.error (.cancelled (Machine.operation sink))) := by
    rw [← h.sound.holds.sink_eq]
    rfl
  have hcounted : (counted more).retries = 0 ∧ (counted more).exhausted = 0 ∧
      (counted more).cancelled = 1 ∧ (counted more).attempts + c.machine.phase.begun = 1 := by
    obtain ⟨hr, rfl⟩ | ⟨hr, rfl⟩ := hmore
    · rw [hr]
      exact ⟨rfl, rfl, rfl, rfl⟩
    · refine ⟨rfl, rfl, rfl, ?_⟩
      cases hphase : c.machine.phase with
      | ready => exact absurd hphase hr
      | _ => rfl
  obtain ⟨hretries, hexhausted, hcancelled, hattempts⟩ := hcounted
  refine ⟨.of_machine h.sound.holds.cancelled, h.classify_eq, h.tallied.append ?_, ?_, ?_, ?_⟩
  · obtain ⟨-, rfl⟩ | ⟨-, rfl⟩ := hmore <;> simp
  · rw [Counters.counted_append, Counters.retries_add, hretries]
    exact h.retries
  · have := h.attempts
    rw [Counters.counted_append, Counters.attempts_add, Counters.retries_add, hretries]
    show _ = _ + 1
    omega
  · refine .calledOff hphase passing ?_ ?_ <;> rw [Counters.counted_append]
    · rw [Counters.exhausted_add, hexh, hexhausted]
    · rw [Counters.cancelled_add, hcan, hcancelled]

/-- **A failure that is put to the strategy keeps the books**: it is counted that the batch
is given up, if it is. -/
theorem judge {m : Machine} (h : Books sink classify batch ⟨m, some f⟩ rounds notes) :
    Books sink classify batch ⟨(m.judge f).1, none⟩ rounds (notes ++ (m.judge f).2) := by
  obtain ⟨request, hp⟩ := h.sound.inFlight f rfl
  have hp : m.phase = .inFlight request := hp
  obtain ⟨passing, hexh, hcan⟩ := h.closing.running fun r hr => nomatch hp.symm.trans hr
  have hattempts := h.attempts
  have hsound := h.sound.holds.judge f
  rw [show (Call.mk m (some f)).machine.phase = .inFlight request from hp] at hattempts
  unfold Machine.judge at hsound ⊢
  cases hv : m.retry.verdict f with
  | proceed delay next =>
    rw [hv] at hsound
    dsimp only
    rw [List.append_nil]
    exact ⟨.of_machine hsound, h.classify_eq, h.tallied, h.retries, hattempts,
      .underway nofun passing hexh hcan⟩
  | terminal reason =>
    rw [hv] at hsound
    refine ⟨.of_machine hsound, h.classify_eq, h.tallied.append (by simp), ?_, ?_, ?_⟩ <;>
      rw [Counters.counted_append]
    · exact h.retries
    · exact hattempts
    · refine .givenUp f reason hv rfl passing ?_ hcan
      rw [Counters.exhausted_add, hexh]
      rfl

/-- The request in flight has been counted as an attempt. -/
theorem attempts_of_inFlight {m : Machine} {request : List Event}
    (h : Books sink classify batch ⟨m, none⟩ rounds notes) (hp : m.phase = .inFlight request) :
    (counted notes).attempts = (counted notes).retries + 1 := by
  have := h.attempts
  rw [show (Call.mk m none).machine.phase = .inFlight request from hp] at this
  exact this

/-- The answer to the request is counted as it settles events. -/
theorem absorb {m : Machine} (h : Books sink classify batch ⟨m, none⟩ rounds notes)
    (hn : (batch.map (·.id)).Nodup) (a : Answer) :
    Tallied classify (m.ledger.absorb m.classify a) (rounds ++ [(m.ledger.request, a)])
      (notes ++ m.ledger.notes m.classify a) := by
  rw [show m.classify = classify from h.classify_eq]
  refine h.tallied.absorb ?_ a
  rw [show m.ledger.batch = batch from h.sound.holds.batch_eq]
  exact hn

/-- **An answer that is taken in keeps the books.** -/
theorem take {m : Machine} (h : Books sink classify batch ⟨m, none⟩ rounds notes)
    (hn : (batch.map (·.id)).Nodup) (hp : m.phase = .inFlight m.ledger.request) (a : Answer) :
    Books sink classify batch (Call.take m m.ledger.request a).1
      (rounds ++ [(m.ledger.request, a)]) (notes ++ (Call.take m m.ledger.request a).2) := by
  obtain ⟨passing, hexh, hcan⟩ := h.closing.running fun r hr => nomatch hp.symm.trans hr
  have hsound : (Call.take m m.ledger.request a).1.Sound sink batch := by
    have hstep : (Call.mk m none).step (.answered a) = Call.take m m.ledger.request a := by
      simp only [Call.step, Call.stepClear, hp]
    rw [← hstep]
    exact h.sound.step (.answered a)
  have hbegun := h.attempts_of_inFlight hp
  have hattempt := Ledger.attempt_absorb m.ledger m.classify a
  obtain ⟨hattempts, hretries, hexhausted, hcancelled⟩ :=
    m.ledger.counted_append_notes notes m.classify a
  obtain ⟨-, -, ht⟩ | ⟨f, rfl, -, ht⟩ | ⟨f, hf, ht⟩ := Call.take_cases m a <;>
    rw [ht] at hsound ⊢
  · -- the batch is resolved
    rw [← List.append_assoc]
    refine ⟨hsound, h.classify_eq, (h.absorb hn a).append (by simp), ?_, ?_,
      .resolved _ rfl ?_ ?_⟩ <;> rw [counted_append_resolved]
    · rw [hretries]
      exact h.retries.trans hattempt.symm
    · rw [hattempts, hretries]
      exact hbegun
    · exact hexhausted.trans hexh
    · exact hcancelled.trans hcan
  · -- the failure does not pass
    rw [List.append_nil]
    exact ⟨hsound, h.classify_eq, h.tallied.unanswered _ f, h.retries, hbegun,
      .refused f rfl ⟨_, List.getLast?_concat⟩ hexh hcan⟩
  · -- the failure is to be put to the strategy
    refine ⟨hsound, h.classify_eq, h.absorb hn a, ?_, ?_, .underway ?_ (passing.append ?_) ?_ ?_⟩
    · rw [hretries]
      exact h.retries.trans hattempt.symm
    · show _ = _ + m.phase.begun
      rw [hattempts, hretries, hp]
      exact hbegun
    · exact fun r hr => nomatch hp.symm.trans hr
    · rintro f' rfl
      obtain ⟨hf, hpasses⟩ | ⟨⟨statuses, hok⟩, -⟩ := hf
      · rw [Except.error.inj hf]
        exact hpasses
      · exact nomatch hok
    · exact hexhausted.trans hexh
    · exact hcancelled.trans hcan

/-- **A request that is about to be sent keeps the books**: the attempt is counted. -/
theorem sent {m : Machine} (h : Books sink classify batch ⟨m, none⟩ rounds notes)
    (hp : m.phase = .ready) :
    Books sink classify batch ⟨{ m with phase := .inFlight m.ledger.request }, none⟩ rounds
      (notes ++ [.attempted]) := by
  obtain ⟨passing, hexh, hcan⟩ := h.closing.running fun r hr => nomatch hp.symm.trans hr
  have hsound := (h.sound.clear rfl).step .go
  have hstep : m.step .go = ({ m with phase := .inFlight m.ledger.request }, [.attempted]) := by
    unfold Machine.step
    rw [hp]
  have hbegun := h.attempts
  rw [show (Call.mk m none).machine.phase = .ready from hp] at hbegun
  rw [show (Call.mk m none).machine.step .go = _ from hstep] at hsound
  refine ⟨.of_machine hsound, h.classify_eq, h.tallied.append (by simp), ?_, ?_,
    .underway nofun passing ?_ ?_⟩ <;> rw [Counters.counted_append]
  · exact h.retries
  · exact congrArg (· + 1) hbegun
  · exact hexh
  · exact hcan

/-- **A delivery that goes on after a pause keeps the books**: the retry is counted. -/
theorem retried {m : Machine} (h : Books sink classify batch ⟨m, none⟩ rounds notes)
    {delay next : Nat} (hp : m.phase = .waiting delay next) :
    Books sink classify batch
      ⟨{ m with
          ledger := m.ledger.advance next
          retry := { m.retry with attempt := next }
          phase := .ready }, none⟩ rounds (notes ++ [.retried]) := by
  obtain ⟨passing, hexh, hcan⟩ := h.closing.running fun r hr => nomatch hp.symm.trans hr
  have hm := h.sound.clear rfl
  have hsound := hm.step .go
  have hstep : m.step .go
      = ({ m with
            ledger := m.ledger.advance next
            retry := { m.retry with attempt := next }
            phase := .ready }, [.retried]) := by
    unfold Machine.step
    rw [hp]
  have hnext : next = m.ledger.attempt + 1 := hm.next_eq delay next hp
  have hbegun := h.attempts
  rw [show (Call.mk m none).machine.phase = .waiting delay next from hp] at hbegun
  rw [show (Call.mk m none).machine.step .go = _ from hstep] at hsound
  refine ⟨.of_machine hsound, h.classify_eq, (h.tallied.advance next).append (by simp), ?_, ?_,
    .underway nofun passing ?_ ?_⟩ <;> rw [Counters.counted_append]
  · show (counted notes).retries + 1 + 1 = next
    rw [hnext]
    exact congrArg (· + 1) h.retries
  · exact hbegun
  · exact hexh
  · exact hcan

/-- A signal that makes no round keeps the books when what it does keeps them. -/
theorem of_step {c' : Call} {s : Signal} {more : List Note} (hstep : c.step s = (c', more))
    (hround : c.roundOf s = [])
    (h : Books sink classify batch c' rounds (notes ++ more)) :
    Books sink classify batch (c.step s).1 (rounds ++ c.roundOf s) (notes ++ (c.step s).2) := by
  rw [hstep, hround, List.append_nil]
  exact h

theorem stay (h : Books sink classify batch c rounds notes) {s : Signal}
    (hstep : c.step s = (c, [])) (hround : c.roundOf s = []) :
    Books sink classify batch (c.step s).1 (rounds ++ c.roundOf s) (notes ++ (c.step s).2) :=
  of_step hstep hround (by rw [List.append_nil]; exact h)

section

variable {m : Machine} (h : Books sink classify batch ⟨m, none⟩ rounds notes) (s : Signal)
include h

/-- A signal to a call that is about to send keeps the books. -/
theorem step_ready (hp : m.phase = .ready) :
    Books sink classify batch ((Call.mk m none).step s).1 (rounds ++ (Call.mk m none).roundOf s)
      (notes ++ ((Call.mk m none).step s).2) := by
  have hround : (Call.mk m none).roundOf s = [] := by simp only [Call.roundOf, hp]
  cases s with
  | go =>
    exact of_step (by simp only [Call.step, Call.stepClear, Machine.step, hp]) hround
      (h.sent hp)
  | answered a =>
    exact h.stay (by simp only [Call.step, Call.stepClear, Machine.step, hp]) hround
  | cancel =>
    exact of_step (by simp only [Call.step, Call.stepClear, Machine.step, hp]) hround
      (h.cancelled (by simp [hp]) (.inl ⟨hp, rfl⟩))

/-- So does one to a call that waits for an answer, which is the only one that makes a
round. -/
theorem step_inFlight (hn : (batch.map (·.id)).Nodup) (hp : m.phase = .inFlight m.ledger.request) :
    Books sink classify batch ((Call.mk m none).step s).1 (rounds ++ (Call.mk m none).roundOf s)
      (notes ++ ((Call.mk m none).step s).2) := by
  cases s with
  | go =>
    exact h.stay (by simp only [Call.step, Call.stepClear, Machine.step, hp])
      (by simp only [Call.roundOf, hp])
  | answered a =>
    have hround : (Call.mk m none).roundOf (.answered a) = [(m.ledger.request, a)] := by
      simp only [Call.roundOf, hp]
    have hstep : (Call.mk m none).step (.answered a) = Call.take m m.ledger.request a := by
      simp only [Call.step, Call.stepClear, hp]
    rw [hstep, hround]
    exact h.take hn hp a
  | cancel =>
    exact of_step (by simp only [Call.step, Call.stepClear, Machine.step, hp])
      (by simp only [Call.roundOf, hp]) (h.cancelled (by simp [hp]) (.inr ⟨by simp [hp], rfl⟩))

/-- So does one to a call that waits for its next attempt. -/
theorem step_waiting {delay next : Nat} (hp : m.phase = .waiting delay next) :
    Books sink classify batch ((Call.mk m none).step s).1 (rounds ++ (Call.mk m none).roundOf s)
      (notes ++ ((Call.mk m none).step s).2) := by
  have hround : (Call.mk m none).roundOf s = [] := by simp only [Call.roundOf, hp]
  cases s with
  | go =>
    exact of_step (by simp only [Call.step, Call.stepClear, Machine.step, hp]) hround
      (h.retried hp)
  | answered a =>
    exact h.stay (by simp only [Call.step, Call.stepClear, Machine.step, hp]) hround
  | cancel =>
    exact of_step (by simp only [Call.step, Call.stepClear, Machine.step, hp]) hround
      (h.cancelled (by simp [hp]) (.inr ⟨by simp [hp], rfl⟩))

end

/-- And one to a call that has a failure in its hands, which is judged or left behind. -/
theorem step_failing {m : Machine} (h : Books sink classify batch ⟨m, some f⟩ rounds notes)
    (s : Signal) :
    Books sink classify batch ((Call.mk m (some f)).step s).1
      (rounds ++ (Call.mk m (some f)).roundOf s) (notes ++ ((Call.mk m (some f)).step s).2) := by
  obtain ⟨request, hp⟩ := h.sound.inFlight f rfl
  have hp : m.phase = .inFlight request := hp
  cases s with
  | go => exact of_step rfl rfl h.judge
  | answered a => exact h.stay rfl rfl
  | cancel => exact of_step rfl rfl (h.cancelled (by simp [hp]) (.inr ⟨by simp [hp], rfl⟩))

/-- **Every signal keeps the books.** -/
theorem step (h : Books sink classify batch c rounds notes) (hn : (batch.map (·.id)).Nodup)
    (s : Signal) :
    Books sink classify batch (c.step s).1 (rounds ++ c.roundOf s) (notes ++ (c.step s).2) := by
  obtain ⟨m, _ | f⟩ := c
  · cases hp : m.phase with
    | ready => exact h.step_ready s hp
    | inFlight request =>
      obtain rfl : request = m.ledger.request := (h.sound.clear rfl).asked request hp
      exact h.step_inFlight s hn hp
    | waiting delay next => exact h.step_waiting s hp
    | ended r =>
      exact h.stay (by simp only [Call.step, Call.stepClear, Machine.step, hp])
        (by simp only [Call.roundOf, hp])
  · exact h.step_failing s

/-- **The books are kept all along.** -/
theorem run (hn : (batch.map (·.id)).Nodup) (signals : List Signal) :
    ∀ {c : Call} {rounds : List (List Event × Answer)} {notes : List Note},
      Books sink classify batch c rounds notes →
      Books sink classify batch (c.run signals).call (rounds ++ (c.run signals).rounds)
        (notes ++ (c.run signals).notes) := by
  induction signals with
  | nil =>
    intro c rounds notes h
    rw [Call.run, List.append_nil, List.append_nil]
    exact h
  | cons s rest ih =>
    intro c rounds notes h
    have hrest := ih (h.step hn s)
    rw [List.append_assoc, List.append_assoc] at hrest
    exact hrest

/-- **A call that begins has empty books.** -/
theorem start (sink : String) (classify : ItemStatus → ItemClass) (strategy : Retry.Strategy)
    (hne : batch ≠ []) (hn : (batch.map (·.id)).Nodup) :
    Books sink classify batch (.start sink classify strategy batch) [] [] := by
  obtain ⟨hstart, hu⟩ := Machine.start_underway sink classify strategy hne hn
  have hsound : (Machine.start sink classify strategy batch).Sound sink batch := by
    obtain h | ⟨f, hf⟩ := Machine.start_delivers sink classify strategy hne
    · exact h
    · exact nomatch hu.ready.symm.trans hf
  have hzero : ∀ c, (Ledger.fresh sink batch).settledAs c = 0 := fun c =>
    List.countP_eq_zero.mpr fun e he h => by
      obtain ⟨x, -, rfl⟩ := List.mem_map.mp he
      exact nomatch of_decide_eq_true h
  unfold Call.start
  refine ⟨.of_machine hsound, ?_, ?_, ?_, ?_, ?_⟩ <;> rw [hstart]
  · refine ⟨fun e he => ?_, (hzero .success).symm, (hzero .fatal).symm, rfl⟩
    obtain ⟨x, -, rfl⟩ := List.mem_map.mp he
    rfl
  · rfl
  · rfl
  · exact .underway nofun (fun _ _ h => nomatch h) rfl rfl

end Books

/-! ## The balance -/

/-- **Counters that balance** with what has happened to a delivery, from its beginning to its
result. -/
structure Balanced (sink : String) (classify : ItemStatus → ItemClass) (batch : List Event)
    (log : Call.Log) (r : Except Failure Report) (n : Counters) : Prop where
  /-- All attempts but the first are retries. -/
  attempts : n.attempts = n.retries + 1
  /-- Events that the answers have settled as delivered are counted. -/
  delivered : n.delivered = batch.countP fun e => fate classify log.rounds e = some .success
  /-- Events that the answers have settled as refused are counted. -/
  dropped : n.dropped = batch.countP fun e => fate classify log.rounds e = some .fatal
  /-- A report says the same. -/
  report : ∀ report, r = .ok report →
    n.delivered = report.delivered ∧ n.dropped = report.dropped ∧
      n.attempts = report.attempts ∧ n.retries = report.retries
  /-- So do the diagnostics of a batch that is given up. -/
  diagnostics : GivenUp log.call.machine log.rounds r → ∀ attempts outcomes cause,
    r = .error (.exhausted attempts outcomes cause) →
      n.delivered = outcomes.countP (·.success) ∧ n.dropped = outcomes.countP (·.isDropped)
  /-- It is counted that a batch is given up. -/
  exhausted : n.exhausted = 1 ↔ GivenUp log.call.machine log.rounds r
  /-- It is counted that a delivery is called off. -/
  cancelled : n.cancelled = 1 ↔ CalledOff sink log.rounds r
  /-- There is no more to count of an end than one of the two. -/
  once : n.exhausted + n.cancelled ≤ 1

/-- **The books of a call that has ended balance.** -/
theorem Books.balanced {log : Call.Log} (h : Books sink classify batch log.call log.rounds log.notes)
    {r : Except Failure Report} (hr : log.call.machine.result? = some r) :
    Balanced sink classify batch log r (counted log.notes) := by
  have hp : log.call.machine.phase = .ended r := Machine.result?_eq_some_iff.mp hr
  have hbatch := h.sound.holds.batch_eq
  have hattempts : (counted log.notes).attempts = (counted log.notes).retries + 1 := by
    have := h.attempts
    rw [hp] at this
    exact this
  have hclear : log.call.failing = none := by
    cases hf : log.call.failing with
    | none => rfl
    | some f =>
      obtain ⟨request, hflight⟩ := h.sound.inFlight f hf
      exact nomatch hp.symm.trans hflight
  have hm := h.sound.clear hclear
  have hsettled := h.tallied.countP_fate
  rw [hbatch] at hsettled
  have hreport : ∀ report, r = .ok report →
      (counted log.notes).delivered = report.delivered ∧
        (counted log.notes).dropped = report.dropped ∧
        (counted log.notes).attempts = report.attempts ∧
        (counted log.notes).retries = report.retries := by
    rintro report rfl
    obtain ⟨-, rfl⟩ := hm.resolved report hp
    obtain ⟨hdelivered, hdropped⟩ :=
      hm.coherent.countP_report (log.call.machine.ledger.attempt - 1)
    have hretries := h.retries
    refine ⟨h.tallied.delivered.trans hdelivered.symm, h.tallied.dropped.trans hdropped.symm,
      hattempts.trans hretries, ?_⟩
    show _ = log.call.machine.ledger.attempt - 1
    omega
  have hdiagnostics : GivenUp log.call.machine log.rounds r → ∀ attempts outcomes cause,
      r = .error (.exhausted attempts outcomes cause) →
        (counted log.notes).delivered = outcomes.countP (·.success) ∧
          (counted log.notes).dropped = outcomes.countP (·.isDropped) := by
    rintro ⟨_, reason, -, rfl, -⟩ _ _ _ ⟨⟩
    obtain ⟨hdelivered, hdropped⟩ := hm.coherent.countP_diagnostics
    exact ⟨h.tallied.delivered.trans hdelivered.symm, h.tallied.dropped.trans hdropped.symm⟩
  obtain ⟨hexhausted, hcancelled, honce⟩ := h.closing.ended hp
  exact ⟨hattempts, h.tallied.delivered.trans (hsettled .success),
    h.tallied.dropped.trans (hsettled .fatal), hreport, hdiagnostics, hexhausted, hcancelled, honce⟩

/-- **The accounts of a delivery balance.** Whatever answers come, whatever the strategy is,
and whenever it is called off, a delivery of a batch of different events adds to the
counters of its sink what balances with what has happened to it. The series of the sink
count the same, and besides that how many events its answers have left outstanding. -/
theorem Call.run_balances (sink : String) (classify : ItemStatus → ItemClass)
    (strategy : Retry.Strategy) {batch : List Event} (hne : batch ≠ [])
    (hn : (batch.map (·.id)).Nodup) (signals : List Signal) {r : Except Failure Report}
    (hr : ((start sink classify strategy batch).run signals).call.machine.result? = some r)
    (c : Counters) (t : Telemetry) :
    let log := (start sink classify strategy batch).run signals
    let t' := t.addAll (seriesOf sink log.notes)
    ∃ n, Balanced sink classify batch log r n ∧ c.recordAll log.notes = c.add n ∧
      t'.count (.attempts sink) = t.count (.attempts sink) + n.attempts ∧
      t'.count (.items sink "delivered") = t.count (.items sink "delivered") + n.delivered ∧
      t'.count (.items sink "dropped") = t.count (.items sink "dropped") + n.dropped ∧
      t'.count (.exhausted sink) = t.count (.exhausted sink) + n.exhausted ∧
      t'.count (.items sink "retried")
        = t.count (.items sink "retried") + (log.rounds.map (leftBy classify)).sum := by
  intro log t'
  have hbooks := (Books.start sink classify strategy hne hn).run hn signals
  rw [List.nil_append, List.nil_append] at hbooks
  obtain ⟨hattempts, hdelivered, hdropped, hexhausted, hleft⟩ := count_seriesOf sink log.notes t
  rw [show (log.notes.map Note.left).sum = _ from hbooks.tallied.left] at hleft
  exact ⟨counted log.notes, hbooks.balanced hr, Counters.recordAll_eq_add log.notes c, hattempts,
    hdelivered, hdropped, hexhausted, hleft⟩

/-- Of two events one is refused and the other throttled, twice: the batch is given up, and
the accounts balance. -/
theorem Call.run_balances_given_up :
    let a : Event := ⟨⟨"a"⟩, [], none⟩
    let b : Event := ⟨⟨"b"⟩, [], none⟩
    let signals : List Signal :=
      [.go, .answered (.ok [⟨none, 429, none⟩, ⟨none, 400, some "bad"⟩]), .go, .go, .go,
        .answered (.ok [⟨none, 429, none⟩]), .go]
    let log := (start "s" ItemStatus.classify (.new (.fixed 0) 2 []) [a, b]).run signals
    [a, b] ≠ [] ∧ ([a, b].map (·.id)).Nodup ∧
      ∃ r, log.call.machine.result? = some r ∧ GivenUp log.call.machine log.rounds r ∧
        Balanced "s" ItemStatus.classify [a, b] log r ⟨2, 1, 0, 1, 1, 0⟩ := by
  intro a b signals log
  have hne : [a, b] ≠ [] := by decide
  have hn : ([a, b].map (·.id)).Nodup := by decide
  obtain ⟨r, hr⟩ : ∃ r, log.call.machine.result? = some r :=
    Option.isSome_iff_exists.mp (by decide)
  obtain ⟨n, hbal, hadd, -⟩ := Call.run_balances "s" ItemStatus.classify (.new (.fixed 0) 2 []) hne
    hn signals hr {} []
  have hnotes : ({} : Counters).recordAll log.notes = ⟨2, 1, 0, 1, 1, 0⟩ := by decide
  obtain rfl : n = ⟨2, 1, 0, 1, 1, 0⟩ := (zero_add n).symm.trans (hadd.symm.trans hnotes)
  exact ⟨hne, hn, r, hr, hbal.exhausted.mp rfl, hbal⟩

end Courier.Delivery
