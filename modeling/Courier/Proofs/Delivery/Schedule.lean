import Mathlib.Logic.Function.Iterate
import Courier.Delivery.Dispatch
import Courier.Proofs.Delivery.Report
/-!
# A delivery on the clock

Every round of a delivery on a clock is three steps: a request is sent, it is answered,
and the delivery waits, unless it has ended (`Transport.Scheduled`). So its
requests do not overlap, the wait after each answer but the last is the one that
the policy has for its attempt, and the ledger and the course of attempts count
the requests as they are sent, up to the greatest number that can be counted.
-/

namespace Courier.Delivery

variable {σ : Type}

namespace Transport

variable (t : Transport σ) {c : Moment σ}

theorem after_add (n m : Nat) (c : Moment σ) : t.after (n + m) c = t.after n (t.after m c) :=
  Function.iterate_add_apply t.next n m c

theorem after_succ (n : Nat) (c : Moment σ) : t.after (n + 1) c = t.next (t.after n c) :=
  Function.iterate_succ_apply' t.next n c

/-- **Time does not go back.** -/
theorem time_le_next (c : Moment σ) : c.time ≤ (t.next c).time := by
  unfold next
  cases c.machine.phase with
  | ready => exact Nat.le_refl _
  | inFlight request => exact Nat.le_add_right _ _
  | waiting delay next => exact Nat.le_add_right _ _
  | ended r => exact Nat.le_refl _

/-- A moment after more steps is not earlier. -/
theorem time_mono {n m : Nat} (h : n ≤ m) (c : Moment σ) :
    (t.after n c).time ≤ (t.after m c).time := by
  induction h with
  | refl => exact Nat.le_refl _
  | @step m _ ih =>
    rw [after_succ]
    exact Nat.le_trans ih (t.time_le_next _)

/-- **After its end nothing happens to a delivery.** -/
theorem after_ended {r : Except Failure Report} (h : c.machine.phase = .ended r) (n : Nat) :
    t.after n c = c := by
  have hnext : t.next c = c := by
    unfold next
    rw [h]
  exact Function.iterate_fixed hnext n

/-! ## One round -/

/-- **A request is sent at once.** -/
theorem after_one (h : c.machine.phase = .ready) :
    t.after 1 c
      = { c with machine := { c.machine with phase := .inFlight c.machine.ledger.request } } := by
  show t.next c = _
  simp only [next, Machine.step, h]

/-- **It is answered** when the sink has answered. -/
theorem after_two (h : c.machine.phase = .ready) :
    t.after 2 c
      = { time := c.time + t.took c.state c.machine.ledger.request
          state := (t.exchange c.state c.machine.ledger.request).1
          machine := (c.machine.take c.machine.ledger.request
            (t.exchange c.state c.machine.ledger.request).2).1 } := by
  rw [after_succ, after_one t h]
  simp only [next, Machine.step, Machine.take_phase]

/-- **A delivery that waits is about to send again** when its wait is over. -/
theorem next_waiting {delay attempt : Nat} (h : c.machine.phase = .waiting delay attempt) :
    t.next c
      = { c with
          time := c.time + delay
          machine := c.machine.resumed attempt } := by
  simp only [next, Machine.step, h]
  rfl

/-! ## All rounds -/

/-- **The schedule of a delivery's requests**, the first of which is the attempt of a
number: each round is three steps. -/
structure Scheduled (policy : Retry.Policy) (k : Nat) (requests : List (List Event))
    (c : Moment σ) : Prop where
  /-- Each request is sent as the attempt of its number, as the ledger counts it and
  as the course of attempts does. -/
  sent : ∀ {j : Nat} {r : List Event}, requests[j]? = some r →
    (t.after (3 * j + 1) c).machine.phase = .inFlight r ∧
      (t.after (3 * j + 1) c).machine.ledger.attempt = k + j ∧
      (t.after (3 * j + 1) c).machine.retry.attempt = k + j
  /-- Nothing else is ever in flight. -/
  only : ∀ {i : Nat} {r : List Event}, (t.after i c).machine.phase = .inFlight r →
    ∃ j, i = 3 * j + 1 ∧ requests[j]? = some r
  /-- Each is answered when the sink has answered it. -/
  heard : ∀ {j : Nat} {r : List Event}, requests[j]? = some r →
    (t.after (3 * j + 2) c).time
      = (t.after (3 * j + 1) c).time + t.took (t.after (3 * j + 1) c).state r
  /-- The next one is sent when the wait of the policy is over. -/
  waits : ∀ {j : Nat}, j + 1 < requests.length →
    (t.after (3 * j + 2) c).machine.phase = .waiting (policy.delay (k + j)) (k + j + 1) ∧
      (t.after (3 * (j + 1) + 1) c).time = (t.after (3 * j + 2) c).time + policy.delay (k + j)
  /-- The answer to the last one is the end. -/
  ended : ∃ r, (t.after (3 * requests.length - 1) c).machine.phase = .ended r

variable {t} {batch : List Event} {policy : Retry.Policy} {k : Nat}

/-- **A round that ends a delivery** is all of its schedule. -/
theorem Scheduled.single (hu : c.machine.Underway batch k) {r : Except Failure Report}
    (hend : (t.after 2 c).machine.phase = .ended r) :
    t.Scheduled policy k [c.machine.ledger.request] c where
  sent {j r} hr := by
    obtain ⟨rfl, rfl⟩ : j = 0 ∧ c.machine.ledger.request = r := by
      cases j with
      | zero => exact ⟨rfl, Option.some.inj hr⟩
      | succ j => cases hr
    rw [after_one t hu.ready]
    exact ⟨rfl, hu.ledger_attempt, hu.retry_attempt⟩
  only {i r} hr := by
    rcases i with _ | _ | i
    · cases hu.ready.symm.trans hr
    · rw [after_one t hu.ready] at hr
      exact ⟨0, rfl, congrArg some (Phase.inFlight.inj hr)⟩
    · rw [show i + 1 + 1 = i + 2 by rfl, after_add, after_ended t hend] at hr
      cases hend.symm.trans hr
  heard {j r} hr := by
    obtain ⟨rfl, rfl⟩ : j = 0 ∧ c.machine.ledger.request = r := by
      cases j with
      | zero => exact ⟨rfl, Option.some.inj hr⟩
      | succ j => cases hr
    rw [after_two t hu.ready, after_one t hu.ready]
  waits h := absurd h (by simp)
  ended := ⟨r, hend⟩

/-- **A round before others**: three steps later they follow it. -/
theorem Scheduled.cons (hu : c.machine.Underway batch k) {requests : List (List Event)}
    (hw : (t.after 2 c).machine.phase = .waiting (policy.delay k) (k + 1))
    (hready : (t.after 3 c).machine.phase = .ready) (hne : 0 < requests.length)
    (h : t.Scheduled policy (k + 1) requests (t.after 3 c)) :
    t.Scheduled policy k (c.machine.ledger.request :: requests) c where
  sent {j r} hr := by
    cases j with
    | zero =>
      obtain rfl := Option.some.inj hr
      rw [after_one t hu.ready]
      exact ⟨rfl, hu.ledger_attempt, hu.retry_attempt⟩
    | succ j =>
      rw [show 3 * (j + 1) + 1 = 3 * j + 1 + 3 by omega, after_add,
        show k + (j + 1) = k + 1 + j by omega]
      exact h.sent hr
  only {i r} hr := by
    rcases i with _ | _ | _ | i
    · cases hu.ready.symm.trans hr
    · rw [after_one t hu.ready] at hr
      exact ⟨0, rfl, congrArg some (Phase.inFlight.inj hr)⟩
    · cases hw.symm.trans hr
    · rw [show i + 1 + 1 + 1 = i + 3 by rfl, after_add] at hr
      obtain ⟨j, rfl, hj⟩ := h.only hr
      exact ⟨j + 1, by omega, hj⟩
  heard {j r} hr := by
    cases j with
    | zero =>
      obtain rfl := Option.some.inj hr
      rw [after_two t hu.ready, after_one t hu.ready]
    | succ j =>
      rw [show 3 * (j + 1) + 1 = 3 * j + 1 + 3 by omega,
        show 3 * (j + 1) + 2 = 3 * j + 2 + 3 by omega, after_add, after_add]
      exact h.heard hr
  waits {j} hj := by
    cases j with
    | zero =>
      refine ⟨hw, ?_⟩
      rw [show 3 * (0 + 1) + 1 = 1 + 3 by rfl, after_add, after_one t hready]
      show (t.after 3 c).time = _
      rw [after_succ, next_waiting t hw]
      rfl
    | succ j =>
      rw [show 3 * (j + 1) + 2 = 3 * j + 2 + 3 by omega,
        show 3 * (j + 1 + 1) + 1 = 3 * (j + 1) + 1 + 3 by omega, after_add, after_add,
        show k + (j + 1) = k + 1 + j by omega]
      exact h.waits (Nat.lt_of_succ_lt_succ hj)
  ended := by
    obtain ⟨r, hr⟩ := h.ended
    refine ⟨r, ?_⟩
    rw [List.length_cons, show 3 * (requests.length + 1) - 1 = 3 * requests.length - 1 + 3 by omega,
      after_add]
    exact hr

/-- **A round ends a delivery, or is followed by another one** after the wait of the
policy. -/
theorem round_cases (t : Transport σ) (hu : c.machine.Underway batch k) :
    (∃ r, (t.after 2 c).machine.phase = .ended r) ∨
      (t.after 2 c).machine.phase
          = .waiting (c.machine.retry.strategy.policy.delay k) (k + 1) ∧
        k < c.machine.retry.strategy.maxAttempts ∧
        (t.after 3 c).machine.Underway batch (k + 1) ∧
        (t.after 3 c).machine.retry.strategy = c.machine.retry.strategy := by
  rw [after_succ t 2]
  generalize hc : t.after 2 c = c₂
  rw [after_two t hu.ready] at hc
  generalize (t.exchange c.state c.machine.ledger.request).2 = a at hc
  subst hc
  obtain ⟨r, hend⟩ | ⟨delay, next, hw⟩ := Machine.take_ends_or_waits c.machine a
  · exact .inl ⟨r, hend⟩
  · obtain ⟨f, -, hv, ht⟩ := Machine.take_waiting hw
    obtain ⟨hdelay, -, hlt⟩ := Machine.verdict_proceed hv
    obtain ⟨rfl, hu'⟩ := hu.next hw
    have hpeek : delay = c.machine.retry.strategy.policy.delay k := by
      rw [hdelay, ← hu.retry_attempt]
      rfl
    rw [hu.retry_attempt] at hlt
    refine .inr ⟨hpeek ▸ hw, hlt, ?_⟩
    rw [next_waiting t hw]
    refine ⟨hu', ?_⟩
    show ((c.machine.take c.machine.ledger.request a).1.resumed (k + 1)).retry.strategy = _
    rw [ht]
    rfl

/-- Driving a delivery goes through the first two steps on the clock. -/
theorem drive_after_two (t : Transport σ) (h : c.machine.phase = .ready) (phases : Nat) :
    (c.machine.drive t.exchange (phases + 2) c.state).machine
        = ((t.after 2 c).machine.drive t.exchange phases (t.after 2 c).state).machine ∧
      (c.machine.drive t.exchange (phases + 2) c.state).requests
        = c.machine.ledger.request ::
          ((t.after 2 c).machine.drive t.exchange phases (t.after 2 c).state).requests := by
  rw [after_two t h]
  exact Machine.drive_round t.exchange h phases c.state

/-- And through the third one, when it waits. -/
theorem drive_after_three (t : Transport σ) (h : c.machine.phase = .ready) {delay attempt : Nat}
    (hw : (t.after 2 c).machine.phase = .waiting delay attempt) (phases : Nat) :
    (c.machine.drive t.exchange (phases + 3) c.state).machine
        = ((t.after 3 c).machine.drive t.exchange phases (t.after 3 c).state).machine ∧
      (c.machine.drive t.exchange (phases + 3) c.state).requests
        = c.machine.ledger.request ::
          ((t.after 3 c).machine.drive t.exchange phases (t.after 3 c).state).requests := by
  obtain ⟨hm, hr⟩ := drive_after_two t h (phases + 1)
  rw [after_succ t 2, next_waiting t hw]
  rw [Machine.drive_waiting t.exchange hw] at hm hr
  exact ⟨hm, hr⟩

/-- **A delivery under way keeps to its schedule** until it ends, within as many
requests as there are attempts left. -/
theorem drive_scheduled (t : Transport σ) (left : Nat) : ∀ (k phases : Nat) (c : Moment σ),
    c.machine.Underway batch k → c.machine.retry.strategy.maxAttempts ≤ k + left →
    3 * left + 2 ≤ phases →
    let course := c.machine.drive t.exchange phases c.state
    0 < course.requests.length ∧ course.requests.length ≤ left + 1 ∧
      t.Scheduled c.machine.retry.strategy.policy k course.requests c ∧
      course.machine = (t.after (3 * course.requests.length - 1) c).machine := by
  -- on the attempts left after this one: a round uses one of them up, or is the last
  induction left with
  | zero =>
    intro k phases c hu hmax hphases course
    obtain ⟨phases, rfl⟩ := Nat.exists_eq_add_of_le' hphases
    obtain ⟨hm, hr⟩ := drive_after_two t hu.ready phases
    obtain ⟨r, hend⟩ | ⟨-, hlt, -, -⟩ := round_cases t hu
    · rw [Machine.drive_ended t.exchange hend] at hm hr
      rw [show course.machine = _ from hm, show course.requests = _ from hr]
      exact ⟨Nat.one_pos, Nat.le_refl 1, .single hu hend, rfl⟩
    · -- the last attempt is not followed by another
      omega
  | succ left ih =>
    intro k phases c hu hmax hphases course
    obtain ⟨phases, rfl⟩ := Nat.exists_eq_add_of_le' (show 3 ≤ phases by omega)
    obtain ⟨hm, hr⟩ := drive_after_two t hu.ready (phases + 1)
    obtain ⟨r, hend⟩ | ⟨hw, hlt, hu', hst⟩ := round_cases t hu
    · rw [Machine.drive_ended t.exchange hend] at hm hr
      rw [show course.machine = _ from hm, show course.requests = _ from hr]
      exact ⟨Nat.one_pos, Nat.le_add_left 1 _, .single hu hend, rfl⟩
    · obtain ⟨hm, hr⟩ := drive_after_three t hu.ready hw phases
      rw [show course.machine = _ from hm, show course.requests = _ from hr]
      obtain ⟨hpos, hle, hsched, hlast⟩ := ih (k + 1) phases (t.after 3 c) hu'
        (by rw [hst]; omega) (by omega)
      rw [hst] at hsched
      rw [List.length_cons]
      refine ⟨Nat.succ_pos _, Nat.succ_le_succ hle, .cons hu hw hu'.ready hpos hsched, ?_⟩
      rw [hlast, ← after_add]
      congr 2
      omega

end Transport

/-- **A delivery keeps to its schedule**, on any clock and however long its answers
take. Its first request is the batch, and it is sent before anything else happens:
no time has passed, and the strategy has not been asked. No request is sent before
the answer to each one before it has come. The delivery ends with the answer to
the last one, after no more of them than the strategy has attempts, and nothing
happens to it after that. -/
theorem deliver_scheduled (sink : String) (classify : ItemStatus → ItemClass)
    (policy : Retry.Policy) (maxAttempts : UInt32) (kinds : List Failure.Kind)
    (t : Transport σ) (time : Nat) (s : σ) (batch : List Event) (hne : batch ≠ [])
    (hn : (batch.map (·.id)).Nodup) :
    let strategy := Retry.Strategy.new policy maxAttempts.toNat kinds
    let course := Machine.deliver sink classify strategy t.exchange s batch
    let c : Moment σ := ⟨time, s, Machine.start sink classify strategy batch⟩
    let n := course.requests.length
    1 ≤ n ∧ n ≤ max 1 maxAttempts.toNat ∧
      t.after 1 c = { c with machine := { c.machine with phase := .inFlight batch } } ∧
      t.Scheduled policy 1 course.requests c ∧
      (∀ i j, i < j → (t.after (3 * i + 2) c).time ≤ (t.after (3 * j + 1) c).time) ∧
      (∀ i, t.after (i + (3 * (n - 1) + 2)) c = t.after (3 * (n - 1) + 2) c) ∧
      (t.after (3 * (n - 1) + 2) c).machine = course.machine := by
  intro strategy course c n
  obtain ⟨hm, hu⟩ := Machine.start_underway sink classify strategy hne hn
  have hmax : strategy.maxAttempts = max 1 maxAttempts.toNat :=
    Machine.maxAttempts_new policy maxAttempts kinds
  have hretry : c.machine.retry = strategy.session := congrArg Machine.retry hm
  have hpolicy : c.machine.retry.strategy.policy = policy := by
    rw [hretry]
    rfl
  obtain ⟨hpos, hle, hsched, hlast⟩ : 0 < n ∧ n ≤ strategy.maxAttempts - 1 + 1 ∧
      t.Scheduled policy 1 course.requests c ∧
      course.machine = (t.after (3 * n - 1) c).machine := by
    rw [← hpolicy]
    refine Transport.drive_scheduled t (strategy.maxAttempts - 1) 1 c.machine.phasesLeft c hu ?_ ?_
    · rw [hretry]
      show strategy.maxAttempts ≤ _
      omega
    · unfold Machine.phasesLeft
      rw [hretry]
      show _ ≤ 3 * (strategy.maxAttempts - 1 + 1) + 1
      omega
  have hlen : 3 * n - 1 = 3 * (n - 1) + 2 := by omega
  have hfirst : c.machine.ledger.request = batch := by
    rw [show c.machine = _ from hm]
    exact Ledger.request_fresh sink batch
  refine ⟨hpos, ?_, ?_, hsched, ?_, ?_, ?_⟩
  · have := strategy.pos
    omega
  · rw [Transport.after_one t hu.ready, hfirst]
  · exact fun i j hij => t.time_mono (by omega) c
  · intro i
    obtain ⟨r, hend⟩ := hsched.ended
    rw [show 3 * course.requests.length - 1 = _ from hlen] at hend
    rw [Transport.after_add, Transport.after_ended t hend]
  · rw [← hlen]
    exact hlast.symm

/-- A delivery that starts at five and is throttled after thirty milliseconds sends
again a hundred later, as the policy has it, and ends when that is answered. -/
theorem deliver_scheduled_throttled :
    let a : Event := ⟨⟨"a"⟩, [], none⟩
    let t : Transport (List (Nat × Answer)) :=
      { exchange := fun answers _ => (answers.tail, (answers.headD (0, .ok [])).2)
        took := fun answers _ => (answers.headD (0, .ok [])).1 }
    let answers : List (Nat × Answer) :=
      [(30, .ok [⟨none, 429, none⟩]), (20, .ok [⟨none, 201, none⟩])]
    let c : Moment (List (Nat × Answer)) :=
      ⟨5, answers, .start "s" ItemStatus.classify (.new (.linear 100) 0xFFFFFFFF []) [a]⟩
    [a] ≠ [] ∧ ([a].map (·.id)).Nodup ∧
      t.Scheduled (.linear 100) 1 [[a], [a]] c ∧
      [1, 2, 4, 5].map (fun i => (t.after i c).time) = [5, 35, 135, 155] := by
  intro a t answers c
  have hreq : (Machine.deliver "s" ItemStatus.classify (.new (.linear 100) 0xFFFFFFFF [])
      t.exchange answers [a]).requests = [[a], [a]] := by
    decide +kernel
  have h := (deliver_scheduled "s" ItemStatus.classify (.linear 100) 0xFFFFFFFF [] t 5 answers
    [a] (by decide) (by decide)).2.2.2.1
  exact ⟨by decide, by decide, hreq ▸ h, by decide +kernel⟩

end Courier.Delivery
