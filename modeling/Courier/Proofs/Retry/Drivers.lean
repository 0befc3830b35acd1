import Courier.Proofs.Delivery.Rounds
import Courier.Proofs.Interleaving
import Courier.Retry.Driving
import Mathlib.Data.Nat.Find
import Mathlib.Order.Bounds.Basic
/-!
# One law of trying again

A strategy is put to work in three ways. A thread calls an operation and sleeps
between the calls (`Session.block`); a task makes the same calls and is woken
when what it waits for is there, or for nothing (`Stage.wake`); and somebody
else makes the calls, and asks a session about each failure (`Session.decide`).

The three go by one law. A course ends with the first call that closes it: one
that succeeds, one that fails in a way that is not worth another attempt, or the
last that there is (`Strategy.Closes`). Before it stand as many calls as its
number says, and the delays between them; what comes of it is in its result
alone (`Strategy.ending`). `Strategy.drivers_agree` has the law for the model of
a course and for each of the three ways, and that sessions of one strategy, or
tasks, do not disturb each other.
-/

namespace Courier.Retry

variable {α : Type}

/-! ## The law -/

/-- **A call that closes a course**, by its number and its result: it succeeds, its
failure is not worth another attempt, or it is the last one. -/
def Strategy.Closes (s : Strategy) (call : Nat) (result : Except Failure α) : Prop :=
  (∃ a, result = .ok a) ∨
    (∃ f, result = .error f ∧ Failure.permits s.kinds f.kind = false) ∨ call = s.maxAttempts

/-- **What comes of a course** that a call closes. -/
def Strategy.ending (s : Strategy) (call : Nat) : Except Failure α → Except Failure α
  | .ok a => .ok a
  | .error f => .error (if Failure.permits s.kinds f.kind then .exhausted call [] f else f)

/-- Why there is no other attempt after a failure that closes a course. -/
def Strategy.reason (s : Strategy) (call : Nat) (f : Failure) : Reason :=
  if Failure.permits s.kinds f.kind then .exhausted call else .notRetryable call f.kind

/-- **The acts of a course** from a call on, with so many calls before the last. -/
def Strategy.acts (s : Strategy) (call before : Nat) : List Act :=
  (List.range' call before).flatMap (fun k => [.call k, .wait (s.policy.delay k)])
    ++ [.call (call + before)]

variable {s : Strategy} {results : Nat → Except Failure α} {call last : Nat} {f : Failure}

/-- **Every course ends**: there is a first call that closes it. -/
theorem Strategy.exists_isLeast_closes (s : Strategy) (results : Nat → Except Failure α) :
    ∃ n, IsLeast {k | 1 ≤ k ∧ s.Closes k (results k)} n := by
  classical
  have hex : ∃ k, 1 ≤ k ∧ s.Closes k (results k) := ⟨s.maxAttempts, s.pos, .inr (.inr rfl)⟩
  exact ⟨Nat.find hex, Nat.find_spec hex, fun k hk => Nat.find_min' hex hk⟩

/-- The reason surfaces as what comes of the course. -/
theorem Strategy.ending_error (s : Strategy) (call : Nat) (f : Failure) :
    s.ending call (.error f : Except Failure α) = .error ((s.reason call f).surfaced f) := by
  unfold reason
  show (.error (if _ then _ else _) : Except Failure α) = _
  split <;> rfl

/-- **After a failure that closes a course the session stops**, with the reason for it. -/
theorem verdict_of_closes (h : s.Closes call (.error f : Except Failure α)) :
    (⟨s, call⟩ : Session).verdict f = .terminal (s.reason call f) := by
  unfold Session.verdict Strategy.reason
  cases hp : Failure.permits s.kinds f.kind with
  | false => rfl
  | true =>
    obtain ⟨a, h⟩ | ⟨f', h, hp'⟩ | h := h
    · exact nomatch h
    · injection h with h
      rw [← h, hp] at hp'
      exact Bool.noConfusion hp'
    · exact if_pos (Nat.le_of_eq h.symm)

/-- **After any other failure it goes on**, to the next attempt when the delay for this one
is over. -/
theorem verdict_of_not_closes (hle : call ≤ s.maxAttempts)
    (h : ¬ s.Closes call (.error f : Except Failure α)) :
    (⟨s, call⟩ : Session).verdict f = .proceed (s.policy.delay call) (call + 1) := by
  unfold Strategy.Closes at h
  push Not at h
  have hp : Failure.permits s.kinds f.kind = true := by simpa using h.2.1 f rfl
  have hlt : ¬ s.maxAttempts ≤ call := fun hge => h.2.2 (Nat.le_antisymm hle hge)
  have hlast := s.le_last
  have hnext : min (call + 1) lastAttempt = call + 1 := by omega
  unfold Session.verdict
  simp only [hp, Bool.not_true, Bool.false_eq_true, if_false, hlt]
  show Verdict.proceed (s.policy.delay call) (min (call + 1) lastAttempt) = _
  rw [hnext]

/-- A result that does not close a course is a failure. -/
theorem exists_error_of_not_closes {result : Except Failure α} (h : ¬ s.Closes call result) :
    ∃ f, result = .error f := by
  cases result with
  | ok a => exact absurd (.inl ⟨a, rfl⟩) h
  | error f => exact ⟨f, rfl⟩

section

variable (hlast : IsLeast {k | 1 ≤ k ∧ s.Closes k (results k)} last)
include hlast

theorem le_maxAttempts_of_isLeast : last ≤ s.maxAttempts :=
  hlast.2 ⟨s.pos, .inr (.inr rfl)⟩

/-- No call before the last closes the course: each fails, and the session goes on. -/
theorem verdict_before_last (h : 1 ≤ call) (hlt : call < last) :
    ∃ f, results call = .error f ∧
      (⟨s, call⟩ : Session).verdict f = .proceed (s.policy.delay call) (call + 1) := by
  have hopen : ¬ s.Closes call (results call) := fun hc =>
    absurd (hlast.2 ⟨h, hc⟩) (Nat.not_le_of_lt hlt)
  obtain ⟨f, hf⟩ := exists_error_of_not_closes hopen
  rw [hf] at hopen
  exact ⟨f, hf, verdict_of_not_closes
    ((Nat.le_of_lt hlt).trans (le_maxAttempts_of_isLeast hlast)) hopen⟩

/-- **The rest of a course from a call on**, with so many calls before the last. -/
theorem run_from (before : Nat) : ∀ {call : Nat} (_ : 1 ≤ call) (_ : call + before = last)
    (elapsed : Nat),
    (⟨s, call⟩ : Session).run (fun i => results (i + 1)) (fun _ => true) (call - 1) elapsed
      = ⟨(List.range' call before).map s.policy.delay, some (s.ending last (results last))⟩ := by
  induction before with
  | zero =>
    intro call h heq elapsed
    obtain rfl : call = last := heq
    rw [Session.run, Nat.sub_add_cancel h]
    cases hr : results call with
    | ok a => rfl
    | error f =>
      have hv := verdict_of_closes (hr ▸ hlast.1.2)
      dsimp only
      split
      · next reason h' =>
        rw [← Verdict.terminal.inj (hv.symm.trans h'), Strategy.ending_error]
        rfl
      · next h' =>
        rw [hv] at h'
        cases h'
  | succ before ih =>
    intro call h heq elapsed
    obtain ⟨f, hf, hv⟩ := verdict_before_last hlast h (by omega)
    rw [Session.run, Nat.sub_add_cancel h, hf]
    dsimp only
    split
    · next h' =>
      rw [hv] at h'
      cases h'
    · next delay next h' =>
      obtain ⟨rfl, rfl⟩ := Verdict.proceed.inj (hv.symm.trans h')
      have hrest := ih (Nat.le_add_left 1 call) (by omega) (elapsed + s.policy.delay call)
      have hafter : (⟨s, call⟩ : Session).after (.proceed (s.policy.delay call) (call + 1))
          = ⟨s, call + 1⟩ := rfl
      rw [Nat.add_sub_cancel] at hrest
      rw [if_pos rfl, hv, hafter, hrest, List.range'_succ, List.map_cons]

end

/-! ## A failure put to a session -/

namespace Session

theorem decide_eq (s : Session) (f : Failure) :
    s.decide f = (s.after (s.verdict f), s.verdict f) := by
  unfold decide evaluate verdict
  split_ifs <;> rfl

/-- A session that has given its verdict waits, or does not. -/
theorem onFailure_of_terminal {s : Session} {f : Failure} {reason : Reason}
    (h : s.verdict f = .terminal reason) : s.onFailure f = .error reason := by
  unfold verdict at h
  unfold onFailure evaluate
  split_ifs at h ⊢
  · exact congrArg Except.error (Verdict.terminal.inj h)
  · exact congrArg Except.error (Verdict.terminal.inj h)

/-- A session that goes on waits for the delay, and then is at the next attempt. -/
theorem onFailure_of_proceed {s : Session} {f : Failure} {delay next : Nat}
    (h : s.verdict f = .proceed delay next) :
    s.onFailure f = .ok (delay, { s with attempt := next }) := by
  unfold verdict at h
  unfold onFailure evaluate
  split_ifs at h ⊢
  obtain ⟨rfl, rfl⟩ := Verdict.proceed.inj h
  rfl

/-! ## A thread that sleeps -/

/-- **What a thread does is the law**, from any call on. -/
theorem block_from (hlast : IsLeast {k | 1 ≤ k ∧ s.Closes k (results k)} last) (before : Nat) :
    ∀ {call : Nat} (_ : 1 ≤ call) (_ : call + before = last),
      block results ⟨s, call⟩ call = (s.acts call before, s.ending last (results last)) := by
  induction before with
  | zero =>
    intro call h heq
    obtain rfl : call = last := heq
    cases hr : results call with
    | ok a => exact block_ok hr
    | error f =>
      rw [block_stop hr (onFailure_of_terminal (verdict_of_closes (hr ▸ hlast.1.2))),
        Strategy.ending_error]
      rfl
  | succ before ih =>
    intro call h heq
    obtain ⟨f, hf, hv⟩ := verdict_before_last hlast h (by omega)
    rw [block_go hf (onFailure_of_proceed hv), ih (Nat.le_add_left 1 call) (by omega)]
    unfold Strategy.acts
    rw [List.range'_succ, List.flatMap_cons, List.append_assoc, Nat.add_right_comm call 1 before]
    rfl

end Session

/-! ## A task that is woken -/

namespace Stage

/-- **What a task has still to do**, and what it will return: what a thread would do. -/
def rest (results : Nat → Except Failure α) : Stage α → List Act × Except Failure α
  | .due call s => s.block results call
  | .called call s => ((s.block results call).1.tail, (s.block results call).2)
  | .returned r => ([], r)

/-- Whether a task has returned. -/
def IsReturned : Stage α → Prop
  | .returned _ => True
  | _ => False

/-- A task that has returned has nothing to do. -/
theorem IsReturned.eq {stage : Stage α} (h : stage.IsReturned)
    (results : Nat → Except Failure α) :
    stage = .returned (stage.rest results).2 := by
  cases stage with
  | due call s => exact h.elim
  | called call s => exact h.elim
  | returned r => rfl

/-- What a thread does begins with its call. -/
theorem block_eq_cons (results : Nat → Except Failure α) (s : Session) (call : Nat) :
    ∃ more, (s.block results call).1 = .call call :: more := by
  cases hr : results call with
  | ok a => exact ⟨[], by rw [Session.block_ok hr]⟩
  | error f =>
    cases hf : s.onFailure f with
    | error reason => exact ⟨[], by rw [Session.block_stop hr hf]⟩
    | ok go => exact ⟨_, by rw [Session.block_go hr hf]⟩

/-- **A task does the next thing that is left to do** when it is woken, and returns when
nothing is left. -/
theorem wake_rest (results : Nat → Except Failure α) (stage : Stage α) (ready : Bool) :
    (stage.wake results ready).2 ++ ((stage.wake results ready).1.rest results).1
        = (stage.rest results).1 ∧
      ((stage.wake results ready).1.rest results).2 = (stage.rest results).2 ∧
      (ready = true → (stage.wake results ready).1.IsReturned ∨
        ((stage.wake results ready).1.rest results).1.length < (stage.rest results).1.length) := by
  cases ready with
  | false => exact ⟨rfl, rfl, fun h => nomatch h⟩
  | true =>
    cases stage with
    | due call s =>
      obtain ⟨more, hmore⟩ := block_eq_cons results s call
      refine ⟨?_, rfl, fun _ => .inr ?_⟩
      · show .call call :: (s.block results call).1.tail = (s.block results call).1
        rw [hmore]
        rfl
      · show (s.block results call).1.tail.length < (s.block results call).1.length
        rw [hmore]
        exact Nat.lt_succ_self _
    | called call s =>
      have hwake : (called call s).wake results true = answered call s (results call) := rfl
      have hrest : (called call s).rest results
          = ((s.block results call).1.tail, (s.block results call).2) := rfl
      rw [hwake, hrest]
      cases hr : results call with
      | ok a =>
        rw [Session.block_ok hr]
        exact ⟨rfl, rfl, fun _ => .inl trivial⟩
      | error f =>
        cases hf : s.onFailure f with
        | error reason =>
          have hanswered : answered call s (.error f : Except Failure α)
              = (.returned (.error (reason.surfaced f)), []) := by simp only [answered, hf]
          rw [Session.block_stop hr hf, hanswered]
          exact ⟨rfl, rfl, fun _ => .inl trivial⟩
        | ok go =>
          have hanswered : answered call s (.error f : Except Failure α)
              = (.due (call + 1) go.2, [.wait go.1]) := by simp only [answered, hf]
          rw [Session.block_go hr hf, hanswered]
          exact ⟨rfl, rfl, fun _ => .inr (Nat.lt_succ_self _)⟩
    | returned r => exact ⟨rfl, rfl, fun _ => .inl trivial⟩

/-- A task that has returned stays so. -/
theorem IsReturned.wake {stage : Stage α} (h : stage.IsReturned) (ready : Bool) :
    (stage.wake results ready).1 = stage := by
  cases stage with
  | due call s => exact h.elim
  | called call s => exact h.elim
  | returned r => cases ready <;> rfl

/-- **What a task has done and what it has still to do** are what it had to do, however it
is woken; and when it is woken often enough, nothing is left. -/
theorem alone_rest (results : Nat → Except Failure α) (wakes : List Bool) :
    ∀ stage : Stage α,
      (alone (wake results) stage wakes).2.flatten
          ++ ((alone (wake results) stage wakes).1.rest results).1 = (stage.rest results).1 ∧
        ((alone (wake results) stage wakes).1.rest results).2 = (stage.rest results).2 ∧
        (stage.IsReturned ∨ (stage.rest results).1.length < wakes.count true →
          (alone (wake results) stage wakes).1.IsReturned) := by
  induction wakes with
  | nil =>
    intro stage
    exact ⟨rfl, rfl, fun h => h.resolve_right (Nat.not_lt_zero _)⟩
  | cons ready wakes ih =>
    intro stage
    obtain ⟨hacts, hresult, hless⟩ := wake_rest results stage ready
    obtain ⟨hacts', hresult', hreturned⟩ := ih (stage.wake results ready).1
    refine ⟨?_, hresult'.trans hresult, fun h => hreturned ?_⟩
    · rw [alone, List.flatten_cons, List.append_assoc, hacts', hacts]
    · obtain h | h := h
      · rw [h.wake]
        exact .inl h
      · cases ready with
        | false => exact .inr (by rw [List.count_cons_of_ne (by decide)] at h; exact h)
        | true =>
          rw [List.count_cons_self] at h
          exact (hless rfl).imp id fun hlt => by omega

end Stage

/-- The acts of a course are two for each call but the last. -/
theorem Strategy.length_acts (s : Strategy) (call before : Nat) :
    (s.acts call before).length = 2 * before + 1 := by
  unfold acts
  rw [List.length_append, List.length_flatMap]
  show ((List.range' call before).map fun _ => 2).sum + 1 = _
  rw [List.map_const', List.sum_replicate_nat, List.length_range', Nat.mul_comm]

/-! ## A session that is asked -/

/-- **A session asked about the failures before the last call** goes on after each, with
the delays of the law. -/
theorem decide_before_last (hlast : IsLeast {k | 1 ≤ k ∧ s.Closes k (results k)} last)
    (failures : List Failure) : ∀ {call : Nat} (_ : 1 ≤ call)
    (_ : call + failures.length ≤ last)
    (_ : failures.map .error = (List.range' call failures.length).map results),
    alone Session.decide ⟨s, call⟩ failures
      = (⟨s, call + failures.length⟩,
          (List.range' call failures.length).map fun k =>
            .proceed (s.policy.delay k) (k + 1)) := by
  induction failures with
  | nil => exact fun _ _ _ => rfl
  | cons f failures ih =>
    intro call h hle heq
    rw [List.length_cons] at hle
    rw [List.length_cons, List.range'_succ, List.map_cons, List.map_cons] at heq
    obtain ⟨hf, heq⟩ := List.cons.inj heq
    obtain ⟨f', hf', hv⟩ := verdict_before_last hlast h (by omega)
    obtain rfl : f = f' := Except.error.inj (hf.trans hf')
    have hdecide : (⟨s, call⟩ : Session).decide f
        = (⟨s, call + 1⟩, .proceed (s.policy.delay call) (call + 1)) := by
      rw [Session.decide_eq, hv]
      rfl
    rw [alone, hdecide, ih (Nat.le_add_left 1 call) (by omega) heq, List.length_cons,
      List.range'_succ, List.map_cons, Nat.add_right_comm call 1]
    rfl

/-- **Trying again goes by one law.** Let `last` be the first call that succeeds, or fails in
a way that is not worth another attempt, or is the last that there is; that there is one, and
at least one attempt, is part of the law. A course has the delays after each call before
`last`, and what comes of it is in the result of `last`. A thread makes these calls with
these delays between them, and returns that. A task that is woken now and then has at any
time done the first of the same things, and all of them when it has been woken for a reason
often enough. A session that is asked about the failures gives the same delays, goes on to
one attempt after the other, and stops at `last` with the reason, at the attempt where it
was. And among other sessions and tasks, each does what it does alone. -/
theorem Strategy.drivers_agree (policy : Policy) (maxAttempts : UInt32)
    (kinds : List Failure.Kind) (results : Nat → Except Failure α) :
    let s := Strategy.new policy maxAttempts.toNat kinds
    s.maxAttempts = max 1 maxAttempts.toNat ∧
    ∃ last, IsLeast {k | 1 ≤ k ∧ s.Closes k (results k)} last ∧
      s.run (fun i => results (i + 1))
        = ⟨(List.range' 1 (last - 1)).map policy.delay, some (s.ending last (results last))⟩ ∧
      s.block results = (s.acts 1 (last - 1), s.ending last (results last)) ∧
      (∀ wakes : List Bool,
        (alone (Stage.wake results) s.task wakes).2.flatten <+: s.acts 1 (last - 1) ∧
        (2 * last ≤ wakes.count true →
          (alone (Stage.wake results) s.task wakes).2.flatten = s.acts 1 (last - 1) ∧
          (alone (Stage.wake results) s.task wakes).1
            = .returned (s.ending last (results last)))) ∧
      (∀ failures : List Failure, failures.length < last →
        failures.map .error = (List.range' 1 failures.length).map results →
        alone Session.decide s.session failures
          = (⟨s, failures.length + 1⟩, (List.range' 1 failures.length).map fun k =>
              .proceed (policy.delay k) (k + 1))) ∧
      (∀ f, results last = .error f →
        (⟨s, last⟩ : Session).decide f = (⟨s, last⟩, .terminal (s.reason last f)) ∧
        s.ending last (results last) = .error ((s.reason last f).surfaced f)) ∧
      ∀ (ι : Type) [DecidableEq ι] (i : ι),
        (∀ schedule : List (ι × Failure),
          (together (fun _ => Session.decide) (fun _ => s.session) schedule).1 i
              = (alone Session.decide s.session (own i schedule)).1 ∧
            own i (together (fun _ => Session.decide) (fun _ => s.session) schedule).2
              = (alone Session.decide s.session (own i schedule)).2) ∧
        ∀ (operations : ι → Nat → Except Failure α) (schedule : List (ι × Bool)),
          (together (fun j => Stage.wake (operations j)) (fun _ => s.task) schedule).1 i
              = (alone (Stage.wake (operations i)) s.task (own i schedule)).1 ∧
            own i (together (fun j => Stage.wake (operations j)) (fun _ => s.task) schedule).2
              = (alone (Stage.wake (operations i)) s.task (own i schedule)).2 := by
  intro s
  obtain ⟨last, hlast⟩ := s.exists_isLeast_closes results
  have hpos : 1 ≤ last := hlast.1.1
  have hfirst : 1 + (last - 1) = last := by omega
  have hblock : s.block results = (s.acts 1 (last - 1), s.ending last (results last)) :=
    Session.block_from hlast (last - 1) (Nat.le_refl 1) hfirst
  refine ⟨Delivery.Machine.maxAttempts_new policy maxAttempts kinds, last, hlast,
    run_from hlast (last - 1) (Nat.le_refl 1) hfirst 0, hblock, fun wakes => ?_,
    fun failures hlength heq => ?_, fun f hf => ⟨?_, ?_⟩, fun ι _ i => ⟨fun schedule => ?_,
    fun operations schedule => ?_⟩⟩
  · obtain ⟨hacts, hresult, hreturned⟩ := Stage.alone_rest results wakes s.task
    have hrest : s.task.rest results = s.block results := rfl
    rw [hrest, hblock] at hacts hresult hreturned
    refine ⟨⟨_, hacts⟩, fun hoften => ?_⟩
    have hend := hreturned (.inr (by rw [s.length_acts]; omega))
    rw [hend.eq results, hresult] at hacts ⊢
    exact ⟨(List.append_nil _).symm.trans hacts, rfl⟩
  · have hle : 1 + failures.length ≤ last := by omega
    rw [Nat.add_comm failures.length 1]
    exact decide_before_last hlast failures (Nat.le_refl 1) hle heq
  · rw [Session.decide_eq, verdict_of_closes (hf ▸ hlast.1.2)]
    rfl
  · rw [hf, s.ending_error]
  · exact together_own (fun _ => Session.decide) i schedule fun _ => s.session
  · exact together_own (fun j => Stage.wake (operations j)) i schedule fun _ => s.task

end Courier.Retry
