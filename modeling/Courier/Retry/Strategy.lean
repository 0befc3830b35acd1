import Courier.Retry.Backoff
import Courier.Failure.Basic
/-!
# Trying again

A strategy decides after each failure whether there is another attempt. A
failure of a kind that is not worth another attempt ends the matter, and so
does a failure of the last attempt; after any other, the next attempt follows
when the delay of the policy has passed. The first attempt counts.

`Session` is one course of attempts, driven from outside one failure at a
time. `Strategy.run` drives it itself, over an operation that is called again
and again: it is the law by which both ways of waiting go, since how a delay
is spent changes nothing about what is called and what comes of it.
-/

namespace Courier.Retry

/-- **A strategy.** The number of attempts is at least one and can be counted. -/
structure Strategy where
  /-- The delays. -/
  policy : Policy
  /-- How many attempts there are at most. -/
  maxAttempts : Nat
  /-- The kinds of failure that are worth another attempt. -/
  kinds : List Failure.Kind
  /-- There is a first attempt. -/
  pos : 1 ≤ maxAttempts
  /-- The last attempt can be counted. -/
  le_last : maxAttempts ≤ lastAttempt

/-- The strategy of a policy, with at least one attempt. -/
def Strategy.new (policy : Policy) (maxAttempts : Nat) (kinds : List Failure.Kind) : Strategy where
  policy := policy
  maxAttempts := max 1 (min maxAttempts lastAttempt)
  kinds := kinds
  pos := Nat.le_max_left ..
  le_last := Nat.max_le.2 ⟨by decide, Nat.min_le_right ..⟩

instance : Inhabited Strategy := ⟨.new default 1 []⟩

/-- **Why there is no other attempt.** -/
inductive Reason
  /-- The failed attempt was the last one. -/
  | exhausted (attempts : Nat)
  /-- The failure is not worth another one. -/
  | notRetryable (attempts : Nat) (kind : Failure.Kind)
deriving DecidableEq, Repr, Inhabited

/-- The attempt that failed. -/
def Reason.attempts : Reason → Nat
  | exhausted n => n
  | notRetryable n _ => n

/-- **The failure that comes of it**: of the last attempt, that trying again has
not helped; of one not worth another attempt, the failure itself. -/
def Reason.surfaced (r : Reason) (last : Failure) : Failure :=
  match r with
  | exhausted n => .exhausted n [] last
  | notRetryable _ _ => last

/-- **A decision after a failure.** -/
inductive Verdict
  /-- Wait, then make the next attempt. -/
  | proceed (delay next : Nat)
  /-- Make no other attempt. -/
  | terminal (reason : Reason)
deriving DecidableEq, Repr, Inhabited

/-- **A course of attempts.** -/
structure Session where
  /-- The strategy. -/
  strategy : Strategy
  /-- The attempt under way. -/
  attempt : Nat
deriving Inhabited

namespace Session

/-- The timer of a session. -/
def timer (s : Session) : Timer := ⟨s.strategy.policy, s.attempt⟩

/-- **The verdict on a failure.** -/
def verdict (s : Session) (f : Failure) : Verdict :=
  if !Failure.permits s.strategy.kinds f.kind then
    .terminal (.notRetryable s.attempt f.kind)
  else if s.strategy.maxAttempts ≤ s.attempt then .terminal (.exhausted s.attempt)
  else .proceed s.timer.peek s.timer.next.attempt

/-- **The session after a verdict**: at the next attempt, or where it was. -/
def after (s : Session) (v : Verdict) : Session :=
  match v with
  | .proceed _ next => { s with attempt := next }
  | .terminal _ => s

/-- How many attempts are left after the one under way. -/
def left (s : Session) : Nat :=
  s.strategy.maxAttempts - s.attempt

/-- With each further attempt there is one less left. -/
theorem left_after {s : Session} {f : Failure} {delay next : Nat}
    (h : s.verdict f = .proceed delay next) : (s.after (s.verdict f)).left < s.left := by
  rw [h]
  simp only [verdict] at h
  split at h
  · simp at h
  · split at h
    · simp at h
    · next hlt =>
      simp only [Verdict.proceed.injEq] at h
      have := s.strategy.le_last
      simp only [after, left, ← h.2, timer, Timer.next]
      omega

end Session

namespace Strategy

/-- A session at its first attempt. -/
def session (s : Strategy) : Session := ⟨s, 1⟩

end Strategy

/-- **What came of calling an operation again and again.** -/
structure Course (α : Type) where
  /-- The delays between the calls, in their order. There is one call more. -/
  delays : List Nat
  /-- The result; none when it was not waited for. -/
  result : Option (Except Failure α)

/-- The rest of a course: the calls from the one of a given index on, as long as
the time that has passed is within bounds. -/
def Session.run {α : Type} (op : Nat → Except Failure α) (within : Nat → Bool)
    (s : Session) (call elapsed : Nat) : Course α :=
  match op call with
  | .ok a => ⟨[], some (.ok a)⟩
  | .error f =>
    match _h : s.verdict f with
    | .terminal reason => ⟨[], some (.error (reason.surfaced f))⟩
    | .proceed delay _ =>
      if within (elapsed + delay) then
        let rest := (s.after (s.verdict f)).run op within (call + 1) (elapsed + delay)
        { rest with delays := delay :: rest.delays }
      else ⟨[], none⟩
termination_by s.left
decreasing_by exact Session.left_after _h

namespace Strategy

/-- **An operation called until it succeeds or the strategy ends it.** `op n` is
what the call of index `n` gives. -/
def run {α : Type} (s : Strategy) (op : Nat → Except Failure α) : Course α :=
  s.session.run op (fun _ => true) 0 0

/-- The same, given up when waiting any longer would be out of bounds. -/
def runWithin {α : Type} (s : Strategy) (within : Nat → Bool) (op : Nat → Except Failure α) :
    Course α :=
  s.session.run op within 0 0

end Strategy

end Courier.Retry
