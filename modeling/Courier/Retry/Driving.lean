import Courier.Retry.Strategy
/-!
# A strategy put to work

A session is asked about one failure at a time. Either it decides at once, and whoever
asks does the waiting; or it says how long to wait, and is at the next attempt when that
is over. In the second way an operation is called until it succeeds or the strategy ends
it: by a thread, which sleeps between the calls, or by a task, which is woken when what
it waits for is there.
-/

namespace Courier.Retry

variable {α : Type}

/-- **What is done with an operation**: it is called, and time is waited. -/
inductive Act
  /-- The call of a number. -/
  | call (number : Nat)
  /-- So many milliseconds. -/
  | wait (delay : Nat)
deriving DecidableEq, Repr, Inhabited

/-! ## A failure put to a session -/

namespace Session

/-- Whether a failure is the end, and why. -/
def evaluate (s : Session) (f : Failure) : Option Reason :=
  if !Failure.permits s.strategy.kinds f.kind then some (.notRetryable s.attempt f.kind)
  else if s.strategy.maxAttempts ≤ s.attempt then some (.exhausted s.attempt)
  else none

/-- **The next delay**, and the session at the next attempt. -/
def nextDelay (s : Session) : Nat × Session :=
  (s.timer.peek, { s with attempt := s.timer.next.attempt })

/-- **A decision on a failure**, without waiting. -/
def decide (s : Session) (f : Failure) : Session × Verdict :=
  match s.evaluate f with
  | some reason => (s, .terminal reason)
  | none => (s.nextDelay.2, .proceed s.nextDelay.1 s.nextDelay.2.attempt)

/-- **What there is to wait for after a failure**, and the session from then on; or why
there is nothing. -/
def onFailure (s : Session) (f : Failure) : Except Reason (Nat × Session) :=
  match s.evaluate f with
  | some reason => .error reason
  | none => .ok s.nextDelay

/-- With each wait there is an attempt less left. -/
theorem left_onFailure {s s' : Session} {f : Failure} {delay : Nat}
    (h : s.onFailure f = .ok (delay, s')) : s'.left < s.left := by
  unfold onFailure at h
  cases he : s.evaluate f with
  | some reason =>
    rw [he] at h
    cases h
  | none =>
    rw [he] at h
    obtain rfl : s.nextDelay.2 = s' := congrArg Prod.snd (Except.ok.inj h)
    unfold evaluate at he
    split at he
    · cases he
    · split at he
      · cases he
      · next hlt =>
        have hlast := s.strategy.le_last
        show s.strategy.maxAttempts - min (s.attempt + 1) lastAttempt
          < s.strategy.maxAttempts - s.attempt
        omega

/-! ## A thread that sleeps -/

/-- **An operation called by a thread** that sleeps between the calls: what the thread
does from a call on, and what it returns. -/
def block (results : Nat → Except Failure α) (s : Session) (call : Nat) :
    List Act × Except Failure α :=
  match results call with
  | .ok a => ([.call call], .ok a)
  | .error f =>
    match _h : s.onFailure f with
    | .error reason => ([.call call], .error (reason.surfaced f))
    | .ok (delay, s') =>
      let rest := block results s' (call + 1)
      (.call call :: .wait delay :: rest.1, rest.2)
termination_by s.left
decreasing_by exact left_onFailure _h

section

variable {results : Nat → Except Failure α} {call : Nat} {f : Failure}

theorem block_ok {s : Session} {a : α} (h : results call = .ok a) :
    block results s call = ([.call call], .ok a) := by
  rw [block, h]

/-- A thread that has to stop after a call. -/
theorem block_stop {s : Session} {reason : Reason} (h : results call = .error f)
    (hf : s.onFailure f = .error reason) :
    block results s call = ([.call call], .error (reason.surfaced f)) := by
  rw [block, h]
  dsimp only
  split
  · next h' => rw [Except.error.inj (hf.symm.trans h')]
  · next h' => exact nomatch hf.symm.trans h'

/-- A thread that goes on after a call. -/
theorem block_go {s s' : Session} {delay : Nat} (h : results call = .error f)
    (hf : s.onFailure f = .ok (delay, s')) :
    block results s call
      = (.call call :: .wait delay :: (block results s' (call + 1)).1,
          (block results s' (call + 1)).2) := by
  rw [block, h]
  dsimp only
  split
  · next h' => exact nomatch hf.symm.trans h'
  · next h' =>
    obtain ⟨rfl, rfl⟩ := Prod.mk.inj (Except.ok.inj (hf.symm.trans h'))
    rfl

end

end Session

/-- **An operation called by a thread** until it succeeds or the strategy ends it. -/
def Strategy.block (s : Strategy) (results : Nat → Except Failure α) :
    List Act × Except Failure α :=
  s.session.block results 1

/-! ## A task that is woken -/

/-- **Where a task is** that makes the calls. -/
inductive Stage (α : Type)
  /-- The call of a number is to be made, when the delay before it is over. -/
  | due (call : Nat) (session : Session)
  /-- The call of a number has been made, and is not answered. -/
  | called (call : Nat) (session : Session)
  /-- The task has returned. -/
  | returned (result : Except Failure α)

namespace Stage

/-- Where a task is when its call is answered, and what it has done. -/
def answered (call : Nat) (s : Session) : Except Failure α → Stage α × List Act
  | .ok a => (.returned (.ok a), [])
  | .error f =>
    match s.onFailure f with
    | .error reason => (.returned (.error (reason.surfaced f)), [])
    | .ok (delay, s') => (.due (call + 1) s', [.wait delay])

/-- **A task woken**, when what it waits for is there, or for nothing: where it is then,
and what it has done. -/
def wake (results : Nat → Except Failure α) : Stage α → Bool → Stage α × List Act
  | stage, false => (stage, [])
  | .due call s, true => (.called call s, [.call call])
  | .called call s, true => answered call s (results call)
  | .returned r, true => (.returned r, [])

end Stage

/-- **A task that calls an operation** until it succeeds or the strategy ends it. -/
def Strategy.task (s : Strategy) : Stage α :=
  .due 1 s.session

end Courier.Retry
