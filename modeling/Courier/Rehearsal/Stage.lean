import Courier.Fanout
import Courier.Rehearsal.Actor
/-!
# One record on the stage

All deliveries of a record begin at the same time, in the order of their
sinks. Then their results are taken, also in that order; the first failure
makes the failure of the whole. When more results are wanted the clock jumps
to the next time at which anything can happen, and so on. Calling off comes
before everything else that happens at its time.

Nobody waits past the limit of the clock. What would have to is stuck, and so
is what waits for something that time does not bring.
-/

namespace Courier.Rehearsal

/-- **The clock of a rehearsal**, in milliseconds. -/
structure Clock where
  /-- The time. -/
  now : Nat
  /-- The last time that is waited for. -/
  limit : Nat
  /-- The time of the alarm that calls off the work; none when there is none. -/
  alarm : Option Nat
  /-- Whether the alarm has gone off. -/
  rung : Bool
deriving Repr, Inhabited

namespace Clock

/-- Thirty days. -/
def longestWait : Nat := 30 * 24 * 60 * 60 * 1000

/-- **A clock at the start**, with an alarm that goes off at a time: before the
start when that is negative. -/
def start (alarm : Option Int) : Clock :=
  match alarm with
  | none => ⟨0, longestWait, none, false⟩
  | some t => if t < 0 then ⟨0, longestWait, none, true⟩ else ⟨0, longestWait, some t.toNat, false⟩

/-- The time of the alarm, if it has not gone off. -/
def alarm? (c : Clock) : Option Nat :=
  if c.rung then none else c.alarm.map (max c.now)

/-- The earlier of two times. -/
def earlier (a b : Option Nat) : Option Nat :=
  match a, b with
  | some a, some b => some (min a b)
  | some a, none => some a
  | none, b => b

/-- The earliest of several times. -/
def earliest (times : List (Option Nat)) : Option Nat :=
  times.foldl earlier none

/-- **The clock at the next time at which something happens**, out of the times
of what is waited for; nothing when nobody waits that long. -/
def next (c : Clock) (due : Option Nat) : Option Clock :=
  match earlier c.alarm? due with
  | none => none
  | some time =>
    if c.limit < time then none
    else some { c with now := time, rung := c.rung || c.alarm?.any (· ≤ time) }

/-- How far the clock can still go: up to the limit, and past the alarm. -/
def left (c : Clock) : Nat :=
  c.limit + 1 - c.now + (if c.rung then 0 else 1)

end Clock

/-- **Steps taken one after another**, each of which answers, leaves a state and takes
a time: the answers, with the state and the time after each. There are none if
a step is not waited for. -/
def paced {σ α β : Type} (step : σ → α → β × σ × Nat) (s : σ) (now : Nat) :
    List α → Option (List (β × σ × Nat))
  | [] => some []
  | a :: rest =>
    let (b, s, wait) := step s a
    if Clock.longestWait < now + wait then none
    else (paced step s (now + wait) rest).map ((b, s, now + wait) :: ·)

/-- **What comes of a record.** -/
inductive Ending
  /-- The reports of all sinks, or the first failure. -/
  | result (r : Except Failure (List (String × Report)))
  /-- It was left where it was when the alarm went off. -/
  | abandoned
  /-- Nothing, ever. -/
  | stuck
deriving Inhabited

/-- **A record that has been on the stage**: what came of it, the sinks, and the
clock. -/
structure Scene where
  /-- What came of it. -/
  ending : Ending
  /-- The sinks. -/
  actors : List Actor
  /-- The clock. -/
  clock : Clock
deriving Inhabited

/-- The failure of a delivery whose task has broken down. -/
def brokenTask (pipeline : String) : Failure :=
  .pipeline pipeline "dispatch task failed: the task broke down"

/-- The result of a turn, once there is one. -/
def Turn.result? (pipeline : String) (t : Turn) : Option (Except Failure Report) :=
  match t.wait with
  | .over r => some r
  | .broken => some (.error (brokenTask pipeline))
  | _ => none

/-- **The results that are there**, with the indices of their sinks: those of
turns that had none before. -/
def arrivals (pipeline : String) : (index : Nat) → List (Turn × Bool) →
    List (Nat × Except Failure Report)
  | _, [] => []
  | index, (t, taken) :: rest =>
    match taken, t.result? pipeline with
    | false, some r => (index, r) :: arrivals pipeline (index + 1) rest
    | _, _ => arrivals pipeline (index + 1) rest

/-- The turns with a mark on those whose result is there. -/
def markTaken (pipeline : String) (turns : List (Turn × Bool)) : List (Turn × Bool) :=
  turns.map fun (t, taken) => (t, taken || (t.result? pipeline).isSome)

/-- **The deliveries of a record from a time on**: those whose result has been
taken are marked. `abandons` says whether the alarm ends all at once or calls
off each delivery. -/
def playFrom (pipeline : String) (abandons : Bool) (clock : Clock) (fanout : Fanout)
    (turns : List (Turn × Bool)) : Scene :=
  let actors := turns.map (·.1.actor)
  match fanout.arriveAll (arrivals pipeline 0 turns) with
  | .error f => ⟨.result (.error f), actors, clock⟩
  | .ok fanout =>
    match fanout.reports? with
    | some reports => ⟨.result (.ok reports), actors, clock⟩
    | none =>
      let turns := markTaken pipeline turns
      let due := Clock.earliest (turns.map (·.1.wait.due?))
      match clock.next due with
      | none => ⟨.stuck, actors, clock⟩
      | some later =>
        if _h : later.left < clock.left then
          if later.rung && !clock.rung then
            if abandons then ⟨.abandoned, actors, later⟩
            else
              playFrom pipeline abandons later fanout
                (turns.map fun (t, taken) => (t.callOff, taken))
          else
            playFrom pipeline abandons later fanout
              (turns.map fun (t, taken) => (t.wake later.now, taken))
        else ⟨.stuck, actors, clock⟩
termination_by clock.left

/-- **A record on the stage**, from beginning to end. -/
def play (pipeline : String) (abandons : Bool) (clock : Clock) (actors : List Actor)
    (events : List Event) : Scene :=
  playFrom pipeline abandons clock (.start (actors.map (·.role.name)))
    (actors.map fun a => (Turn.start clock.now (clock.rung && !abandons) a events, false))

end Courier.Rehearsal
