import Courier.Document.Schema
/-!
# Delays between attempts

A policy says how long to wait after an attempt, from the number of the
attempt alone: always as long, longer by the same step each time, or longer
by the same factor each time. Delays are milliseconds that fit into 64 bits;
what would be longer is the longest of them. A `Timer` is a policy with the
number of the attempt that is under way.
-/

namespace Courier.Retry

open Courier.Document

/-- The longest delay. -/
def longest : Nat := 0xFFFFFFFFFFFFFFFF

/-- The greatest number of an attempt; counting stops there. -/
def lastAttempt : Nat := 0xFFFFFFFF

/-- The greatest exponent that a factor is raised to. -/
def greatestPower : Nat := 0x7FFFFFFF

/-- **The way delays grow**, as a configuration names it. -/
inductive Growth
  /-- They do not. -/
  | fixed
  /-- By a step. -/
  | linear
  /-- By a factor. -/
  | exponential
deriving DecidableEq, Repr, Inhabited

namespace Growth

/-- All ways, in the order in which faults list them. -/
def all : List Growth := [fixed, linear, exponential]

/-- The name of a way in documents. -/
def name : Growth → String
  | fixed => "fixed"
  | linear => "linear"
  | exponential => "exponential"

/-- The name of a way in a listing. -/
def title : Growth → String
  | fixed => "Fixed"
  | linear => "Linear"
  | exponential => "Exponential"

/-- The way of a name. -/
def ofName? (s : String) : Option Growth :=
  all.find? (·.name = s)

/-- Ways and their documents. -/
def codec : Codec Growth where
  schema := .choice (all.map name)
  toDatum g := .choice g.name
  ofDatum?
    | .choice s => ofName? s
    | _ => none

end Growth

/-- **A policy of delays.** -/
inductive Policy
  /-- The same delay each time. -/
  | fixed (delay : Nat)
  /-- A step for each attempt made. -/
  | linear (step : Nat)
  /-- A factor in seconds, raised to the number of attempts made. -/
  | exponential (seed : Float)
deriving Repr, Inhabited

/-- The whole milliseconds nearest to a double, halves away from zero: none for
what is negative or no number, the longest delay for what is past it. -/
def wholeMillis (x : Float) : Nat :=
  x.round.toUInt64.toNat

/-- **A power by repeated squaring**, from the lowest bit of the exponent up:
`product · base ^ n`, with the roundings in that order. -/
def power (base product : Float) (n : Nat) : Float :=
  let product := if n % 2 = 1 then product * base else product
  if h : n / 2 = 0 then product
  else power (base * base) product (n / 2)
termination_by n
decreasing_by omega

namespace Policy

/-- **The policy of a configured value.** Delays and steps are whole
milliseconds, and not negative; a factor stays as it is. -/
def ofConfig (growth : Growth) (value : Float) : Policy :=
  match growth with
  | .fixed => .fixed (wholeMillis (if value < 0.0 then 0.0 else value))
  | .linear => .linear (wholeMillis (if value < 0.0 then 0.0 else value))
  | .exponential => .exponential value

/-- The factor that is used: never less than one. -/
def usedSeed (seed : Float) : Float :=
  if seed ≥ 1.0 then seed else 1.0

/-- **Whether another factor is used** than the one given. -/
def isClamped : Policy → Bool
  | exponential seed => !(seed ≥ 1.0)
  | _ => false

/-- **The delay after an attempt.** -/
def delay (p : Policy) (attempt : Nat) : Nat :=
  match p with
  | fixed ms => ms
  | linear step => min (step * attempt) longest
  | exponential seed =>
    wholeMillis (power (usedSeed seed) 1.0 (min attempt greatestPower) * 1000.0)

end Policy

/-- **A timer**: a policy, and the number of the attempt under way. -/
structure Timer where
  /-- The policy. -/
  policy : Policy
  /-- The attempt, counted from one. -/
  attempt : Nat
deriving Repr, Inhabited

namespace Timer

/-- A timer at the first attempt. -/
def start (p : Policy) : Timer := ⟨p, 1⟩

/-- The delay after the attempt under way. -/
def peek (t : Timer) : Nat :=
  t.policy.delay t.attempt

/-- The timer at the next attempt. -/
def next (t : Timer) : Timer :=
  { t with attempt := min (t.attempt + 1) lastAttempt }

end Timer

end Courier.Retry
