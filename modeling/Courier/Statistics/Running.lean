import Courier.Decimal.Fixed
/-!
# Running statistics

The count, the extremes, the mean and the variance of numbers that come one at
a time. The mean moves towards each number by its share, and the squared
distances are summed around the moving mean, so that nothing large is
subtracted from something as large.
-/

namespace Courier.Statistics

/-- **Statistics of the numbers so far.** -/
structure Running where
  /-- How many there are. -/
  count : Nat := 0
  /-- Their mean. -/
  mean : Float := 0.0
  /-- The sum of the squared distances to the mean. -/
  spread : Float := 0.0
  /-- The least. -/
  least : Float := 0.0
  /-- The greatest. -/
  greatest : Float := 0.0
deriving Repr, Inhabited

/-- The lesser of two numbers. What is not a number gives way. -/
def lesser (a b : Float) : Float :=
  if a.isNaN then b else if b < a then b else a

/-- The greater of two numbers. What is not a number gives way. -/
def greater (a b : Float) : Float :=
  if a.isNaN then b else if a < b then b else a

namespace Running

/-- **One more number.** -/
def push (r : Running) (x : Float) : Running :=
  if r.count = 0 then ⟨1, x, 0.0, x, x⟩
  else
    let count := r.count + 1
    let delta := x - r.mean
    let mean := r.mean + delta / Float.ofNat count
    { count := count
      mean := mean
      spread := r.spread + delta * (x - mean)
      least := lesser r.least x
      greatest := greater r.greatest x }

/-- The variance of the numbers as a sample of more. -/
def variance (r : Running) : Float :=
  if r.count < 2 then 0.0 else r.spread / Float.ofNat (r.count - 1)

/-- The standard deviation. -/
def deviation (r : Running) : Float :=
  r.variance.sqrt

/-- **The statistics in words.** -/
def describe (r : Running) : String :=
  if r.count = 0 then "N/A"
  else
    "min=" ++ Decimal.fixed 3 r.least ++ ", max=" ++ Decimal.fixed 3 r.greatest ++
      ", mean=" ++ Decimal.fixed 3 r.mean ++ ", std=" ++ Decimal.fixed 3 r.deviation ++
      s!" (n={r.count})"

end Running

end Courier.Statistics
