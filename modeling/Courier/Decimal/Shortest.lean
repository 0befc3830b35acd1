import Courier.Decimal.Double
/-!
# The shortest decimal of a double

The real numbers that round to a double `m · 2^q` form an interval around it:
half way to each neighbour, the ends included when `m` is even. The decimal
written for the double is the one of that interval with the fewest digits,
and of those the nearest to the double itself.

Decimals with few digits lie on coarse grids: the multiples of `10^k` for a
large `k`. `shortest` goes through the grids from the coarsest down. On each
it looks at the two multiples next to the double; if one of them lies in the
interval, it is the answer. This is enough, because a grid that has any point
in the interval has one of these two in it.
-/

namespace Courier.Decimal

/-- **A decimal**, `coefficient · 10 ^ exponent`. -/
structure Point where
  /-- The digits, read as a natural number. -/
  coefficient : Nat
  /-- The power of ten they are taken times. -/
  exponent : Int
deriving Repr, DecidableEq

/-- **The interval of a double**, in quarters of its last place: it reaches
from `low` to `high` around `centre`, all taken times `2 ^ scale`. -/
structure Around where
  /-- The lower end. -/
  low : Nat
  /-- The double itself. -/
  centre : Nat
  /-- The upper end. -/
  high : Nat
  /-- Whether the ends round to the double too. -/
  closed : Bool
  /-- The power of two that the three are taken times. -/
  scale : Int
deriving Repr, DecidableEq

/-- The numbers that round to `m · 2^q`. Below a power of two the doubles lie
twice as dense as above it, except at the least exponent, where they do not. -/
def around (m : Nat) (q : Int) : Around where
  low := if m = hiddenBit ∧ q > -1074 then 4 * m - 1 else 4 * m - 2
  centre := 4 * m
  high := 4 * m + 2
  closed := m % 2 = 0
  scale := q - 2

/-- **The point of the grid of `10 ^ k` that rounds to the double**, the
nearer one when both neighbours do, the even one when they are as near. All
is compared after multiplying by the two denominators. -/
def Around.onGrid (a : Around) (k : Int) : Option Nat :=
  let up := Nat.pow 2 a.scale.toNat * Nat.pow 10 (-k).toNat
  let unit := Nat.pow 2 (-a.scale).toNat * Nat.pow 10 k.toNat
  let fits (d : Nat) : Bool :=
    let x := d * unit
    let low := a.low * up
    let high := a.high * up
    if a.closed then low ≤ x && x ≤ high else low < x && x < high
  let centre := a.centre * up
  let below := centre / unit
  let short := centre - below * unit
  let long := (below + 1) * unit - centre
  match fits below, fits (below + 1) with
  | true, true =>
    if short < long then some below
    else if long < short then some (below + 1)
    else some (if below % 2 = 0 then below else below + 1)
  | true, false => some below
  | false, true => some (below + 1)
  | false, false => none

/-- The first grid with a hit, from `10 ^ k` down, over `steps` grids. -/
def Around.search (a : Around) : (steps : Nat) → (k : Int) → Option Point
  | 0, _ => none
  | steps + 1, k =>
    match a.onGrid k with
    | some d => some ⟨d, k⟩
    | none => a.search steps (k - 1)

/-- **The shortest decimal that reads back as `m · 2^q`.** The grids go from
`10 ^ 309`, past the largest double, down to `10 ^ -343`, finer than the
distance of the two smallest; one of them always hits. -/
def shortest (m : Nat) (q : Int) : Point :=
  if m = 0 then ⟨0, 0⟩
  else ((around m q).search 653 309).getD ⟨0, 0⟩

end Courier.Decimal
