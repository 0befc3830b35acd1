import Courier.Decimal.Style
/-!
# Doubles with a fixed number of places

The exact value of a double, rounded to a number of decimal places. A half
goes to the even neighbour. A negative number keeps its sign when it rounds
to zero.
-/

namespace Courier.Decimal

/-- **A quotient rounded to the nearest natural number**, halves to the even
one. -/
def roundDiv (num den : Nat) : Nat :=
  let below := num / den
  let rest := 2 * (num % den)
  if rest < den then below
  else if den < rest then below + 1
  else if below % 2 = 0 then below else below + 1

/-- A natural number as a decimal with `places` digits behind the point. -/
def withPoint (places n : Nat) : List Char :=
  let ds := digits n
  let ds := List.replicate (places + 1 - ds.length) '0' ++ ds
  ds.take (ds.length - places) ++
    (if places = 0 then [] else '.' :: ds.drop (ds.length - places))

/-- **A double with a fixed number of places.** -/
def fixed (places : Nat) (x : Float) : String :=
  let sign := if isNegative x then "-" else ""
  match magnitude x with
  | .nan => proseStyle.nan
  | .infinite => proseStyle.infinite (isNegative x)
  | .finite m q =>
    let n := roundDiv (m * Nat.pow 10 places * Nat.pow 2 q.toNat) (Nat.pow 2 (-q).toNat)
    sign ++ String.ofList (withPoint places n)

end Courier.Decimal
