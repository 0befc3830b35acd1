/-!
# The value of a double

A finite double is an integer times a power of two. This module takes a
double apart into its sign and that pair, which is what the exact printers of
this library work on, and puts a decimal `n · 10^e` back into the nearest
double.
-/

namespace Courier.Decimal

/-- **The size of a double**, its sign left out. -/
inductive Magnitude
  /-- Not a number. -/
  | nan
  /-- Infinitely large. -/
  | infinite
  /-- The number `mantissa · 2 ^ exponent`. -/
  | finite (mantissa : Nat) (exponent : Int)
deriving Repr, DecidableEq

/-- Whether the sign bit of a double is set. -/
def isNegative (x : Float) : Bool :=
  x.toBits.toNat / 0x8000000000000000 = 1

/-- The least mantissa of fifty-three bits. Its one bit is left out of the fraction
of a double. -/
def hiddenBit : Nat := 0x10000000000000

/-- **The size of a double**, read off its bits: eleven bits of exponent and
fifty-two of fraction, with the leading one left out of the fraction unless
the exponent is the least. -/
def magnitude (x : Float) : Magnitude :=
  let bits : Nat := x.toBits.toNat
  let exponent : Nat := bits / hiddenBit % 0x800
  let fraction : Nat := bits % hiddenBit
  if exponent = 2047 then
    if fraction = 0 then .infinite else .nan
  else if exponent = 0 then .finite fraction (-1074)
  else .finite (fraction + hiddenBit) ((exponent : Int) - 1075)

/-- The digits of a natural number, most significant first. -/
def digits (n : Nat) : List Char :=
  Nat.toDigits 10 n

/-- **The double nearest to `n · 10 ^ e`**, with ties to the even one, and an
infinity past the last double. Exponents that settle the result by themselves
are cut off first, so that no power of ten larger than needed is formed. -/
def nearest (n : Nat) (e : Int) : Float :=
  let size := (digits n).length + e
  if n = 0 then 0.0
  else if size > 400 then Float.ofBits 0x7FF0000000000000
  else if size < -400 then 0.0
  else if e < 0 then Float.ofScientific n true e.natAbs
  else Float.ofScientific n false e.natAbs

/-- The double of the other sign. -/
def negate (negative : Bool) (x : Float) : Float :=
  if negative then -x else x

end Courier.Decimal
