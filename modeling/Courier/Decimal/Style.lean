import Courier.Decimal.Shortest
/-!
# Ways of writing a double

One shortest decimal, several ways of writing it. A `Style` says which
decimals are written plainly and which with an exponent, whether a whole
number keeps a point, and what is written for the values that are no finite
number. The three styles of this library are its three outputs: JSON
documents, TOML documents, and plain text for people.
-/

namespace Courier.Decimal

/-- **How a double is written.** -/
structure Style where
  /-- The exponents of the leading digit that are written plainly, from the
  least to the greatest; all of them when there is no range. -/
  plain : Option (Int × Int)
  /-- Whether a whole number is written with a point and a zero. -/
  pointed : Bool
  /-- What is written for not a number. -/
  nan : String
  /-- What is written for an infinity, by whether it is negative. -/
  infinite : Bool → String

/-- Digits times a power of ten: `e` zeroes after them, or a point with `-e`
digits behind it. -/
def plainDigits (pointed : Bool) (ds : List Char) (e : Int) : List Char :=
  if 0 ≤ e then
    ds ++ List.replicate e.toNat '0' ++ (if pointed then ['.', '0'] else [])
  else
    let behind := (-e).toNat
    if behind < ds.length then
      ds.take (ds.length - behind) ++ '.' :: ds.drop (ds.length - behind)
    else
      '0' :: '.' :: List.replicate (behind - ds.length) '0' ++ ds

/-- Digits with a point after the first and a signed exponent. -/
def exponentDigits (ds : List Char) (lead : Int) : List Char :=
  let mantissa :=
    match ds with
    | d :: d' :: rest => d :: '.' :: d' :: rest
    | ds => ds
  mantissa ++ 'e' :: (if lead < 0 then '-' else '+') :: digits lead.natAbs

/-- The digits of a decimal in a style, without a sign. -/
def Style.point (style : Style) (p : Point) : List Char :=
  let ds := digits p.coefficient
  let lead := p.exponent + ds.length - 1
  let isPlain :=
    match style.plain with
    | none => true
    | some (least, greatest) => p.coefficient = 0 || (least ≤ lead && lead ≤ greatest)
  if isPlain then plainDigits style.pointed ds p.exponent
  else exponentDigits ds lead

/-- **A double in a style.** A zero keeps its sign; what is not a number has
none. -/
def Style.write (style : Style) (x : Float) : String :=
  let sign := if isNegative x then "-" else ""
  match magnitude x with
  | .nan => style.nan
  | .infinite => style.infinite (isNegative x)
  | .finite m q => sign ++ String.ofList (style.point (shortest m q))

/-- **Doubles in a JSON document**: plain while the leading digit stands for
`10^-5` to `10^15`, always with a point; else one digit, a point, the others
and a signed exponent. JSON has no text for the infinities and for what is
not a number; `null` takes their place. -/
def jsonStyle : Style where
  plain := some (-5, 15)
  pointed := true
  nan := "null"
  infinite _ := "null"

/-- **Doubles in a TOML document**: plain, always with a point. -/
def tomlStyle : Style where
  plain := none
  pointed := true
  nan := "nan"
  infinite negative := if negative then "-inf" else "inf"

/-- **Doubles in a sentence**: plain, and a whole number without a point. -/
def proseStyle : Style where
  plain := none
  pointed := false
  nan := "NaN"
  infinite negative := if negative then "-inf" else "inf"

end Courier.Decimal
