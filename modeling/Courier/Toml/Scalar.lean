import Courier.Decimal.Double
import Courier.Document.Draft
import Courier.Toml.Text
/-!
# Words in a TOML document

A value that is neither a text nor a list nor a table is a word: a flag, a
number, or a date or a time. Digits may be set apart by underscores, each
between two digits. A number has no leading zeroes, except behind its point.
-/

namespace Courier.Toml

open Courier.Document
open Courier.Text (hexValue?)

/-- The value of a digit in a base. -/
def digitIn? (base : Nat) (c : Char) : Option Nat :=
  match hexValue? c with
  | some d => if d < base then some d else none
  | none => none

/-- The digits of a numeral behind its first one: an underscore stands before a
digit. -/
def moreDigits (base : Nat) : List Char → Option (List Nat)
  | [] => some []
  | '_' :: c :: rest => do
    let d ← digitIn? base c
    let ds ← moreDigits base rest
    some (d :: ds)
  | c :: rest => do
    let d ← digitIn? base c
    let ds ← moreDigits base rest
    some (d :: ds)

/-- **The digits of a numeral**, of which there is at least one. -/
def digitsIn? (base : Nat) : List Char → Option (List Nat)
  | [] => none
  | c :: rest => do
    let d ← digitIn? base c
    let ds ← moreDigits base rest
    some (d :: ds)

/-- The number of digits in a base. -/
def numberOf (base : Nat) (ds : List Nat) : Nat :=
  ds.foldl (fun n d => n * base + d) 0

/-- A number without leading zeroes. -/
def plainNumber? (s : List Char) : Option (List Nat) :=
  match digitsIn? 10 s with
  | some (0 :: _ :: _) => none
  | ds => ds

/-- A sign, and what follows it. -/
def splitSign : List Char → Bool × List Char
  | '-' :: rest => (true, rest)
  | '+' :: rest => (false, rest)
  | s => (false, s)

/-- A whole number as a draft. -/
def wholeDraft (n : Int) : Draft :=
  if -0x8000000000000000 ≤ n ∧ n ≤ 0xFFFFFFFFFFFFFFFF then .number (some (.integer n)) else .wide n

/-- **A whole number.** Other bases than ten have no sign. -/
def integer? (s : List Char) : Option Draft :=
  match s with
  | '0' :: 'x' :: rest => (digitsIn? 16 rest).map fun ds => wholeDraft (numberOf 16 ds)
  | '0' :: 'o' :: rest => (digitsIn? 8 rest).map fun ds => wholeDraft (numberOf 8 ds)
  | '0' :: 'b' :: rest => (digitsIn? 2 rest).map fun ds => wholeDraft (numberOf 2 ds)
  | s =>
    let (negative, s) := splitSign s
    (plainNumber? s).map fun ds =>
      let n : Int := numberOf 10 ds
      wholeDraft (if negative then -n else n)

/-- The text up to the first of some characters, and behind it, if there is one. -/
def splitAt? (stops : Char → Bool) (s : List Char) : List Char × Option (List Char) :=
  match s.dropWhile (!stops ·) with
  | [] => (s, none)
  | _ :: rest => (s.takeWhile (!stops ·), some rest)

/-- The exponent of a number; zero when there is none. -/
def exponent? : Option (List Char) → Option Int
  | none => some 0
  | some s =>
    let (negative, s) := splitSign s
    (digitsIn? 10 s).map fun ds =>
      let n : Int := numberOf 10 ds
      if negative then -n else n

/-- **A number with a point or an exponent.** -/
def real? (s : List Char) : Option Draft := do
  let (negative, s) := splitSign s
  let sized (x : Float) : Draft := .number (some (.real (Decimal.negate negative x)))
  if s = "inf".toList then return sized (Float.ofBits 0x7FF0000000000000)
  if s = "nan".toList then return sized (Float.ofBits 0x7FF8000000000000)
  let (mantissa, exponent) := splitAt? (fun c => c = 'e' || c = 'E') s
  let (whole, fraction) := splitAt? (· = '.') mantissa
  if exponent.isNone && fraction.isNone then none
  else
    let e ← exponent? exponent
    let whole ← plainNumber? whole
    let fraction ← match fraction with
      | none => some []
      | some f => digitsIn? 10 f
    return sized (Decimal.nearest (numberOf 10 (whole ++ fraction)) (e - fraction.length))

/-! ## Dates and times -/

/-- A number of exactly two digits within bounds. -/
def twoDigits? (least greatest : Nat) : List Char → Option Nat
  | [a, b] => do
    let a ← digitIn? 10 a
    let b ← digitIn? 10 b
    let n := a * 10 + b
    if least ≤ n ∧ n ≤ greatest then some n else none
  | _ => none

/-- Whether a year has a day more. -/
def isLeapYear (year : Nat) : Bool :=
  year % 4 = 0 && (year % 100 ≠ 0 || year % 400 = 0)

/-- The days of a month. -/
def daysOf (year month : Nat) : Nat :=
  if month = 2 then (if isLeapYear year then 29 else 28)
  else if [4, 6, 9, 11].contains month then 30
  else 31

/-- A date. -/
def isDate (s : List Char) : Bool :=
  match s with
  | [a, b, c, d, '-', e, f, '-', g, h] =>
    match [a, b, c, d].mapM (digitIn? 10), twoDigits? 1 12 [e, f] with
    | some year, some month => (twoDigits? 1 (daysOf (numberOf 10 year) month) [g, h]).isSome
    | _, _ => false
  | _ => false

/-- The seconds of a time and their fraction, which may be left out. -/
def isSeconds : List Char → Bool
  | [] => true
  | ':' :: a :: b :: rest =>
    (twoDigits? 0 60 [a, b]).isSome &&
      match rest with
      | [] => true
      | '.' :: ds => !ds.isEmpty && ds.all Char.isDigit
      | _ => false
  | _ => false

/-- A time. -/
def isTime : List Char → Bool
  | a :: b :: ':' :: c :: d :: rest =>
    (twoDigits? 0 23 [a, b]).isSome && (twoDigits? 0 59 [c, d]).isSome && isSeconds rest
  | _ => false

/-- The distance to universal time. -/
def isOffset : List Char → Bool
  | [_, a, b, ':', c, d] => (twoDigits? 0 23 [a, b]).isSome && (twoDigits? 0 59 [c, d]).isSome
  | _ => false

/-- A time with or without the distance to universal time. -/
def isTimeWithOffset (s : List Char) : Bool :=
  let (time, zone) := s.span fun c => c.isDigit || c = ':' || c = '.'
  isTime time &&
    match zone with
    | [] => true
    | ['Z'] => true
    | zone => isOffset zone

/-- What stands between a date and a time. -/
def isTimeMark (c : Char) : Bool :=
  c = 'T' || c = 't' || c = ' '

/-- **A date, a time, or both**, as it is written out. -/
def moment? (s : List Char) : Option Draft :=
  let date := s.take 10
  let upper := s.map fun c => if c = 'z' then 'Z' else c
  match s.drop 10 with
  | [] => if isDate s || isTime s then some (.moment (String.ofList upper)) else none
  | c :: _ =>
    if isTime s then some (.moment (String.ofList upper))
    else if isTimeMark c && isDate date && isTimeWithOffset (upper.drop 11) then
      some (.moment (String.ofList (date ++ 'T' :: upper.drop 11)))
    else none

/-- **The value of a word.** -/
def word? (s : List Char) : Option Draft :=
  if s = "true".toList then some (.flag true)
  else if s = "false".toList then some (.flag false)
  else integer? s <|> real? s <|> moment? s

/-- A character of a word. -/
def inWord (c : Char) : Bool :=
  c.isAlphanum || c = '_' || c = '-' || c = '+' || c = '.' || c = ':'

/-- **The word that a text begins with**, and what follows it. A date and a time
with a space between them are one word. -/
def splitWord (s : List Char) : List Char × List Char :=
  let (word, rest) := s.span inWord
  match rest with
  | ' ' :: d :: more =>
    if isDate word && d.isDigit then
      let (time, rest) := (d :: more).span inWord
      (word ++ ' ' :: time, rest)
    else (word, rest)
  | rest => (word, rest)

end Courier.Toml
