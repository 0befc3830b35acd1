/-!
# Decimal numerals of natural numbers

A natural number written in a text: digits, perhaps after a plus sign, and
not above a given limit. A line number read back from a checkpoint and a
timeout of a sink are read this way. What stops the reading is a cause of its
own, and the first cause met from the left counts: a character that is no
digit is found before the number has grown too large at the same place.
-/

namespace Courier.Text

/-- **Why a text is not a numeral.** -/
inductive NumeralFault
  /-- There is nothing to read. -/
  | empty
  /-- A character is no digit, or there is a sign only. -/
  | invalidDigit
  /-- The number is above the limit. -/
  | tooLarge
deriving Repr, DecidableEq

/-- The cause in words. -/
def NumeralFault.message : NumeralFault → String
  | .empty => "cannot parse integer from empty string"
  | .invalidDigit => "invalid digit found in string"
  | .tooLarge => "number too large to fit in target type"

/-- The value of a decimal digit. -/
def digit? (c : Char) : Option Nat :=
  if c.isDigit then some (c.toNat - '0'.toNat) else none

/-- The value of a digit in base sixteen, in either case. -/
def hexValue? (c : Char) : Option Nat :=
  if c.isDigit then some (c.toNat - '0'.toNat)
  else if 'a' ≤ c ∧ c ≤ 'f' then some (c.toNat - 'a'.toNat + 10)
  else if 'A' ≤ c ∧ c ≤ 'F' then some (c.toNat - 'A'.toNat + 10)
  else none

/-- Reading digits after a number already read. -/
def readDigits (limit : Nat) : Nat → List Char → Except NumeralFault Nat
  | n, [] => .ok n
  | n, c :: rest =>
    match digit? c with
    | none => .error .invalidDigit
    | some d =>
      if limit < n * 10 + d then .error .tooLarge
      else readDigits limit (n * 10 + d) rest

/-- **The natural number a text writes**, at most `limit`. -/
def readNumeral (limit : Nat) (s : List Char) : Except NumeralFault Nat :=
  match s with
  | [] => .error .empty
  | ['+'] => .error .invalidDigit
  | '+' :: rest => readDigits limit 0 rest
  | s => readDigits limit 0 s

/-- The greatest number of 64 bits. -/
def word64 : Nat := 0xFFFFFFFFFFFFFFFF

end Courier.Text
