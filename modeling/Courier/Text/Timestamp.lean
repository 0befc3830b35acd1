import Courier.Text.Blank
import Courier.Text.Numeral
/-!
# Timestamps

A date, a time and their distance to universal time in one text. Writing has
one form. Reading is more lenient: blank space may stand before each number
and before the marks between them, numbers need not have all their digits, a
blank will do between the date and the time, and universal time has several
names. But the day has to exist, and so has the moment, in the years from
-262143 to 262142.
-/

namespace Courier.Text.Timestamp

/-- A text without the blank space it begins with. -/
def dropBlank (s : List Char) : List Char :=
  s.dropWhile isBlank

/-- The number that digits write. -/
def valueOf (digits : List Char) : Nat :=
  digits.foldl (fun n c => n * 10 + (c.toNat - '0'.toNat)) 0

/-- The digits a text begins with, as many as are wanted at most. -/
def digitsOf : (width : Nat) → List Char → List Char × List Char
  | 0, s => ([], s)
  | _, [] => ([], [])
  | width + 1, c :: rest =>
    if c.isDigit then
      let (ds, rest) := digitsOf width rest
      (c :: ds, rest)
    else ([], c :: rest)

/-- **A number** of at least one digit and at most so many. -/
def number (width : Nat) (s : List Char) : Option (Nat × List Char) :=
  match digitsOf width s with
  | ([], _) => none
  | (ds, rest) => some (valueOf ds, rest)

/-- A number behind blank space. -/
def field (width : Nat) (s : List Char) : Option (Nat × List Char) :=
  number width (dropBlank s)

/-- A mark behind blank space. -/
def mark (c : Char) (s : List Char) : Option (List Char) :=
  match dropBlank s with
  | d :: rest => if d = c then some rest else none
  | [] => none

/-- **A year.** Behind a sign it has any number of digits, and else four. -/
def year (s : List Char) : Option (Int × List Char) :=
  match dropBlank s with
  | '-' :: rest => (number rest.length rest).map fun (n, rest) => (-(n : Int), rest)
  | '+' :: rest => (number rest.length rest).map fun (n, rest) => ((n : Int), rest)
  | s => (number 4 s).map fun (n, rest) => ((n : Int), rest)

/-- Whether a year has a day more. -/
def isLeapYear (year : Int) : Bool :=
  year % 4 = 0 && (year % 100 ≠ 0 || year % 400 = 0)

/-- The days of a month. -/
def daysOf (year : Int) (month : Nat) : Nat :=
  match month with
  | 2 => if isLeapYear year then 29 else 28
  | 4 => 30
  | 6 => 30
  | 9 => 30
  | 11 => 30
  | _ => 31

/-- **A date.** -/
structure Date where
  /-- The year. -/
  year : Int
  /-- The month, from one on. -/
  month : Nat
  /-- The day of the month, from one on. -/
  day : Nat
deriving DecidableEq, Repr

/-- The first year. -/
def firstYear : Int := -262143

/-- The last year. -/
def lastYear : Int := 262142

/-- Whether a date is a day. -/
def Date.exists (d : Date) : Bool :=
  firstYear ≤ d.year && d.year ≤ lastYear && 1 ≤ d.month && d.month ≤ 12 && 1 ≤ d.day &&
    d.day ≤ daysOf d.year d.month

/-- A date, and what follows it. -/
def date (s : List Char) : Option (Date × List Char) := do
  let (year, s) ← year s
  let s ← mark '-' s
  let (month, s) ← field 2 s
  let s ← mark '-' s
  let (day, s) ← field 2 s
  some (⟨year, month, day⟩, s)

/-- What follows the mark between a date and a time. -/
def between : List Char → Option (List Char)
  | 'T' :: rest => some rest
  | 't' :: rest => some rest
  | ' ' :: rest => some rest
  | _ => none

/-- What follows the fraction of a second, if there is one. -/
def fraction : List Char → Option (List Char)
  | '.' :: rest =>
    match rest.takeWhile Char.isDigit with
    | [] => none
    | ds => some (rest.drop ds.length)
  | s => some s

/-- **A time**, in seconds, and what follows it. There may be a second more in a
minute, which counts as the one before. -/
def time (s : List Char) : Option (Nat × List Char) := do
  let (hour, s) ← field 2 s
  let s ← mark ':' s
  let (minute, s) ← field 2 s
  let s ← mark ':' s
  let (second, s) ← field 2 s
  let s ← fraction s
  if hour ≤ 23 ∧ minute ≤ 59 ∧ second ≤ 60 then
    some (hour * 3600 + minute * 60 + min second 59, dropBlank s)
  else none

/-- Hours and minutes of a distance, in seconds. -/
def distance (s : List Char) : Option (Nat × List Char) :=
  match s with
  | a :: b :: rest =>
    match rest.dropWhile fun c => c = ':' || isBlank c with
    | c :: d :: rest => do
      let a ← digit? a
      let b ← digit? b
      let c ← digit? c
      let d ← digit? d
      if c ≤ 5 then some ((a * 10 + b) * 3600 + (c * 10 + d) * 60, rest) else none
    | _ => none
  | _ => none

/-- **The distance to universal time**, in seconds, and what follows it. -/
def offset (s : List Char) : Option (Int × List Char) :=
  match s with
  | 'Z' :: rest => some (0, rest)
  | 'z' :: rest => some (0, rest)
  | '+' :: rest => (distance rest).map fun (n, rest) => ((n : Int), rest)
  | '-' :: rest => (distance rest).map fun (n, rest) => (-(n : Int), rest)
  | '\u2212' :: rest => (distance rest).map fun (n, rest) => (-(n : Int), rest)
  | a :: b :: c :: rest =>
    if [a, b, c].map Char.toUpper = ['U', 'T', 'C'] then some (0, rest) else none
  | _ => none

/-- The seconds of a day. -/
def secondsOfDay : Int := 86400

/-- Whether a moment is in the years there are. -/
def inRange (d : Date) (seconds offset : Int) : Bool :=
  let universal := seconds - offset
  if d = ⟨firstYear, 1, 1⟩ then 0 ≤ universal
  else if d = ⟨lastYear, 12, 31⟩ then universal < secondsOfDay
  else true

/-- **Whether a text is a timestamp.** -/
def valid (s : List Char) : Bool :=
  match date s with
  | none => false
  | some (d, rest) =>
    match between rest >>= time with
    | none => false
    | some (seconds, rest) =>
      match offset rest with
      | none => false
      | some (offset, rest) =>
        allBlank rest && d.exists && offset.natAbs < secondsOfDay.natAbs && inRange d seconds offset

/-! ## Writing -/

/-- The date of a day, counted from the first of March of the year zero. -/
def dateOfDay (n : Nat) : Date :=
  let era := n / 146097
  let day := n % 146097
  let year := (day - day / 1460 + day / 36524 - day / 146096) / 365
  let dayOfYear := day - (365 * year + year / 4 - year / 100)
  let month := (5 * dayOfYear + 2) / 153
  let monthOfYear := if month < 10 then month + 3 else month - 9
  ⟨(year + era * 400 + if monthOfYear ≤ 2 then 1 else 0 : Nat), monthOfYear,
    dayOfYear - (153 * month + 2) / 5 + 1⟩

/-- The days from the first of March of the year zero to the beginning of the
year 1970. -/
def dayOf1970 : Nat := 719468

/-- A number with so many digits at least. -/
def padded (width n : Nat) : String :=
  let ds := Nat.toDigits 10 n
  String.ofList (List.replicate (width - ds.length) '0' ++ ds)

/-- **A moment**, by its seconds and nanoseconds since the beginning of the year
1970, in universal time. -/
def write (seconds nanos : Nat) : String :=
  let d := dateOfDay (seconds / 86400 + dayOf1970)
  let t := seconds % 86400
  padded 4 d.year.toNat ++ "-" ++ padded 2 d.month ++ "-" ++ padded 2 d.day ++ "T" ++
    padded 2 (t / 3600) ++ ":" ++ padded 2 (t / 60 % 60) ++ ":" ++ padded 2 (t % 60) ++ "." ++
    padded 9 nanos ++ "Z"

end Courier.Text.Timestamp
