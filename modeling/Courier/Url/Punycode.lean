/-!
# Punycode

A label of a domain name that is not ASCII is written in ASCII: first its ASCII
characters, then, behind a hyphen, the others. They go in the order of their
code points, each as the number of places and code points that lie between it
and the one before. These numbers are written least digit first, in a
notation that shows by itself where each of them ends and that adapts to the
numbers that have come before.
-/

namespace Courier.Url.Punycode

/-- The digit of a value: letters, then digits. -/
def digit (d : Nat) : Char :=
  if d < 26 then Char.ofNat (d + 'a'.toNat) else Char.ofNat (d - 26 + '0'.toNat)

/-- The value of a digit. -/
def digitValue? (c : Char) : Option Nat :=
  if 'a' ≤ c ∧ c ≤ 'z' then some (c.toNat - 'a'.toNat)
  else if 'A' ≤ c ∧ c ≤ 'Z' then some (c.toNat - 'A'.toNat)
  else if c.isDigit then some (c.toNat - '0'.toNat + 26)
  else none

/-- The values below this at a place end a number there. -/
def threshold (place bias : Nat) : Nat :=
  if place ≤ bias then 1 else if bias + 26 ≤ place then 26 else place - bias

/-- A number scaled down until it is small, with thirty-six for every step. -/
def scaleDown (n k : Nat) : Nat × Nat :=
  if 455 < n then scaleDown (n / 35) (k + 36) else (n, k)
termination_by n
decreasing_by omega

/-- **The bias after a number**, which is the first one or not, when so many
characters are there. -/
def adapt (n count : Nat) (first : Bool) : Nat :=
  let n := if first then n / 700 else n / 2
  let (n, k) := scaleDown (n + n / count) 0
  k + 36 * n / (n + 38)

/-- The threshold is between one and twenty-six. -/
theorem threshold_bounds (place bias : Nat) :
    1 ≤ threshold place bias ∧ threshold place bias ≤ 26 := by
  simp only [threshold]
  split
  · omega
  · split <;> omega

/-- A number written from a place on. -/
def writeNumber (bias place n : Nat) : List Char :=
  let t := threshold place bias
  if n < t then [digit n]
  else digit (t + (n - t) % (36 - t)) :: writeNumber bias (place + 36) ((n - t) / (36 - t))
termination_by n
decreasing_by
  have h := threshold_bounds place bias
  have : (n - threshold place bias) / (36 - threshold place bias) ≤ n - threshold place bias :=
    Nat.div_le_self ..
  omega

/-- **What is written so far**: the text, the number under way, the bias, and how
many characters are there. -/
structure Writing where
  /-- The text. -/
  text : List Char
  /-- The number under way. -/
  gap : Nat
  /-- The bias. -/
  bias : Nat
  /-- How many characters are there. -/
  count : Nat

/-- One character of the label, while the code point `point` is put in. -/
def writeAt (basic point : Nat) (w : Writing) (c : Char) : Writing :=
  if c.toNat < point then { w with gap := w.gap + 1 }
  else if c.toNat = point then
    { text := w.text ++ writeNumber w.bias 36 w.gap
      gap := 0
      bias := adapt w.gap (w.count + 1) (w.count = basic)
      count := w.count + 1 }
  else w

/-- Code points in their order, without repeats. -/
def insertPoint (p : Nat) : List Nat → List Nat
  | [] => [p]
  | q :: rest => if p < q then p :: q :: rest else if p = q then q :: rest else q :: insertPoint p rest

/-- The code points of a label put in, one after another, from the least on. -/
def writePoints (label : List Char) (basic : Nat) : (next : Nat) → List Nat → Writing → Writing
  | _, [], w => w
  | next, p :: rest, w =>
    let w := { w with gap := w.gap + (p - next) * (w.count + 1) }
    let w := label.foldl (writeAt basic p) w
    writePoints label basic (p + 1) rest { w with gap := w.gap + 1 }

/-- **A label in ASCII**, without the mark that says so. -/
def encode (label : List Char) : List Char :=
  let basic := label.filter (·.toNat < 0x80)
  let points := (label.filter (0x80 ≤ ·.toNat)).foldr (fun c => insertPoint c.toNat) []
  let w := writePoints label basic.length 0x80 points ⟨[], 0, 72, basic.length⟩
  basic ++ (if basic.isEmpty then [] else ['-']) ++ w.text

/-- A number read from a place on: its value, and what follows it. -/
def readNumber (bias : Nat) : (place weight value : Nat) → List Char → Option (Nat × List Char)
  | _, _, _, [] => none
  | place, weight, value, c :: rest =>
    match digitValue? c with
    | none => none
    | some d =>
      let t := threshold place bias
      if d < t then some (value + d * weight, rest)
      else readNumber bias (place + 36) (weight * (36 - t)) (value + d * weight) rest

/-- Reading a number takes characters away. -/
theorem length_readNumber {bias place weight value n : Nat} {s rest : List Char}
    (h : readNumber bias place weight value s = some (n, rest)) : rest.length < s.length := by
  induction s generalizing place weight value with
  | nil => simp [readNumber] at h
  | cons c s ih =>
    simp only [readNumber] at h
    split at h
    · simp at h
    · split at h
      · simp only [Option.some.injEq, Prod.mk.injEq] at h
        simp [← h.2]
      · have := ih h
        simp only [List.length_cons]
        omega

/-- The rest of a label read: the characters so far, the code point and the place
that the last number led to. -/
def readPoints (label : List Char) (point place bias : Nat) (s : List Char) :
    Option (List Char) :=
  if s.isEmpty then some label
  else
    match _h : readNumber bias 36 1 0 s with
    | none => none
    | some (n, rest) =>
      let count := label.length + 1
      let point := point + (place + n) / count
      let place := (place + n) % count
      if point < 0x110000 && !(0xD800 ≤ point && point < 0xE000) then
        readPoints (label.take place ++ Char.ofNat point :: label.drop place) point (place + 1)
          (adapt n count (label.all (·.toNat < 0x80))) rest
      else none
termination_by s.length
decreasing_by exact length_readNumber _h

/-- **A label read from ASCII.** -/
def decode (s : List Char) : Option (List Char) :=
  let behind := (s.reverse.takeWhile (· ≠ '-')).reverse
  if behind.length = s.length then readPoints [] 0x80 0 72 s
  else readPoints (s.take (s.length - behind.length - 1)) 0x80 0 72 behind

end Courier.Url.Punycode
