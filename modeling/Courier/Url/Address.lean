import Courier.Url.Domain
/-!
# Network addresses in a URL

A host whose last part is a number is an address of four bytes. Its parts may
be written in base ten, eight or sixteen, and the last one stands for all the
bytes that are left. A host in brackets is an address of eight words in base
sixteen; a run of words that are zero may be left out once, and the last two
may be written as four bytes.
-/

namespace Courier.Url

open Courier.Text (hexValue?)

/-! ## Four bytes -/

/-- The value of a numeral in a base; none when a character is no digit of it. -/
def numeralIn? (base : Nat) (s : List Char) : Option Nat :=
  s.foldlM (fun n c =>
    match hexValue? c with
    | some d => if d < base then some (n * base + d) else none
    | none => none) 0

/-- **A part of an address**, in the base that its beginning shows. -/
def addressPart? : List Char → Option Nat
  | [] => none
  | '0' :: 'x' :: rest => numeralIn? 16 rest
  | '0' :: 'X' :: rest => numeralIn? 16 rest
  | '0' :: c :: rest => numeralIn? 8 (c :: rest)
  | s => numeralIn? 10 s

/-- The parts of an address; a dot at the end does not count. -/
def addressParts (s : List Char) : List (List Char) :=
  let parts := partsBetween '.' s
  if parts.getLast? = some [] then parts.dropLast else parts

/-- **Whether a host ends in a number**, so that it must be an address. -/
def endsInNumber (host : List Char) : Bool :=
  match (addressParts host).getLast? with
  | some last => !last.isEmpty && (last.all Char.isDigit || (addressPart? last).isSome)
  | none => false

/-- **An address of four bytes**, as a number. -/
def parseV4 (host : List Char) : Option Nat :=
  let parts := addressParts host
  if 4 < parts.length then none
  else
    match parts.mapM addressPart? with
    | none => none
    | some numbers =>
      match numbers.reverse with
      | [] => none
      | last :: before =>
        if before.any (255 < ·) || Nat.pow 256 (4 - before.length) ≤ last then none
        else some (before.reverse.foldl (fun n b => n * 256 + b) 0 * Nat.pow 256 (4 - before.length) + last)

/-- An address of four bytes, written. -/
def renderV4 (n : Nat) : List Char :=
  List.intercalate ['.'] ([n / 0x1000000 % 256, n / 0x10000 % 256, n / 0x100 % 256, n % 256].map
    fun b => (toString b).toList)

/-! ## Eight words -/

/-- Four bytes with dots between them, each of one to three digits and without
leading zeroes. -/
def dottedBytes? (s : List Char) : Option (List Nat) :=
  let parts := partsBetween '.' s
  if parts.length ≠ 4 then none
  else parts.mapM fun part =>
    if part.isEmpty || 3 < part.length || (1 < part.length && part.head? = some '0') then none
    else
      match numeralIn? 10 part with
      | some n => if n < 256 then some n else none
      | none => none

/-- A word of one to four digits. -/
def word? (s : List Char) : Option Nat :=
  if s.isEmpty || 4 < s.length then none else numeralIn? 16 s

/-- Words with colons between them; the last two may be written as four bytes
where that is allowed. -/
def words? (bytesAllowed : Bool) : List (List Char) → Option (List Nat)
  | [] => some []
  | [part] =>
    if bytesAllowed && part.contains '.' then
      match dottedBytes? part with
      | some [a, b, c, d] => some [a * 256 + b, c * 256 + d]
      | _ => none
    else (word? part).map ([·])
  | part :: rest => do
    let w ← word? part
    let ws ← words? bytesAllowed rest
    some (w :: ws)

/-- A text as words, none when it is empty. -/
def wordsOf? (bytesAllowed : Bool) (s : List Char) : Option (List Nat) :=
  if s.isEmpty then some [] else words? bytesAllowed (partsBetween ':' s)

/-- The text before the first pair of colons, and the text behind it. -/
def splitAtGap : List Char → Option (List Char × List Char)
  | ':' :: ':' :: rest => some ([], rest)
  | c :: rest => (splitAtGap rest).map fun (before, behind) => (c :: before, behind)
  | [] => none

/-- **An address of eight words.** -/
def parseV6 (s : List Char) : Option (List Nat) :=
  match splitAtGap s with
  | none =>
    match wordsOf? true s with
    | some ws => if ws.length = 8 then some ws else none
    | none => none
  | some (before, behind) => do
    let front ← wordsOf? false before
    let back ← wordsOf? true behind
    if front.length + back.length < 8 then
      some (front ++ List.replicate (8 - front.length - back.length) 0 ++ back)
    else none

/-- The longest run of zero words, the first of several: where it begins and how
long it is. -/
def longestRun (words : List Nat) : Nat × Nat :=
  (List.range words.length).foldl (fun best i =>
    let n := ((words.drop i).takeWhile (· = 0)).length
    if best.2 < n then (i, n) else best) (0, 0)

/-- Words with colons between them. -/
def joinWords (words : List Nat) : List Char :=
  List.intercalate [':'] (words.map (Nat.toDigits 16))

/-- **An address of eight words, written**, with its longest run of zero words
left out if it has more than one. -/
def renderV6 (words : List Nat) : List Char :=
  let (start, n) := longestRun words
  if n < 2 then joinWords words
  else joinWords (words.take start) ++ ':' :: ':' :: joinWords (words.drop (start + n))

end Courier.Url
