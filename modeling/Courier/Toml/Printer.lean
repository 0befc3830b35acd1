import Courier.Decimal.Style
import Courier.Document.Value
/-!
# Writing TOML

A table is written as lines: first the entries whose values stand on their own
line, then, each below a header and an empty line, the tables in it and the
lists of tables in it. What is nothing is not written.

A text is written in the plainest quotes that need no escapes. A list of
several items has a line for each of them.
-/

namespace Courier.Toml

open Courier.Document

/-! ## Texts -/

/-- **What stands in a text** that bears on how it is written. -/
structure Traits where
  /-- The longest run of single quotes. -/
  singles : Nat
  /-- The longest run of double quotes. -/
  doubles : Nat
  /-- Whether there is a backslash. -/
  backslash : Bool
  /-- Whether there is a control character other than the tab and the line feed. -/
  control : Bool
  /-- Whether there is a line feed. -/
  newline : Bool

/-- The longest run of a character. -/
def longestRun (c : Char) : (current best : Nat) → List Char → Nat
  | _, best, [] => best
  | current, best, d :: rest =>
    if d = c then longestRun c (current + 1) (max best (current + 1)) rest
    else longestRun c 0 best rest

/-- A control character that is always escaped. -/
def isEscaped (c : Char) : Bool :=
  (c.toNat < 0x20 && c ≠ '\t' && c ≠ '\n') || c.toNat = 0x7F

/-- What stands in a text. -/
def traits (s : List Char) : Traits where
  singles := longestRun '\x27' 0 0 s
  doubles := longestRun '"' 0 0 s
  backslash := s.contains '\\'
  control := s.any isEscaped
  newline := s.contains '\n'

/-- **The quotes of a text.** -/
inductive Quotes
  /-- Double quotes on one line. -/
  | basic
  /-- Single quotes on one line. -/
  | raw
  /-- Double quotes over several lines. -/
  | basicBlock
  /-- Single quotes over several lines. -/
  | rawBlock
deriving DecidableEq, Repr

/-- The plainest quotes without escapes for a text on one line. -/
def Traits.lineQuotes? (t : Traits) : Option Quotes :=
  if !t.control && !t.backslash && t.doubles = 0 && !t.newline then some .basic
  else if !t.control && t.singles = 0 && !t.newline then some .raw
  else none

/-- **The quotes of a text**: the first of four that need no escapes, and when
there are none those in which every character can be written. -/
def Traits.quotes (t : Traits) : Quotes :=
  match t.lineQuotes? with
  | some q => q
  | none =>
    if !t.control && !t.backslash && t.doubles ≤ 2 then .basicBlock
    else if !t.control && t.singles ≤ 2 then .rawBlock
    else if t.newline then .basicBlock
    else .basic

/-- Digits in base sixteen, in upper case, four of them. -/
def unitDigits (n : Nat) : List Char :=
  let ds := (Nat.toDigits 16 n).map Char.toUpper
  List.replicate (4 - ds.length) '0' ++ ds

/-- A character between double quotes. -/
def escapeChar (block : Bool) (c : Char) : List Char :=
  match c with
  | '\x08' => ['\\', 'b']
  | '\t' => ['\\', 't']
  | '\n' => if block then ['\n'] else ['\\', 'n']
  | '\x0C' => ['\\', 'f']
  | '\r' => ['\\', 'r']
  | '\\' => ['\\', '\\']
  | c => if isEscaped c then '\\' :: 'u' :: unitDigits c.toNat else [c]

/-- Characters between double quotes, of which so many may stand together before
the next one is escaped. -/
def escapeAll (block : Bool) (allowed : Nat) : (run : Nat) → List Char → List Char
  | _, [] => []
  | run, c :: rest =>
    if c = '"' then
      if run < allowed then '"' :: escapeAll block allowed (run + 1) rest
      else '\\' :: '"' :: escapeAll block allowed 0 rest
    else escapeChar block c ++ escapeAll block allowed 0 rest

/-- A text in given quotes. -/
def inQuotes (q : Quotes) (newline : Bool) (s : List Char) : List Char :=
  let start := if newline then ['\n'] else []
  match q with
  | .basic => '"' :: escapeAll false 0 0 s ++ ['"']
  | .raw => '\x27' :: s ++ ['\x27']
  | .basicBlock => ['"', '"', '"'] ++ start ++ escapeAll true 2 0 s ++ ['"', '"', '"']
  | .rawBlock => ['\x27', '\x27', '\x27'] ++ start ++ s ++ ['\x27', '\x27', '\x27']

/-- **A text.** -/
def text (s : String) : List Char :=
  let t := traits s.toList
  inQuotes t.quotes t.newline s.toList

/-- A character of a key without quotes. -/
def isBare (c : Char) : Bool :=
  c.isAlphanum || c = '_' || c = '-'

/-- **A key**: without quotes where it can be, and on one line always. -/
def key (s : String) : List Char :=
  let cs := s.toList
  if !cs.isEmpty && cs.all isBare then cs
  else inQuotes ((traits cs).lineQuotes?.getD .basic) false cs

/-- Keys with dots between them. -/
def path (keys : List String) : List Char :=
  List.intercalate ['.'] (keys.map key)

/-! ## Values -/

/-- A number. -/
def number : Number → List Char
  | .integer n => (toString n).toList
  | .real x => (Decimal.tomlStyle.write x).toList

mutual

/-- **A value on its own line.** -/
def writeInline : Value → List Char
  | .null => []
  | .flag true => "true".toList
  | .flag false => "false".toList
  | .number n => number n
  | .text s => text s
  | .list [] => ['[', ']']
  | .list [v] => '[' :: writeInline v ++ [']']
  | .list items => '[' :: writeItems items ++ ['\n', ']']
  | .table [] => ['\x7b', '\x7d']
  | .table entries => '\x7b' :: ' ' :: writeEntries entries ++ [' ', '\x7d']

/-- Items, each on a line and with a comma behind it. -/
def writeItems : List Value → List Char
  | [] => []
  | v :: rest => '\n' :: ' ' :: ' ' :: ' ' :: ' ' :: writeInline v ++ ',' :: writeItems rest

/-- Entries of a table within a line. -/
def writeEntries : List (String × Value) → List Char
  | [] => []
  | [(k, v)] => key k ++ ' ' :: '=' :: ' ' :: writeInline v
  | (k, v) :: rest => key k ++ ' ' :: '=' :: ' ' :: writeInline v ++ ',' :: ' ' :: writeEntries rest

end

/-! ## Tables -/

/-- A table. -/
def isTable : Value → Bool
  | .table _ => true
  | _ => false

/-- Whether a value is written below a header. -/
def isBelowHeader : Value → Bool
  | .table _ => true
  | .list items => !items.isEmpty && items.all isTable
  | _ => false

/-- Whether a value is not written at all. -/
def isNothing : Value → Bool
  | .null => true
  | _ => false

/-- The entries of a table that stand on their own line. -/
def plainEntries (entries : List (String × Value)) : List Char :=
  entries.flatMap fun (k, v) =>
    if isBelowHeader v || isNothing v then [] else key k ++ ' ' :: '=' :: ' ' :: writeInline v ++ ['\n']

mutual

/-- **The lines of the tables in a table**, which the given keys lead to. -/
def below (keys : List String) : List (String × Value) → List Char
  | [] => []
  | (k, .table entries) :: rest =>
    '\n' :: '[' :: path (keys ++ [k]) ++ [']', '\n'] ++ plainEntries entries ++
      below (keys ++ [k]) entries ++ below keys rest
  | (k, .list items) :: rest =>
    (if isBelowHeader (.list items) then eachBelow (keys ++ [k]) items else []) ++ below keys rest
  | _ :: rest => below keys rest

/-- The lines of a list of tables. -/
def eachBelow (keys : List String) : List Value → List Char
  | [] => []
  | .table entries :: rest =>
    '\n' :: '[' :: '[' :: path keys ++ [']', ']', '\n'] ++ plainEntries entries ++
      below keys entries ++ eachBelow keys rest
  | _ :: rest => eachBelow keys rest

end

/-- **A document.** What is not a table has none. -/
def write (v : Value) : String :=
  match v with
  | .table entries => String.ofList (plainEntries entries ++ below [] entries)
  | _ => ""

end Courier.Toml
