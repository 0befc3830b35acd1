import Courier.Document.Value
import Courier.Decimal.Style
/-!
# Writing JSON

Two ways of writing a document: compactly, without any blank space, and with
one entry or item to a line, indented by two spaces a level. Both write the
entries of a table in the order in which it holds them.
-/

namespace Courier.Json

open Courier.Document

/-- The digits of a number in base sixteen, padded to four. -/
def unitDigits (n : Nat) : List Char :=
  let ds := Nat.toDigits 16 n
  List.replicate (4 - ds.length) '0' ++ ds

/-- **One character within quotes.** The double quote, the backslash and the
control characters are escaped, and nothing else is. -/
def quoteChar (c : Char) : List Char :=
  match c with
  | '"' => ['\\', '"']
  | '\\' => ['\\', '\\']
  | '\n' => ['\\', 'n']
  | '\r' => ['\\', 'r']
  | '\t' => ['\\', 't']
  | '\x08' => ['\\', 'b']
  | '\x0C' => ['\\', 'f']
  | c => if c.toNat < 0x20 then '\\' :: 'u' :: unitDigits c.toNat else [c]

/-- **A text between quotes.** -/
def quote (s : String) : List Char :=
  '"' :: s.toList.flatMap quoteChar ++ ['"']

/-- A number. -/
def number : Number → List Char
  | .integer n => (toString n).toList
  | .real x => (Decimal.jsonStyle.write x).toList

mutual

/-- **A document without blank space.** -/
def compact : Value → List Char
  | .null => "null".toList
  | .flag true => "true".toList
  | .flag false => "false".toList
  | .number n => number n
  | .text s => quote s
  | .list items => '[' :: compactItems items ++ [']']
  | .table entries => '\x7b' :: compactEntries entries ++ ['\x7d']

/-- The items of a list, with commas between them. -/
def compactItems : List Value → List Char
  | [] => []
  | [v] => compact v
  | v :: rest => compact v ++ ',' :: compactItems rest

/-- The entries of a table, with commas between them. -/
def compactEntries : List (String × Value) → List Char
  | [] => []
  | [(k, v)] => quote k ++ ':' :: compact v
  | (k, v) :: rest => quote k ++ ':' :: compact v ++ ',' :: compactEntries rest

end

/-- A new line, indented to a level. -/
def newline (level : Nat) : List Char :=
  '\n' :: List.replicate (2 * level) ' '

mutual

/-- **A document with one entry or item to a line**, from a level of
indentation on. What is empty stays on its line. -/
def pretty (level : Nat) : Value → List Char
  | .list [] => ['[', ']']
  | .list items => '[' :: prettyItems (level + 1) items ++ newline level ++ [']']
  | .table [] => ['\x7b', '\x7d']
  | .table entries => '\x7b' :: prettyEntries (level + 1) entries ++ newline level ++ ['\x7d']
  | v => compact v

/-- The items of a list, each on a line. -/
def prettyItems (level : Nat) : List Value → List Char
  | [] => []
  | [v] => newline level ++ pretty level v
  | v :: rest => newline level ++ pretty level v ++ ',' :: prettyItems level rest

/-- The entries of a table, each on a line. -/
def prettyEntries (level : Nat) : List (String × Value) → List Char
  | [] => []
  | [(k, v)] => newline level ++ quote k ++ ':' :: ' ' :: pretty level v
  | (k, v) :: rest =>
    newline level ++ quote k ++ ':' :: ' ' :: pretty level v ++ ',' :: prettyEntries level rest

end

/-- The compact text of a document. -/
def write (v : Value) : String :=
  String.ofList (compact v)

/-- The indented text of a document. -/
def writePretty (v : Value) : String :=
  String.ofList (pretty 0 v)

end Courier.Json
