import Courier.Document.Schema
import Courier.Toml.Scalar
import Courier.Toml.Tree
/-!
# Reading TOML

A document is a sequence of lines: entries, headers, comments, or nothing. A
header says which table the entries below it belong to; an entry is a key, or
several with dots between them, and a value. Lists and tables may also be
written as values, over several lines if need be.

A document with any fault in it is malformed as a whole. One that is not is a
draft, with the entries of every table in the order of their keys, and checked
against the shape that is wanted in that order.
-/

namespace Courier.Toml

open Courier.Document

/-- A text without the blank space that it begins with. -/
def dropSpace (s : List Char) : List Char :=
  s.dropWhile fun c => c = ' ' || c = '\t'

/-- **What follows blank space, line ends and comments.** -/
def dropVoid : (comment : Bool) → List Char → Option (List Char)
  | _, [] => some []
  | _, '\n' :: rest => dropVoid false rest
  | _, '\r' :: '\n' :: rest => dropVoid false rest
  | true, c :: rest => if isVisible c then dropVoid true rest else none
  | false, c :: rest =>
    if c = ' ' || c = '\t' then dropVoid false rest
    else if c = '#' then dropVoid true rest
    else some (c :: rest)

/-- **What follows the end of a line**, before which there may be a comment. -/
def endLine (s : List Char) : Option (List Char) :=
  let rest := match dropSpace s with
    | '#' :: rest => rest.dropWhile isVisible
    | rest => rest
  match rest with
  | [] => some []
  | rest => newline? rest

/-! ## Keys -/

/-- A character of a key without quotes. -/
def inKey (c : Char) : Bool :=
  c.isAlphanum || c = '_' || c = '-'

/-- A key without dots. -/
def simpleKey (s : List Char) : Option (List Char × List Char) :=
  match s with
  | '"' :: rest => basic rest
  | '\x27' :: rest => raw rest
  | s =>
    match s.span inKey with
    | ([], _) => none
    | (key, rest) => some (key, rest)

/-- **Keys with dots between them**, of which there is at least one. -/
def keys : (fuel : Nat) → List Char → Option (List String × List Char)
  | 0, _ => none
  | fuel + 1, s =>
    match simpleKey (dropSpace s) with
    | none => none
    | some (key, rest) =>
      match dropSpace rest with
      | '.' :: rest =>
        (keys fuel rest).map fun (more, rest) => (String.ofList key :: more, rest)
      | rest => some ([String.ofList key], rest)

/-- A value put under keys with dots between them. -/
def putDotted (path : List String) (d : Draft) (entries : Entries) : Option Entries :=
  match path.getLast? with
  | some key => descend true path.dropLast (putValue key d) entries
  | none => none

/-! ## Values -/

/-- A text, or nothing when there is none. -/
def quoted? (s : List Char) : Option (Option (List Char × List Char)) :=
  match s with
  | '"' :: '"' :: '"' :: rest => some (opened '"' true rest)
  | '"' :: rest => some (basic rest)
  | '\x27' :: '\x27' :: '\x27' :: rest => some (opened '\x27' false rest)
  | '\x27' :: rest => some (raw rest)
  | _ => none

mutual

/-- **A value**, and what follows it. -/
def value : (fuel : Nat) → List Char → Option (Draft × List Char)
  | 0, _ => none
  | fuel + 1, s =>
    match s with
    | '[' :: rest => items fuel [] rest
    | '\x7b' :: rest => inlineEntries fuel [] rest
    | s =>
      match quoted? s with
      | some read => read.map fun (text, rest) => (.text (.ofString (String.ofList text)), rest)
      | none =>
        let (word, rest) := splitWord s
        (word? word).map fun d => (d, rest)

/-- The items of a list, those so far from last to first. -/
def items : (fuel : Nat) → List Draft → List Char → Option (Draft × List Char)
  | 0, _, _ => none
  | fuel + 1, read, s =>
    match dropVoid false s with
    | none => none
    | some (']' :: rest) => some (.list read.reverse true, rest)
    | some s =>
      match value fuel s with
      | none => none
      | some (d, rest) =>
        match dropVoid false rest with
        | some (',' :: rest) => items fuel (d :: read) rest
        | some (']' :: rest) => some (.list (d :: read).reverse true, rest)
        | _ => none

/-- The entries of a table that is written as a value. -/
def inlineEntries : (fuel : Nat) → Entries → List Char → Option (Draft × List Char)
  | 0, _, _ => none
  | fuel + 1, entries, s =>
    match dropVoid false s with
    | none => none
    | some ('\x7d' :: rest) => some (.table (entriesToDraft entries) true, rest)
    | some s =>
      match entry fuel entries s with
      | none => none
      | some (entries, rest) =>
        match dropVoid false rest with
        | some (',' :: rest) => inlineEntries fuel entries rest
        | some ('\x7d' :: rest) => some (.table (entriesToDraft entries) true, rest)
        | _ => none

/-- **An entry**, put into a table. -/
def entry : (fuel : Nat) → Entries → List Char → Option (Entries × List Char)
  | 0, _, _ => none
  | fuel + 1, entries, s =>
    match keys fuel s with
    | some (path, '=' :: rest) =>
      match value fuel (dropSpace rest) with
      | some (d, rest) => (putDotted path d entries).map fun entries => (entries, rest)
      | none => none
    | _ => none

end

/-! ## Lines -/

/-- **A header**, from behind its brackets on: the keys in it, and what follows
the brackets that close it. -/
def header (fuel : Nat) (double : Bool) (s : List Char) : Option (List String × List Char) :=
  match keys fuel s, double with
  | some (path, ']' :: ']' :: rest), true => some (path, rest)
  | some (path, ']' :: rest), false => some (path, rest)
  | _, _ => none

/-- A header put into effect. -/
def open? (double : Bool) (path : List String) (root : Entries) : Option Entries :=
  match path.getLast? with
  | some key => descend false path.dropLast (if double then addTable key else nameTable key) root
  | none => none

/-- **The lines of a document**, from those read so far on: the tables, and the
keys of the one that entries belong to. -/
def lines : (fuel : Nat) → (root : Entries) → (here : List String) → List Char → Option Entries
  | 0, _, _, _ => none
  | fuel + 1, root, here, s =>
    match dropVoid false s with
    | none => none
    | some [] => some root
    | some ('[' :: '[' :: rest) => do
      let (path, rest) ← header fuel true rest
      let rest ← endLine rest
      let root ← open? true path root
      lines fuel root path rest
    | some ('[' :: rest) => do
      let (path, rest) ← header fuel false rest
      let rest ← endLine rest
      let root ← open? false path root
      lines fuel root path rest
    | some s => do
      let (path, d, rest) ← match keys fuel s with
        | some (path, '=' :: rest) =>
          (value fuel (dropSpace rest)).map fun (d, rest) => (path, d, rest)
        | _ => none
      let rest ← endLine rest
      let root ← descend false here (putDotted path d) root
      lines fuel root here rest

/-- A text without the mark of byte order. -/
def withoutMark : List Char → List Char
  | '\uFEFF' :: rest => rest
  | s => s

/-- **The draft of a document**, unless it is malformed. Everything that is read
takes a character away, and one more step finds the end. -/
def read (s : String) : Option Draft :=
  let s := withoutMark s.toList
  (lines (3 * s.length + 3) [] [] s).map fun root => .table (entriesToDraft root) true

/-- **The typed value a document writes**, or the first fault met in it. -/
def decode {α : Type} (c : Codec α) (s : String) : Except Fault α :=
  match read s with
  | some d => c.ofDraft .toml d
  | none => .error .malformed

end Courier.Toml
