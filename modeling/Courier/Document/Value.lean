/-!
# Documents

What both formats of this library write down: nothing, flags, numbers, texts,
lists and tables. A table keeps its entries in the order they are written in;
`Value.sorted` is the same document with every table in the order of its keys
and without the earlier ones of repeated keys, which is the form in which two
documents are compared and payloads are compacted.
-/

namespace Courier.Document

/-- **A number of a document.** Whole numbers within 64 bits stay whole; every
other number is a double. -/
inductive Number
  /-- A whole number. -/
  | integer (n : Int)
  /-- A double. -/
  | real (x : Float)
deriving Repr, Inhabited

/-- **A document.** -/
inductive Value
  /-- Nothing. -/
  | null
  /-- A flag. -/
  | flag (b : Bool)
  /-- A number. -/
  | number (n : Number)
  /-- A text. -/
  | text (s : String)
  /-- A list of documents. -/
  | list (items : List Value)
  /-- A table from texts to documents. -/
  | table (entries : List (String × Value))
deriving Repr, Inhabited

namespace Value

/-- A natural number as a document. -/
def nat (n : Nat) : Value :=
  .number (.integer n)

/-- A double as a document. -/
def real (x : Float) : Value :=
  .number (.real x)

end Value

/-- Putting an entry into a table in the order of keys: in the place of the
entry of its key, or before the first later key. -/
def insertSorted {α : Type} (key : String) (value : α) :
    List (String × α) → List (String × α)
  | [] => [(key, value)]
  | (k, v) :: rest =>
    if key = k then (key, value) :: rest
    else if key < k then (key, value) :: (k, v) :: rest
    else (k, v) :: insertSorted key value rest

/-- **Entries in the order of their keys**, the last of repeated keys kept. -/
def sortEntries {α : Type} (entries : List (String × α)) : List (String × α) :=
  entries.foldl (fun sorted (key, value) => insertSorted key value sorted) []

/-- The last entry of a key. -/
def lookupLast {α : Type} (entries : List (String × α)) (key : String) : Option α :=
  (entries.reverse.find? fun entry => entry.1 = key).map (·.2)

mutual

/-- **A document with its tables in the order of their keys.** -/
def Value.sorted : Value → Value
  | .list items => .list (sortedItems items)
  | .table entries => .table (sortEntries (sortedEntries entries))
  | v => v

/-- The documents of a list, each sorted. -/
def sortedItems : List Value → List Value
  | [] => []
  | v :: rest => v.sorted :: sortedItems rest

/-- The entries of a table, each document sorted. -/
def sortedEntries : List (String × Value) → List (String × Value)
  | [] => []
  | (k, v) :: rest => (k, v.sorted) :: sortedEntries rest

end

/-- The entry of a key in a table; the last one when the key is repeated. -/
def Value.get? (v : Value) (key : String) : Option Value :=
  match v with
  | .table entries => lookupLast entries key
  | _ => none

end Courier.Document
