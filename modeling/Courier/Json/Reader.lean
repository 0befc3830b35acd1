import Courier.Json.Token
import Courier.Document.Schema
/-!
# Reading JSON

The tokens of a text are put together into a draft by a machine with a stack:
the lists and tables that are open, with what they hold so far. After each
token it knows what may come next. When something else comes, or the text
ends, the open lists and tables stay open in the draft, each as the last
thing in the one around it, so that a reader of the draft meets the fault
where it stands.

`decode` reads a typed value: the draft is checked against the shape that is
wanted, and nothing but blank space may stand behind it.
-/

namespace Courier.Json

open Courier.Document

/-- **A list or a table that is open**, with what it holds, the last first. -/
inductive Frame
  /-- A list. -/
  | list (items : List Draft)
  /-- A table, and the key of the entry under way. -/
  | table (entries : List (Draft × Draft)) (key : Draft)
deriving Inhabited

/-- **What may come next.** -/
inductive Expect
  /-- A document. -/
  | value
  /-- The first item of a list, or its end. -/
  | firstItem
  /-- A comma or the end of a list. -/
  | afterItem
  /-- The first key of a table, or its end. -/
  | firstKey
  /-- A key. -/
  | key
  /-- The colon behind a key. -/
  | colon
  /-- A comma or the end of a table. -/
  | afterEntry
  /-- Nothing: the document is whole. -/
  | nothing
deriving Repr, DecidableEq, Inhabited

/-- **The machine**: what is open, what may come next, and the document once it
is whole. -/
structure Builder where
  /-- The open lists and tables, the innermost first. -/
  frames : List Frame
  /-- What may come next. -/
  expect : Expect
  /-- The document, once it is whole. -/
  whole : Draft
deriving Inhabited

namespace Builder

/-- Nothing has been read. -/
def start : Builder :=
  ⟨[], .value, .fault⟩

/-- **A document put where it belongs.** -/
def put (b : Builder) (d : Draft) : Builder :=
  match b.frames with
  | [] => ⟨[], .nothing, d⟩
  | .list items :: frames => ⟨.list (d :: items) :: frames, .afterItem, .fault⟩
  | .table entries key :: frames =>
    ⟨.table ((key, d) :: entries) .fault :: frames, .afterEntry, .fault⟩

/-- The innermost list or table has ended. -/
def close (b : Builder) : Builder :=
  match b.frames with
  | [] => b
  | .list items :: frames => (⟨frames, .value, .fault⟩ : Builder).put (.list items.reverse true)
  | .table entries _ :: frames =>
    (⟨frames, .value, .fault⟩ : Builder).put (.table entries.reverse true)

/-- **The draft when nothing more can be read**: what is open stays open, and a
key without its document is followed by the fault. -/
def breakOff : List Frame → Draft → Draft
  | [], d => d
  | .list items :: frames, d => breakOff frames (.list (d :: items).reverse false)
  | .table entries key :: frames, d =>
    breakOff frames (.table ((key, d) :: entries).reverse false)

/-- The innermost list or table, open. -/
def broken (b : Builder) : Draft :=
  match b.expect with
  | .value => breakOff b.frames .fault
  | .colon => breakOff b.frames .fault
  | .nothing => b.whole
  | _ =>
    match b.frames with
    | [] => .fault
    | .list items :: frames => breakOff frames (.list items.reverse false)
    | .table entries _ :: frames => breakOff frames (.table entries.reverse false)

/-- The document a token is by itself. -/
def leaf? : Token → Option Draft
  | .null => some .null
  | .flag b => some (.flag b)
  | .number n => some (.number n)
  | .text q => some (.text q)
  | _ => none

/-- A token where a document may stand. -/
def value (b : Builder) (t : Token) : Option Builder :=
  match t with
  | .openList => some ⟨.list [] :: b.frames, .firstItem, .fault⟩
  | .openTable => some ⟨.table [] .fault :: b.frames, .firstKey, .fault⟩
  | t => (leaf? t).map b.put

/-- A token where a key may stand. What is no text is kept as a key too, so that
its reader can say what it is; the fault follows it. -/
def key (b : Builder) (t : Token) : Option Builder :=
  match b.frames, t with
  | .table entries _ :: frames, .text q => some ⟨.table entries (.text q) :: frames, .colon, .fault⟩
  | _, _ => none

/-- **The draft when a key is no text.** -/
def strayKey (b : Builder) (t : Token) : Draft :=
  match b.frames, t with
  | .table entries _ :: frames, .openList =>
    breakOff frames (.table ((.list [] false, .fault) :: entries).reverse false)
  | .table entries _ :: frames, .openTable =>
    breakOff frames (.table ((.table [] false, .fault) :: entries).reverse false)
  | .table entries _ :: frames, t =>
    match leaf? t with
    | some d => breakOff frames (.table ((d, .fault) :: entries).reverse false)
    | none => b.broken
  | _, _ => b.broken

/-- **One more token**; nothing when it may not come there. -/
def step (b : Builder) (t : Token) : Option Builder :=
  match b.expect, t with
  | .value, t => b.value t
  | .firstItem, .closeList => some b.close
  | .firstItem, t => b.value t
  | .afterItem, .comma => some { b with expect := .value }
  | .afterItem, .closeList => some b.close
  | .firstKey, .closeTable => some b.close
  | .firstKey, t => b.key t
  | .key, t => b.key t
  | .colon, .colon => some { b with expect := .value }
  | .afterEntry, .comma => some { b with expect := .key }
  | .afterEntry, .closeTable => some b.close
  | _, _ => none

end Builder

/-- **A text that has been read**: its draft, and whether something stands
behind the document. -/
structure Reading where
  /-- The document as far as it can be read. -/
  draft : Draft
  /-- Whether something other than blank space follows it. -/
  trailing : Bool

/-- Putting the rest of the tokens together. -/
def build : Builder → List Token → Reading
  | b, [] => ⟨b.broken, false⟩
  | b, t :: rest =>
    match b.step t with
    | some b => build b rest
    | none =>
      match b.expect with
      | .firstKey => ⟨b.strayKey t, true⟩
      | _ => ⟨b.broken, true⟩

/-- **Reading a text.** -/
def read (s : String) : Reading :=
  build .start (tokens s.toList)

/-- **The typed value a text writes**, or the first fault met in it. -/
def decode {α : Type} (c : Codec α) (s : String) : Except Fault α := do
  let reading := read s
  let a ← c.ofDraft .json reading.draft
  whenClosed (!reading.trailing) a

/-- The schema of all documents. -/
def anything : Codec Value where
  schema := .anything
  toDatum := .anything
  ofDatum?
    | .anything v => some v
    | _ => none

/-- **The document a text writes.** -/
def parse (s : String) : Except Fault Value :=
  decode anything s

end Courier.Json
