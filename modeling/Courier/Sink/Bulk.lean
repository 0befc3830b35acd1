import Courier.Delivery.Ledger
import Courier.Json.Printer
import Courier.Json.Reader
import Courier.Sink.Exchange
import Courier.Sink.Params
import Courier.Text.Blank
/-!
# Bulk indexing

A search engine takes a batch as lines: for each event one line that says into
which index it goes and under which identity, and one line with its document.
A document that spans several lines must be JSON and is put on one. An event
whose payload cannot be put on a line is left out of the request and refused
by the sink itself.

The answer has an item for each event of the request. Positions count the
events that are in it, so an item that names no event gets the identity of the
event at its position there, and what was left out is answered last.
-/

namespace Courier.Sink

open Courier.Delivery (Ledger)
open Courier.Document

/-! ## The request -/

/-- **A payload on one line**, or why it cannot be put there. -/
def bulkDocument (payload : List UInt8) : Except String (List Char) :=
  match Text.Utf8.decode payload with
  | .error fault => .error ("payload is not UTF-8: " ++ fault.message)
  | .ok chars =>
    let text := Text.trimEnd chars
    if !text.contains '\n' then .ok text
    else
      match Json.parse (String.ofList text) with
      | .ok v => .ok (Json.compact v.sorted)
      | .error fault =>
        .error ("payload spans multiple lines and is not JSON: " ++ fault.describe .json)

/-- The line that says where a document goes. -/
def bulkAction (index : String) (id : EventId) : List Char :=
  Json.compact (.table [("index", .table [("_id", .text id.text), ("_index", .text index)])])

/-- **A bulk request.** -/
structure BulkBody where
  /-- Its lines. -/
  lines : List (List Char)
  /-- The events in it. -/
  included : List EventId
  /-- The answers to the events left out. -/
  rejected : List ItemStatus
deriving DecidableEq, Repr, Inhabited

namespace BulkBody

/-- One more event. -/
def add (index : String) (b : BulkBody) (e : Event) : BulkBody :=
  match bulkDocument e.payload with
  | .ok document =>
    { b with lines := b.lines ++ [bulkAction index e.id, document], included := b.included ++ [e.id] }
  | .error reason => { b with rejected := b.rejected ++ [⟨some e.id, 400, some reason⟩] }

/-- **The request for a batch.** -/
def encode (index : String) (batch : List Event) : BulkBody :=
  batch.foldl (add index) ⟨[], [], []⟩

/-- The text of the request: every line ends in a line feed. -/
def text (b : BulkBody) : List Char :=
  b.lines.flatMap (· ++ ['\n'])

end BulkBody

/-! ## The answer -/

/-- **An item of an answer.** -/
structure BulkItem where
  /-- The event it names. -/
  id : Option String
  /-- Its code. -/
  status : Nat
  /-- What went wrong. -/
  error : Option Value
deriving Repr, Inhabited

/-- The shape of an item. -/
def BulkItem.schema : Schema :=
  .record "BulkItem"
    (.cons "_id" (.optional .text) (.inTable .absent) false
      (.required "status" (.natural .u16) (.optional "error" .anything .nil)))

/-- The item of a datum. -/
def BulkItem.ofDatum? : Datum → Option BulkItem
  | .record [id, .natural status, error] => do
    let id ← id.toText?
    match error with
    | .absent => some ⟨id, status, none⟩
    | .present (.anything v) => some ⟨id, status, some v⟩
    | _ => none
  | _ => none

/-- The item under one of the keys of an entry; none when it has no key. -/
def actionOf? : Datum → Option (Option BulkItem)
  | .dictionary [] => some none
  | .dictionary ((_, d) :: _) => (BulkItem.ofDatum? d).map some
  | _ => none

/-- **The items of an answer**, with nothing for an entry that holds none. -/
def bulkItems : Codec (List (Option BulkItem)) where
  schema := .record "BulkResponse"
    (.defaulting "errors" .flag (.flag false)
      (.defaulting "items" (.sequence (.dictionary BulkItem.schema)) (.sequence []) .nil))
  toDatum _ := .absent
  ofDatum?
    | .record [_, .sequence items] => items.mapM actionOf?
    | _ => none

/-- What went wrong with an item, in words: its type and its reason, or all that
is said. -/
def describeError (v : Value) : String :=
  match v.get? "type", v.get? "reason" with
  | some (.text type), some (.text reason) => s!"{type}: {reason}"
  | some (.text type), _ => type
  | _, _ => Json.write v.sorted

/-- The answer of an item. -/
def BulkItem.answer (i : BulkItem) : ItemStatus :=
  ⟨i.id.map (⟨·⟩), i.status, i.error.map describeError⟩

/-- **The statuses of an answer.** An entry that holds no item gives none. -/
def parseBulkAnswer (text : String) : Except Fault (List ItemStatus) :=
  (Json.decode bulkItems text).map fun items => (items.filterMap id).map (·.answer)

/-- **Statuses with the identities of the events at their positions**, where they
have none of their own. -/
def alignTo : List EventId → List ItemStatus → List ItemStatus
  | _, [] => []
  | [], s :: rest => s :: alignTo [] rest
  | id :: ids, s :: rest => { s with id := some (s.id.getD id) } :: alignTo ids rest

/-! ## The sink -/

/-- **A sink of a search engine.** -/
structure SearchBulk where
  /-- Its name. -/
  name : String
  /-- The index it writes to. -/
  index : String
  /-- Where requests go to. -/
  endpoint : Url
  /-- The milliseconds that a response is waited for. -/
  timeout : Nat
deriving DecidableEq, Repr, Inhabited

namespace SearchBulk

/-- **The sink of a configuration.** -/
def ofSettings (s : SinkSettings) : Except Failure SearchBulk := do
  let url ← requiredParam s "url"
  let index ← requiredParam s "index"
  let timeout ← timeoutOf s
  let endpoint ← endpointOf s.name url "_bulk"
  return ⟨s.name, index, endpoint, timeout⟩

/-- The request for a batch, unless every event is left out of it. -/
def request? (s : SearchBulk) (batch : List Event) : Option Request :=
  let body := BulkBody.encode s.index batch
  if body.included.isEmpty then none
  else some ⟨s.endpoint, "application/x-ndjson", none, Text.Utf8.encode body.text⟩

/-- **The answer to a batch** once the exchange has ended. -/
def receive (s : SearchBulk) (batch : List Event) (e : Ending) :
    Except Failure (List ItemStatus) := do
  let body := BulkBody.encode s.index batch
  let (status, text) ← successBody s.name s.endpoint e
  match parseBulkAnswer text with
  | .ok statuses => .ok (alignTo body.included statuses ++ body.rejected)
  | .error fault =>
    .error (.serverBusy s.name status ("unreadable bulk response: " ++ fault.describe .json))

/-- **A batch sent**: `exchange` is what comes of a request. -/
def send (s : SearchBulk) (exchange : Request → Ending) (batch : List Event) :
    Except Failure (List ItemStatus) :=
  match s.request? batch with
  | none => .ok (BulkBody.encode s.index batch).rejected
  | some request => s.receive batch (exchange request)

/-- **The ledger after its next request has been sent** and the answer taken in. -/
def round (s : SearchBulk) (exchange : Request → Ending) (l : Ledger) : Except Failure Ledger :=
  (s.send exchange l.request).map fun statuses =>
    (l.answer ItemStatus.classify l.request statuses).1

end SearchBulk

end Courier.Sink
