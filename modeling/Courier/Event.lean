import Courier.Text.Literal
import Courier.Document.Schema
/-!
# Events

What is delivered. An event has an identity, by which every answer and every
outcome refers to it, and a payload that nobody looks into on the way. Events
of the same partition key go to the same partition of a stream; an event
without one is spread by its identity.
-/

namespace Courier

open Courier.Document

/-- **The identity of an event.** -/
structure EventId where
  /-- The identity as a text. -/
  text : String
deriving DecidableEq, Repr, Inhabited

namespace EventId

/-- The order of identities, which is that of their texts. -/
def compare (a b : EventId) : Ordering :=
  compareOfLessAndEq a.text b.text

/-- The long form of an identity, for diagnostics. -/
def debug (id : EventId) : String :=
  "EventId(" ++ Text.literal id.text ++ ")"

/-- Identities and their documents: a text. -/
def codec : Codec EventId where
  schema := .text
  toDatum id := .text id.text
  ofDatum?
    | .text s => some ⟨s⟩
    | _ => none

end EventId

/-- **An event.** -/
structure Event where
  /-- Its identity. -/
  id : EventId
  /-- What it carries. -/
  payload : List UInt8
  /-- Its partition key. -/
  key : Option String
deriving DecidableEq, Repr, Inhabited

namespace Event

/-- What decides the partition of an event: its key, or else its identity. -/
def routingKey (e : Event) : String :=
  e.key.getD e.id.text

/-- **Events and their documents.** The payload is written as the list of its
bytes, and read from that or from a text. -/
def codec : Codec Event where
  schema := .record "Event"
    (.required "id" .text (.required "payload" .bytes (.sparing "partition_key" .text .nil)))
  toDatum e := .record [.text e.id.text, .bytes e.payload, Datum.ofText? e.key]
  ofDatum?
    | .record [.text id, .bytes payload, key] => do
      let key ← key.toText?
      some ⟨⟨id⟩, payload, key⟩
    | _ => none

end Event

end Courier
