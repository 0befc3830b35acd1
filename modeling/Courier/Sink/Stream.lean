import Courier.Delivery.Ledger
import Courier.Json.Printer
import Courier.Json.Reader
import Courier.Sink.Exchange
import Courier.Sink.Params
import Courier.Text.Base64
/-!
# Record streams

A service of record streams takes a batch as a list of records, each with its
data in base 64 and the key that decides its partition, and answers with a
list of results in the same order. A result with an error code is one of three
things, by the code: the stream is throttled, the record is refused, or the
service has failed.
-/

namespace Courier.Sink

open Courier.Delivery (Ledger)
open Courier.Document

/-- **The status of an error code.** -/
def statusOfErrorCode (code : String) : Nat :=
  match code with
  | "ProvisionedThroughputExceededException" => 429
  | "InternalFailure" => 500
  | "ValidationException" => 400
  | "InvalidArgumentException" => 400
  | _ => 500

/-- A record for an event. -/
def streamRecord (e : Event) : Value :=
  .table [("Data", .text (String.ofList (Text.Base64.encode e.payload))),
    ("PartitionKey", .text e.routingKey)]

/-- **The request for a batch.** -/
def streamDocument (stream : String) (batch : List Event) : Value :=
  .table [("StreamName", .text stream), ("Records", .list (batch.map streamRecord))]

/-- **A result of an answer.** -/
structure StreamResult where
  /-- The place of the record in the stream. -/
  sequenceNumber : Option String
  /-- The code of the error. -/
  errorCode : Option String
  /-- The error in words. -/
  errorMessage : Option String
deriving DecidableEq, Repr, Inhabited

namespace StreamResult

/-- The result of a datum. -/
def ofDatum? : Datum → Option StreamResult
  | .record [sequenceNumber, errorCode, errorMessage] => do
    let sequenceNumber ← sequenceNumber.toText?
    let errorCode ← errorCode.toText?
    let errorMessage ← errorMessage.toText?
    some ⟨sequenceNumber, errorCode, errorMessage⟩
  | _ => none

/-- The shape of a result. -/
def schema : Schema :=
  .record "PutRecordsResult"
    (.optional "SequenceNumber" .text
      (.optional "ErrorCode" .text (.optional "ErrorMessage" .text .nil)))

/-- **The status of a result**, which names no event. -/
def answer (r : StreamResult) : ItemStatus :=
  match r.errorCode with
  | some code =>
    ⟨none, statusOfErrorCode code,
      some (match r.errorMessage with
        | some message => s!"{code}: {message}"
        | none => code)⟩
  | none =>
    ⟨none, 200,
      if r.sequenceNumber.isSome then none else some "record accepted without sequence number"⟩

end StreamResult

/-- **The results of an answer.** What it says about the number of errors is read
and not used. -/
def streamResults : Codec (List StreamResult) where
  schema := .record "PutRecordsResponse"
    (.defaulting "FailedRecordCount" (.natural .u32) (.natural 0)
      (.defaulting "Records" (.sequence StreamResult.schema) (.sequence []) .nil))
  toDatum _ := .absent
  ofDatum?
    | .record [_, .sequence records] => records.mapM StreamResult.ofDatum?
    | _ => none

/-- **The statuses of an answer**, in the order of the records. -/
def parseStreamAnswer (text : String) : Except Fault (List ItemStatus) :=
  (Json.decode streamResults text).map (·.map (·.answer))

/-- **A sink of a record stream.** -/
structure RecordStream where
  /-- Its name. -/
  name : String
  /-- The stream it writes to. -/
  stream : String
  /-- Where requests go to. -/
  endpoint : Url
  /-- The milliseconds that a response is waited for. -/
  timeout : Nat
deriving DecidableEq, Repr, Inhabited

namespace RecordStream

/-- **The sink of a configuration.** -/
def ofSettings (s : SinkSettings) : Except Failure RecordStream := do
  let url ← requiredParam s "url"
  let stream ← requiredParam s "stream_name"
  let timeout ← timeoutOf s
  let endpoint ← endpointOf s.name url ""
  return ⟨s.name, stream, endpoint, timeout⟩

/-- The request for a batch. -/
def request (s : RecordStream) (batch : List Event) : Request where
  url := s.endpoint
  contentType := "application/x-amz-json-1.1"
  operation := some "Kinesis_20131202.PutRecords"
  body := Text.Utf8.encode (Json.compact (streamDocument s.stream batch))

/-- **The answer to a batch** once the exchange has ended. -/
def receive (s : RecordStream) (e : Ending) : Except Failure (List ItemStatus) := do
  let (status, text) ← successBody s.name s.endpoint e
  match parseStreamAnswer text with
  | .ok statuses => .ok statuses
  | .error fault =>
    .error (.serverBusy s.name status ("unreadable batch-put response: " ++ fault.describe .json))

/-- **A batch sent**: `exchange` is what comes of a request. -/
def send (s : RecordStream) (exchange : Request → Ending) (batch : List Event) :
    Except Failure (List ItemStatus) :=
  s.receive (exchange (s.request batch))

/-- **The ledger after its next request has been sent** and the answer taken in. -/
def round (s : RecordStream) (exchange : Request → Ending) (l : Ledger) : Except Failure Ledger :=
  (s.send exchange l.request).map fun statuses =>
    (l.answer ItemStatus.classify l.request statuses).1

end RecordStream

end Courier.Sink
