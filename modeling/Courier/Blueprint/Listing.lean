import Courier.Blueprint.Check
import Courier.Json.Printer
/-!
# Listing a blueprint

A blueprint shown to people, as a text with a branch for each setting or as a
document. The parameters of sinks are shown only when they are asked for, since
they may hold secrets.
-/

namespace Courier.Blueprint

open Courier.Document (Value)

/-- An entry of a table, or none without a value. -/
def entry? (key : String) (value : Option String) : List (String × Value) :=
  (value.map fun s => (key, .text s)).toList

/-- **A sink in a listing.** -/
def sinkDocument (params : Bool) (s : SinkSettings) : Value :=
  let shown := if params then s.params else []
  .table ([("name", .text s.name), ("sink_type", .text s.type.title)] ++
    if shown.isEmpty then [] else [("params", .table (shown.map fun (k, v) => (k, .text v)))])

/-- **A blueprint as a document**, with the parameters of its sinks or without. -/
def listing (params : Bool) (b : Blueprint) : Value :=
  .table [
    ("version", .text b.version.name),
    ("source", .table ([("path", .text b.source.path), ("batch_size", .nat b.source.batchSize)] ++
      entry? "id_field" b.source.idField ++ entry? "partition_key_field" b.source.keyField)),
    ("delivery", .table [
      ("max_attempts", .nat b.delivery.maxAttempts),
      ("backoff_policy", .text b.delivery.growth.title),
      ("delay_or_seed", .real b.delivery.delayOrSeed),
      ("retryable_error_kinds", .list (b.delivery.kinds.map fun k => .text k.name))]),
    ("checkpoint", .table ([
      ("max_attempts", .nat b.checkpoint.maxAttempts),
      ("delay_ms", .nat b.checkpoint.delay),
      ("dry", .flag b.checkpoint.dry)] ++ entry? "path" b.checkpoint.path)),
    ("exception_strategy", .text b.exception.title),
    ("sinks", .list (b.sinks.map (sinkDocument params)))]

/-! ## In words -/

/-- The kinds of failure that are worth another attempt. -/
def kindsInWords (kinds : List Failure.Kind) : String :=
  if kinds.isEmpty then "any" else ", ".intercalate (kinds.map (·.name))

/-- The branches of sinks. The last of them has a shape of its own. -/
def sinkLines (params : Bool) : List SinkSettings → List String
  | [] => []
  | s :: rest =>
    let (branch, below) := if rest.isEmpty then ("└─", "   ") else ("├─", "│  ")
    let shown := if params then s.params else []
    ("   " ++ branch ++ " " ++ s.name ++ " (" ++ s.type.title ++ ")") ::
      shown.map (fun (k, v) => "   " ++ below ++ "  · " ++ k ++ " = " ++ v) ++
      sinkLines params rest

/-- **A blueprint in words**, a line for each setting. -/
def listingLines (params : Bool) (b : Blueprint) : List String :=
  ["╔══════════════════════════════════════════════════════════════╗",
   "║               batchline Configuration                        ║",
   "╚══════════════════════════════════════════════════════════════╝",
   "",
   "📥 Source",
   s!"   ├─ Version: {b.version.name}",
   s!"   ├─ Path: {b.source.path}",
   s!"   ├─ Batch size: {b.source.batchSize}",
   "   └─ Id field: " ++ b.source.idField.getD "(line-<n>)",
   "",
   "🔁 Delivery",
   s!"   ├─ Max attempts: {b.delivery.maxAttempts}",
   s!"   ├─ Backoff: {b.delivery.growth.title} (" ++
     Decimal.proseStyle.write b.delivery.delayOrSeed ++ ")",
   "   └─ Retryable kinds: " ++ kindsInWords b.delivery.kinds,
   "",
   "💾 Checkpoint",
   s!"   ├─ Retry: {b.checkpoint.maxAttempts} attempts, {b.checkpoint.delay} ms apart",
   s!"   ├─ Dry: {b.checkpoint.dry}",
   s!"   └─ On pipeline failure: {b.exception.title}",
   "",
   s!"📤 Sinks ({b.sinks.length})"] ++
  sinkLines params b.sinks ++ [""]

end Courier.Blueprint
