import Courier.Record
import Courier.Retry.Strategy
/-!
# Blueprints

A blueprint says what a pipeline delivers, where to, and what it does when
something fails. It is what a configuration file holds. Every part of it has a
codec, so that both formats of configuration files are read and written by
the same description, with the same defaults.
-/

namespace Courier

open Courier.Document

/-- **The version of a configuration.** There is one. -/
inductive Version
  /-- The first. -/
  | v1
deriving DecidableEq, Repr, Inhabited

namespace Version

/-- The name of a version. -/
def name : Version → String
  | v1 => "V1"

/-- Versions and their documents. -/
def codec : Codec Version where
  schema := .choice [v1.name]
  toDatum v := .choice v.name
  ofDatum?
    | .choice s => if s = v1.name then some v1 else none
    | _ => none

end Version

/-- **How batches are delivered.** -/
structure DeliverySettings where
  /-- How many attempts a batch gets at most. -/
  maxAttempts : Nat
  /-- The way delays between attempts grow. -/
  growth : Retry.Growth
  /-- The delay or step in milliseconds, or the factor. -/
  delayOrSeed : Float
  /-- The kinds of failure worth another attempt; all when there are none. -/
  kinds : List Failure.Kind
deriving DecidableEq, Repr, Inhabited

namespace DeliverySettings

/-- Three attempts, and delays of a second each. -/
def standard : DeliverySettings := ⟨3, .exponential, 1.0, []⟩

/-- The strategy that the settings describe. -/
def strategy (d : DeliverySettings) : Retry.Strategy :=
  .new (.ofConfig d.growth d.delayOrSeed) d.maxAttempts d.kinds

/-- The datum of settings. -/
def toDatum (d : DeliverySettings) : Datum :=
  .record [.natural d.maxAttempts, Retry.Growth.codec.toDatum d.growth, .real d.delayOrSeed,
    .sequence (d.kinds.map Failure.Kind.codec.toDatum)]

/-- **Delivery settings and their documents.** -/
def codec : Codec DeliverySettings where
  schema := .record "DeliveryConfig"
    (.defaulting "max_attempts" (.natural .u32) (.natural 3)
      (.defaulting "backoff_policy" Retry.Growth.codec.schema (.choice "exponential")
        (.defaulting "delay_or_seed" .real (.real 1.0)
          (.defaulting "retryable_error_kinds" (.sequence Failure.Kind.codec.schema) (.sequence [])
            .nil))))
  toDatum := toDatum
  ofDatum?
    | .record [.natural maxAttempts, growth, .real delayOrSeed, .sequence kinds] => do
      let growth ← Retry.Growth.codec.ofDatum? growth
      let kinds ← kinds.mapM Failure.Kind.codec.ofDatum?
      some ⟨maxAttempts, growth, delayOrSeed, kinds⟩
    | _ => none

end DeliverySettings

/-- **How positions are stored.** -/
structure CheckpointSettings where
  /-- How often the store is asked at most. -/
  maxAttempts : Nat
  /-- The milliseconds after which it is asked again. -/
  delay : Nat
  /-- Whether positions are not to be stored. -/
  dry : Bool
  /-- The file they are stored in. -/
  path : Option String
deriving DecidableEq, Repr, Inhabited

namespace CheckpointSettings

/-- Thirty attempts, three seconds apart. -/
def standard : CheckpointSettings := ⟨30, 3000, false, none⟩

/-- The datum of settings. -/
def toDatum (c : CheckpointSettings) : Datum :=
  .record [.natural c.maxAttempts, .natural c.delay, .flag c.dry, Datum.ofText? c.path]

/-- **Checkpoint settings and their documents.** -/
def codec : Codec CheckpointSettings where
  schema := .record "CheckpointConfig"
    (.defaulting "max_attempts" (.natural .u32) (.natural 30)
      (.defaulting "delay_ms" (.natural .u64) (.natural 3000)
        (.defaulting "dry" .flag (.flag false) (.optional "path" .path .nil))))
  toDatum := toDatum
  ofDatum?
    | .record [.natural maxAttempts, .natural delay, .flag dry, path] => do
      let path ← path.toText?
      some ⟨maxAttempts, delay, dry, path⟩
    | _ => none

end CheckpointSettings

/-- **Where events come from.** -/
structure SourceSettings where
  /-- The file they are read from. -/
  path : String
  /-- How many of them are delivered together. -/
  batchSize : Nat
  /-- The field that holds the identity of an event. -/
  idField : Option String
  /-- The field that holds its partition key. -/
  keyField : Option String
deriving DecidableEq, Repr, Inhabited

namespace SourceSettings

/-- **Source settings and their documents.** -/
def codec : Codec SourceSettings where
  schema := .record "SourceConfig"
    (.required "path" .path
      (.defaulting "batch_size" (.natural .usize) (.natural 100)
        (.optional "id_field" .text (.optional "partition_key_field" .text .nil))))
  toDatum s := .record [.text s.path, .natural s.batchSize, Datum.ofText? s.idField,
    Datum.ofText? s.keyField]
  ofDatum?
    | .record [.text path, .natural batchSize, idField, keyField] => do
      let idField ← idField.toText?
      let keyField ← keyField.toText?
      some ⟨path, batchSize, idField, keyField⟩
    | _ => none

end SourceSettings

/-- **A type of sink.** -/
inductive SinkType
  /-- A search engine, which takes documents in bulk. -/
  | searchBulk
  /-- A service of record streams. -/
  | recordStream
  /-- The log, which takes everything. -/
  | log
deriving DecidableEq, Repr, Inhabited

namespace SinkType

/-- All types, in the order in which faults list them. -/
def all : List SinkType := [searchBulk, recordStream, log]

/-- The name of a type in documents. -/
def name : SinkType → String
  | searchBulk => "search_bulk"
  | recordStream => "record_stream"
  | log => "log"

/-- The name of a type in a listing. -/
def title : SinkType → String
  | searchBulk => "SearchBulk"
  | recordStream => "RecordStream"
  | log => "Log"

/-- The type of a name. -/
def ofName? (s : String) : Option SinkType :=
  all.find? (·.name = s)

/-- Types and their documents. -/
def codec : Codec SinkType where
  schema := .choice (all.map name)
  toDatum t := .choice t.name
  ofDatum?
    | .choice s => ofName? s
    | _ => none

/-- **The parameters a sink of a type must have**, in the order in which they are
looked for. -/
def requiredParams : SinkType → List String
  | searchBulk => ["url", "index"]
  | recordStream => ["url", "stream_name"]
  | log => []

end SinkType

/-- **A sink of a blueprint.** -/
structure SinkSettings where
  /-- Its name. -/
  name : String
  /-- Its type. -/
  type : SinkType
  /-- Its parameters, in the order of their keys. -/
  params : List (String × String)
deriving DecidableEq, Repr, Inhabited

namespace SinkSettings

/-- A parameter. -/
def param? (s : SinkSettings) (key : String) : Option String :=
  s.params.lookup key

/-- The text of an entry, if it is one. -/
def paramOfDatum? : String × Datum → Option (String × String)
  | (key, .text s) => some (key, s)
  | _ => none

/-- **Sink settings and their documents.** -/
def codec : Codec SinkSettings where
  schema := .record "SinkConfig"
    (.required "name" .text
      (.required "sink_type" SinkType.codec.schema
        (.defaulting "params" (.dictionary .text) (.dictionary []) .nil)))
  toDatum s := .record [.text s.name, SinkType.codec.toDatum s.type,
    .dictionary (s.params.map fun (k, v) => (k, .text v))]
  ofDatum?
    | .record [.text name, type, .dictionary params] => do
      let type ← SinkType.codec.ofDatum? type
      let params ← params.mapM paramOfDatum?
      some ⟨name, type, params⟩
    | _ => none

end SinkSettings

/-- **A blueprint.** -/
structure Blueprint where
  /-- The version of the configuration. -/
  version : Version
  /-- How batches are delivered. -/
  delivery : DeliverySettings
  /-- How positions are stored. -/
  checkpoint : CheckpointSettings
  /-- What becomes of records that could not be delivered. -/
  exception : ExceptionStrategy
  /-- Where events come from. -/
  source : SourceSettings
  /-- Where they go. -/
  sinks : List SinkSettings
deriving DecidableEq, Repr, Inhabited

namespace Blueprint

/-- **Blueprints and their documents.** -/
def codec : Codec Blueprint where
  schema := .record "PipelineBlueprint"
    (.defaulting "version" Version.codec.schema (.choice "V1")
      (.defaulting "delivery" DeliverySettings.codec.schema DeliverySettings.standard.toDatum
        (.defaulting "checkpoint" CheckpointSettings.codec.schema
          CheckpointSettings.standard.toDatum
          (.defaulting "exception_strategy" ExceptionStrategy.codec.schema (.choice "exit")
            (.required "source" SourceSettings.codec.schema
              (.required "sinks" (.sequence SinkSettings.codec.schema) .nil))))))
  toDatum b := .record [Version.codec.toDatum b.version, b.delivery.toDatum, b.checkpoint.toDatum,
    ExceptionStrategy.codec.toDatum b.exception, SourceSettings.codec.toDatum b.source,
    .sequence (b.sinks.map SinkSettings.codec.toDatum)]
  ofDatum?
    | .record [version, delivery, checkpoint, exception, source, .sequence sinks] => do
      let version ← Version.codec.ofDatum? version
      let delivery ← DeliverySettings.codec.ofDatum? delivery
      let checkpoint ← CheckpointSettings.codec.ofDatum? checkpoint
      let exception ← ExceptionStrategy.codec.ofDatum? exception
      let source ← SourceSettings.codec.ofDatum? source
      let sinks ← sinks.mapM SinkSettings.codec.ofDatum?
      some ⟨version, delivery, checkpoint, exception, source, sinks⟩
    | _ => none

/-- **The file that positions are stored in**: the one configured, or one beside
the source. -/
def checkpointPath (b : Blueprint) : String :=
  b.checkpoint.path.getD (b.source.path ++ ".checkpoint.json")

end Blueprint

end Courier
