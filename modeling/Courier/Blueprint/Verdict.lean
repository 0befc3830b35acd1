import Courier.Blueprint.File
/-!
# Verdicts on configuration files

Whether a configuration file can be run: if so with a summary of it and the
warnings it brings, and otherwise with the first thing that is wrong. A verdict
is told as a text or as a document.
-/

namespace Courier

open Courier.Document (Value)

/-- **A verdict on a configuration file.** -/
structure Verdict where
  /-- The path of the file. -/
  path : String
  /-- The blueprint in it, or what is wrong. -/
  result : Except String Blueprint

namespace Verdict

/-- **The verdict on a file.** -/
def ofFile (files : Files) (path : String) : Verdict where
  path := path
  result :=
    if files.exists? path then (Blueprint.loadFile files path).mapError (·.message)
    else .error ("File not found: " ++ path)

/-- Whether the file can be run. -/
def valid (v : Verdict) : Bool :=
  v.result.toBool

/-- The summary of a blueprint. -/
def summary (b : Blueprint) : Value :=
  .table [
    ("version", .text b.version.name),
    ("source", .text b.source.path),
    ("batch_size", .nat b.source.batchSize),
    ("max_attempts", .nat b.delivery.maxAttempts),
    ("backoff_policy", .text b.delivery.growth.title),
    ("exception_strategy", .text b.exception.title),
    ("sink_count", .nat b.sinks.length)]

/-- An entry for warnings, if there are any. -/
def warningsEntry (warnings : List String) : List (String × Value) :=
  if warnings.isEmpty then [] else [("warnings", .list (warnings.map .text))]

/-- **A verdict as a document.** -/
def document (v : Verdict) : Value :=
  .table ([("valid", .flag v.valid), ("config_path", .text v.path)] ++
    match v.result with
    | .error message => [("error", .text message)]
    | .ok b => warningsEntry b.warnings ++ [("summary", summary b)])

/-- The lines of warnings, if there are any. -/
def warningLines (warnings : List String) : List String :=
  if warnings.isEmpty then [] else "" :: "⚠ Warnings:" :: warnings.map ("  - " ++ ·)

/-- **A verdict in words.** -/
def lines (v : Verdict) : List String :=
  match v.result with
  | .error message =>
    ["✗ Configuration is invalid: " ++ v.path, "", "  Error: " ++ message]
  | .ok b =>
    ["✓ Configuration is valid: " ++ v.path,
     "",
     s!"  Version: {b.version.name}",
     s!"  Source: {b.source.path} (batches of {b.source.batchSize})",
     s!"  Delivery: {b.delivery.maxAttempts} attempts, {b.delivery.growth.title} backoff",
     s!"  On failure: {b.exception.title}",
     s!"  Sinks: {b.sinks.length}"] ++ warningLines b.warnings

end Verdict

end Courier
