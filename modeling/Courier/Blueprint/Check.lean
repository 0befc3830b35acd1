import Courier.Blueprint.Basic
import Courier.Decimal.Style
import Courier.Text.Blank
/-!
# The rules of blueprints

A blueprint that can be read is not yet one that can be run. The rules are a
list of what is wrong with it, in a fixed order: first the bounds on its
values, by the path of the field, then the names of sinks that repeat, then
the parameters that sinks lack. A blueprint without violations is legal, and
otherwise the first violation is the one reported. Settings that are legal and
yet hardly meant bring a warning.
-/

namespace Courier.Blueprint

/-- **A violation of the rules.** -/
inductive Violation
  /-- A value is out of its bounds. -/
  | outOfRange (field : String)
  /-- There is no sink. -/
  | noSinks
  /-- The sink at an index has no name. -/
  | namelessSink (index : Nat)
  /-- The sink at an index has a name that an earlier one has. -/
  | repeatedSink (index : Nat) (name : String)
  /-- A sink lacks a parameter, or has a blank one. -/
  | missingParam (sink : String) (type : SinkType) (key : String)
deriving DecidableEq, Repr

namespace Violation

/-- The path of the field that is at fault. -/
def field : Violation → String
  | outOfRange field => field
  | noSinks => "sinks"
  | namelessSink index => s!"sinks[{index}].name"
  | repeatedSink index _ => s!"sinks[{index}].name"
  | missingParam sink _ key => s!"sinks[{sink}].params.{key}"

/-- What is wrong with it. -/
def message : Violation → String
  | outOfRange _ => "failed 'range' check"
  | noSinks => "at least one sink is required"
  | namelessSink _ => "sink name cannot be empty"
  | repeatedSink _ name => s!"duplicate sink name '{name}'"
  | missingParam _ type key => s!"{type.title} sink requires '{key}'"

/-- A violation as a failure. -/
def failure (v : Violation) : Failure :=
  .configInvalid v.field v.message

end Violation

/-- A violation unless a condition holds. -/
def unlessHolds (condition : Bool) (v : Violation) : List Violation :=
  if condition then [] else [v]

/-- Sinks without a name, from an index on. -/
def namelessSinks : (index : Nat) → List SinkSettings → List Violation
  | _, [] => []
  | index, s :: rest => unlessHolds (s.name != "") (.namelessSink index) ++
      namelessSinks (index + 1) rest

/-- Sinks with a name that was seen before, from an index on. -/
def repeatedSinks : (seen : List String) → (index : Nat) → List SinkSettings → List Violation
  | _, _, [] => []
  | seen, index, s :: rest =>
    unlessHolds (!seen.contains s.name) (.repeatedSink index s.name) ++
      repeatedSinks (s.name :: seen) (index + 1) rest

/-- Whether a sink has a parameter that is not blank. -/
def hasParam (s : SinkSettings) (key : String) : Bool :=
  match s.param? key with
  | some value => !Text.allBlank value.toList
  | none => false

/-- Parameters that a sink lacks, in the order in which they are looked for. -/
def missingParams (s : SinkSettings) : List Violation :=
  s.type.requiredParams.flatMap fun key =>
    unlessHolds (hasParam s key) (.missingParam s.name s.type key)

/-- **All violations of a blueprint**, in the order in which they count. -/
def violations (b : Blueprint) : List Violation :=
  unlessHolds (1 ≤ b.checkpoint.maxAttempts) (.outOfRange "checkpoint.max_attempts") ++
  unlessHolds (!(b.delivery.delayOrSeed < 0.0)) (.outOfRange "delivery.delay_or_seed") ++
  unlessHolds (1 ≤ b.delivery.maxAttempts) (.outOfRange "delivery.max_attempts") ++
  unlessHolds (!b.sinks.isEmpty) .noSinks ++
  namelessSinks 0 b.sinks ++
  unlessHolds (1 ≤ b.source.batchSize) (.outOfRange "source.batch_size") ++
  repeatedSinks [] 0 b.sinks ++
  b.sinks.flatMap missingParams

/-- **A legal blueprint**, or the failure of its first violation. -/
def check (b : Blueprint) : Except Failure Blueprint :=
  match b.violations with
  | [] => .ok b
  | v :: _ => .error v.failure

/-- **Warnings about a legal blueprint.** -/
def warnings (b : Blueprint) : List String :=
  let seed :=
    if b.delivery.growth = .exponential && b.delivery.delayOrSeed < 1.0 then
      ["delivery.delay_or_seed = " ++ Decimal.proseStyle.write b.delivery.delayOrSeed ++
        " is below 1 for exponential backoff; a seed of 1 is used"]
    else []
  let dry :=
    if b.checkpoint.dry then ["checkpoint.dry is set; progress will not be persisted"] else []
  seed ++ dry

end Courier.Blueprint
