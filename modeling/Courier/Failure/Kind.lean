import Courier.Document.Schema
/-!
# Kinds of failure

What the decision to try again looks at. The kinds form a hierarchy of two
levels: four of them are transient. A set of kinds that are worth another
attempt admits with a kind all kinds below it.
-/

namespace Courier.Failure

open Courier.Document

/-- **A kind of failure.** -/
inductive Kind
  /-- Passing by itself; above the next four. -/
  | transient
  /-- The sink was not reached. -/
  | network
  /-- The sink asks for patience. -/
  | throttled
  /-- The sink is not able to answer. -/
  | serverBusy
  /-- Some items are left over. -/
  | partialFailure
  /-- The request is at fault. -/
  | client
  /-- The store of positions cannot be used. -/
  | storeUnavailable
  /-- The store of positions holds something else. -/
  | storeCorrupt
  /-- The configuration is at fault. -/
  | configuration
  /-- Trying again has not helped. -/
  | exhaustedRetries
  /-- The work was called off. -/
  | cancelled
  /-- A file could not be used. -/
  | io
  /-- Anything else. -/
  | other
deriving DecidableEq, Repr, Inhabited

namespace Kind

/-- All kinds, in the order in which faults list them. -/
def all : List Kind :=
  [transient, network, throttled, serverBusy, partialFailure, client, storeUnavailable,
    storeCorrupt, configuration, exhaustedRetries, cancelled, io, other]

/-- The name of a kind. -/
def name : Kind → String
  | transient => "transient"
  | network => "network"
  | throttled => "throttled"
  | serverBusy => "server_busy"
  | partialFailure => "partial_failure"
  | client => "client"
  | storeUnavailable => "store_unavailable"
  | storeCorrupt => "store_corrupt"
  | configuration => "configuration"
  | exhaustedRetries => "exhausted_retries"
  | cancelled => "cancelled"
  | io => "io"
  | other => "other"

/-- The kind of a name. -/
def ofName? (s : String) : Option Kind :=
  all.find? (·.name = s)

/-- The kind above a kind. -/
def parent : Kind → Option Kind
  | network => some transient
  | throttled => some transient
  | serverBusy => some transient
  | partialFailure => some transient
  | _ => none

/-- **Whether a kind is another kind or stands below it.** The hierarchy has two
levels, so there is one step to take. -/
def isA (k ancestor : Kind) : Bool :=
  k = ancestor || k.parent = some ancestor

/-- Whether a kind is passing. -/
def isTransient (k : Kind) : Bool :=
  k.isA transient

/-- Kinds and their documents. -/
def codec : Codec Kind where
  schema := .choice (all.map name)
  toDatum k := .choice k.name
  ofDatum?
    | .choice s => ofName? s
    | _ => none

end Kind

/-- **Whether a set of kinds admits a kind**: the empty set admits all, any
other what stands in it or below. -/
def permits (kinds : List Kind) (k : Kind) : Bool :=
  kinds.isEmpty || kinds.any k.isA

end Courier.Failure
