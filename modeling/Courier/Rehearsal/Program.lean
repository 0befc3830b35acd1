import Courier.Consumer
import Courier.Rehearsal.Stage
/-!
# Rehearsals of whole runs

Batches to one sink, records to several, units of work with a scripted store,
and a consumer that takes records from a channel: each is played from the
first to the last on one clock, and the sinks and the store go on from one to
the next as the one before has left them.
-/

namespace Courier.Rehearsal

open Courier.Checkpoint (Keeper)

/-- **How a scripted store answers.** -/
inductive StoreReply
  /-- The position is stored. -/
  | accept
  /-- It is not. -/
  | fail (f : Failure)
  /-- The store breaks down. -/
  | crash
deriving Inhabited

/-- **A scripted store and what has gone on with it.** -/
structure Store where
  /-- Its replies; past the end every position is stored. -/
  script : List StoreReply := []
  /-- What it answers when it is asked for the last position; the last one
  stored unless something else is scripted. -/
  loaded : Option (Except Failure String) := none
  /-- The positions offered, in their order. -/
  tried : List String := []
  /-- The positions stored, in their order. -/
  committed : List String := []
deriving Inhabited

namespace Store

/-- The reply to the offer of an index. -/
def reply (s : Store) (index : Nat) : StoreReply :=
  (s.script[index]?).getD .accept

/-- Whether the store keeps a position offered, or breaks down over it. -/
def commit (s : Store) (index : Nat) : Except Failure Bool :=
  match s.reply (s.tried.length + index) with
  | .accept => .ok true
  | .fail f => .error f
  | .crash => .ok false

/-- **A position offered to the store by a keeper.** -/
def offer (s : Store) (k : Keeper) (position : String) : Store × AckEnd :=
  match k.ask s.commit with
  | none => (s, .status .skipped)
  | some course =>
    let s := { s with tried := s.tried ++ List.replicate (course.delays.length + 1) position }
    match course.result with
    | some (.ok true) =>
      ({ s with committed := s.committed ++ [position] }, .status .committed)
    | some (.ok false) => (s, .crash)
    | some (.error f) => (s, .status (Keeper.statusOf (.error f : Except Failure Bool)))
    | none => (s, .status .abandoned)

/-- The last position, as the store says. -/
def load (s : Store) : Except Failure (Option String) :=
  match s.loaded with
  | some (.ok position) => .ok (some position)
  | some (.error f) => .error f
  | none => .ok s.committed.getLast?

end Store

/-- What an offer counts up, when it did not break down. -/
def ackSeries : AckEnd → List (Series × Nat)
  | .status s => [(s.series, 1)]
  | .crash => []

/-- **One item of a program after another**, each on the state the one before has
left; nothing once an item is stuck. -/
def playAll {σ α β : Type} (one : σ → α → Option (σ × β)) : σ → List α → Option (σ × List β)
  | s, [] => some (s, [])
  | s, a :: rest => do
    let (s, b) ← one s a
    let (s, bs) ← playAll one s rest
    some (s, b :: bs)

/-! ## Batches and records -/

/-- **What one item of a program showed**: its result, the time, and the counters
of the sinks. -/
structure Showing where
  /-- The result. -/
  result : Except Failure (List (String × Report))
  /-- The time. -/
  time : Nat
  /-- The counters of the sinks. -/
  counters : List Delivery.Counters

/-- The sinks and the clock between two records. -/
abbrev Set := List Actor × Clock

/-- A batch or a record to all sinks. -/
def showing (pipeline : String) (s : Set) (events : List Event) : Option (Set × Showing) :=
  let scene := play pipeline false s.2 s.1 events
  match scene.ending with
  | .result r =>
    some ((scene.actors, scene.clock), ⟨r, scene.clock.now, scene.actors.map (·.counters)⟩)
  | _ => none

/-- **Batches to sinks, one after another.** -/
def program (pipeline : String) (actors : List Actor) (alarm : Option Int)
    (batches : List (List Event)) : Option (Set × List Showing) :=
  playAll (showing pipeline) (actors, .start alarm) batches

/-! ## Units of work -/

/-- **Everything that units of work leave behind.** -/
structure House where
  /-- The sinks. -/
  actors : List Actor
  /-- The clock. -/
  clock : Clock
  /-- The store. -/
  store : Store
  /-- What was done to the process. -/
  interventions : List String := []
  /-- What the offers of positions have counted up. -/
  offers : List (Series × Nat) := []
deriving Inhabited

namespace House

/-- What everything has counted up. -/
def telemetry (h : House) : Telemetry :=
  Telemetry.addAll [] (h.actors.flatMap (·.series) ++ h.offers)

/-- A position offered. -/
def offer (h : House) (k : Keeper) (position : String) : House × AckEnd :=
  let (store, ack) := h.store.offer k position
  ({ h with store := store, offers := h.offers ++ ackSeries ack }, ack)

/-- A failure handled, by a handler that only takes down what it would do. -/
def handle (h : House) (e : ExceptionStrategy) : House :=
  { h with interventions := h.interventions ++ e.intervention.toList }

end House

/-- **A unit of work.** -/
def unitOfWork (pipeline : String) (k : Keeper) (e : ExceptionStrategy) (h : House) (r : Record) :
    Option (House × UnitOutcome) :=
  let scene := play pipeline false h.clock h.actors r.events
  let h := { h with actors := scene.actors, clock := scene.clock }
  match scene.ending with
  | .result (.ok reports) =>
    let (h, ack) := h.offer k r.position
    some (h, .ofAck reports ack)
  | .result (.error f) => some (h.handle e, .failed f)
  | _ => none

/-- **Units of work, one after another.** -/
def units (pipeline : String) (k : Keeper) (e : ExceptionStrategy) (actors : List Actor)
    (store : Store) (records : List Record) : Option (House × List UnitOutcome) :=
  playAll (unitOfWork pipeline k e) ⟨actors, .start none, store, [], []⟩ records

/-! ## A consumer -/

/-- A record taken by a consumer. It is left where it is when the alarm goes off
while it is being delivered. -/
def consumeOne (pipeline : String) (k : Keeper) (e : ExceptionStrategy) (h : House)
    (c : Consumer) (r : Record) : Option (House × Consumer) :=
  let c := (c.step (.record r)).1
  let scene := play pipeline true h.clock h.actors r.events
  let h := { h with actors := scene.actors, clock := scene.clock }
  match scene.ending with
  | .stuck => none
  | .abandoned => some (h, (c.step .shutdown).1)
  | .result (.error f) => some (h.handle e, (c.run [.failed f, .handled]).1)
  | .result (.ok _) =>
    let (h, ack) := h.offer k r.position
    some (h, (c.run [.delivered, .acked ack]).1)

/-- What a consumer does when there is no record: it is done when no more can
come, and waits for the alarm when they can. -/
def consumeNone (keepOpen : Bool) (h : House) (c : Consumer) : Option (House × Consumer) :=
  if keepOpen then
    match h.clock.next none with
    | none => none
    | some clock => some ({ h with clock := clock }, (c.step .shutdown).1)
  else some (h, (c.step .closed).1)

/-- **A consumer with records that wait for it.** -/
def consume (pipeline : String) (k : Keeper) (e : ExceptionStrategy) (keepOpen : Bool) (h : House)
    (c : Consumer) (records : List Record) : Option (House × Consumer) :=
  if c.phase = .done then some (h, c)
  else if h.clock.rung then some (h, (c.step .shutdown).1)
  else
    match records with
    | [] => consumeNone keepOpen h c
    | r :: rest =>
      match consumeOne pipeline k e h c r with
      | none => none
      | some (h, c) => consume pipeline k e keepOpen h c rest

end Courier.Rehearsal
