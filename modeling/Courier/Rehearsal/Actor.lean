import Courier.Delivery.Machine
import Courier.Rehearsal.Script
/-!
# Scripted sinks at work

An `Actor` is a scripted sink with what has gone on with it so far. A `Turn` is
a delivery to it, driven until it has to wait for the clock: for a reply that
takes its time, or for the next attempt. What takes no time happens at once,
however many attempts that makes.
-/

namespace Courier.Rehearsal

open Courier.Delivery (Machine Note)

/-- **A scripted sink and what has gone on with it.** -/
structure Actor where
  /-- Its part. -/
  role : Role
  /-- The requests made, each with its time, in their order. -/
  requests : List (Nat × List EventId) := []
  /-- The notes that deliveries to it have left, in their order. -/
  notes : List Note := []
deriving Inhabited

namespace Actor

/-- The counters of the sink. -/
def counters (a : Actor) : Delivery.Counters :=
  ({} : Delivery.Counters).recordAll a.notes

/-- The series that the deliveries have counted up. -/
def series (a : Actor) : List (Series × Nat) :=
  Delivery.seriesOf a.role.name a.notes

/-- Notes taken. -/
def note (a : Actor) (notes : List Note) : Actor :=
  { a with notes := a.notes ++ notes }

/-- The reply to the next request. -/
def nextReply (a : Actor) : Reply :=
  a.role.reply a.requests.length

/-- A request made at a time. -/
def ask (a : Actor) (now : Nat) (request : List Event) : Actor :=
  { a with requests := a.requests ++ [(now, request.map (·.id))] }

end Actor

/-- **What a delivery waits for.** -/
inductive Wait
  /-- Nothing: it can go on at once. -/
  | nothing
  /-- The time of the next attempt. -/
  | pause (time : Nat)
  /-- The time when what comes of its request is there. -/
  | response (time : Nat) (r : Response)
  /-- Something that time does not bring. -/
  | forever
  /-- Nothing any more: it has ended. -/
  | over (result : Except Failure Report)
  /-- Nothing any more: its task has broken down. -/
  | broken
deriving Inhabited

/-- The time at which a delivery can go on, if time makes it go on. -/
def Wait.due? : Wait → Option Nat
  | pause time => some time
  | response time _ => some time
  | _ => none

/-- **A delivery to a scripted sink.** -/
structure Turn where
  /-- The sink. -/
  actor : Actor
  /-- The delivery. -/
  machine : Machine
  /-- What it waits for. -/
  wait : Wait

namespace Turn

/-- One signal to the delivery, its notes taken. -/
def signal (t : Turn) (s : Delivery.Signal) : Turn :=
  let (m, notes) := t.machine.step s
  ⟨t.actor.note notes, m, .nothing⟩

/-- What comes of a request, when it is there. -/
def receive (t : Turn) : Response → Turn
  | .silence => { t with wait := .forever }
  | .crash => { t with wait := .broken }
  | .answer a => t.signal (.answered a)

/-- The next request made; what comes of it is there at once or waited for. -/
def send (now : Nat) (t : Turn) : Turn :=
  let request := t.machine.ledger.request
  let reply := t.actor.nextReply
  let t := t.signal .go
  let t := { t with actor := t.actor.ask now request }
  let response := reply.behaviour.respond request
  if 0 < reply.delay then { t with wait := .response (now + reply.delay) response }
  else t.receive response

/-- Going on by one phase of the delivery. -/
def advance (now : Nat) (t : Turn) : Turn :=
  match t.machine.phase with
  | .ready => t.send now
  | .inFlight _ => { t with wait := .forever }
  | .waiting delay _ =>
    if 0 < delay then { t with wait := .pause (now + delay) } else t.signal .go
  | .ended result => { t with wait := .over result }

/-- Going on by as many phases as are given, until there is something to wait
for. -/
def advanceWhile (now : Nat) : (phases : Nat) → Turn → Turn
  | 0, t => t
  | phases + 1, t =>
    match t.wait with
    | .nothing => advanceWhile now phases (t.advance now)
    | _ => t

/-- **Going on at a time until there is something to wait for.** An attempt takes
two phases, and the end of the delivery one more. -/
def goOn (now : Nat) (t : Turn) : Turn :=
  t.advanceWhile now (2 * t.machine.retry.left + 4)

/-- The delivery called off, unless it has ended. -/
def callOff (t : Turn) : Turn :=
  match t.wait with
  | .over _ => t
  | .broken => t
  | _ =>
    match t.machine.phase with
    | .ended result => { t with wait := .over result }
    | _ =>
      let t := t.signal .cancel
      t.advance 0

/-- **What a time brings**: the next attempt, or what comes of the request. -/
def wake (now : Nat) (t : Turn) : Turn :=
  match t.wait with
  | .pause time => if time ≤ now then (t.signal .go).goOn now else t
  | .response time r => if time ≤ now then (t.receive r).goOn now else t
  | _ => t

/-- **A delivery begun at a time**, to a sink as it is then. -/
def start (now : Nat) (calledOff : Bool) (a : Actor) (batch : List Event) : Turn :=
  let machine := Machine.start a.role.name a.role.classify a.role.strategy batch
  let t : Turn := ⟨a, machine, .nothing⟩
  if calledOff then t.callOff else t.goOn now

end Turn

end Courier.Rehearsal
