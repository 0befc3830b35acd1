import Courier.Event
/-!
# Records

A record is a batch of events from a source together with the position up to
which the source is read once they are delivered.
-/

namespace Courier

/-- **A record.** -/
structure Record where
  /-- The position up to which the source has been read. -/
  position : String
  /-- The events. -/
  events : List Event
deriving DecidableEq, Repr, Inhabited

/-- **What becomes of a record that could not be delivered.** -/
inductive ExceptionStrategy
  /-- The process ends; it begins again at the last position stored. -/
  | exit
  /-- Nothing more is done until somebody intervenes. -/
  | block
  /-- The record is left behind. -/
  | continue
deriving DecidableEq, Repr, Inhabited

namespace ExceptionStrategy

open Courier.Document

/-- All strategies, in the order in which faults list them. -/
def all : List ExceptionStrategy := [.exit, .block, .continue]

/-- The name of a strategy in documents. -/
def name : ExceptionStrategy → String
  | .exit => "exit"
  | .block => "block"
  | .continue => "continue"

/-- The name of a strategy in a listing. -/
def title : ExceptionStrategy → String
  | .exit => "Exit"
  | .block => "Block"
  | .continue => "Continue"

/-- The strategy of a name. -/
def ofName? (s : String) : Option ExceptionStrategy :=
  all.find? (·.name = s)

/-- Strategies and their documents. -/
def codec : Codec ExceptionStrategy where
  schema := .choice (all.map name)
  toDatum e := .choice e.name
  ofDatum?
    | .choice s => ofName? s
    | _ => none

/-- **What a strategy does to the process**, in words; nothing when it goes on. -/
def intervention : ExceptionStrategy → Option String
  | .exit => some "exit 1"
  | .block => some "block"
  | .continue => none

end ExceptionStrategy

end Courier
