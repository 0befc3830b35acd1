import Courier.Blueprint.Basic
import Courier.Json.Printer
import Courier.Json.Reader
import Courier.Text.Blank
import Courier.Text.Utf8
/-!
# Lines and their events

A source is a file with an event on each line. Its bytes are cut at the line
feeds; a carriage return before one belongs to the line end. A line that is
blank, or no text at all, has no event. Every other line has one, and the line
itself is the payload, whatever it says. Where it is a table, two of its
fields may name the event and the partition it belongs to; an event without a
name is called after the number of its line.
-/

namespace Courier

/-- The byte that ends a line. -/
def lineFeed : UInt8 := 10

/-- The byte that may stand before it. -/
def carriageReturn : UInt8 := 13

/-- **The lines of a file**, without their ends. What follows the last line end is
a line of its own unless it is empty. -/
def linesOf : List UInt8 → List (List UInt8)
  | [] => []
  | b :: rest =>
    if b = lineFeed then [] :: linesOf rest
    else
      match linesOf rest with
      | [] => [[b]]
      | line :: lines => (b :: line) :: lines

/-- A line without the carriage return it may end in. -/
def dropReturn (line : List UInt8) : List UInt8 :=
  if line.getLast? = some carriageReturn then line.dropLast else line

/-- **A source of events.** -/
structure Source where
  /-- How many events make a record, at least one. -/
  batchSize : Nat
  /-- The field that names an event. -/
  idField : Option String
  /-- The field that names its partition. -/
  keyField : Option String
  /-- The line after which events are read. -/
  resumeAfter : Nat
deriving DecidableEq, Repr, Inhabited

namespace Source

open Courier.Document

/-- **The source of a configuration**, read from after a line on. -/
def ofSettings (s : SourceSettings) (resumeAfter : Nat) : Source :=
  ⟨max 1 s.batchSize, s.idField, s.keyField, resumeAfter⟩

/-- What a document says in a field, as a text; nothing when it is neither a text
nor a number. -/
def fieldText (document : Option Value) (field : Option String) : Option String := do
  let document ← document
  let field ← field
  match document.get? field with
  | some (.text s) => some s
  | some (.number n) => some (String.ofList (Json.number n))
  | _ => none

/-- The name of an event whose line gives it none. -/
def fallbackId (line : Nat) : String :=
  s!"line-{line}"

/-- **The event of a line**, by its number and its text. -/
def event (s : Source) (line : Nat) (text : List Char) : Event :=
  let document := (Json.parse (String.ofList text)).toOption
  ⟨⟨(fieldText document s.idField).getD (fallbackId line)⟩, Text.Utf8.encode text,
    fieldText document s.keyField⟩

/-- **The event of a line, if it has one**: if the line stands after the one that
reading resumes after, is a text, and is not blank. -/
def event? (s : Source) (line : Nat) (bytes : List UInt8) : Option Event :=
  if line ≤ s.resumeAfter then none
  else
    match Text.Utf8.decode (dropReturn bytes) with
    | .error _ => none
    | .ok text => if Text.allBlank text then none else some (s.event line text)

end Source

end Courier
