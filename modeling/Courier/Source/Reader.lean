import Courier.Failure.Basic
import Courier.Files.Basic
import Courier.Record
import Courier.Source.Line
/-!
# Reading a source

A reader goes through the lines of a source and gathers their events. When it
has as many as make a record, or when there are no more lines, it offers the
record to a channel and waits until the channel takes it. The position of a
record is the number of the line that the reader stands at then.

The reader is a machine, and what happens to it comes from outside. It may be
told to shut down whenever it waits, and then what it has gathered is not
offered any more; or nobody may be left to take its records.
-/

namespace Courier

namespace Reader

/-- **What a reader is doing.** -/
inductive Phase
  /-- About to read a line. -/
  | reading
  /-- Offering a record; the last one when there are no more lines. -/
  | offering (r : Record) (last : Bool)
  /-- Done. -/
  | done
deriving DecidableEq, Repr, Inhabited

/-- **What happens to a reader.** -/
inductive Signal
  /-- It may go on. -/
  | go
  /-- The record it offers is taken. -/
  | taken
  /-- Nobody is left to take it. -/
  | refused
  /-- It is told to shut down. -/
  | shutdown
deriving DecidableEq, Repr, Inhabited

end Reader

/-- **A reader of a source.** -/
structure Reader where
  /-- The source. -/
  source : Source
  /-- The lines that are still to be read. -/
  rest : List (List UInt8)
  /-- How many lines have been read. -/
  line : Nat := 0
  /-- The events gathered for the next record. -/
  batch : List Event := []
  /-- How many events have been handed over. -/
  sent : Nat := 0
  /-- What it is doing. -/
  phase : Reader.Phase := .reading
deriving DecidableEq, Repr, Inhabited

namespace Reader

/-- **A reader at the beginning of a file.** -/
def start (s : Source) (bytes : List UInt8) : Reader where
  source := s
  rest := linesOf bytes

/-- The record of the events gathered so far. -/
def record (r : Reader) : Record :=
  ⟨toString r.line, r.batch⟩

/-- The events gathered, offered as a record. -/
def offer (r : Reader) (last : Bool) : Reader :=
  { r with phase := .offering r.record last, batch := [] }

/-- **A line read.** -/
def readLine (r : Reader) : Reader :=
  match r.rest with
  | [] => if r.batch.isEmpty then { r with phase := .done } else r.offer true
  | bytes :: rest =>
    let batch := r.batch ++ (r.source.event? (r.line + 1) bytes).toList
    let r := { r with rest := rest, line := r.line + 1, batch := batch }
    if r.source.batchSize ≤ batch.length ∧ !batch.isEmpty then r.offer false else r

/-- **One signal.** A signal that means nothing in a phase leaves the reader as it
is. -/
def step (r : Reader) (s : Signal) : Reader :=
  match r.phase, s with
  | .reading, .go => r.readLine
  | .reading, .shutdown => { r with phase := .done }
  | .offering record last, .taken =>
    { r with sent := r.sent + record.events.length, phase := if last then .done else .reading }
  | .offering _ _, .refused => { r with phase := .done }
  | .offering _ _, .shutdown => { r with phase := .done }
  | _, _ => r

/-- How much there is left to do. -/
def left (r : Reader) : Nat :=
  match r.phase with
  | .reading => 2 * r.rest.length + 2
  | .offering _ true => 1
  | .offering _ false => 2 * r.rest.length + 3
  | .done => 0

/-- Reading a line leaves less to do. -/
theorem left_readLine {r : Reader} (h : r.phase = .reading) : r.readLine.left < r.left := by
  have hl : r.left = 2 * r.rest.length + 2 := by simp [left, h]
  rw [hl]
  unfold readLine
  split
  · split <;> simp [left, offer]
  · next hr =>
    simp only [hr, List.length_cons]
    split
    · simp [left, offer]
      omega
    · simp only [left, h]
      omega

/-- A record that is taken is done with. -/
theorem left_taken {r : Reader} {record : Record} {last : Bool}
    (h : r.phase = .offering record last) : (r.step .taken).left < r.left := by
  cases last <;> simp [step, left, h]

/-- **Reading to the end**, every record being taken: the reader, and the records
in their order. -/
def finish (r : Reader) : Reader × List Record :=
  match _h : r.phase with
  | .done => (r, [])
  | .reading => r.readLine.finish
  | .offering record _ =>
    let (r, records) := (r.step .taken).finish
    (r, record :: records)
termination_by r.left
decreasing_by
  · exact left_readLine _h
  · exact left_taken _h

/-- **Reading until a record is to be taken, or to the end**: the reader as it is
then. -/
def seek (r : Reader) : Reader :=
  match _h : r.phase with
  | .reading => r.readLine.seek
  | _ => r
termination_by r.left
decreasing_by exact left_readLine _h

end Reader

namespace Source

/-- **The records of a source.** -/
def records (s : Source) (bytes : List UInt8) : List Record :=
  (Reader.start s bytes).finish.2

/-- **The reader of a file.** A path that leads to a directory can be opened; only
reading shows that there is nothing to read, and a reader that is shut down
before does not come to it. -/
def reader (s : Source) (files : Files) (path : String) (shutDown : Bool) :
    Except Failure Reader :=
  match files.open? path with
  | .error e => .error (.io e)
  | .ok node =>
    if shutDown then .ok ((Reader.start s []).step .shutdown)
    else ((Files.contents node).mapError .io).map (Reader.start s)

end Source

end Courier
