import Courier.Failure.Basic
import Courier.Files.Basic
import Courier.Json.Printer
import Courier.Json.Reader
import Courier.Text.Timestamp
import Courier.Text.Utf8
/-!
# The file of the last position

The last position is stored in a file of its own, together with the moment it
was stored at. It is written to another file beside it, which then takes its
place: whatever happens in between, the file holds one position or the other
and never half of one.

What can happen is that the entry is not written, or only a part of it, that it
is not moved to its place, or that the process ends in between
(`FileStore.Mishap`, `FileStore.Call`).
-/

namespace Courier.Checkpoint

open Courier.Document

/-- **What the file holds.** -/
structure Entry where
  /-- The position. -/
  position : String
  /-- The moment it was stored at, as a timestamp. -/
  moment : String
deriving DecidableEq, Repr, Inhabited

namespace Entry

/-- Entries and their documents. -/
def codec : Codec Entry where
  schema := .record "CheckpointFile"
    (.required "position" .text (.required "committed_at" .text .nil))
  toDatum e := .record [.text e.position, .text e.moment]
  ofDatum?
    | .record [.text position, .text moment] =>
      if Text.Timestamp.valid moment.toList then some ⟨position, moment⟩ else none
    | _ => none

/-- **The bytes of an entry.** -/
def encode (e : Entry) : List UInt8 :=
  Text.Utf8.encode (Json.writePretty (codec.toValue e)).toList

/-- **The entry of bytes**, or what is wrong with them. -/
def decode (bytes : List UInt8) : Except Fault Entry :=
  match Text.Utf8.decode bytes with
  | .ok cs => Json.decode codec (String.ofList cs)
  | .error _ => .error .malformed

end Entry

/-- **A store that keeps the last position in a file**, by the path of the file. -/
structure FileStore where
  /-- The path. -/
  path : String
deriving DecidableEq, Repr, Inhabited

namespace FileStore

/-- The name of the store. -/
def name (s : FileStore) : String :=
  "file:" ++ s.path

/-- **The path of the other file**, which an entry is written to first. -/
def draft (s : FileStore) : String :=
  Path.beside s.path ((Path.fileName? s.path).getD [] ++ ".tmp".toList)

/-- The failure of something done to a file. -/
def unavailable (action path : String) (e : SystemError) : Failure :=
  .storeUnavailable (s!"{action} {path}: " ++ e.message)

/-- The failure of a file that holds something else. -/
def corrupt (s : FileStore) (fault : Fault) : Failure :=
  .storeCorrupt (s.path ++ ": " ++ fault.describe .json)

/-- **The first half of a commit**: the entry written to the other file. -/
def stage (s : FileStore) (f : Files) (e : Entry) : Except Failure Files :=
  (f.write s.draft e.encode).mapError (unavailable "write" s.draft)

/-- **The second half of a commit**: the other file put in the place of the file. -/
def publish (s : FileStore) (f : Files) : Except Failure Files :=
  (f.rename s.draft s.path).mapError (unavailable "rename" s.path)

/-- **An entry stored.** When its second half fails the other file stays. -/
def commit (s : FileStore) (f : Files) (e : Entry) : Files × Except Failure Unit :=
  match s.stage f e with
  | .error failure => (f, .error failure)
  | .ok f =>
    match s.publish f with
    | .error failure => (f, .error failure)
    | .ok f => (f, .ok ())

/-- **The last position stored**, if any is. -/
def load (s : FileStore) (f : Files) : Except Failure (Option String) :=
  match f.read s.path with
  | .ok bytes =>
    match Entry.decode bytes with
    | .ok e => .ok (some e.position)
    | .error fault => .error (s.corrupt fault)
  | .error e => if e = .notFound then .ok none else .error (unavailable "read" s.path e)

/-! ## When something goes wrong -/

section

variable (s : FileStore)

/-- **What goes wrong while an entry is stored.** -/
inductive Mishap
  /-- Nothing that the files would not have it. -/
  | none
  /-- The entry is not written, and something is left in the other file, or that is as it
  was. -/
  | writing (error : SystemError) (left : Option (List UInt8))
  /-- The entry is written and not moved. -/
  | moving (error : SystemError)

/-- **Something left in the other file**, if it can be written. -/
def leave (f : Files) (left : Option (List UInt8)) : Files :=
  match left with
  | none => f
  | some bytes =>
    match f.write s.draft bytes with
    | .ok f' => f'
    | .error _ => f

/-- **An entry stored, with what goes wrong.** -/
def commitAmid (f : Files) (e : Entry) : Mishap → Files × Except Failure Unit
  | .none => s.commit f e
  | .writing error left => (s.leave f left, .error (unavailable "write" s.draft error))
  | .moving error =>
    match s.stage f e with
    | .error failure => (f, .error failure)
    | .ok f => (f, .error (unavailable "rename" s.path error))

/-- **A moment**, as it is written. -/
structure Moment where
  /-- The text. -/
  text : String
  /-- It is a timestamp. -/
  valid : Text.Timestamp.valid text.toList = true

/-- **What is asked of a store.** -/
inductive Call
  /-- The last position is looked up. -/
  | load
  /-- A position is stored at a moment, and something may go wrong. -/
  | commit (position : String) (moment : Moment) (mishap : Mishap)
  /-- The process ends while a position is being stored, after the other file has been
  written, or a part of it, and before it is moved. -/
  | crash (left : Option (List UInt8))

/-- **What a store answers.** -/
inductive Answer
  /-- The last position. -/
  | loaded (position : Except Failure (Option String))
  /-- Whether the position is stored. -/
  | committed (result : Except Failure Unit)
  /-- Nothing. -/
  | silence

/-- **One call.** -/
def call (f : Files) : Call → Files × Answer
  | .load => (f, .loaded (s.load f))
  | .commit position moment mishap =>
    let (f, result) := s.commitAmid f ⟨position, moment.text⟩ mishap
    (f, .committed result)
  | .crash left => (s.leave f left, .silence)

/-- **Several calls, one after another**: the files, and each call with its answer. -/
def run (f : Files) : List Call → Files × List (Call × Answer)
  | [] => (f, [])
  | c :: rest =>
    let (f, answer) := s.call f c
    let (f, answers) := run f rest
    (f, (c, answer) :: answers)

end

end FileStore

end Courier.Checkpoint
