import Courier.Proofs.Document.Reading
import Courier.Proofs.Json.Document
/-!
# A value comes back from its texts

The text of a document is read as the document, and a datum is read from every
document that writes it. So a value is read from every text of a document of it, when
its codec makes it of its datum again (`decode_writes`). Only the doubles in it have to
be read from their own characters (`Keeps`).
-/

namespace Courier.Json

open Courier.Document

/-- **A double that is read from its own text.** -/
def Keeps (x : Float) : Prop :=
  readReal (numberDraft (.real x)) = .ok x

/-- **The numbers of a text are read well**, except doubles that are not kept. -/
theorem numbersRead : NumbersRead numberDraft Keeps where
  natural n hn := by
    have hword : (Text.word64 : Int) = 0xFFFFFFFFFFFFFFFF := rfl
    unfold numberDraft
    rw [reread_integer (by omega) (by omega)]
  real _ h := h

/-- **A value that its codec has**: a datum of the schema, of which the value is made
again. The schema has room in a text. -/
structure Carried {α : Type} (c : Codec α) (a : α) : Prop where
  /-- The value is made of its datum. -/
  law : c.ofDatum? (c.toDatum a) = some a
  /-- The datum is one of the schema, and its doubles are kept. -/
  fits : c.schema.Fits Keeps (c.toDatum a)
  /-- There is room for its documents. -/
  room : c.schema.depth ≤ 127

/-- **A value comes back from its documents**: from the one that is written, compactly or
indented, and from every other one that writes it. -/
structure ComesBack {α : Type} (c : Codec α) (a : α) : Prop where
  /-- From the document that is written. -/
  written : decode c (write (c.toValue a)) = .ok a
  /-- From the document that is written, with one entry or item to a line. -/
  indented : decode c (writePretty (c.toValue a)) = .ok a
  /-- From every document that writes it, whatever the order of its fields and whether
  fields without a value are nothing or left out. -/
  others : ∀ v, c.schema.Writes (c.toDatum a) v →
    decode c (write v) = .ok a ∧ decode c (writePretty v) = .ok a

/-- **A whole text is read as the value of its draft.** -/
theorem decode_of_read {α : Type} {c : Codec α} {s : String} {d : Draft}
    (h : read s = ⟨d, false⟩) : decode c s = c.ofDraft .json d := by
  have hdecode : decode c s = (c.ofDraft .json (read s).draft >>= fun a =>
      whenClosed (!(read s).trailing) a) := rfl
  rw [hdecode, h]
  show (c.ofDraft .json d >>= fun a => whenClosed true a) = _
  cases c.ofDraft .json d <;> rfl

/-- **The draft of a document that writes a value is read as the value.** -/
theorem Carried.ofDraft {α : Type} {c : Codec α} {a : α} (h : Carried c a) {v : Value}
    (hw : c.schema.Writes (c.toDatum a) v) :
    c.ofDraft .json (v.draft numberDraft) = .ok a := by
  have hread : c.schema.read .json Dialect.json.room (v.draft numberDraft) = .ok (c.toDatum a) :=
    c.schema.read_writes numbersRead .json h.fits hw h.room
  simp only [Codec.ofDraft, hread, bind, Except.bind, h.law]

/-- **A value comes back from its documents** when its codec has it. -/
theorem Carried.comesBack {α : Type} {c : Codec α} {a : α} (h : Carried c a) :
    ComesBack c a := by
  have hothers : ∀ v, c.schema.Writes (c.toDatum a) v →
      decode c (write v) = .ok a ∧ decode c (writePretty v) = .ok a := fun v hw =>
    ⟨(decode_of_read (read_write v)).trans (h.ofDraft hw),
      (decode_of_read (read_writePretty v)).trans (h.ofDraft hw)⟩
  have hwritten := hothers _ (c.schema.writes_write h.fits)
  exact ⟨hwritten.1, hwritten.2, hothers⟩

end Courier.Json
