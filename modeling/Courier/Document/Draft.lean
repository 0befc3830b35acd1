import Courier.Document.Value
import Courier.Text.Utf8
/-!
# Documents as far as they can be read

A text that is being read need not be a document to its end: it may break
off, or hold something no document holds. A `Draft` is what has been read of
it, with the break in its place. Checking a draft against the shape that is
wanted therefore meets the problems of the text and the problems of the shape
in the order in which they stand, and the first one met is the one reported.

A draft keeps what a document forgets and a reader may still need: the
repeated keys of a table, a key that is no text, and texts that are texts
only to some readers – with half of a surrogate pair, or with a control
character that should have been escaped.
-/

namespace Courier.Document

/-- **A piece of a quoted text.** -/
inductive Piece
  /-- A character. -/
  | char (c : Char)
  /-- One half of a surrogate pair, standing alone. -/
  | half (unit : Nat)
deriving Repr, DecidableEq

/-- **A text between quotes**, as it was written. -/
structure Quoted where
  /-- Its pieces, with the escapes resolved. -/
  pieces : List Piece
  /-- Whether it holds a control character that was not escaped. -/
  uncontrolled : Bool
deriving Repr, DecidableEq

namespace Quoted

/-- A text without faults. -/
def ofString (s : String) : Quoted :=
  ⟨s.toList.map .char, false⟩

/-- The characters of pieces, if all of them are. -/
def chars? : List Piece → Option (List Char)
  | [] => some []
  | .char c :: rest => (chars? rest).map (c :: ·)
  | .half _ :: _ => none

/-- **The text**, if it is one without fault. -/
def text? (q : Quoted) : Option String :=
  if q.uncontrolled then none else (chars? q.pieces).map String.ofList

/-- The three bytes of half a surrogate pair, in the pattern of the code
points of its size. -/
def halfBytes (unit : Nat) : List UInt8 :=
  [UInt8.ofNat (0xE0 + unit / 0x1000), UInt8.ofNat (0x80 + unit / 0x40 % 0x40),
   UInt8.ofNat (0x80 + unit % 0x40)]

/-- **The bytes of the text**, which every quoted text has. -/
def bytes (q : Quoted) : List UInt8 :=
  q.pieces.flatMap fun
    | .char c => String.utf8EncodeChar c
    | .half unit => halfBytes unit

end Quoted

/-- **A document as far as it can be read.** -/
inductive Draft
  /-- Nothing. -/
  | null
  /-- A flag. -/
  | flag (b : Bool)
  /-- A number; no value when it is past every double. -/
  | number (n : Option Number)
  /-- A whole number of more than 64 bits, kept whole. -/
  | wide (n : Int)
  /-- A text. -/
  | text (q : Quoted)
  /-- A date or a time, as it was written. -/
  | moment (s : String)
  /-- A list; not closed when the text is at fault after the last item. -/
  | list (items : List Draft) (closed : Bool)
  /-- A table; not closed when the text is at fault after the last entry. -/
  | table (entries : List (Draft × Draft)) (closed : Bool)
  /-- Here the text is at fault. -/
  | fault
deriving Repr, Inhabited

namespace Draft

mutual

/-- **Whether a draft can be passed over**: what nobody asks for must still be
well formed, but its numbers need no value and its texts may hold half a
surrogate pair. -/
def skippable : Draft → Bool
  | .text q => !q.uncontrolled
  | .list items closed => skippableItems items && closed
  | .table entries closed => skippableEntries entries && closed
  | .fault => false
  | _ => true

/-- Whether every item of a list can be passed over. -/
def skippableItems : List Draft → Bool
  | [] => true
  | d :: rest => d.skippable && skippableItems rest

/-- Whether every entry of a table can be passed over. -/
def skippableEntries : List (Draft × Draft) → Bool
  | [] => true
  | (k, d) :: rest => k.skippable && d.skippable && skippableEntries rest

end

mutual

/-- **A whole document as a draft.** -/
def ofValue : Value → Draft
  | .null => .null
  | .flag b => .flag b
  | .number n => .number (some n)
  | .text s => .text (.ofString s)
  | .list items => .list (ofItems items) true
  | .table entries => .table (ofEntries entries) true

/-- The items of a list as drafts. -/
def ofItems : List Value → List Draft
  | [] => []
  | v :: rest => ofValue v :: ofItems rest

/-- The entries of a table as drafts. -/
def ofEntries : List (String × Value) → List (Draft × Draft)
  | [] => []
  | (k, v) :: rest => (.text (.ofString k), ofValue v) :: ofEntries rest

end

end Draft

end Courier.Document
