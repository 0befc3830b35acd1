import Courier.Document.Fault
/-!
# Shapes of documents

A `Schema` describes the documents that a typed value is read from, and a
`Datum` is what the reading yields: the same document with its kinds settled,
defaults put in, and the fields of records in the order of their declaration.
The typed values of this library are tied to their documents by a `Codec`: a
schema, the datum of a value, and the value of a datum.

One function, `Schema.read`, holds every rule about what is accepted, so that
they hold of all shapes alike:

* a record is a table of its fields in any order, and what else the table
  holds is passed over; or a list of its fields in the order of their
  declaration, the last ones left out when they have defaults;
* a choice is its name, or a table with that name as its only key;
* a natural number has a width and no fraction, while a whole number will do
  for a double;
* what is not there is nothing, where nothing is allowed.
-/

namespace Courier.Document

/-- **A document whose kinds are settled.** -/
inductive Datum
  /-- A text. -/
  | text (s : String)
  /-- Bytes. -/
  | bytes (bs : List UInt8)
  /-- A flag. -/
  | flag (b : Bool)
  /-- A natural number. -/
  | natural (n : Nat)
  /-- A double. -/
  | real (x : Float)
  /-- A document of any shape. -/
  | anything (v : Value)
  /-- Nothing, where something is optional. -/
  | absent
  /-- Something, where it is optional. -/
  | present (d : Datum)
  /-- A list. -/
  | sequence (ds : List Datum)
  /-- A table with keys of any name. -/
  | dictionary (entries : List (String × Datum))
  /-- One of several names. -/
  | choice (name : String)
  /-- The fields of a record, in the order of their declaration. -/
  | record (fields : List Datum)
deriving Inhabited

/-- A text, or nothing, as an optional datum. -/
def Datum.ofText? : Option String → Datum
  | none => .absent
  | some s => .present (.text s)

/-- The text of an optional datum. -/
def Datum.toText? : Datum → Option (Option String)
  | .absent => some none
  | .present (.text s) => some (some s)
  | _ => none

/-- **The width of a natural number.** -/
inductive Width
  /-- Eight bits. -/
  | u8
  /-- Sixteen bits. -/
  | u16
  /-- Thirty-two bits. -/
  | u32
  /-- Sixty-four bits. -/
  | u64
  /-- As many bits as a size in memory has, which is sixty-four. -/
  | usize
deriving Repr, DecidableEq

/-- The first number too large for a width. -/
def Width.bound : Width → Nat
  | .u8 => 0x100
  | .u16 => 0x10000
  | .u32 => 0x100000000
  | .u64 => 0x10000000000000000
  | .usize => 0x10000000000000000

/-- The name of a width in faults. -/
def Width.name : Width → String
  | .u8 => "u8"
  | .u16 => "u16"
  | .u32 => "u32"
  | .u64 => "u64"
  | .usize => "usize"

/-- **What a field is when a record leaves it out.** -/
inductive Absence
  /-- It must be there. -/
  | refused
  /-- A table may leave it out, a list may not. -/
  | inTable (d : Datum)
  /-- It may be left out of both. -/
  | anywhere (d : Datum)
deriving Inhabited

mutual

/-- **A shape of documents.** -/
inductive Schema
  /-- A text. -/
  | text
  /-- A text that names a file. -/
  | path
  /-- Bytes: a list of their numbers, or a text that stands for its own. -/
  | bytes
  /-- A flag. -/
  | flag
  /-- A natural number. -/
  | natural (w : Width)
  /-- A double. -/
  | real
  /-- A document of any shape. -/
  | anything
  /-- Nothing, or a document of a shape. -/
  | optional (s : Schema)
  /-- A list of documents of a shape. -/
  | sequence (s : Schema)
  /-- A table of documents of a shape. -/
  | dictionary (s : Schema)
  /-- One of the names. -/
  | choice (names : List String)
  /-- A record. -/
  | record (name : String) (fields : Fields)

/-- **The fields of a record**, in the order of their declaration. -/
inductive Fields
  /-- No more fields. -/
  | nil
  /-- A field, its shape, what it is when left out, whether nothing is left out
  when it is written, and the other fields. -/
  | cons (name : String) (schema : Schema) (absence : Absence) (omitted : Bool) (rest : Fields)

end

namespace Fields

/-- How many fields there are. -/
def length : Fields → Nat
  | .nil => 0
  | .cons _ _ _ _ rest => rest.length + 1

/-- A field that must be there. -/
def required (name : String) (schema : Schema) (rest : Fields) : Fields :=
  .cons name schema .refused false rest

/-- A field with a default. -/
def defaulting (name : String) (schema : Schema) (d : Datum) (rest : Fields) : Fields :=
  .cons name schema (.anywhere d) false rest

/-- An optional field that is nothing when left out. -/
def optional (name : String) (schema : Schema) (rest : Fields) : Fields :=
  .cons name (.optional schema) (.anywhere .absent) false rest

/-- An optional field that a record lacks, rather than nothing, when there is
nothing to write. -/
def sparing (name : String) (schema : Schema) (rest : Fields) : Fields :=
  .cons name (.optional schema) (.anywhere .absent) true rest

end Fields

/-- How deep a draft may nest, counted down; unlimited when there is no count. -/
abbrev Room := Option Nat

/-- The room within a list or a table, if there is any. -/
def Room.enter : Room → Option Room
  | none => some none
  | some 0 => none
  | some (n + 1) => some (some n)

/-- **The room a dialect grants**: a text may nest a hundred and twenty-seven
lists and tables. -/
def Dialect.room : Dialect → Room
  | .json => some 127
  | _ => none

/-- The refusal of a draft of the wrong kind, which first of all has to be well
formed as far as its kind shows. -/
def Draft.refuse (wanted : String) : Draft → Fault
  | .null => .wrongKind .null wanted
  | .flag b => .wrongKind (.flag b) wanted
  | .number (some (.integer n)) => .wrongKind (.integer n) wanted
  | .number (some (.real x)) => .wrongKind (.real x) wanted
  | .number none => .malformed
  | .wide n => .wrongKind (.wide n) wanted
  | .text q =>
    match q.text? with
    | some s => .wrongKind (.text s) wanted
    | none => .malformed
  | .moment _ => .wrongKind .table wanted
  | .list _ _ => .wrongKind .list wanted
  | .table _ _ => .wrongKind .table wanted
  | .fault => .malformed

/-- The key under which a table shows a date or a time. -/
def momentKey : String := "$__toml_private_datetime"

/-- A date or a time in the place of a table: its text under a key of its own. -/
def Draft.asTable : Draft → Draft
  | .moment s => .table [(.text (.ofString momentKey), .text (.ofString s))] true
  | d => d

/-- A text without fault. -/
def readText (wanted : String) : Draft → Except Fault String
  | .text q =>
    match q.text? with
    | some s => .ok s
    | none => .error .malformed
  | d => .error (d.refuse wanted)

/-- A natural number below a bound. -/
def readNatural (w : Width) : Draft → Except Fault Nat
  | .number (some (.integer n)) =>
    if 0 ≤ n ∧ n.toNat < w.bound then .ok n.toNat
    else .error (.wrongValue (.integer n) w.name)
  | d => .error (d.refuse w.name)

/-- A double. -/
def readReal : Draft → Except Fault Float
  | .number (some (.integer n)) => .ok (Float.ofInt n)
  | .number (some (.real x)) => .ok x
  | d => .error (d.refuse "f64")

/-- A flag. -/
def readFlag : Draft → Except Fault Bool
  | .flag b => .ok b
  | d => .error (d.refuse "a boolean")

/-- The fault of a list or a table that is not closed. -/
def whenClosed {α : Type} (closed : Bool) (a : α) : Except Fault α :=
  if closed then .ok a else .error .malformed

/-- The items of a list, each read in turn, and then its end. -/
def readItems {α : Type} (item : Draft → Except Fault α) (items : List Draft)
    (closed : Bool) : Except Fault (List α) := do
  let read ← items.mapM item
  whenClosed closed read

/-- Bytes. -/
def readBytes : Draft → Except Fault (List UInt8)
  | .text q => .ok q.bytes
  | .list items closed => do
    let numbers ← readItems (readNatural .u8) items closed
    .ok (numbers.map UInt8.ofNat)
  | d => .error (d.refuse "byte array")

mutual

/-- **A document of any shape**, within the room there is. -/
def Draft.toValue (room : Room) : Draft → Except Fault Value
  | .null => .ok .null
  | .flag b => .ok (.flag b)
  | .number (some n) => .ok (.number n)
  | .number none => .error .malformed
  | .wide _ => .error .unfit
  | .text q =>
    match q.text? with
    | some s => .ok (.text s)
    | none => .error .malformed
  | .moment s => .ok (.table [(momentKey, .text s)])
  | .list items closed =>
    match room.enter with
    | none => .error .malformed
    | some room => do
      let items ← toValues room items
      whenClosed closed (.list items)
  | .table entries closed =>
    match room.enter with
    | none => .error .malformed
    | some room => do
      let entries ← toEntries room entries
      whenClosed closed (.table entries)
  | .fault => .error .malformed

/-- The items of a list. -/
def toValues (room : Room) : List Draft → Except Fault (List Value)
  | [] => .ok []
  | d :: rest => do
    let v ← d.toValue room
    let vs ← toValues room rest
    .ok (v :: vs)

/-- The entries of a table. -/
def toEntries (room : Room) : List (Draft × Draft) → Except Fault (List (String × Value))
  | [] => .ok []
  | (.text q, d) :: rest =>
    match q.text? with
    | none => .error .malformed
    | some key => do
      let v ← d.toValue room
      let vs ← toEntries room rest
      .ok ((key, v) :: vs)
  | _ :: _ => .error .malformed

end

/-- One of several names. -/
def readName (names : List String) (s : String) : Except Fault Datum :=
  if names.contains s then .ok (.choice s) else .error (.unknownChoice s names)

/-- What stands beside the name of a choice that is written as a table. -/
def readUnit (dialect : Dialect) : Draft → Except Fault Unit
  | .null =>
    match dialect with
    | .toml => .error .unfit
    | _ => .ok ()
  | .list [] true =>
    match dialect with
    | .toml => .ok ()
    | _ => .error (.wrongKind .list "unit")
  | .table [] true =>
    match dialect with
    | .toml => .ok ()
    | _ => .error (.wrongKind .table "unit")
  | d =>
    match dialect with
    | .toml => .error .unfit
    | _ => .error (d.refuse "unit")

/-- **One of several names**, bare or as the only key of a table. The dialects
differ in how they word it when it is neither. -/
def readChoice (dialect : Dialect) (names : List String) : Draft → Except Fault Datum
  | .text q =>
    match q.text? with
    | some s => readName names s
    | none => .error .malformed
  | .table [] closed =>
    match dialect with
    | .json => .error .malformed
    | .tree => do
      whenClosed closed ()
      .error (.wrongValue .table "map with a single key")
    | .toml => .error .unfit
  | .table ((key, d) :: rest) closed => do
    match dialect with
    | .json => pure ()
    | .tree => unless rest.isEmpty do throw (.wrongValue .table "map with a single key")
    | .toml => unless rest.isEmpty do throw .unfit
    let name ← readText "variant identifier" key
    let choice ← readName names name
    readUnit dialect d
    whenClosed (closed && rest.isEmpty) choice
  | d =>
    match dialect with
    | .json => .error .malformed
    | .tree => .error (d.refuse "string or map")
    | .toml => .error .unfit

/-- Entries of a table whose keys may have any name. A later entry of a key
takes the place of the earlier one. -/
def readEntries {α : Type} (item : Draft → Except Fault α) :
    List (String × α) → List (Draft × Draft) → Except Fault (List (String × α))
  | read, [] => .ok read
  | read, (key, d) :: rest =>
    match key with
    | .text q =>
      match q.text? with
      | none => .error .malformed
      | some key => do
        let a ← item d
        readEntries item (insertSorted key a read) rest
    | _ => .error .malformed

/-- **The entries of a table that is a record**, in the order in which they
stand: the fields read so far, and then each entry in turn. `field` reads the
entry of a field and has nothing to say about other keys. -/
def readFields {α : Type} (field : String → Draft → Option (Except Fault α)) :
    List (String × α) → List (Draft × Draft) → Except Fault (List (String × α))
  | read, [] => .ok read
  | read, (.text q, d) :: rest =>
    match q.text? with
    | none => .error .malformed
    | some key =>
      if (read.lookup key).isSome then .error (.repeatedField key)
      else
        match field key d with
        | none => if d.skippable then readFields field read rest else .error .malformed
        | some (.error fault) => .error fault
        | some (.ok a) => readFields field ((key, a) :: read) rest
  | _, _ :: _ => .error .malformed

/-- **The fields of a record in the order of their declaration**, from the
entries of a table: defaults for those left out. -/
def Fields.collect (read : List (String × Datum)) : Fields → Except Fault (List Datum)
  | .nil => .ok []
  | .cons name _ absence _ rest => do
    let d ←
      match read.lookup name, absence with
      | some d, _ => .ok d
      | none, .refused => .error (.missingField name)
      | none, .inTable d => .ok d
      | none, .anywhere d => .ok d
    let ds ← rest.collect read
    .ok (d :: ds)

/-- A record's name and its number of fields, in words. -/
def recordSize (name : String) (n : Nat) : String :=
  s!"struct {name} with {n} element" ++ (if n = 1 then "" else "s")

/-- What a list holds past the last field of a record. -/
def readSurplus (dialect : Dialect) (total : Nat) (surplus : List Draft) (closed : Bool) :
    Except Fault Unit :=
  match dialect with
  | .json => whenClosed (closed && surplus.isEmpty) ()
  | .tree =>
    if surplus.isEmpty then .ok () else .error (.wrongLength total "fewer elements in array")
  | .toml => .ok ()

mutual

/-- **Reading a document of a shape from a draft.** -/
def Schema.read (dialect : Dialect) : Schema → Room → Draft → Except Fault Datum
  | .text, _, d => (readText "a string" d).map .text
  | .path, _, d => (readText "path string" d).map .text
  | .bytes, _, d => (readBytes d).map .bytes
  | .flag, _, d => (readFlag d).map .flag
  | .natural w, _, d => (readNatural w d).map .natural
  | .real, _, d => (readReal d).map .real
  | .anything, room, d => (d.toValue room).map .anything
  | .optional s, room, d =>
    match d with
    | .null => .ok .absent
    | d => (s.read dialect room d).map .present
  | .sequence s, room, d =>
    match d with
    | .list items closed =>
      match room.enter with
      | none => .error .malformed
      | some room => (readItems (s.read dialect room) items closed).map .sequence
    | d => .error (d.refuse "a sequence")
  | .dictionary s, room, d =>
    match d.asTable with
    | .table entries closed =>
      match room.enter with
      | none => .error .malformed
      | some room => do
        let entries ← readEntries (s.read dialect room) [] entries
        whenClosed closed (.dictionary entries)
    | d => .error (d.refuse "a map")
  | .choice names, _, d => readChoice dialect names d
  | .record name fields, room, d =>
    match d.asTable with
    | .table entries closed =>
      match room.enter with
      | none => .error .malformed
      | some room => do
        let read ← readFields (fields.readNamed dialect room) [] entries
        whenClosed closed ()
        (fields.collect read).map .record
    | .list items closed =>
      match room.enter with
      | none => .error .malformed
      | some room =>
        (fields.readInOrder dialect room (recordSize name fields.length) items.length
          items closed 0).map .record
    | d => .error (d.refuse ("struct " ++ name))

/-- The entry of one field; nothing when no field has that name. -/
def Fields.readNamed (dialect : Dialect) : Fields → Room → String → Draft →
    Option (Except Fault Datum)
  | .nil, _, _, _ => none
  | .cons name schema _ _ rest, room, key, d =>
    if key = name then some (schema.read dialect room d)
    else rest.readNamed dialect room key d

/-- **The fields of a record from a list**, one item each, from the field of a
given index on. -/
def Fields.readInOrder (dialect : Dialect) : Fields → Room → String → Nat →
    List Draft → Bool → Nat → Except Fault (List Datum)
  | .nil, _, _, total, items, closed, _ => do
    readSurplus dialect total items closed
    .ok []
  | .cons _ schema absence _ rest, room, wanted, total, items, closed, index =>
    match items with
    | item :: items => do
      let d ← schema.read dialect room item
      let ds ← rest.readInOrder dialect room wanted total items closed (index + 1)
      .ok (d :: ds)
    | [] => do
      whenClosed closed ()
      match absence with
      | .anywhere d => do
        let ds ← rest.readInOrder dialect room wanted total [] closed (index + 1)
        .ok (d :: ds)
      | _ => .error (.wrongLength index wanted)

end

mutual

/-- **Writing a datum of a shape as a document**, records as tables in the
order of their declaration. -/
def Schema.write : Schema → Datum → Value
  | .bytes, .bytes bs => .list (bs.map fun b => .nat b.toNat)
  | .optional s, .present d => s.write d
  | .sequence s, .sequence ds => .list (ds.map s.write)
  | .dictionary s, .dictionary entries => .table (entries.map fun (k, d) => (k, s.write d))
  | .record _ fields, .record ds => .table (fields.write ds)
  | _, .text s => .text s
  | _, .flag b => .flag b
  | _, .natural n => .nat n
  | _, .real x => .real x
  | _, .anything v => v
  | _, .choice name => .text name
  | _, _ => .null

/-- The entries of a record. -/
def Fields.write : Fields → List Datum → List (String × Value)
  | .cons name schema _ omitted rest, d :: ds =>
    match d with
    | .absent =>
      if omitted then rest.write ds else (name, .null) :: rest.write ds
    | d => (name, schema.write d) :: rest.write ds
  | _, _ => []

end

/-- **A typed value and its documents.** -/
structure Codec (α : Type) where
  /-- The shape of its documents. -/
  schema : Schema
  /-- The datum of a value. -/
  toDatum : α → Datum
  /-- The value of a datum of the shape. -/
  ofDatum? : Datum → Option α

namespace Codec

/-- **The value of a draft.** -/
def ofDraft {α : Type} (c : Codec α) (dialect : Dialect) (d : Draft) : Except Fault α := do
  let datum ← c.schema.read dialect dialect.room d
  match c.ofDatum? datum with
  | some a => .ok a
  | none => .error .unfit

/-- **The document of a value.** -/
def toValue {α : Type} (c : Codec α) (a : α) : Value :=
  c.schema.write (c.toDatum a)

end Codec

end Courier.Document
