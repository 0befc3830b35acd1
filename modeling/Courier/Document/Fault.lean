import Courier.Document.Draft
import Courier.Decimal.Style
import Courier.Text.Literal
/-!
# What can be wrong with a document

The causes for which a text is refused, apart from the place they stand at. A
text that is malformed is at fault in its syntax; every other cause is about
its data: it is well formed so far, and not what was wanted.
-/

namespace Courier.Document

open Courier.Text (literal)

/-- **Where a draft comes from.** The same shapes are read from all three, with
small differences in what is accepted and in how a fault is worded. -/
inductive Dialect
  /-- The text of a JSON document. -/
  | json
  /-- A JSON document that has been read already. -/
  | tree
  /-- The text of a TOML document. -/
  | toml
deriving Repr, DecidableEq

/-- **What was found** where something else was wanted. -/
inductive Found
  /-- Nothing. -/
  | null
  /-- A flag. -/
  | flag (b : Bool)
  /-- A whole number. -/
  | integer (n : Int)
  /-- A whole number of more than 64 bits. -/
  | wide (n : Int)
  /-- A double. -/
  | real (x : Float)
  /-- A text. -/
  | text (s : String)
  /-- A list. -/
  | list
  /-- A table. -/
  | table
deriving Repr

/-- A double in a fault of a TOML document: as in a sentence, and always with a
point. -/
def pointedReal (x : Float) : String :=
  let s := Decimal.proseStyle.write x
  if s.toList.contains '.' then s else s ++ ".0"

/-- What was found, in words. -/
def Found.describe (dialect : Dialect) : Found → String
  | .null => "null"
  | .flag b => s!"boolean `{b}`"
  | .integer n => s!"integer `{n}`"
  | .wide n => s!"integer `{n}` as i128"
  | .real x =>
    match dialect with
    | .toml => s!"floating point `{pointedReal x}`"
    | _ => s!"floating point `{Decimal.jsonStyle.write x}`"
  | .text s => "string " ++ literal s
  | .list => "sequence"
  | .table => "map"

/-- **Why a document is refused.** -/
inductive Fault
  /-- The text is malformed or breaks off. -/
  | malformed
  /-- Something of another kind was wanted. -/
  | wrongKind (found : Found) (wanted : String)
  /-- A value of this kind was wanted, but not this one. -/
  | wrongValue (found : Found) (wanted : String)
  /-- A list has the wrong number of items. -/
  | wrongLength (length : Nat) (wanted : String)
  /-- A record lacks a field. -/
  | missingField (name : String)
  /-- A record has a field twice. -/
  | repeatedField (name : String)
  /-- A choice is none of those offered. -/
  | unknownChoice (name : String) (offered : List String)
  /-- The data is not what was wanted, for a reason without wording. -/
  | unfit
deriving Repr

namespace Fault

/-- The choices offered, in words. -/
def offer (names : List String) : String :=
  match names with
  | [] => "there are no variants"
  | [name] => s!"expected `{name}`"
  | [first, second] => s!"expected `{first}` or `{second}`"
  | names => "expected one of " ++ ", ".intercalate (names.map fun name => s!"`{name}`")

/-- **The wording of a fault in the data**; none for the others. -/
def message? (dialect : Dialect) : Fault → Option String
  | .malformed => none
  | .unfit => none
  | .wrongKind found wanted =>
    some ("invalid type: " ++ found.describe dialect ++ ", expected " ++ wanted)
  | .wrongValue found wanted =>
    some ("invalid value: " ++ found.describe dialect ++ ", expected " ++ wanted)
  | .wrongLength length wanted =>
    some (s!"invalid length {length}, expected " ++ wanted)
  | .missingField name => some s!"missing field `{name}`"
  | .repeatedField name => some s!"duplicate field `{name}`"
  | .unknownChoice name offered => some (s!"unknown variant `{name}`, " ++ offer offered)

/-- A fault in words, whatever it is. -/
def describe (dialect : Dialect) (f : Fault) : String :=
  match f.message? dialect, f with
  | some m, _ => m
  | none, .malformed => "malformed document"
  | none, _ => "unfit document"

/-- Whether the syntax of the text is at fault, and not its data. -/
def isSyntax : Fault → Bool
  | .malformed => true
  | _ => false

end Fault

end Courier.Document
