import Courier.Blueprint.Check
import Courier.Files.Basic
import Courier.Json.Printer
import Courier.Json.Reader
import Courier.Text.Utf8
import Courier.Toml.Printer
import Courier.Toml.Reader
/-!
# Configuration files

A blueprint is read from a text in one of two formats, and is refused unless it
is legal. Both formats write it too, and read again what they have written. The
format of a file shows in the extension of its path, which is looked at before
the file.
-/

namespace Courier.Blueprint

open Courier.Document

/-- **A format of configuration files.** -/
inductive Format
  /-- TOML. -/
  | toml
  /-- JSON. -/
  | json
deriving DecidableEq, Repr, Inhabited

namespace Format

/-- **The format of a file extension**, whatever its case. -/
def ofExtension (extension : String) : Option Format :=
  match String.ofList (extension.toList.map Char.toLower) with
  | "toml" => some toml
  | "json" => some json
  | _ => none

/-- The name of a format in messages. -/
def name : Format → String
  | toml => "TOML"
  | json => "JSON"

/-- The dialect in which a format is read. -/
def dialect : Format → Dialect
  | toml => .toml
  | json => .json

end Format

/-- **The blueprint that a text writes**, legal or not. -/
def parse (format : Format) (text : String) : Except Failure Blueprint :=
  let read := match format with
    | .toml => Toml.decode codec text
    | .json => Json.decode codec text
  read.mapError fun fault =>
    .configParse (format.name ++ " parse error: " ++ fault.describe format.dialect)
      (some (format.dialect, fault))

/-- **The legal blueprint that a text writes.** -/
def load (format : Format) (text : String) : Except Failure Blueprint := do
  let b ← parse format text
  b.check

/-- The format of a file, by its path. -/
def formatOf (path : String) : Except Failure Format :=
  match Path.extension? path with
  | none => .error (.configParse "cannot determine file format from extension" none)
  | some extension =>
    match Format.ofExtension extension with
    | some format => .ok format
    | none => .error (.configParse s!"unsupported config format: .{extension}" none)

/-- The text of a file. -/
def readText (files : Files) (path : String) : Except Failure String :=
  match files.read path with
  | .error e => .error (.io e)
  | .ok bytes =>
    match Text.Utf8.decode bytes with
    | .ok cs => .ok (String.ofList cs)
    | .error _ => .error (.io .notUtf8)

/-- **The legal blueprint of a file.** -/
def loadFile (files : Files) (path : String) : Except Failure Blueprint := do
  let format ← formatOf path
  let text ← readText files path
  load format text

/-- **A blueprint, written.** -/
def write (format : Format) (b : Blueprint) : String :=
  match format with
  | .toml => Toml.write (codec.toValue b)
  | .json => Json.writePretty (codec.toValue b)

end Courier.Blueprint
