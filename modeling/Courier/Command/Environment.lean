import Courier.Files.Basic
import Courier.Text.Blank
import Courier.Text.Utf8
/-!
# The environment

The variables that a program starts with, and a file that adds to them. Each
line of the file gives a variable and its value. A value may stand between
quotes, in which case it may run over several lines, and may hold the values of
variables that are set by then. The file never changes a variable that is set,
and what stands behind its first mistake is not read.
-/

namespace Courier

/-- **The variables of the environment.** -/
abbrev Environment := List (String × String)

namespace Environment

/-- The value of a variable. -/
def value? (e : Environment) (name : String) : Option String :=
  List.lookup name e

/-- A variable set, unless it is. -/
def provide (e : Environment) (name value : String) : Environment :=
  if (e.value? name).isSome then e else e ++ [(name, value)]

/-! ## Lines that belong together -/

/-- **The quotes that a character stands between.** -/
inductive Quotes
  /-- None. -/
  | none
  /-- Single ones, between which nothing has a meaning of its own. -/
  | single
  /-- Double ones. -/
  | double
deriving DecidableEq, Repr

/-- **What a line may end in.** -/
inductive Ending
  /-- Between quotes, or not. -/
  | within (q : Quotes)
  /-- Behind a backslash. -/
  | escape (q : Quotes)
  /-- Behind a blank, outside of quotes. -/
  | blank
  /-- In a comment. -/
  | comment
deriving DecidableEq, Repr

namespace Ending

/-- A character outside of quotes. -/
def opening (c : Char) : Ending :=
  match c with
  | '\\' => escape .none
  | '"' => within .double
  | '\x27' => within .single
  | _ => within .none

/-- **One character more.** -/
def next (e : Ending) (c : Char) : Ending :=
  match e with
  | comment => comment
  | blank => if c = '#' then comment else opening c
  | escape q => within q
  | within .none =>
    if Text.isBlank c && c ≠ '\n' && c ≠ '\r' then blank else opening c
  | within .single =>
    match c with
    | '\\' => escape .single
    | '\x27' => within .none
    | _ => within .single
  | within .double =>
    match c with
    | '\\' => escape .double
    | '"' => within .none
    | _ => within .double

end Ending

/-- What a line ends in, and the characters before the comment in it. -/
def endingOf : Ending → List Char → Ending × List Char
  | e, [] => (e, [])
  | e, c :: rest =>
    match e.next c with
    | .comment => (.comment, [])
    | e =>
      let (ending, kept) := endingOf e rest
      (ending, c :: kept)

/-- A line without its end. -/
def chomp (line : List Char) : List Char :=
  match line.reverse with
  | '\n' :: '\r' :: rest => rest.reverse
  | '\n' :: rest => rest.reverse
  | _ => line

/-- The lines of a file, with their ends. -/
def rawLines : List UInt8 → List (List UInt8)
  | [] => []
  | b :: rest =>
    if b = 10 then [b] :: rawLines rest
    else
      match rawLines rest with
      | [] => [[b]]
      | line :: lines => (b :: line) :: lines

/-- **Lines joined** as long as they end between quotes, behind a backslash or
behind a blank. There is nothing where a line is no text, or the file ends
before they do; nothing of what follows counts. -/
def joined (held : List Char) (ending : Ending) : List (List UInt8) → List (Option (List Char))
  | [] => if ending = .within .none then [] else [none]
  | bytes :: rest =>
    match Text.Utf8.decode bytes with
    | .error _ => [none]
    | .ok line =>
      if ((held ++ line).dropWhile Text.isBlank).head? = some '#' then
        some [] :: joined [] (.within .none) rest
      else
        match endingOf ending line with
        | (.within .none, _) =>
          some (chomp (held ++ line)) :: joined [] (.within .none) rest
        | (.comment, kept) => some (held ++ kept) :: joined [] (.within .none) rest
        | (ending, _) => joined (held ++ line) ending rest

/-! ## Values -/

/-- **What has been read of a value.** -/
structure Reading where
  /-- The quotes that are open. -/
  quotes : Quotes := .none
  /-- Whether a backslash has come. -/
  escaped : Bool := false
  /-- The name of a variable that is being read, and whether in braces. -/
  name : Option (Bool × List Char) := none
  /-- What there is of the value. -/
  text : List Char := []

/-- The value of a variable, as far as it has one. -/
def Reading.substitute (e : Environment) (r : Reading) (name : List Char) : Reading :=
  { r with
    name := none
    text := r.text ++ ((e.value? (String.ofList name)).getD "").toList }

/-- A character that is part of the value. -/
def Reading.push (r : Reading) (c : Char) : Reading :=
  { r with text := r.text ++ [c] }

/-- What a character stands for behind a backslash. -/
def escapedChar? (c : Char) : Option Char :=
  if c = 'n' then some '\n'
  else if ['\\', '\x27', '"', '$', ' '].contains c then some c
  else none

/-- A character behind the beginning of a name. Without braces a name holds letters
and digits of ASCII only. -/
def Reading.nameStep (e : Environment) (r : Reading) (braced : Bool) (name : List Char) (c : Char) :
    Reading :=
  if c.isAlphanum then { r with name := some (braced, name ++ [c]) }
  else if braced then
    if c = '\x7d' then r.substitute e name else { r with name := some (true, name ++ [c]) }
  else if c = '\x7b' && name.isEmpty then { r with name := some (true, []) }
  else
    let r := r.substitute e name
    if c = '$' then { r with name := some (false, []) } else r.push c

/-- A character of a value that is not between single quotes. -/
def Reading.plainStep (r : Reading) (c : Char) : Reading :=
  match c, r.quotes with
  | '$', _ => { r with name := some (false, []) }
  | '\\', _ => { r with escaped := true }
  | '"', .double => { r with quotes := .none }
  | '"', _ => { r with quotes := .double }
  | '\x27', .none => { r with quotes := .single }
  | c, _ => r.push c

/-- The value at its end. -/
def Reading.finish (e : Environment) (r : Reading) : Option String :=
  match r.quotes, r.name with
  | .none, none => some (String.ofList r.text)
  | .none, some (false, name) => some (String.ofList (r.substitute e name).text)
  | _, _ => none

/-- Whether nothing but blanks is behind a value, or a comment. -/
def isTail : List Char → Bool
  | [] => true
  | c :: rest => c = '#' || ((c = ' ' || c = '\t') && isTail rest)

/-- **The value that a text writes**, if it writes one. -/
def Reading.read (e : Environment) (r : Reading) : List Char → Option String
  | [] => r.finish e
  | c :: rest =>
    if r.escaped then do
      let c ← escapedChar? c
      ({ r with escaped := false }.push c).read e rest
    else if r.quotes = .single then
      (if c = '\x27' then { r with quotes := .none } else r.push c).read e rest
    else
      match r.name with
      | some (braced, name) => (r.nameStep e braced name c).read e rest
      | none =>
        if r.quotes = .none && (c = ' ' || c = '\t') then
          if isTail rest then r.finish e else none
        else (r.plainStep c).read e rest

/-! ## Variables -/

/-- **What a line says.** -/
inductive Line
  /-- Nothing. -/
  | nothing
  /-- The value of a variable. -/
  | sets (name value : String)
  /-- It is a mistake. -/
  | mistake
deriving DecidableEq, Repr

/-- The name at the beginning of a text, and what follows. -/
def name? (s : List Char) : Option (List Char × List Char) :=
  match s with
  | c :: _ =>
    if c.isAlpha || c = '_' then
      some (s.span fun c => c.isAlphanum || c = '_' || c = '.')
    else none
  | [] => none

/-- What follows an equals sign and blanks. -/
def afterEquals? (s : List Char) : Option (List Char) :=
  match s with
  | '=' :: rest => some (rest.dropWhile Text.isBlank)
  | _ => none

/-- A name and the text of its value. A word before the name says that it is to be
exported, which makes no difference. -/
def assignment? (s : List Char) : Option (List Char × List Char) := do
  let (name, rest) ← name? s
  let rest := rest.dropWhile Text.isBlank
  match afterEquals? rest with
  | some value => some (name, value)
  | none =>
    if name = "export".toList then
      let (name, rest) ← name? rest
      let value ← afterEquals? (rest.dropWhile Text.isBlank)
      some (name, value)
    else none

/-- **What a line says**, given the variables that are set. -/
def lineOf (e : Environment) (line : List Char) : Line :=
  let line := (Text.trimEnd line).dropWhile Text.isBlank
  if line.isEmpty || line.head? = some '#' then .nothing
  else
    match assignment? line with
    | none => .mistake
    | some (name, value) =>
      let name := String.ofList name
      if value.isEmpty || value.head? = some '#' then .sets name ""
      else
        match ({} : Reading).read e value with
        | some value => .sets name value
        | none => .mistake

/-- The variables of lines added, up to the first mistake. -/
def addLines (e : Environment) : List (Option (List Char)) → Environment
  | [] => e
  | none :: _ => e
  | some line :: rest =>
    match e.lineOf line with
    | .nothing => e.addLines rest
    | .sets name value => (e.provide name value).addLines rest
    | .mistake => e

/-- A file without the mark that it may begin with. -/
def dropMark : List UInt8 → List UInt8
  | 0xEF :: 0xBB :: 0xBF :: rest => rest
  | bytes => bytes

/-- **The variables of a file added.** -/
def addFile (e : Environment) (bytes : List UInt8) : Environment :=
  e.addLines (joined [] (.within .none) (rawLines (dropMark bytes)))

/-- The name of the file with variables. -/
def fileName : String := ".env"

/-- The contents of the nearest file of that name, upwards from a directory. -/
def nearest? (files : Files) : Place → Option (List UInt8)
  | [] => fileAt? files []
  | name :: above => (fileAt? files (name :: above)).or (nearest? files above)
where
  /-- The contents of the file in a directory. -/
  fileAt? (files : Files) (p : Place) : Option (List UInt8) :=
    match files.node? (fileName :: p) with
    | some (.file bytes) => some bytes
    | _ => none

/-- **The environment with what the nearest file adds to it.** -/
def complete (e : Environment) (files : Files) : Environment :=
  match nearest? files files.here with
  | some bytes => e.addFile bytes
  | none => e

end Environment

end Courier
