import Courier.Failure.System
import Courier.Files.Path
/-!
# Files

The files that a run reads and writes, as a table from places to what is
there. A place is a list of names from the innermost to the outermost, and the
empty one is the root. A path is followed from directory to directory; what
stands in the way decides how following it fails.
-/

namespace Courier

/-- A place among files: names, the innermost first. -/
abbrev Place := List String

/-- **What is at a place.** -/
inductive Node
  /-- A directory. -/
  | directory
  /-- A file and its contents. -/
  | file (bytes : List UInt8)
deriving DecidableEq, Repr, Inhabited

/-- **A tree of files.** -/
structure Files where
  /-- The working directory. -/
  here : Place
  /-- What there is, but for the root. -/
  nodes : List (Place × Node)
deriving DecidableEq, Repr, Inhabited

namespace Files

/-- An empty working directory. -/
def empty : Files :=
  ⟨["work"], [(["work"], .directory)]⟩

/-- What is at a place. -/
def node? (f : Files) (p : Place) : Option Node :=
  if p = [] then some .directory else f.nodes.lookup p

/-- Something put at a place, instead of what has been there. -/
def put (f : Files) (p : Place) (n : Node) : Files :=
  { f with nodes := (p, n) :: f.nodes.filter (·.1 ≠ p) }

/-- A place emptied. -/
def erase (f : Files) (p : Place) : Files :=
  { f with nodes := f.nodes.filter (·.1 ≠ p) }

/-- The greatest number of bytes of a name. -/
def longestName : Nat := 255

/-- **One segment followed** from a place, which has to be a directory. -/
def follow (f : Files) (p : Place) (segment : List Char) : Except SystemError Place :=
  match f.node? p with
  | none => .error .notFound
  | some (.file _) => .error .notADirectory
  | some .directory =>
    if Path.isIdle segment then .ok p
    else if Path.isBack segment then .ok p.tail
    else
      let name := String.ofList segment
      if longestName < name.utf8ByteSize then .error .nameTooLong else .ok (name :: p)

/-- The place at which a path begins. -/
def start (f : Files) : Path.Start → Place
  | .root => []
  | .here => f.here
  | .dot => f.here

/-- **The place that a path leads to.** There need not be anything. -/
def place (f : Files) (path : String) : Except SystemError Place :=
  if path.toList.contains '\x00' then .error .nulInName
  else if path = "" then .error .notFound
  else
    let (start, segments) := Path.parts path
    segments.foldlM f.follow (f.start start)

/-- Whether a path leads to anything. -/
def exists? (f : Files) (path : String) : Bool :=
  match f.place path with
  | .ok p => (f.node? p).isSome
  | .error _ => false

/-- **What a path leads to.** -/
def open? (f : Files) (path : String) : Except SystemError Node := do
  let p ← f.place path
  match f.node? p with
  | some n => .ok n
  | none => .error .notFound

/-- The contents of what is at a place; a directory has none. -/
def contents : Node → Except SystemError (List UInt8)
  | .file bytes => .ok bytes
  | .directory => .error .isADirectory

/-- **The contents of a file.** -/
def read (f : Files) (path : String) : Except SystemError (List UInt8) := do
  let n ← f.open? path
  contents n

/-- **A file written**, whether it has been there or not. -/
def write (f : Files) (path : String) (bytes : List UInt8) : Except SystemError Files := do
  let p ← f.place path
  match f.node? p with
  | some .directory => .error .isADirectory
  | _ => .ok (f.put p (.file bytes))

/-- **A file taken away.** -/
def remove (f : Files) (path : String) : Except SystemError Files := do
  let p ← f.place path
  match f.node? p with
  | none => .error .notFound
  | some .directory => .error .isADirectory
  | some (.file _) => .ok (f.erase p)

/-- Whether slashes follow the last segment of a path. -/
def endsInSlash (path : String) : Bool :=
  path.toList.getLast? = some '/'

/-- **The place that a file can be moved to.** A path that ends by leading nowhere
or back names a directory that is in use. -/
def target (f : Files) (path : String) : Except SystemError Place := do
  let p ← f.place (String.ofList (path.toList.reverse.dropWhile (· = '/')).reverse)
  match (Path.parts path).2.reverse.dropWhile (· = []) with
  | [] => .error .inUse
  | last :: _ =>
    if Path.isIdle last || Path.isBack last then .error .inUse
    else .ok p

/-- **A file moved to another place**, over the file that has been there. -/
def rename (f : Files) (source path : String) : Except SystemError Files := do
  let s ← f.place source
  let t ← f.target path
  match f.node? s, f.node? t with
  | none, _ => .error .notFound
  | some .directory, _ => .error .isADirectory
  | some (.file bytes), there =>
    if endsInSlash path then .error .notADirectory
    else
      match there with
      | some .directory => .error .isADirectory
      | _ => .ok ((f.erase s).put t (.file bytes))

/-- One directory made on the way, unless it is there. -/
def makeStep (state : Files × Place) (segment : List Char) : Except SystemError (Files × Place) := do
  let (f, p) := state
  let p ← f.follow p segment
  match f.node? p with
  | none => .ok (f.put p .directory, p)
  | some .directory => .ok (f, p)
  | some (.file _) => .error .alreadyThere

/-- **Directories made**, all that a path leads through. -/
def makeDirectories (f : Files) (path : String) : Except SystemError Files := do
  let (start, segments) := Path.parts path
  let (f, _) ← segments.foldlM makeStep (f, f.start start)
  .ok f

/-- **A file written, with the directories on the way to it.** -/
def provide (f : Files) (path : String) (bytes : List UInt8) : Except SystemError Files := do
  let (start, segments) := Path.parts path
  let f ← f.makeDirectories (String.ofList (Path.render start (Path.trimmed segments).dropLast))
  f.write path bytes

end Files

end Courier
