/-!
# Paths

A path is a text, cut into segments at its slashes. Empty segments and single
dots lead nowhere. The name of the file that a path leads to is its last
segment that leads anywhere, unless that one goes back; the path of a file
beside it has another name in the place of this one.
-/

namespace Courier.Path

/-- A text up to its first slash, and the pieces between and behind the slashes. -/
def cut : List Char → List Char × List (List Char)
  | [] => ([], [])
  | c :: rest =>
    let (piece, pieces) := cut rest
    if c = '/' then ([], piece :: pieces) else (c :: piece, pieces)

/-- **Where a path begins.** -/
inductive Start
  /-- At the root. -/
  | root
  /-- At the working directory. -/
  | here
  /-- At the working directory, which is written as a dot. -/
  | dot
deriving DecidableEq, Repr

/-- **Where a path begins, and its segments from there on.** -/
def parts (path : String) : Start × List (List Char) :=
  match cut path.toList with
  | ([], []) => (.here, [])
  | ([], pieces) => (.root, pieces)
  | (['.'], pieces) => (.dot, pieces)
  | (piece, pieces) => (.here, piece :: pieces)

/-- A segment that leads nowhere. -/
def isIdle (segment : List Char) : Bool :=
  segment = [] || segment = ['.']

/-- The segment that goes back. -/
def isBack (segment : List Char) : Bool :=
  segment = ['.', '.']

/-- Segments without those at the end that lead nowhere. -/
def trimmed (segments : List (List Char)) : List (List Char) :=
  (segments.reverse.dropWhile isIdle).reverse

/-- Segments written as a path. -/
def render (start : Start) (segments : List (List Char)) : List Char :=
  let body := ['/'].intercalate segments
  match start, segments with
  | .root, _ => '/' :: body
  | .here, _ => body
  | .dot, [] => ['.']
  | .dot, _ => '.' :: '/' :: body

/-- A name put behind a path. -/
def push (path name : List Char) : List Char :=
  if path = [] || path.getLast? = some '/' then path ++ name else path ++ '/' :: name

/-- **The name of the file that a path leads to**, if it leads to one. -/
def fileName? (path : String) : Option (List Char) :=
  match (trimmed (parts path).2).getLast? with
  | some name => if isBack name then none else some name
  | none => none

/-- **The path of a file beside another**, whose name is put in the place of that
one's; behind a path that leads to no file. -/
def beside (path : String) (name : List Char) : String :=
  let (start, segments) := parts path
  match fileName? path with
  | some _ => String.ofList (push (render start (trimmed (trimmed segments).dropLast)) name)
  | none => String.ofList (push path.toList name)

/-- What follows the last dot of a name, when anything stands before it. -/
def lastPiece (name : List Char) : Option (List Char) :=
  let reversed := name.reverse
  let behind := reversed.takeWhile (· ≠ '.')
  match reversed.drop behind.length with
  | '.' :: _ :: _ => some behind.reverse
  | _ => none

/-- **The extension of a path**: what follows the last dot in the name of its
file, unless the name begins with this dot. -/
def extension? (path : String) : Option String :=
  (fileName? path).bind fun name => (lastPiece name).map String.ofList

end Courier.Path
