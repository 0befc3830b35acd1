import Courier.Command.Perform
/-!
# The reach of a command

A command looks at few files: its configuration, and what that leads to. So it
can be performed on a table of these files alone, and what it changes there is
all that has to be changed outside.
-/

namespace Courier

namespace Files

/-- The path of a place from the root on. -/
def absolute (p : Place) : String :=
  "/" ++ "/".intercalate p.reverse

/-- The place that a segment leads to, if everything on the way is a directory. -/
def lead (p : Place) (segment : List Char) : Place :=
  if Path.isIdle segment then p
  else if Path.isBack segment then p.tail
  else String.ofList segment :: p

/-- The places that segments lead through, and to, from a place on. -/
def through (p : Place) : List (List Char) → List Place
  | [] => [p]
  | segment :: rest => p :: through (lead p segment) rest

/-- **The places on the way that a path leads**, and the one at its end. -/
def way (f : Files) (path : String) : List Place :=
  let (start, segments) := Path.parts path
  through (f.start start) segments

/-- **What differs from an earlier table**: the places with what is there now. -/
def changes (before after : Files) : List (Place × Option Node) :=
  let places := (after.nodes ++ before.nodes).map (·.1) |>.eraseDups
  (places.map fun p => (p, after.node? p)).filter fun (p, node) => before.node? p ≠ node

end Files

namespace Environment

/-- The places of the files with variables that count, the nearest first. -/
def filePlaces : Place → List Place
  | [] => [[fileName]]
  | name :: above => (fileName :: name :: above) :: filePlaces above

/-- Whether a character may be part of a name of a variable. -/
def isNamePart (c : Char) : Bool :=
  c.isAlphanum || c = '_' || c = '.'

/-- The words of a text that may be names of variables. -/
def words (s : List Char) : List String :=
  match s.foldr step ([], []) with
  | ([], all) => all
  | (word, all) => String.ofList word :: all
where
  /-- A character before the words. -/
  step (c : Char) (state : List Char × List String) : List Char × List String :=
    match isNamePart c, state with
    | true, (word, all) => (c :: word, all)
    | false, ([], all) => ([], all)
    | false, (word, all) => ([], String.ofList word :: all)

/-- **The variables that a file may mention.** -/
def mentioned (bytes : List UInt8) : List String :=
  words (Text.Utf8.decodeLossy bytes)

end Environment

namespace Command

/-- The variables that can stand for switches. -/
def switchVariables : List String :=
  (Level.root.switches ++ (Level.behind "run").switches).filterMap (·.fromVariable)

/-- The paths that a run of a blueprint looks at. -/
def runPaths (b : Blueprint) : List String :=
  let store : Checkpoint.FileStore := ⟨b.checkpointPath⟩
  [b.source.path, store.path, store.draft]

/-- The configuration that a command is about. -/
def configPath : Command → String
  | .run o => o.config
  | .validate o => o.config
  | .info o => o.config

/-- **The paths that a command looks at** behind its configuration, once that is
known. -/
def reach (files : Files) : Command → List String
  | .run o =>
    match blueprintOf files o.config with
    | .ok b => runPaths (withSource b o.source)
    | .error _ => []
  | _ => []

end Command

end Courier
