import Courier.Command.Reach
/-!
# The program

The outer layer: it fetches what a command looks at, has the command performed,
and carries out what has come of it. It does not reach any server, so every
request ends without a response.
-/

namespace Courier.Program

/-- What there is at a place. -/
def look (p : Place) : IO (Option Node) := do
  let path := (← IO.currentDir) / Files.absolute p
  try
    if ← path.isDir then return some .directory
    else if ← path.pathExists then
      let bytes ← IO.FS.readBinFile path
      return some (.file bytes.toList)
    else return none
  catch _ => return none

/-- The files, with what there is at a place. -/
def fetch (files : Files) (p : Place) : IO Files := do
  match ← look p with
  | some node => return files.put p node
  | none => return files

/-- The files, with what there is on the way that a path leads. -/
def fetchPath (files : Files) (path : String) : IO Files :=
  if path.toList.contains '\x00' then return files
  else (files.way path).foldlM fetch files

/-- The place of the working directory. -/
def workingPlace : IO Place := do
  return ((← IO.currentDir).components.filter (· ≠ "")).reverse

/-- The variables of given names. -/
def valuesOf (names : List String) : IO Environment :=
  names.eraseDups.filterMapM fun name => do
    return (← IO.getEnv name).map fun value => (name, value)

/-- The moment that it is, by the clock of the file system. -/
def moment : IO String := do
  let (_, path) ← IO.FS.createTempFile
  let stamp := (← path.metadata).modified
  IO.FS.removeFile path
  return Text.Timestamp.write stamp.sec.toNat stamp.nsec.toNat

/-- A change carried out. -/
def carryOut (change : Place × Option Node) : IO Unit := do
  let path := (← IO.currentDir) / Files.absolute change.1
  match change.2 with
  | some (.file bytes) => IO.FS.writeBinFile path ⟨bytes.toArray⟩
  | some .directory => IO.FS.createDirAll path
  | none => IO.FS.removeFile path

/-- What comes of arguments that are not understood. -/
def refuse (misuse : Misuse) : IO UInt32 := do
  let usage := "Usage: batchline [OPTIONS] <run|validate|info>"
  if misuse = .helpAsked then IO.println usage
  else IO.eprintln ("error: " ++ misuse.kind ++ "\n\n" ++ usage)
  return UInt32.ofNat misuse.exitCode

/-- Waiting for ever. -/
partial def wait : IO UInt32 := do
  IO.sleep 60000
  wait

/-- **The program run.** -/
def run (arguments : List String) : IO UInt32 := do
  let here ← workingPlace
  let mut files ← fetch ⟨here, []⟩ here
  for p in Environment.filePlaces here do
    files ← fetch files p
  let mentioned := ((Environment.nearest? files here).map Environment.mentioned).getD []
  let environment ← valuesOf (Command.switchVariables ++ mentioned)
  match Command.parse (environment.complete files) arguments with
  | .ok invocation =>
    files ← fetchPath files invocation.command.configPath
    for path in invocation.command.reach files do
      files ← fetchPath files path
  | .error _ => pure ()
  let begun ← IO.monoMsNow
  match Command.answer ⟨environment, files, ← moment, fun _ => .noResponse⟩ arguments with
  | .error misuse => refuse misuse
  | .ok reply =>
    (files.changes reply.files).forM carryOut
    let reply := reply.lasting ((← IO.monoMsNow) - begun)
    IO.print reply.output
    IO.eprint reply.complaint
    match reply.exitCode? with
    | some code => return UInt32.ofNat code
    | none => wait

end Courier.Program

/-- The program, given its arguments. -/
def main (arguments : List String) : IO UInt32 :=
  Courier.Program.run arguments
