import Courier.Blueprint.Listing
import Courier.Blueprint.Verdict
import Courier.Command.Arguments
import Courier.Pipeline.Run
/-!
# Commands performed

What a command does to the files and what it says. A validation and a listing
only read; a run delivers, stores positions, and says at its end what has been
done. A record that could not be delivered is trouble, even if the run went on
to its end. A run can also end the process, or stop it for good, and says
nothing then.
-/

namespace Courier

/-- **What a command is performed in.** -/
structure Surroundings where
  /-- The variables of the environment. -/
  environment : Environment
  /-- The files. -/
  files : Files
  /-- The moment that positions are stored at. -/
  moment : String
  /-- How a request ends that leaves the process. -/
  exchange : Sink.Request → Sink.Ending

/-- **How a command lets go of the process.** -/
inductive Release
  /-- It comes to its end. -/
  | atEnd
  /-- It ends the process. -/
  | exited
  /-- It never does. -/
  | never
deriving DecidableEq, Repr, Inhabited

/-- **What a command leaves behind.** -/
structure Reply where
  /-- The files. -/
  files : Files
  /-- The lines that it says. -/
  lines : List String := []
  /-- The statistics that it tells behind them. -/
  statistics : Option Statistics.Run := none
  /-- The trouble it ends in. -/
  trouble : Option Trouble := none
  /-- How it lets go of the process. -/
  release : Release := .atEnd
deriving Inhabited

namespace Reply

/-- **What is printed.** -/
def output (r : Reply) : String :=
  String.join (r.lines.map (· ++ "\n")) ++ (r.statistics.map (·.describe)).getD ""

/-- **What is complained of.** -/
def complaint (r : Reply) : String :=
  match r.trouble with
  | none => ""
  | some t => "Error: " ++ t.describe ++ "\n"

/-- **The exit code**, if the process comes to an end. -/
def exitCode? (r : Reply) : Option Nat :=
  match r.release, r.trouble with
  | .never, _ => none
  | .exited, _ => some 1
  | .atEnd, some _ => some 1
  | .atEnd, none => some 0

/-- A reply whose statistics are told to have taken a time. -/
def lasting (r : Reply) (milliseconds : Nat) : Reply :=
  { r with statistics := r.statistics.map fun s => { s with duration := milliseconds } }

end Reply

namespace Command

/-- A document as the lines of a reply. -/
def documentLines (v : Document.Value) : List String :=
  [Json.writePretty v]

/-- **The blueprint of a configuration file**, which has to be there. -/
def blueprintOf (files : Files) (path : String) : Except Trouble Blueprint :=
  if files.exists? path then
    (Blueprint.loadFile files path).mapError (.behind ("Failed to load config from " ++ path))
  else .error ⟨"Configuration file not found: " ++ path, []⟩

/-- **A validation.** -/
def validation (files : Files) (o : ValidateOptions) : Reply :=
  let verdict := Verdict.ofFile files o.config
  { files := files
    lines := if o.json then documentLines verdict.document else verdict.lines
    trouble := if verdict.valid then none else some ⟨"Configuration validation failed", []⟩ }

/-- **A listing.** -/
def listing (files : Files) (o : InfoOptions) : Reply :=
  match blueprintOf files o.config with
  | .error t => { files := files, trouble := some t }
  | .ok b =>
    { files := files
      lines := if o.json then documentLines (b.listing o.params) else b.listingLines o.params }

/-- A blueprint with another source. -/
def withSource (b : Blueprint) (source : Option String) : Blueprint :=
  match source with
  | none => b
  | some path => { b with source := { b.source with path := path } }

/-- Trouble about records that were not delivered, if there are any. -/
def undelivered (s : Statistics.Run) : Option Trouble :=
  if s.consumer.failed = 0 then none
  else some ⟨s!"{s.consumer.failed} record(s) failed delivery and were not acknowledged", []⟩

/-- **What a command leaves behind that ran a blueprint.** -/
def afterRun (a : Run.Aftermath) : Reply :=
  match a.conclusion with
  | .over s => { files := a.files, statistics := some s, trouble := undelivered s }
  | .trouble t => { files := a.files, trouble := some (t.within "Pipeline execution failed") }
  | .exited => { files := a.files, release := .exited }
  | .blocked => { files := a.files, release := .never }

/-- **A run.** -/
def delivery (s : Surroundings) (o : RunOptions) : Reply :=
  match blueprintOf s.files o.config with
  | .error t => { files := s.files, trouble := some t }
  | .ok b =>
    afterRun (Run.execute (withSource b o.source)
      { dry := o.dryRun, buffer := o.bufferSize, moment := s.moment } s.exchange s.files)

/-- **A command performed.** -/
def perform (s : Surroundings) : Command → Reply
  | .run o => delivery s o
  | .validate o => validation s.files o
  | .info o => listing s.files o

/-- The name and the version of the program. -/
def versionLine : String := "batchline 0.1.0"

/-- **The program**, given its arguments: it completes its environment and performs
what it is asked to do. -/
def answer (s : Surroundings) (arguments : List String) : Except Misuse Reply := do
  match parse (s.environment.complete s.files) arguments with
  | .ok invocation => .ok (perform s invocation.command)
  | .error .versionAsked => .ok { files := s.files, lines := [versionLine] }
  | .error misuse => .error misuse

end Command

end Courier
