import Courier.Blueprint.File
import Courier.Checkpoint.File
import Courier.Failure.Trouble
import Courier.Pipeline.Drive
import Courier.Sink.Client
import Courier.Statistics.Run
/-!
# Runs of a blueprint

A run makes the clients of the sinks, looks up the last position, opens the
source and runs the pipeline to its end. Whatever cannot be done before the
first event ends it in trouble. What is beyond the files is given as a
function from requests to how their exchanges end.
-/

namespace Courier

open Courier.Checkpoint (Entry FileStore Keeper)
open Courier.Sink (Client)

namespace Run

/-- **How a blueprint is to be run.** -/
structure Settings where
  /-- Whether positions are not to be stored, whatever the blueprint says. -/
  dry : Bool := false
  /-- How many records wait between the source and the sinks, at least one. -/
  buffer : Nat := 16
  /-- Whether the run is shut down before it begins. -/
  shutDown : Bool := false
  /-- The moment that positions are stored at. -/
  moment : String := "1970-01-01T00:00:00Z"
deriving Inhabited

/-- **What is known of a run at its end.** -/
inductive Conclusion
  /-- It is over. -/
  | over (statistics : Statistics.Run)
  /-- It has not begun, or its source could not be read. -/
  | trouble (t : Trouble)
  /-- A failure has ended the process. -/
  | exited
  /-- A failure has stopped everything. -/
  | blocked
deriving Inhabited

/-- **The line that a stored position stands for.** -/
def lineOf (position : String) : Except Failure Nat :=
  match Text.readNumeral Text.word64 position.toList with
  | .ok line => .ok line
  | .error _ =>
    .error (.storeCorrupt s!"checkpoint position '{position}' is not a line number")

/-- **The line that a run resumes after**: the last one stored, or none. -/
def resumeLine (store : FileStore) (files : Files) : Except Failure Nat := do
  match ← store.load files with
  | none => .ok 0
  | some position => lineOf position

/-- **Everything that a run needs before it begins.** -/
structure Plan where
  /-- The clients of the sinks. -/
  clients : List Client
  /-- The store of positions. -/
  store : FileStore
  /-- The line that it resumes after. -/
  resumedAfter : Nat
  /-- The pipeline. -/
  pipeline : Pipeline

/-- The keeper of a blueprint. -/
def keeperOf (b : Blueprint) (s : Settings) : Keeper :=
  .new b.checkpoint.delay b.checkpoint.maxAttempts (b.checkpoint.dry || s.dry)

/-- A failure, or what it stands behind. -/
def orTrouble {α : Type} (message : String) (e : Except Failure α) : Except Trouble α :=
  e.mapError (.behind message)

/-- **The plan of a run.** -/
def plan (b : Blueprint) (s : Settings) (files : Files) : Except Trouble Plan := do
  let (_, handles) := ({} : Sink.Registry).getAll b.sinks
  let handles ← orTrouble "Failed to create sink clients" handles
  let clients := handles.map (·.client)
  let store : FileStore := ⟨b.checkpointPath⟩
  let resumedAfter ← orTrouble ("Failed to read checkpoint " ++ b.checkpointPath)
    (resumeLine store files)
  let reader ← orTrouble ("Failed to read source " ++ b.source.path)
    ((Source.ofSettings b.source resumedAfter).reader files b.source.path s.shutDown)
  return {
    clients := clients
    store := store
    resumedAfter := resumedAfter
    pipeline := {
      sinks := clients.map (·.name)
      strategy := b.delivery.strategy
      keeper := keeperOf b s
      capacity := max 1 s.buffer
      reader := reader
      shutDown := s.shutDown } }

/-- **What is outside the pipeline of a plan**: clients that talk to the sinks, and
the file of the last position. -/
def worldOf (plan : Plan) (moment : String) (exchange : Sink.Request → Sink.Ending) :
    Pipeline.World Files where
  send files index events :=
    match plan.clients[index]? with
    | some client => (files, client.send exchange events)
    | none => (files, .ok [])
  store files position := plan.store.commit files ⟨position, moment⟩

/-- The statistics of a run that is over. -/
def statisticsOf (plan : Plan) (p : Pipeline) : Statistics.Run where
  eventsRead := p.reader.sent
  consumer := p.consumer.summary
  deliveries := p.statistics
  resumedAfter := plan.resumedAfter
  duration := 0

/-- **What a run leaves behind**: the files, what has been counted up, and how it
ended. -/
structure Aftermath where
  /-- The files. -/
  files : Files
  /-- What has been counted up. -/
  series : List (Series × Nat)
  /-- How it ended. -/
  conclusion : Conclusion

/-- **A blueprint run.** -/
def execute (b : Blueprint) (s : Settings) (exchange : Sink.Request → Sink.Ending)
    (files : Files) : Aftermath :=
  match plan b s files with
  | .error t => ⟨files, [], .trouble t⟩
  | .ok plan =>
    let (files, p, ending) :=
      plan.pipeline.complete (worldOf plan s.moment exchange) b.exception files
    ⟨files, p.series,
      match ending with
      | .finished => .over (statisticsOf plan p)
      | .exited => .exited
      | .blocked => .blocked⟩

end Run

end Courier
