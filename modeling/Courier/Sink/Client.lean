import Courier.Sink.Bulk
import Courier.Sink.Stream
/-!
# Clients

A client is a sink of any type, made from its configuration. It can be asked
for the request that a batch makes, if it makes one, and for the answer that
comes of the end of the exchange. The log makes no request and takes
everything.

Clients are handed out by a registry, under their names. It is called by many, and
serves their calls one after another.
-/

namespace Courier.Sink

/-- **Why there is no client.** -/
inductive ClientError
  /-- It could not be made. -/
  | creation (name message : String)
  /-- There is none of that name. -/
  | unknown (name : String)
  /-- A failure of another kind. -/
  | failure (f : Failure)
deriving Inhabited

namespace ClientError

/-- An error in words. -/
def message : ClientError → String
  | creation name m => s!"failed to create sink '{name}': {m}"
  | unknown name => s!"unknown sink '{name}'"
  | failure f => f.message

/-- **The failure that an error is.** -/
def toFailure : ClientError → Failure
  | creation name m => .configInvalid s!"sinks.{name}" m
  | unknown name => .configInvalid "sinks" s!"unknown sink '{name}'"
  | failure f => f

end ClientError

/-- **A client.** -/
inductive Client
  /-- Of a search engine. -/
  | search (s : SearchBulk)
  /-- Of a record stream. -/
  | stream (s : RecordStream)
  /-- Of the log, with its name. -/
  | log (name : String)
deriving DecidableEq, Repr, Inhabited

namespace Client

/-- **The client of a configuration.** -/
def ofSettings (s : SinkSettings) : Except ClientError Client :=
  let failed (f : Failure) : ClientError := .creation s.name f.message
  match s.type with
  | .log => .ok (.log s.name)
  | .searchBulk => (SearchBulk.ofSettings s).mapError failed |>.map .search
  | .recordStream => (RecordStream.ofSettings s).mapError failed |>.map .stream

/-- The name of the sink. -/
def name : Client → String
  | search s => s.name
  | stream s => s.name
  | log name => name

/-- The type of the sink. -/
def type : Client → SinkType
  | search _ => .searchBulk
  | stream _ => .recordStream
  | log _ => .log

/-- The request that a batch makes. -/
def request? (c : Client) (batch : List Event) : Option Request :=
  match c with
  | search s => s.request? batch
  | stream s => some (s.request batch)
  | log _ => none

/-- **A batch sent**: `exchange` is what comes of a request. -/
def send (c : Client) (exchange : Request → Ending) (batch : List Event) :
    Except Failure (List ItemStatus) :=
  match c with
  | search s => s.send exchange batch
  | stream s => s.send exchange batch
  | log _ => .ok (batch.map fun e => ⟨some e.id, 200, none⟩)

end Client

/-! ## Clients by name -/

/-- **A client that was handed out.** Clients made at different times are
different, even when they are alike. -/
structure Handle where
  /-- Which one it is, in the order in which they were made. -/
  serial : Nat
  /-- The client. -/
  client : Client
deriving DecidableEq, Repr, Inhabited

/-- **A registry of clients**, one for each name. -/
structure Registry where
  /-- The clients, by their names. -/
  clients : List (String × Handle) := []
  /-- How many have been made. -/
  made : Nat := 0
deriving DecidableEq, Repr, Inhabited

namespace Registry

/-- How many clients there are. -/
def size (r : Registry) : Nat :=
  r.clients.length

/-- The client of a name. -/
def get (r : Registry) (name : String) : Except ClientError Handle :=
  match r.clients.lookup name with
  | some h => .ok h
  | none => .error (.unknown name)

/-- **The client of a name, made from its configuration when there is none.** A
client that cannot be made leaves the registry as it is. -/
def getOrCreate (r : Registry) (s : SinkSettings) : Registry × Except ClientError Handle :=
  match r.clients.lookup s.name with
  | some h => (r, .ok h)
  | none =>
    match Client.ofSettings s with
    | .error e => (r, .error e)
    | .ok client =>
      let h : Handle := ⟨r.made, client⟩
      (⟨(s.name, h) :: r.clients, r.made + 1⟩, .ok h)

/-- The registry without its clients. Those handed out stay as they are. -/
def clear (r : Registry) : Registry :=
  { r with clients := [] }

/-- **The clients of several configurations**, in their order, up to the first
that cannot be made. -/
def getAll (r : Registry) : List SinkSettings → Registry × Except Failure (List Handle)
  | [] => (r, .ok [])
  | s :: rest =>
    match r.getOrCreate s with
    | (r, .error e) => (r, .error e.toFailure)
    | (r, .ok h) =>
      match r.getAll rest with
      | (r, .error f) => (r, .error f)
      | (r, .ok hs) => (r, .ok (h :: hs))

/-! ## Many callers -/

/-- **A call to a registry.** -/
inductive Call
  /-- For the client of a configuration. -/
  | getOrCreate (s : SinkSettings)
  /-- For the client of a name. -/
  | get (name : String)
  /-- For the number of clients. -/
  | size
  /-- To forget all clients. -/
  | clear

/-- **What a caller is told.** -/
inductive Reply
  /-- A client, or why there is none. -/
  | client (result : Except ClientError Handle)
  /-- A number of clients. -/
  | count (n : Nat)
  /-- That it is done. -/
  | done

/-- **A call answered.** -/
def answer (r : Registry) : Call → Registry × Reply
  | .getOrCreate s => ((r.getOrCreate s).1, .client (r.getOrCreate s).2)
  | .get name => (r, .client (r.get name))
  | .size => (r, .count r.size)
  | .clear => (r.clear, .done)

/-- **Calls served in the order of a schedule**: the registry after them, and what each
caller is told. -/
def serve {κ : Type} (r : Registry) : List (κ × Call) → Registry × List (κ × Reply)
  | [] => (r, [])
  | (who, call) :: rest =>
    let served := serve (r.answer call).1 rest
    (served.1, (who, (r.answer call).2) :: served.2)

end Registry

end Courier.Sink
