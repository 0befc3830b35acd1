import Courier.Retry.Strategy
/-!
# Scripted sinks and stores

A rehearsal is a run in which the sinks and the store only play their parts:
a script says beforehand how each request is answered. The request of a given
index gets the reply of that index, and every request past the end of the
script gets the last reply again.
-/

namespace Courier.Rehearsal

/-- The entry of a script for an index: past the end the last one. -/
def entryAt {α : Type} (script : List α) (index : Nat) : Option α :=
  match script[index]? with
  | some a => some a
  | none => script.getLast?

/-- **How a scripted sink answers a request.** -/
inductive Behaviour
  /-- Never. -/
  | stall
  /-- It breaks down. -/
  | crash
  /-- The exchange fails. -/
  | fail (f : Failure)
  /-- With the same statuses, whatever was asked. -/
  | verbatim (statuses : List ItemStatus)
  /-- With a status for each event: a code of its own or else the common one,
  with its identity when it is echoed, with a reason when there is one, and in
  the reverse order when that is asked for. -/
  | perEvent (own : List (String × Nat)) (common : Nat) (echoed : Bool) (reason : Option String)
      (reversed : Bool)
deriving Inhabited

/-- **What comes of a request.** -/
inductive Response
  /-- Nothing, ever. -/
  | silence
  /-- The task that waits for it breaks down. -/
  | crash
  /-- An answer. -/
  | answer (a : Except Failure (List ItemStatus))
deriving Inhabited

/-- What comes of a request under a behaviour. -/
def Behaviour.respond (b : Behaviour) (request : List Event) : Response :=
  match b with
  | .stall => .silence
  | .crash => .crash
  | .fail f => .answer (.error f)
  | .verbatim statuses => .answer (.ok statuses)
  | .perEvent own common echoed reason reversed =>
    let statuses := request.map fun e =>
      (⟨if echoed then some e.id else none, (own.lookup e.id.text).getD common, reason⟩ : ItemStatus)
    .answer (.ok (if reversed then statuses.reverse else statuses))

/-- **A reply**: how long it takes, and what it is. -/
structure Reply where
  /-- The milliseconds until it comes. -/
  delay : Nat := 0
  /-- What it is. -/
  behaviour : Behaviour := .perEvent [] 200 false none false
deriving Inhabited

/-- **The part of a sink**: its name, what its codes mean, its script, and the
strategy of the deliveries to it. -/
structure Role where
  /-- Its name. -/
  name : String
  /-- The codes that mean something else than they usually do. -/
  meanings : List (Nat × ItemClass)
  /-- Its replies. -/
  script : List Reply
  /-- When requests are made again. -/
  strategy : Retry.Strategy
deriving Inhabited

namespace Role

/-- What a status means. -/
def classify (r : Role) (s : ItemStatus) : ItemClass :=
  (r.meanings.lookup s.status).getD s.classify

/-- The reply to the request of an index. Without a script every event is
delivered at once. -/
def reply (r : Role) (index : Nat) : Reply :=
  (entryAt r.script index).getD {}

end Role

end Courier.Rehearsal
